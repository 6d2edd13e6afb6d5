import StaticSite.Text.Split
/-!
# StaticSite.Proofs.Text.Split

Facts about cutting texts apart. Nothing is lost: what is cut off stands in front of the rest
(`dropStart?_eq_some_iff`, `cutAt?_eq_some`). A text is cut at the first occurrence of the word
(`cutAt?_first`), if there is one (`cutAt?_eq_none_iff`). Pieces and their glue give each other back
as long as no piece holds a separator (`splitAtEach_join`).
-/

set_option autoImplicit false

namespace StaticSite.Text

theorem dropStart?_eq_some_iff {start s rest : List Char} :
    dropStart? start s = some rest ↔ s = start ++ rest := by
  induction start generalizing s with
  | nil => simp [dropStart?]
  | cons c start ih =>
    cases s with
    | nil => simp [dropStart?]
    | cons d s =>
      unfold dropStart?
      by_cases h : c = d
      · rw [if_pos h, ih, h, List.cons_append, List.cons.injEq]
        exact (and_iff_right rfl).symm
      · rw [if_neg h, List.cons_append, List.cons.injEq]
        exact ⟨fun hnone => absurd hnone (by simp), fun heq => absurd heq.1.symm h⟩

/-- The word stands between the text before and the text after it. -/
theorem cutAt?_eq_some {word s before after : List Char}
    (h : cutAt? word s = some (before, after)) : s = before ++ word ++ after := by
  induction s generalizing before with
  | nil =>
    simp only [cutAt?, Option.map_eq_some_iff, Prod.mk.injEq] at h
    obtain ⟨rest, hrest, rfl, rfl⟩ := h
    exact dropStart?_eq_some_iff.mp hrest
  | cons c rest ih =>
    unfold cutAt? at h
    split at h
    · rename_i found hfound
      cases h
      exact dropStart?_eq_some_iff.mp hfound
    · simp only [Option.map_eq_some_iff, Prod.mk.injEq] at h
      obtain ⟨⟨piece, tail⟩, hcut, rfl, rfl⟩ := h
      rw [ih hcut]
      rfl

theorem dropStart?_eq_none_iff {start s : List Char} :
    dropStart? start s = none ↔ ¬ start <+: s := by
  rw [Option.eq_none_iff_forall_ne_some, ← not_exists]
  refine not_congr (exists_congr fun rest => ?_)
  rw [dropStart?_eq_some_iff]
  exact eq_comm

/-- A text is cut unless the word does not occur in it. -/
theorem cutAt?_eq_none_iff {word s : List Char} : cutAt? word s = none ↔ ¬ word <:+: s := by
  induction s with
  | nil =>
    rw [cutAt?, Option.map_eq_none_iff, dropStart?_eq_none_iff, List.prefix_nil, List.infix_nil]
  | cons c rest ih =>
    rw [List.infix_cons_iff, not_or, ← ih, ← dropStart?_eq_none_iff, cutAt?]
    cases dropStart? word (c :: rest) with
    | some after => simp
    | none => simp

/-- A text is cut at a word that does not start in front of it, not even to go on into it. -/
theorem cutAt?_first {word before after : List Char}
    (h : ∀ rest, rest <:+ before → rest ≠ [] → ¬ word <+: rest ++ (word ++ after)) :
    cutAt? word (before ++ (word ++ after)) = some (before, after) := by
  induction before with
  | nil =>
    have hdrop : dropStart? word (word ++ after) = some after := dropStart?_eq_some_iff.mpr rfl
    rw [List.nil_append]
    cases hs : word ++ after with
    | nil =>
      rw [cutAt?, ← hs, hdrop]
      rfl
    | cons c rest =>
      rw [cutAt?, ← hs, hdrop]
  | cons c before ih =>
    have hnot := h (c :: before) List.suffix_rfl (List.cons_ne_nil c before)
    rw [List.cons_append] at hnot
    rw [List.cons_append, cutAt?, dropStart?_eq_none_iff.mpr hnot,
      ih fun rest hrest => h rest (hrest.trans (List.suffix_cons c before))]
    rfl

/-- A word that starts in front of a character that it does not hold ends there as well. -/
theorem prefix_of_prefix_append_cons {word s rest : List Char} {c : Char} (hc : c ∉ word)
    (h : word <+: s ++ c :: rest) : word <+: s := by
  rcases List.prefix_or_prefix_of_prefix h (List.prefix_append s (c :: rest)) with
    hword | ⟨more, hmore⟩
  · exact hword
  · cases more with
    | nil =>
      rw [List.append_nil] at hmore
      exact hmore ▸ List.prefix_rfl
    | cons d more =>
      rw [← hmore, List.prefix_append_right_inj, List.cons_prefix_cons] at h
      refine absurd ?_ hc
      rw [← hmore, ← h.1]
      exact List.mem_append_right s List.mem_cons_self

/-! ### Pieces between separators -/

variable {isSeparator : Char → Bool}

theorem splitAtEach_ne_nil (s : List Char) : splitAtEach isSeparator s ≠ [] := by
  cases s with
  | nil => simp [splitAtEach]
  | cons c rest =>
    unfold splitAtEach
    split
    · exact List.cons_ne_nil _ _
    · split
      · exact List.cons_ne_nil _ _
      · exact List.cons_ne_nil _ _

theorem exists_splitAtEach_eq_cons (isSeparator : Char → Bool) (s : List Char) :
    ∃ piece pieces, splitAtEach isSeparator s = piece :: pieces :=
  List.exists_cons_of_ne_nil (splitAtEach_ne_nil s)

/-- A separator ends one piece and starts another. -/
theorem splitAtEach_append_cons {c : Char} (hc : isSeparator c = true) (s rest : List Char) :
    splitAtEach isSeparator (s ++ c :: rest) =
      splitAtEach isSeparator s ++ splitAtEach isSeparator rest := by
  induction s with
  | nil => simp [splitAtEach, hc]
  | cons d s ih =>
    simp only [List.cons_append, splitAtEach, ih]
    split
    · rfl
    · rcases h : splitAtEach isSeparator s with _ | ⟨piece, pieces⟩
      · exact absurd h (splitAtEach_ne_nil s)
      · rfl

theorem splitAtEach_eq_singleton {s : List Char} (h : ∀ c ∈ s, isSeparator c = false) :
    splitAtEach isSeparator s = [s] := by
  induction s with
  | nil => rfl
  | cons c s ih =>
    unfold splitAtEach
    rw [h c List.mem_cons_self, ih fun d hd => h d (List.mem_cons_of_mem c hd)]
    rfl

/-- What stands in front of all separators belongs to the first piece. -/
theorem splitAtEach_append {start s piece : List Char} {pieces : List (List Char)}
    (hstart : ∀ c ∈ start, isSeparator c = false)
    (h : splitAtEach isSeparator s = piece :: pieces) :
    splitAtEach isSeparator (start ++ s) = (start ++ piece) :: pieces := by
  induction start with
  | nil => exact h
  | cons c start ih =>
    rw [List.cons_append, splitAtEach, hstart c List.mem_cons_self,
      ih fun d hd => hstart d (List.mem_cons_of_mem c hd)]
    rfl

/-- No piece holds a separator. -/
theorem not_separator_of_mem_splitAtEach {s piece : List Char}
    (hpiece : piece ∈ splitAtEach isSeparator s) {c : Char} (hc : c ∈ piece) :
    isSeparator c = false := by
  induction s generalizing piece with
  | nil =>
    rw [show splitAtEach isSeparator [] = [[]] from rfl, List.mem_singleton] at hpiece
    rw [hpiece] at hc
    cases hc
  | cons d s ih =>
    unfold splitAtEach at hpiece
    split at hpiece
    · rcases List.mem_cons.mp hpiece with rfl | hpiece
      · cases hc
      · exact ih hpiece hc
    · rename_i hd
      rcases h : splitAtEach isSeparator s with _ | ⟨first, pieces⟩
      · exact absurd h (splitAtEach_ne_nil s)
      · simp only [h, List.mem_cons] at hpiece
        rcases hpiece with rfl | hpiece
        · rcases List.mem_cons.mp hc with rfl | hc
          · exact Bool.eq_false_iff.mpr hd
          · exact ih (by rw [h]; exact List.mem_cons_self) hc
        · exact ih (by rw [h]; exact List.mem_cons_of_mem _ hpiece) hc

/-- Pieces without separators come back from the text that they are joined to. -/
theorem splitAtEach_join {c : Char} (hc : isSeparator c = true) {pieces : List (List Char)}
    (hne : pieces ≠ []) (h : ∀ piece ∈ pieces, ∀ d ∈ piece, isSeparator d = false) :
    splitAtEach isSeparator (join [c] pieces) = pieces := by
  induction pieces with
  | nil => exact absurd rfl hne
  | cons piece rest ih =>
    have hpiece := splitAtEach_eq_singleton (h piece List.mem_cons_self)
    cases rest with
    | nil => exact hpiece
    | cons next rest =>
      have hrest := ih (List.cons_ne_nil _ _) fun p hp => h p (List.mem_cons_of_mem _ hp)
      simp only [join, List.append_assoc, List.singleton_append]
      rw [splitAtEach_append_cons hc, hpiece, hrest]
      rfl

end StaticSite.Text
