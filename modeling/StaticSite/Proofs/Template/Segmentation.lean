import StaticSite.Proofs.Template.Locality
/-!
# StaticSite.Proofs.Template.Segmentation

**Where the tokens of a text come from.** A marker at the start of a text is its first token, and
any other first character is text (`tokenize_of_read?`, `tokenize_cons_of_none`). So the tokens of a
text are a reading of it (`isReading_tokenize`), and all readings of a text agree when adjacent text
is merged (`tokenize_of_isReading`).

Two texts put together have the tokens of both, as long as no marker runs across the place where
they meet (`tokenize_append`).
-/

set_option autoImplicit false

namespace StaticSite

namespace Token

variable {piece more : List Char} {tokens : List Token} {m : Marker}

/-! ### Text in front of tokens

The scanner collects the characters of a text and lets go of them where a marker starts. In the
tokens this means that a character is put in front of those of the rest, and joins the first one if
that is text. -/

/-- Text in front of tokens: a part of the first token if this is text, else a token of its own. -/
def prependText (piece : List Char) : List Token → List Token
  | .text more :: rest => .text (piece ++ more) :: rest
  | tokens => flush piece.reverse tokens

@[simp]
theorem prependText_text (piece more : List Char) (rest : List Token) :
    prependText piece (.text more :: rest) = .text (piece ++ more) :: rest := rfl

@[simp]
theorem prependText_nil_left (tokens : List Token) : prependText [] tokens = tokens := by
  unfold prependText
  split
  · rfl
  · rfl

theorem flush_reverse (hpiece : piece ≠ []) :
    flush piece.reverse tokens = .text piece :: tokens := by
  unfold flush
  split
  · rename_i hreverse
    exact absurd (List.reverse_eq_nil_iff.mp hreverse) hpiece
  · rw [List.reverse_reverse]

@[simp]
theorem prependText_nil (hpiece : piece ≠ []) : prependText piece [] = [.text piece] :=
  flush_reverse hpiece

@[simp]
theorem prependText_marker (hpiece : piece ≠ []) (m : Marker) (written : List Char)
    (rest : List Token) :
    prependText piece (.marker m written :: rest) = .text piece :: .marker m written :: rest :=
  flush_reverse hpiece

theorem prependText_prependText (piece more : List Char) (tokens : List Token) :
    prependText piece (prependText more tokens) = prependText (piece ++ more) tokens := by
  by_cases hmore : more = []
  · simp [hmore]
  · rcases tokens with _ | ⟨_ | _, rest⟩
    · simp [hmore]
    · simp
    · simp [hmore]

theorem flatMap_prependText {f : Token → List Char} (hf : ∀ piece, f (.text piece) = piece)
    (piece : List Char) (tokens : List Token) :
    (prependText piece tokens).flatMap f = piece ++ tokens.flatMap f := by
  by_cases hpiece : piece = []
  · simp [hpiece]
  · rcases tokens with _ | ⟨_ | _, rest⟩
    · simp [hpiece, hf]
    · simp [hf]
    · simp [hpiece, hf]

theorem marker_mem_prependText {written : List Char} :
    .marker m written ∈ prependText piece tokens ↔ .marker m written ∈ tokens := by
  by_cases hpiece : piece = []
  · simp [hpiece]
  · rcases tokens with _ | ⟨_ | _, rest⟩
    · simp [hpiece]
    · simp
    · simp [hpiece]

theorem prependText_append_marker (piece : List Char) (before : List Token) (m : Marker)
    (written : List Char) (after : List Token) :
    prependText piece (before ++ .marker m written :: after) =
      prependText piece before ++ .marker m written :: after := by
  by_cases hpiece : piece = []
  · simp [hpiece]
  · rcases before with _ | ⟨_ | _, rest⟩
    · simp [hpiece]
    · simp
    · simp [hpiece]

/-! ### Merging adjacent text

Tokens that have been put together from parts may have text next to text. Merging is a fold of the
operation above, so it commutes with putting text in front. -/

/-- The tokens with adjacent text merged and empty text left out. -/
def merged : List Token → List Token
  | [] => []
  | .text piece :: rest => prependText piece (merged rest)
  | .marker m written :: rest => .marker m written :: merged rest

/-- What is made of text as it is does not depend on how the text is divided. -/
theorem flatMap_merged {f : Token → List Char} (hf : ∀ piece, f (.text piece) = piece)
    (tokens : List Token) : (merged tokens).flatMap f = tokens.flatMap f := by
  induction tokens with
  | nil => rfl
  | cons token rest ih =>
    cases token with
    | text piece => simp [merged, flatMap_prependText hf, ih, hf]
    | marker m written => simp [merged, ih]

theorem flatMap_raw_merged (tokens : List Token) :
    (merged tokens).flatMap raw = tokens.flatMap raw :=
  flatMap_merged (fun _ => rfl) tokens

theorem marker_mem_merged {written : List Char} :
    .marker m written ∈ merged tokens ↔ .marker m written ∈ tokens := by
  induction tokens with
  | nil => rfl
  | cons token rest ih =>
    cases token with
    | text piece => simp [merged, marker_mem_prependText, ih]
    | marker m written => simp [merged, ih]

theorem merged_append_marker (before : List Token) (m : Marker) (written : List Char)
    (after : List Token) :
    merged (before ++ .marker m written :: after) =
      merged before ++ .marker m written :: merged after := by
  induction before with
  | nil => rfl
  | cons token rest ih =>
    cases token with
    | text piece => simp [merged, ih, prependText_append_marker]
    | marker m' written' => simp [merged, ih]

theorem merged_prependText_append (piece : List Char) (tokens others : List Token) :
    merged (prependText piece tokens ++ others) =
      prependText piece (merged (tokens ++ others)) := by
  by_cases hpiece : piece = []
  · simp [hpiece]
  · rcases tokens with _ | ⟨_ | _, rest⟩
    · simp [hpiece, merged]
    · simp [merged, prependText_prependText]
    · simp [hpiece, merged]

/-! ### Text that stands apart -/

/-- No piece of text is empty, and no two stand side by side. -/
def TextsApart : List Token → Prop
  | [] => True
  | .text piece :: rest =>
    piece ≠ [] ∧ (∀ more others, rest ≠ .text more :: others) ∧ TextsApart rest
  | .marker _ _ :: rest => TextsApart rest

theorem TextsApart.prependText (h : TextsApart tokens) (piece : List Char) :
    TextsApart (prependText piece tokens) := by
  by_cases hpiece : piece = []
  · simpa [hpiece] using h
  · rcases tokens with _ | ⟨_ | _, rest⟩
    · simp [hpiece, TextsApart]
    · refine ⟨?_, h.2⟩
      simp [hpiece]
    · simpa [hpiece, TextsApart] using h

theorem textsApart_merged (tokens : List Token) : TextsApart (merged tokens) := by
  induction tokens with
  | nil => trivial
  | cons token rest ih =>
    cases token with
    | text piece => exact ih.prependText piece
    | marker m written => exact ih

theorem merged_of_textsApart (h : TextsApart tokens) : merged tokens = tokens := by
  induction tokens with
  | nil => rfl
  | cons token rest ih =>
    cases token with
    | text piece =>
      obtain ⟨hpiece, hapart, hrest⟩ := h
      rw [merged, ih hrest]
      unfold Token.prependText
      split
      · exact absurd rfl (hapart _ _)
      · exact flush_reverse hpiece
    | marker m written => rw [merged, ih h]

theorem merged_merged_append (tokens others : List Token) :
    merged (merged tokens ++ others) = merged (tokens ++ others) := by
  induction tokens with
  | nil => rfl
  | cons token rest ih =>
    cases token with
    | text piece => rw [merged, merged_prependText_append, ih, List.cons_append, merged]
    | marker m written => rw [merged, List.cons_append, merged, ih, List.cons_append, merged]

theorem merged_append_merged (tokens others : List Token) :
    merged (tokens ++ merged others) = merged (tokens ++ others) := by
  induction tokens with
  | nil => exact merged_of_textsApart (textsApart_merged others)
  | cons token rest ih =>
    cases token with
    | text piece => rw [List.cons_append, merged, ih, List.cons_append, merged]
    | marker m written => rw [List.cons_append, merged, ih, List.cons_append, merged]

/-- Where two sequences of tokens meet, either nothing is merged, or the text at the end of the
first and the text at the start of the second. -/
theorem merged_append (htokens : TextsApart tokens) {others : List Token}
    (hothers : TextsApart others) :
    merged (tokens ++ others) = tokens ++ others ∨
      ∃ front piece more back, tokens = front ++ [.text piece] ∧ others = .text more :: back ∧
        merged (tokens ++ others) = front ++ .text (piece ++ more) :: back := by
  induction tokens with
  | nil => exact Or.inl (merged_of_textsApart hothers)
  | cons token rest ih =>
    -- only a text at the very end of the first part can be merged, so a marker is passed over
    cases token with
    | marker m written =>
      rcases ih htokens with heq | ⟨front, piece, more, back, rfl, rfl, heq⟩
      · exact Or.inl (by rw [List.cons_append, merged, heq])
      · exact Or.inr ⟨.marker m written :: front, piece, more, back, rfl, rfl,
          by rw [List.cons_append, merged, heq, List.cons_append]⟩
    | text piece =>
      obtain ⟨hpiece, hapart, hrest⟩ := htokens
      -- what follows the text in the first part is nothing, or a marker, but not text
      rcases rest with _ | ⟨more | ⟨m, written⟩, rest⟩
      · rw [List.singleton_append, merged, merged_of_textsApart hothers]
        rcases others with _ | ⟨more | _, back⟩
        · exact Or.inl (prependText_nil hpiece)
        · exact Or.inr ⟨[], piece, more, back, rfl, rfl, rfl⟩
        · exact Or.inl (prependText_marker hpiece _ _ _)
      · exact absurd rfl (hapart more rest)
      · rcases ih hrest with heq | ⟨front, last, more, back, hfront, rfl, heq⟩
        · refine Or.inl ?_
          rw [List.cons_append, merged, heq, List.cons_append, prependText_marker hpiece]
        · rcases front with _ | ⟨first, front⟩
          · cases hfront
          · cases hfront
            refine Or.inr
              ⟨.text piece :: .marker m written :: front, last, more, back, rfl, rfl, ?_⟩
            rw [List.cons_append, merged, heq, List.cons_append, prependText_marker hpiece]
            rfl

/-! ### The scanner

The scanner has a state: characters to skip and characters held. Both are eliminated here, and what
is left are two equations for `tokenize`, with an induction principle that has their cases. -/

/-- Characters that are skipped could as well be left out. -/
theorem scan_eq_scan_drop (skip : Nat) (collected s : List Char) :
    scan skip collected s = scan 0 collected (s.drop skip) := by
  induction s generalizing skip with
  | nil => simp [scan]
  | cons c rest ih =>
    cases skip with
    | zero => rfl
    | succ skip => exact ih skip

/-- The characters that are held go in front of the tokens of the text. -/
theorem scan_eq_prependText (collected s : List Char) :
    scan 0 collected s = prependText collected.reverse (scan 0 [] s) := by
  induction s generalizing collected with
  | nil => simp [scan, flush, prependText]
  | cons c rest ih =>
    simp only [scan]
    split
    · simp [flush, prependText]
    · rw [ih (c :: collected), ih [c], prependText_prependText, List.reverse_cons]
      rfl

end Token

open Token

/-- A marker at the start of a text is its first token. -/
theorem tokenize_of_read? {m : Marker} {written after : List Char}
    (h : Marker.read? (written ++ after) = some (m, after)) :
    tokenize (written ++ after) = .marker m written :: tokenize after := by
  have hlength := Marker.length_lt_of_read? h
  cases written with
  | nil => simp at hlength
  | cons c rest =>
    rw [List.cons_append] at h
    have hskip : (c :: (rest ++ after)).length - after.length = rest.length + 1 := by
      simp only [List.length_cons, List.length_append]
      omega
    simp only [tokenize, List.cons_append, scan, h, hskip, Nat.add_sub_cancel, List.take_succ_cons,
      List.take_left, flush]
    rw [scan_eq_scan_drop, List.drop_left]

/-- Where no marker starts, a character is text. -/
theorem tokenize_cons_of_none {c : Char} {rest : List Char}
    (h : Marker.read? (c :: rest) = none) :
    tokenize (c :: rest) = prependText [c] (tokenize rest) := by
  simp only [tokenize, scan, h]
  exact scan_eq_prependText [c] rest

@[simp]
theorem tokenize_nil : tokenize [] = [] := rfl

theorem exists_written_of_read? {s after : List Char} {m : Marker}
    (h : Marker.read? s = some (m, after)) : ∃ written, s = written ++ after := by
  obtain ⟨inside, rfl, before, rfl⟩ := Marker.read?_suffix h
  exact ⟨Marker.opening ++ before, (List.append_assoc _ _ _).symm⟩

/-- A text is empty, or starts with a character of text, or starts with a marker. -/
@[elab_as_elim]
theorem source_induction {P : List Char → Prop} (nil : P [])
    (text : ∀ c rest, Marker.read? (c :: rest) = none → P rest → P (c :: rest))
    (marker : ∀ m written after, Marker.read? (written ++ after) = some (m, after) → P after →
      P (written ++ after))
    (s : List Char) : P s := by
  induction hlength : s.length using Nat.strongRecOn generalizing s with
  | _ length ih =>
    subst hlength
    cases s with
    | nil => exact nil
    | cons c rest =>
      cases hread : Marker.read? (c :: rest) with
      | none => exact text c rest hread (ih rest.length (by simp) rest rfl)
      | some found =>
        obtain ⟨m, after⟩ := found
        have hlength := Marker.length_lt_of_read? hread
        obtain ⟨written, hwritten⟩ := exists_written_of_read? hread
        rw [hwritten] at hread ⊢
        exact marker m written after hread (ih after.length hlength after rfl)

theorem textsApart_tokenize (source : List Char) : TextsApart (tokenize source) := by
  induction source using source_induction with
  | nil => trivial
  | text c rest hread ih =>
    rw [tokenize_cons_of_none hread]
    exact ih.prependText [c]
  | marker m written after hread ih =>
    rw [tokenize_of_read? hread]
    exact ih

theorem merged_tokenize (source : List Char) : merged (tokenize source) = tokenize source :=
  merged_of_textsApart (textsApart_tokenize source)

/-! ### Readings

A reading says of given tokens that they are right, without a scanner. For a text token this is
about every place inside of it and all that follows. -/

namespace Token

/-- No marker starts at a character of a piece of text that the rest follows. -/
def ReadAsText (piece rest : List Char) : Prop :=
  ∀ before after, piece = before ++ after → after ≠ [] → Marker.read? (after ++ rest) = none

/-- The tokens are a way to read the text that they make up: a marker is read where it stands, and
none starts inside of text. -/
def IsReading : List Token → Prop
  | [] => True
  | .text piece :: rest => ReadAsText piece (rest.flatMap raw) ∧ IsReading rest
  | .marker m written :: rest =>
    Marker.read? (written ++ rest.flatMap raw) = some (m, rest.flatMap raw) ∧ IsReading rest

theorem readAsText_singleton {c : Char} {rest : List Char}
    (h : Marker.read? (c :: rest) = none) : ReadAsText [c] rest := by
  intro before after hsplit hafter
  rcases List.cons_eq_append_iff.mp hsplit with ⟨-, rfl⟩ | ⟨_, -, hnil⟩
  · exact h
  · exact absurd (List.append_eq_nil_iff.mp hnil.symm).2 hafter

theorem ReadAsText.append {piece more rest : List Char} (h : ReadAsText piece (more ++ rest))
    (hmore : ReadAsText more rest) : ReadAsText (piece ++ more) rest := by
  intro before after hsplit hafter
  rcases List.append_eq_append_iff.mp hsplit with ⟨middle, -, rfl⟩ | ⟨middle, rfl, rfl⟩
  · exact hmore middle after rfl hafter
  · by_cases hmiddle : middle = []
    · subst hmiddle
      exact hmore [] _ rfl hafter
    · rw [List.append_assoc]
      exact h before middle rfl hmiddle

/-- What follows can be cut off: a marker that is read in less text is read in more. -/
theorem ReadAsText.of_append {piece rest t : List Char} (h : ReadAsText piece (rest ++ t)) :
    ReadAsText piece rest := by
  intro before after hsplit hafter
  cases hread : Marker.read? (after ++ rest) with
  | none => rfl
  | some found =>
    have hmore := h before after hsplit hafter
    rw [← List.append_assoc, Marker.read?_append_iff.mpr hread] at hmore
    cases hmore

/-- Text is read a character at a time. -/
theorem tokenize_append_of_readAsText {piece rest : List Char} (h : ReadAsText piece rest) :
    tokenize (piece ++ rest) = prependText piece (tokenize rest) := by
  induction piece with
  | nil => simp
  | cons c piece ih =>
    have hfirst := h [] (c :: piece) rfl (List.cons_ne_nil c piece)
    have hpiece : ReadAsText piece rest := fun before after hsplit =>
      h (c :: before) after (by rw [hsplit]; rfl)
    rw [List.cons_append] at hfirst
    rw [List.cons_append, tokenize_cons_of_none hfirst, ih hpiece, prependText_prependText]
    rfl

/-- All readings of a text agree with its tokens when adjacent text is merged. -/
theorem tokenize_of_isReading {tokens : List Token} (h : IsReading tokens) :
    tokenize (tokens.flatMap raw) = merged tokens := by
  induction tokens with
  | nil => rfl
  | cons token rest ih =>
    cases token with
    | text piece =>
      rw [List.flatMap_cons, raw, tokenize_append_of_readAsText h.1, ih h.2, merged]
    | marker m written => rw [List.flatMap_cons, raw, tokenize_of_read? h.1, ih h.2, merged]

theorem IsReading.prependText {piece : List Char} {tokens : List Token} (h : IsReading tokens)
    (hpiece : ReadAsText piece (tokens.flatMap raw)) : IsReading (prependText piece tokens) := by
  by_cases hnil : piece = []
  · simpa [hnil] using h
  · rcases tokens with _ | ⟨more | _, rest⟩
    · simpa [hnil, IsReading] using hpiece
    · exact ⟨hpiece.append h.1, h.2⟩
    · simpa [hnil, IsReading] using ⟨hpiece, h⟩

/-- The tokens of a text are a reading of it. -/
theorem isReading_tokenize (source : List Char) : IsReading (tokenize source) := by
  induction source using source_induction with
  | nil => trivial
  | text c rest hread ih =>
    rw [tokenize_cons_of_none hread]
    refine ih.prependText ?_
    rw [flatMap_raw_tokenize]
    exact readAsText_singleton hread
  | marker m written after hread ih =>
    rw [tokenize_of_read? hread]
    refine ⟨?_, ih⟩
    rw [flatMap_raw_tokenize]
    exact hread

theorem IsReading.of_append_right {tokens more : List Token} (h : IsReading (tokens ++ more)) :
    IsReading more := by
  induction tokens with
  | nil => exact h
  | cons token rest ih =>
    cases token with
    | text piece => exact ih h.2
    | marker m written => exact ih h.2

/-- A marker of a reading is read to its own end. -/
theorem IsReading.read?_of_mem {tokens : List Token} (h : IsReading tokens) {m : Marker}
    {written : List Char} (hmem : .marker m written ∈ tokens) :
    Marker.read? written = some (m, []) := by
  obtain ⟨before, after, rfl⟩ := List.append_of_mem hmem
  exact Marker.read?_append_iff.mp h.of_append_right.1

/-- A reading can be cut off at any token: no token depends on those after it. -/
theorem IsReading.of_append_left {tokens more : List Token} (h : IsReading (tokens ++ more)) :
    IsReading tokens := by
  induction tokens with
  | nil => trivial
  | cons token rest ih =>
    cases token with
    | text piece =>
      rw [List.cons_append] at h
      obtain ⟨hpiece, hrest⟩ := h
      rw [List.flatMap_append] at hpiece
      exact ⟨hpiece.of_append, ih hrest⟩
    | marker m written =>
      rw [List.cons_append] at h
      obtain ⟨hread, hrest⟩ := h
      rw [List.flatMap_append, ← List.append_assoc] at hread
      exact ⟨Marker.read?_append_iff.mp hread, ih hrest⟩

end Token

/-! ### Texts side by side

Putting a text behind another can only change the tokens of the first if a marker starts in it and
ends beyond. This is decidable from the tokens of the whole. -/

/-- A marker of a text starts before a place and ends after it. -/
def Crossed (source : List Char) (place : Nat) : Prop :=
  ∃ before m written after, tokenize source = before ++ .marker m written :: after ∧
    (before.flatMap Token.raw).length < place ∧
    place < (before.flatMap Token.raw).length + written.length

/-- Whether a marker among tokens starts before a place of their text and ends after it. -/
def Token.cross : List Token → Nat → Bool
  | [], _ => false
  | .text piece :: rest, place => piece.length < place && cross rest (place - piece.length)
  | .marker _ written :: rest, place =>
    (0 < place && place < written.length) ||
      (written.length < place && cross rest (place - written.length))

theorem Token.cross_iff {tokens : List Token} {place : Nat} :
    cross tokens place = true ↔
      ∃ before m written after, tokens = before ++ .marker m written :: after ∧
        (before.flatMap raw).length < place ∧
        place < (before.flatMap raw).length + written.length := by
  induction tokens generalizing place with
  | nil => simp [cross]
  | cons token rest ih =>
    -- the marker is the first token, or it crosses the place as seen from the tokens after this one
    have hsplit : (∃ before m written after, token :: rest = before ++ .marker m written :: after ∧
        (before.flatMap raw).length < place ∧
        place < (before.flatMap raw).length + written.length) ↔
        (∃ m written, token = .marker m written ∧ 0 < place ∧ place < written.length) ∨
          (token.raw.length < place ∧ cross rest (place - token.raw.length) = true) := by
      rw [ih]
      constructor
      · rintro ⟨before, m, written, after, htokens, hstart, hend⟩
        rcases List.cons_eq_append_iff.mp htokens with ⟨rfl, hfirst⟩ | ⟨before, rfl, rfl⟩
        · cases hfirst
          exact Or.inl ⟨m, written, rfl, hstart, by simpa using hend⟩
        · rw [List.flatMap_cons, List.length_append] at hstart hend
          exact Or.inr ⟨by omega, before, m, written, after, rfl, by omega, by omega⟩
      · rintro (⟨m, written, rfl, hstart, hend⟩ | ⟨hlong, before, m, written, after, rfl, hstart,
          hend⟩)
        · exact ⟨[], m, written, rest, rfl, hstart, by simpa using hend⟩
        · refine ⟨token :: before, m, written, after, rfl, ?_, ?_⟩
          · rw [List.flatMap_cons, List.length_append]
            omega
          · rw [List.flatMap_cons, List.length_append]
            omega
    rw [hsplit]
    cases token with
    | text piece => simp [cross, raw]
    | marker m written =>
      have hfirst : (∃ m' written', Token.marker m written = .marker m' written' ∧ 0 < place ∧
          place < written'.length) ↔ 0 < place ∧ place < written.length := by
        constructor
        · rintro ⟨m', written', heq, hbounds⟩
          cases heq
          exact hbounds
        · exact fun hbounds => ⟨m, written, rfl, hbounds⟩
      rw [hfirst]
      simp [cross, raw]

instance (source : List Char) (place : Nat) : Decidable (Crossed source place) :=
  decidable_of_iff (Token.cross (tokenize source) place = true) Token.cross_iff

/-- What comes in front only moves a place that a marker crosses. -/
theorem Crossed.append {source : List Char} {place : Nat} (h : Crossed source place)
    (tokens : List Token)
    (hfront : tokenize (tokens.flatMap Token.raw ++ source) = merged (tokens ++ tokenize source)) :
    Crossed (tokens.flatMap Token.raw ++ source) ((tokens.flatMap Token.raw).length + place) := by
  obtain ⟨before, m, written, after, hsource, hstart, hend⟩ := h
  refine ⟨merged (tokens ++ before), m, written, merged after, ?_, ?_, ?_⟩
  · rw [hfront, hsource, ← List.append_assoc, merged_append_marker]
  · rw [flatMap_raw_merged, List.flatMap_append, List.length_append]
    omega
  · rw [flatMap_raw_merged, List.flatMap_append, List.length_append]
    omega

/-- A marker that only shows when a text goes on runs across the place where the text ended. -/
theorem crossed_of_read?_append {first second after : List Char} {m : Marker}
    (hfirst : first ≠ []) (hnone : Marker.read? first = none)
    (h : Marker.read? (first ++ second) = some (m, after)) :
    Crossed (first ++ second) first.length := by
  obtain ⟨written, hwritten⟩ := exists_written_of_read? h
  have hlonger : first.length < written.length := by
    refine Nat.lt_of_not_le fun hshort => ?_
    -- a marker within the first text is read from this text alone
    obtain ⟨tail, rfl⟩ : written <+: first :=
      List.prefix_of_prefix_length_le ⟨after, hwritten.symm⟩ (List.prefix_append first second)
        hshort
    obtain rfl : tail ++ second = after := by simpa using hwritten
    rw [Marker.read?_append_iff] at h
    rw [hnone] at h
    cases h
  rw [hwritten] at h ⊢
  refine ⟨[], m, written, _, tokenize_of_read? h, ?_, ?_⟩
  · simpa [List.length_pos_iff] using hfirst
  · simpa using hlonger

/-- Two texts have the tokens of both when no marker runs across the place where they meet. -/
theorem tokenize_append {first second : List Char}
    (h : ¬ Crossed (first ++ second) first.length) :
    tokenize (first ++ second) = merged (tokenize first ++ tokenize second) := by
  induction first using source_induction with
  | nil => rw [List.nil_append, tokenize_nil, List.nil_append, merged_tokenize]
  | text c rest hread ih =>
    have hnone : Marker.read? (c :: (rest ++ second)) = none := by
      cases hsome : Marker.read? (c :: (rest ++ second)) with
      | none => rfl
      | some found => exact absurd (crossed_of_read?_append (List.cons_ne_nil c rest) hread hsome) h
    have hcons := tokenize_cons_of_none hnone
    -- a marker across the place would be there as well with the character in front
    have hrest : ¬ Crossed (rest ++ second) rest.length := by
      intro hcrossed
      have hmoved := hcrossed.append [.text [c]]
        (by rw [List.singleton_append, merged, merged_tokenize]; exact hcons)
      rw [List.length_cons, Nat.add_comm] at h
      exact h hmoved
    rw [List.cons_append, hcons, ih hrest, tokenize_cons_of_none hread, merged_prependText_append]
  | marker m written after hread ih =>
    -- the marker is decided by its own characters, and is read in the longer text too
    have hmore : Marker.read? (written ++ (after ++ second)) = some (m, after ++ second) := by
      rw [← List.append_assoc]
      exact Marker.read?_append_iff.mpr hread
    have hcons := tokenize_of_read? hmore
    have hrest : ¬ Crossed (after ++ second) after.length := by
      intro hcrossed
      have hraw : [Token.marker m written].flatMap Token.raw = written := List.append_nil written
      have hmoved := hcrossed.append [.marker m written]
        (by rw [hraw, hcons, List.singleton_append, merged, merged_tokenize])
      rw [hraw] at hmoved
      rw [List.append_assoc, List.length_append] at h
      exact h hmoved
    rw [List.append_assoc, hcons, ih hrest, tokenize_of_read? hread, List.cons_append, merged]

end StaticSite
