import StaticSite.Proofs.Template.Tokens
/-!
# StaticSite.Proofs.Template.Locality

**A marker is decided by its own characters.** What follows a marker has no part in reading it: the
marker at the start of a text is there as well when the text goes on, and a marker that ends inside
of a text is read from this text alone (`Marker.read?_append_iff`).

The parts of a marker are words, white space and runs of characters, and a closing brace stands
behind all of them. It belongs to none of these classes, so in a text that holds one each of the
parts ends inside of the text, whatever follows. Only a fallback in quotes may hold the brace
itself; it ends at its quote.
-/

set_option autoImplicit false

namespace StaticSite

variable {α β : Type} {s t rest : List Char} {c : Char}

/-! ### Runs, words and quotes

Each part of a marker is looked for from the front. A character that cannot belong to the part stops
the search, so what comes behind this character does not count. -/

theorem takeWhile_append_of_mem {p : α → Bool} {a : α} {xs ys : List α} (ha : a ∈ xs)
    (hp : p a = false) : (xs ++ ys).takeWhile p = xs.takeWhile p := by
  induction xs with
  | nil => cases ha
  | cons x xs ih =>
    by_cases hx : p x = true
    · have hne : a ≠ x := fun heq => by simp [heq, hx] at hp
      simp [hx, ih (List.mem_of_ne_of_mem hne ha)]
    · simp [hx]

theorem dropWhile_append_of_mem {p : α → Bool} {a : α} {xs ys : List α} (ha : a ∈ xs)
    (hp : p a = false) : (xs ++ ys).dropWhile p = xs.dropWhile p ++ ys := by
  induction xs with
  | nil => cases ha
  | cons x xs ih =>
    by_cases hx : p x = true
    · have hne : a ≠ x := fun heq => by simp [heq, hx] at hp
      simp [hx, ih (List.mem_of_ne_of_mem hne ha)]
    · simp [hx]

theorem mem_dropWhile_of_mem {p : α → Bool} {a : α} {xs : List α} (ha : a ∈ xs)
    (hp : p a = false) : a ∈ xs.dropWhile p := by
  induction xs with
  | nil => cases ha
  | cons x xs ih =>
    by_cases hx : p x = true
    · have hne : a ≠ x := fun heq => by simp [heq, hx] at hp
      simpa [hx] using ih (List.mem_of_ne_of_mem hne ha)
    · simpa [hx] using ha

/-- A word cannot run over the end of a text with a character that is not in the word. -/
theorem dropStart?_append {word : List Char} (hs : c ∈ s) (hword : c ∉ word) :
    Text.dropStart? word (s ++ t) = (Text.dropStart? word s).map (· ++ t) := by
  induction word generalizing s with
  | nil => simp [Text.dropStart?]
  | cons w word ih =>
    cases s with
    | nil => cases hs
    | cons d s =>
      simp only [List.cons_append, Text.dropStart?]
      by_cases hd : w = d
      · have hne : c ≠ d := fun heq => hword (by simp [heq, hd])
        rw [if_pos hd, if_pos hd]
        exact ih (List.mem_of_ne_of_mem hne hs) fun hmem => hword (List.mem_cons_of_mem w hmem)
      · rw [if_neg hd, if_neg hd, Option.map_none]

theorem mem_of_dropStart? {word : List Char} (h : Text.dropStart? word s = some rest) (hs : c ∈ s)
    (hword : c ∉ word) : c ∈ rest := by
  rw [Text.dropStart?_eq_some_iff.mp h] at hs
  exact (List.mem_append.mp hs).resolve_left hword

/-- The first quote of a text stays the first one when the text goes on. -/
theorem cutAt?_append_iff {before : List Char} :
    Text.cutAt? [c] (s ++ t) = some (before, rest ++ t) ↔
      Text.cutAt? [c] s = some (before, rest) := by
  induction s generalizing before with
  | nil =>
    constructor
    · intro h
      -- what is left after a quote is shorter than the text
      have hlength := congrArg List.length (Text.cutAt?_eq_some h)
      simp only [List.nil_append, List.length_append, List.length_cons, List.length_nil] at hlength
      omega
    · intro h
      simp [Text.cutAt?, Text.dropStart?] at h
  | cons d s ih =>
    simp only [List.cons_append, Text.cutAt?, Text.dropStart?]
    by_cases hd : c = d
    · simp [hd]
    · simp only [if_neg hd, Option.map_eq_some_iff, Prod.exists, Prod.mk.injEq]
      constructor
      · rintro ⟨piece, after, hcut, rfl, rfl⟩
        exact ⟨piece, rest, ih.mp hcut, rfl, rfl⟩
      · rintro ⟨piece, after, hcut, rfl, rfl⟩
        exact ⟨piece, after ++ t, ih.mpr hcut, rfl, rfl⟩

/-! ### Readers

The readers are gone through one by one, from the parts to the whole. What each of them needs is
that a closing brace is left over, and what it gives to the next is that the brace is still
there. -/

/-- What a reader has found, with more text behind it. -/
def followedBy (t : List Char) (found : α × List Char) : α × List Char := (found.1, found.2 ++ t)

theorem map_followedBy_eq_some_iff {found? : Option (α × List Char)} {a : α} :
    found?.map (followedBy t) = some (a, rest ++ t) ↔ found? = some (a, rest) := by
  cases found? with
  | none => simp
  | some found => simp [followedBy, Prod.ext_iff]

/-- Where a closing brace is left, what a reader finds does not depend on the text that follows. -/
def IsLocal (read? : List Char → Option (α × List Char)) : Prop :=
  ∀ s t a rest, '}' ∈ s → '}' ∈ rest →
    (read? (s ++ t) = some (a, rest ++ t) ↔ read? s = some (a, rest))

/-- A reader of one part goes on as another. -/
theorem IsLocal.map {read? : List Char → Option (α × List Char)} (h : IsLocal read?) (f : α → β) :
    IsLocal fun s => (read? s).map fun (a, rest) => (f a, rest) := by
  intro s t b rest hs hrest
  simp only [Option.map_eq_some_iff, Prod.exists, Prod.mk.injEq]
  constructor
  · rintro ⟨a, after, hread, rfl, rfl⟩
    exact ⟨a, rest, (h s t a rest hs hrest).mp hread, rfl, rfl⟩
  · rintro ⟨a, after, hread, rfl, rfl⟩
    exact ⟨a, after ++ t, (h s t a after hs hrest).mpr hread, rfl, rfl⟩

theorem trimStart_append (hs : '}' ∈ s) : Text.trimStart (s ++ t) = Text.trimStart s ++ t :=
  dropWhile_append_of_mem hs (by decide)

theorem mem_trimStart (hs : '}' ∈ s) : '}' ∈ Text.trimStart s :=
  mem_dropWhile_of_mem hs (by decide)

namespace Marker

/-- A run of characters ends at a closing brace at the latest. -/
theorem takeRun?_append {isMember : Char → Bool} (hclosing : isMember '}' = false) (hs : '}' ∈ s) :
    takeRun? isMember (s ++ t) = (takeRun? isMember s).map (followedBy t) := by
  unfold takeRun?
  rw [takeWhile_append_of_mem hs hclosing, dropWhile_append_of_mem hs hclosing]
  cases s.takeWhile isMember with
  | nil => rfl
  | cons d run => rfl

theorem mem_of_takeRun? {isMember : Char → Bool} (hclosing : isMember '}' = false) {run : String}
    (h : takeRun? isMember s = some (run, rest)) (hs : '}' ∈ s) : '}' ∈ rest := by
  unfold takeRun? at h
  split at h
  · cases h
  · cases h
    exact mem_dropWhile_of_mem hs hclosing

theorem isLocal_takeRun? (isMember : Char → Bool) (hclosing : isMember '}' = false) :
    IsLocal (takeRun? isMember) := by
  intro s t run rest hs hrest
  rw [takeRun?_append hclosing hs, map_followedBy_eq_some_iff]

theorem isLocal_readBlockPath? : IsLocal readBlockPath? := by
  intro s t path rest hs hrest
  cases s with
  | nil => cases hs
  | cons d s =>
    simp only [List.cons_append, readBlockPath?]
    split
    · rw [← List.cons_append, trimStart_append hs]
      exact isLocal_takeRun? isPathChar (by decide) _ t path rest (mem_trimStart hs) hrest
    · simp

theorem isLocal_readFallback? : IsLocal readFallback? := by
  intro s t fallback rest hs hrest
  have hpath := (isLocal_takeRun? isPathChar (by decide)).map Fallback.path s t fallback rest hs
    hrest
  cases s with
  | nil => cases hs
  | cons d s =>
    -- in quotes the fallback ends at the next quote, which stays where it is; else it is a run
    by_cases hd : d = '"'
    · subst hd
      simp only [List.cons_append, readFallback?, Option.map_eq_some_iff, Prod.exists,
        Prod.mk.injEq]
      constructor
      · rintro ⟨literal, after, hcut, rfl, rfl⟩
        exact ⟨literal, rest, cutAt?_append_iff.mp hcut, rfl, rfl⟩
      · rintro ⟨literal, after, hcut, rfl, rfl⟩
        exact ⟨literal, after ++ t, cutAt?_append_iff.mpr hcut, rfl, rfl⟩
    · have hplain : ∀ rest, readFallback? (d :: rest) =
          (takeRun? isPathChar (d :: rest)).map fun found => (.path found.1, found.2) := by
        intro rest
        unfold readFallback?
        split
        · rename_i heq
          exact absurd (List.cons.inj heq).1 hd
        · rfl
      rw [List.cons_append, hplain, hplain]
      exact hpath

/-- The two bars before a fallback are a word like any other. -/
theorem readInterpolation?_of_takeRun? {path : String} {afterPath : List Char}
    (hrun : takeRun? isPathChar s = some (path, afterPath)) :
    readInterpolation? s =
      match Text.dropStart? ['|', '|'] (Text.trimStart afterPath) with
      | some inside => (readFallback? (Text.trimStart inside)).map fun (fallback, rest) =>
          (interpolation path (some fallback), rest)
      | none => some (interpolation path none, Text.trimStart afterPath) := by
  unfold readInterpolation?
  simp only [hrun]
  cases hbars : Text.dropStart? ['|', '|'] (Text.trimStart afterPath) with
  | some inside => rw [Text.dropStart?_eq_some_iff.mp hbars]; rfl
  | none =>
    split
    · rename_i inside hinside
      rw [Text.dropStart?_eq_some_iff.mpr hinside] at hbars
      cases hbars
    · rfl

theorem isLocal_readInterpolation? : IsLocal readInterpolation? := by
  intro s t marker rest hs hrest
  have happend : takeRun? isPathChar (s ++ t) =
      (takeRun? isPathChar s).map (followedBy t) := takeRun?_append (by decide) hs
  cases hrun : takeRun? isPathChar s with
  | none =>
    rw [hrun, Option.map_none] at happend
    simp [readInterpolation?, hrun, happend]
  | some found =>
    obtain ⟨path, afterPath⟩ := found
    have hafter : '}' ∈ afterPath := mem_of_takeRun? (by decide) hrun hs
    rw [hrun] at happend
    rw [readInterpolation?_of_takeRun? happend, readInterpolation?_of_takeRun? hrun]
    dsimp only
    rw [trimStart_append hafter, dropStart?_append (mem_trimStart hafter) (by decide)]
    cases hbars : Text.dropStart? ['|', '|'] (Text.trimStart afterPath) with
    | none => simp
    | some inside =>
      have hinside : '}' ∈ inside := mem_of_dropStart? hbars (mem_trimStart hafter) (by decide)
      simp only [Option.map_some]
      rw [trimStart_append hinside]
      exact isLocal_readFallback?.map (fun fallback => interpolation path (some fallback)) _ t
        marker rest (mem_trimStart hinside) hrest

theorem isLocal_readInside? : IsLocal readInside? := by
  intro s t marker rest hs hrest
  unfold readInside?
  rw [dropStart?_append hs (by decide)]
  -- each keyword is shorter than the text, for it does not have the brace, so the same one is found
  cases hsign : Text.dropStart? ['>'] s with
  | some inside =>
    have hinside : '}' ∈ inside := mem_of_dropStart? hsign hs (by decide)
    simp only [Option.map_some]
    rw [trimStart_append hinside]
    exact (isLocal_takeRun? isNameChar (by decide)).map inclusion _ t marker rest
      (mem_trimStart hinside) hrest
  | none =>
    simp only [Option.map_none]
    rw [dropStart?_append hs (by decide)]
    cases heach : Text.dropStart? "#each".toList s with
    | some inside =>
      exact isLocal_readBlockPath?.map loopOpen _ t marker rest
        (mem_of_dropStart? heach hs (by decide)) hrest
    | none =>
      simp only [Option.map_none]
      rw [dropStart?_append hs (by decide)]
      cases hif : Text.dropStart? "#if".toList s with
      | some inside =>
        exact isLocal_readBlockPath?.map conditionOpen _ t marker rest
          (mem_of_dropStart? hif hs (by decide)) hrest
      | none =>
        simp only [Option.map_none]
        rw [dropStart?_append hs (by decide)]
        cases Text.dropStart? "/each".toList s with
        | some inside => simp
        | none =>
          simp only [Option.map_none]
          rw [dropStart?_append hs (by decide)]
          cases Text.dropStart? "/if".toList s with
          | some inside => simp
          | none => exact isLocal_readInterpolation? s t marker rest hs hrest

/-- What is read as a marker are the opening braces, the inside and the closing braces. -/
theorem read?_eq_some_iff {marker : Marker} :
    read? s = some (marker, rest) ↔
      ∃ inside afterInside, s = opening ++ inside ∧
        readInside? (Text.trimStart inside) = some (marker, afterInside) ∧
        Text.trimStart afterInside = closing ++ rest := by
  unfold read?
  constructor
  · intro h
    split at h
    · cases h
    · rename_i inside hopening
      split at h
      · cases h
      · rename_i found afterInside hinside
        simp only [Option.map_eq_some_iff, Prod.mk.injEq] at h
        obtain ⟨after, hclosing, rfl, rfl⟩ := h
        exact ⟨inside, afterInside, Text.dropStart?_eq_some_iff.mp hopening, hinside,
          Text.dropStart?_eq_some_iff.mp hclosing⟩
  · rintro ⟨inside, afterInside, hopening, hinside, hclosing⟩
    simp [Text.dropStart?_eq_some_iff.mpr hopening, hinside,
      Text.dropStart?_eq_some_iff.mpr hclosing]

theorem mem_of_trimStart_eq_closing {afterInside : List Char}
    (h : Text.trimStart afterInside = closing ++ rest) : '}' ∈ afterInside :=
  (trimStart_suffix afterInside).subset (by simp [h, closing])

/-- **A marker is decided by its own characters.** It is read at the start of a text whether or not
the text goes on after it. -/
theorem read?_append_iff {marker : Marker} :
    read? (s ++ t) = some (marker, rest ++ t) ↔ read? s = some (marker, rest) := by
  rw [read?_eq_some_iff, read?_eq_some_iff]
  constructor
  · rintro ⟨inside, afterInside, hopening, hinside, hclosing⟩
    -- what is left after the marker is an end of the inside, so the inside goes on into `t`
    obtain ⟨before, rfl⟩ := (readInside?_readsOff _ _ _ hinside).trans (trimStart_suffix inside)
    obtain ⟨blanks, rfl⟩ : ∃ blanks, afterInside = blanks ++ closing ++ rest ++ t := by
      obtain ⟨blanks, hblanks⟩ := trimStart_suffix afterInside
      exact ⟨blanks, by rw [← hblanks, hclosing]; simp⟩
    have hs : s = opening ++ (before ++ (blanks ++ closing ++ rest)) := by
      rw [← List.append_assoc, ← List.append_assoc] at hopening
      rw [List.append_cancel_right hopening, List.append_assoc]
    have hafter : '}' ∈ blanks ++ closing ++ rest := by simp [closing]
    have hmem : '}' ∈ before ++ (blanks ++ closing ++ rest) := List.mem_append_right _ hafter
    refine ⟨_, blanks ++ closing ++ rest, hs, ?_, ?_⟩
    · rw [← List.append_assoc, trimStart_append hmem] at hinside
      exact (isLocal_readInside? _ t marker _ (mem_trimStart hmem) hafter).mp hinside
    · rw [trimStart_append hafter, ← List.append_assoc] at hclosing
      exact List.append_cancel_right hclosing
  · rintro ⟨inside, afterInside, rfl, hinside, hclosing⟩
    have hafter := mem_of_trimStart_eq_closing hclosing
    have hmem := (readInside?_readsOff _ _ _ hinside).subset hafter
    refine ⟨inside ++ t, afterInside ++ t, List.append_assoc _ _ _, ?_, ?_⟩
    · rw [trimStart_append ((trimStart_suffix inside).subset hmem)]
      exact (isLocal_readInside? _ t marker afterInside hmem hafter).mpr hinside
    · rw [trimStart_append hafter, hclosing, List.append_assoc]

end Marker

end StaticSite
