import StaticSite.Proofs.Template.Segmentation
/-!
# StaticSite.Proofs.Template.Grammar

**The one way to cut a template into tokens.** How markers are written is said without a reader
(`Marker.Written`), and the reader reads exactly what is written so (`Marker.read?_iff_written`):
one marker at most starts a text, and it takes the bytes in which it is written
(`Marker.readSized?_exact`). A text is then segmented by text and markers if these make it up, if no
two texts are side by side and none is empty, and if no marker starts inside of a text (`Segments`).
The tokens of a template are its only segmentation, and each of them is read again from its own
characters (`segments_iff_eq_tokenize`).
-/

set_option autoImplicit false

namespace StaticSite

/-! ### How markers are written

The grammar says which characters a marker consists of and where white space may stand. It has one
constructor for each form of marker, and it does not mention what comes after a marker. -/

/-- One or more characters of a class. -/
structure IsRun (isMember : Char → Bool) (s : List Char) : Prop where
  ne_nil : s ≠ []
  members : ∀ c ∈ s, isMember c = true

/-- How a fallback is written. -/
inductive Fallback.Written : Fallback → List Char → Prop
  | literal {text : List Char} : '"' ∉ text → Written (.literal text) ('"' :: (text ++ ['"']))
  | path {path : String} : IsRun Marker.isPathChar path.toList → Written (.path path) path.toList

namespace Marker

/-- What stands between the braces of a marker, without the white space around it. -/
inductive Inside : Marker → List Char → Prop
  | inclusion {blanks : List Char} {name : String} :
      Blank blanks → IsRun isNameChar name.toList →
      Inside (.inclusion name) ('>' :: (blanks ++ name.toList))
  | loopOpen {blanks : List Char} {path : String} :
      Blank blanks → blanks ≠ [] → IsRun isPathChar path.toList →
      Inside (.loopOpen path) ("#each".toList ++ (blanks ++ path.toList))
  | conditionOpen {blanks : List Char} {path : String} :
      Blank blanks → blanks ≠ [] → IsRun isPathChar path.toList →
      Inside (.conditionOpen path) ("#if".toList ++ (blanks ++ path.toList))
  | loopClose : Inside .loopClose "/each".toList
  | conditionClose : Inside .conditionClose "/if".toList
  | value {path : String} :
      IsRun isPathChar path.toList → Inside (.interpolation path none) path.toList
  | valueOr {before after shown : List Char} {path : String} {fallback : Fallback} :
      IsRun isPathChar path.toList → Blank before → Blank after → fallback.Written shown →
      Inside (.interpolation path (some fallback))
        (path.toList ++ (before ++ (['|', '|'] ++ (after ++ shown))))

/-- How a marker is written. -/
def Written (m : Marker) (s : List Char) : Prop :=
  ∃ before inside after, Blank before ∧ m.Inside inside ∧ Blank after ∧
    s = opening ++ (before ++ (inside ++ (after ++ closing)))

end Marker

/-! ### Runs and quotes -/

variable {isMember : Char → Bool} {s rest blanks : List Char} {m : Marker}

/-- A run ends where a character of another class follows. -/
theorem takeRun?_eq_some_iff {run : String} :
    Marker.takeRun? isMember s = some (run, rest) ↔
      s = run.toList ++ rest ∧ IsRun isMember run.toList ∧
        ∀ c ∈ rest.head?, isMember c = false := by
  unfold Marker.takeRun?
  constructor
  · intro h
    split at h
    · cases h
    · rename_i hne
      cases h
      rw [String.toList_ofList]
      refine ⟨List.takeWhile_append_dropWhile.symm,
        ⟨hne, List.all_eq_true.mp List.all_takeWhile⟩, fun c hc => ?_⟩
      have hhead := List.head?_dropWhile_not isMember s
      rw [Option.mem_def.mp hc] at hhead
      simpa using hhead
  · rintro ⟨rfl, hrun, hrest⟩
    obtain ⟨htake, hdrop⟩ := takeWhile_dropWhile_exact hrun.members hrest
    rw [htake, hdrop]
    split
    · rename_i hnil
      exact absurd hnil hrun.ne_nil
    · rw [String.ofList_toList]

/-- A text without the quote ends at the first one. -/
theorem cutAt?_eq_some_iff {c : Char} {before after : List Char} :
    Text.cutAt? [c] s = some (before, after) ↔ s = before ++ c :: after ∧ c ∉ before := by
  induction s generalizing before after with
  | nil => simp [Text.cutAt?, Text.dropStart?]
  | cons d s ih =>
    simp only [Text.cutAt?, Text.dropStart?]
    by_cases hd : c = d
    · subst hd
      cases before with
      | nil => simp
      | cons b before => simp +contextual [eq_comm]
    · cases before with
      | nil => simp [hd, Ne.symm hd]
      | cons b before =>
        simp only [if_neg hd, Option.map_eq_some_iff, Prod.exists, Prod.mk.injEq, List.cons.injEq,
          ih, List.cons_append, List.mem_cons, not_or]
        constructor
        · rintro ⟨piece, rest, ⟨rfl, hpiece⟩, ⟨rfl, rfl⟩, rfl⟩
          exact ⟨⟨rfl, rfl⟩, hd, hpiece⟩
        · rintro ⟨⟨rfl, rfl⟩, -, hpiece⟩
          exact ⟨before, after, ⟨rfl, hpiece⟩, ⟨rfl, rfl⟩, rfl⟩

namespace Marker

/-! ### What is read is written so

Each reader takes a part off the front of a text. What it has taken is read off from its success,
and the parts are put together in the order in which they were taken. -/

theorem inside_of_readBlockPath? {path : String} (h : readBlockPath? s = some (path, rest)) :
    ∃ blanks, Blank blanks ∧ blanks ≠ [] ∧ IsRun isPathChar path.toList ∧
      s = blanks ++ path.toList ++ rest := by
  unfold readBlockPath? at h
  split at h
  · rename_i c tail
    split at h
    · rename_i hblank
      obtain ⟨htext, hrun, -⟩ := takeRun?_eq_some_iff.mp h
      obtain ⟨blanks, hblanks, hs⟩ := exists_blank_trimStart (c :: tail)
      refine ⟨blanks, hblanks, ?_, hrun, ?_⟩
      · -- the first character is blank, so it is not where the path starts
        rintro rfl
        have htrim : Text.trimStart (c :: tail) = Text.trimStart tail := by
          simp [Text.trimStart, hblank]
        have hlength := (trimStart_suffix tail).length_le
        rw [← htrim, ← List.nil_append (Text.trimStart (c :: tail)), ← hs] at hlength
        simp only [List.length_cons] at hlength
        omega
      · rw [List.append_assoc, ← htext]
        exact hs
    · cases h
  · cases h

theorem written_of_readFallback? {fallback : Fallback}
    (h : readFallback? s = some (fallback, rest)) :
    ∃ shown, fallback.Written shown ∧ s = shown ++ rest := by
  unfold readFallback? at h
  split at h
  · simp only [Option.map_eq_some_iff, Prod.exists, Prod.mk.injEq] at h
    obtain ⟨text, after, hcut, rfl, rfl⟩ := h
    obtain ⟨rfl, hquote⟩ := cutAt?_eq_some_iff.mp hcut
    exact ⟨_, .literal hquote, by simp⟩
  · simp only [Option.map_eq_some_iff, Prod.exists, Prod.mk.injEq] at h
    obtain ⟨path, after, hrun, rfl, rfl⟩ := h
    obtain ⟨hs, hrun, -⟩ := takeRun?_eq_some_iff.mp hrun
    exact ⟨_, .path hrun, hs⟩

theorem inside_of_readInterpolation? (h : readInterpolation? s = some (m, rest)) :
    ∃ inside blanks, m.Inside inside ∧ Blank blanks ∧ s = inside ++ (blanks ++ rest) := by
  cases hpath : takeRun? isPathChar s with
  | none => simp [readInterpolation?, hpath] at h
  | some found =>
    obtain ⟨path, afterPath⟩ := found
    obtain ⟨rfl, hrun, -⟩ := takeRun?_eq_some_iff.mp hpath
    obtain ⟨before, hbefore, hafterPath⟩ := exists_blank_trimStart afterPath
    rw [readInterpolation?_of_takeRun? hpath] at h
    cases hbars : Text.dropStart? ['|', '|'] (Text.trimStart afterPath) with
    | none =>
      rw [hbars] at h
      cases h
      exact ⟨_, before, .value hrun, hbefore, by rw [← hafterPath]⟩
    | some afterBars =>
      rw [hbars] at h
      simp only [Option.map_eq_some_iff, Prod.exists, Prod.mk.injEq] at h
      obtain ⟨fallback, after, hfallback, rfl, rfl⟩ := h
      obtain ⟨shown, hshown, htrim⟩ := written_of_readFallback? hfallback
      obtain ⟨between, hbetween, hafterBars⟩ := exists_blank_trimStart afterBars
      refine ⟨_, [], .valueOr hrun hbefore hbetween hshown, by simp [Blank], ?_⟩
      rw [hafterPath, Text.dropStart?_eq_some_iff.mp hbars, hafterBars, htrim]
      simp

theorem inside_of_readInside? (h : readInside? s = some (m, rest)) :
    ∃ inside blanks, m.Inside inside ∧ Blank blanks ∧ s = inside ++ (blanks ++ rest) := by
  have hnone : Blank [] := by simp [Blank]
  unfold readInside? at h
  split at h
  · rename_i afterSign hsign
    simp only [Option.map_eq_some_iff, Prod.exists, Prod.mk.injEq] at h
    obtain ⟨name, after, hname, rfl, rfl⟩ := h
    obtain ⟨htrim, hrun, -⟩ := takeRun?_eq_some_iff.mp hname
    obtain ⟨blanks, hblanks, hafterSign⟩ := exists_blank_trimStart afterSign
    refine ⟨_, [], .inclusion hblanks hrun, hnone, ?_⟩
    rw [Text.dropStart?_eq_some_iff.mp hsign, hafterSign, htrim]
    simp
  · -- the keywords are tried one after the other; what starts with none of them is an interpolation
    split at h
    · rename_i afterWord hword
      simp only [Option.map_eq_some_iff, Prod.exists, Prod.mk.injEq] at h
      obtain ⟨path, after, hpath, rfl, rfl⟩ := h
      obtain ⟨blanks, hblanks, hne, hrun, rfl⟩ := inside_of_readBlockPath? hpath
      refine ⟨_, [], .loopOpen hblanks hne hrun, hnone, ?_⟩
      rw [Text.dropStart?_eq_some_iff.mp hword]
      simp
    · split at h
      · rename_i afterWord hword
        simp only [Option.map_eq_some_iff, Prod.exists, Prod.mk.injEq] at h
        obtain ⟨path, after, hpath, rfl, rfl⟩ := h
        obtain ⟨blanks, hblanks, hne, hrun, rfl⟩ := inside_of_readBlockPath? hpath
        refine ⟨_, [], .conditionOpen hblanks hne hrun, hnone, ?_⟩
        rw [Text.dropStart?_eq_some_iff.mp hword]
        simp
      · split at h
        · rename_i afterWord hword
          cases h
          exact ⟨_, [], .loopClose, hnone, Text.dropStart?_eq_some_iff.mp hword⟩
        · split at h
          · rename_i afterWord hword
            cases h
            exact ⟨_, [], .conditionClose, hnone, Text.dropStart?_eq_some_iff.mp hword⟩
          · exact inside_of_readInterpolation? h

theorem written_of_read? (h : read? s = some (m, rest)) :
    ∃ written, m.Written written ∧ s = written ++ rest := by
  obtain ⟨inner, afterInside, rfl, hinside, hclosing⟩ := read?_eq_some_iff.mp h
  obtain ⟨inside, blanks, hwritten, hblanks, htrim⟩ := inside_of_readInside? hinside
  obtain ⟨before, hbefore, hinner⟩ := exists_blank_trimStart inner
  obtain ⟨more, hmore, hafter⟩ := exists_blank_trimStart afterInside
  refine ⟨_, ⟨before, inside, blanks ++ more, hbefore, hwritten, ?_, rfl⟩, ?_⟩
  · intro c hc
    exact (List.mem_append.mp hc).elim (hblanks c) (hmore c)
  · rw [hinner, htrim, hafter, hclosing]
    simp

/-! ### What is written so is read

A reader stops where a class of characters ends, so it has to be known what follows each part: white
space, bars or a closing brace, none of which belongs to a run. -/

theorem isBlank_of_toNat {c : Char} (h : 33 ≤ c.toNat ∧ c.toNat ≤ 126) :
    Text.isBlank c = false := by
  simp only [Text.isBlank, Bool.or_eq_false_iff, Bool.and_eq_false_iff, decide_eq_false_iff_not,
    beq_eq_false_iff_ne]
  omega

theorem isBlank_of_isAlphanumeric {c : Char} (h : isAlphanumeric c = true) :
    Text.isBlank c = false := by
  simp only [isAlphanumeric, Bool.or_eq_true, Bool.and_eq_true, decide_eq_true_eq, Char.le_def,
    UInt32.le_iff_toNat_le] at h
  have hcode : c.val.toNat = c.toNat := rfl
  have hletters : 'a'.val.toNat = 97 ∧ 'z'.val.toNat = 122 := ⟨rfl, rfl⟩
  have hcapitals : 'A'.val.toNat = 65 ∧ 'Z'.val.toNat = 90 := ⟨rfl, rfl⟩
  have hdigits : '0'.val.toNat = 48 ∧ '9'.val.toNat = 57 := ⟨rfl, rfl⟩
  exact isBlank_of_toNat (by omega)

theorem isBlank_of_isPathChar {c : Char} (h : isPathChar c = true) : Text.isBlank c = false := by
  simp only [isPathChar, Bool.or_eq_true, beq_iff_eq] at h
  rcases h with (h | rfl) | rfl
  · exact isBlank_of_isAlphanumeric h
  · decide
  · decide

theorem isBlank_of_isNameChar {c : Char} (h : isNameChar c = true) : Text.isBlank c = false := by
  simp only [isNameChar, Bool.or_eq_true, beq_iff_eq] at h
  rcases h with (h | rfl) | rfl
  · exact isBlank_of_isAlphanumeric h
  · decide
  · decide

theorem exists_cons_of_isRun (h : IsRun isMember s) :
    ∃ c tail, s = c :: tail ∧ isMember c = true := by
  cases s with
  | nil => exact absurd rfl h.ne_nil
  | cons c tail => exact ⟨c, tail, rfl, h.members c List.mem_cons_self⟩

/-- White space in front of a run is left out. -/
theorem trimStart_isRun (hblanks : Blank blanks) (hrun : IsRun isMember s)
    (hclass : ∀ c, isMember c = true → Text.isBlank c = false) (rest : List Char) :
    Text.trimStart (blanks ++ (s ++ rest)) = s ++ rest := by
  obtain ⟨c, tail, rfl, hc⟩ := exists_cons_of_isRun hrun
  refine trimStart_exact hblanks fun d hd => ?_
  cases hd
  exact hclass c hc

/-- A run ends where white space, and then a character of another class, follows. -/
theorem takeRun?_isRun {run : String} {c : Char} (hrun : IsRun isMember run.toList)
    (hclass : ∀ c, isMember c = true → Text.isBlank c = false) (hblanks : Blank blanks)
    (hc : isMember c = false) :
    takeRun? isMember (run.toList ++ (blanks ++ c :: rest)) = some (run, blanks ++ c :: rest) := by
  refine takeRun?_eq_some_iff.mpr ⟨rfl, hrun, fun d hd => ?_⟩
  cases blanks with
  | nil =>
    cases hd
    exact hc
  | cons b blanks =>
    cases hd
    have hblank := hblanks d List.mem_cons_self
    cases hmember : isMember d with
    | false => rfl
    | true =>
      rw [hclass d hmember] at hblank
      cases hblank

theorem readBlockPath?_isRun {path : String} {after : List Char} (hblanks : Blank blanks)
    (hne : blanks ≠ []) (hrun : IsRun isPathChar path.toList) (hafter : Blank after) :
    readBlockPath? (blanks ++ (path.toList ++ (after ++ closing))) =
      some (path, after ++ closing) := by
  have htrim := trimStart_isRun hblanks hrun (fun c => isBlank_of_isPathChar) (after ++ closing)
  have htake : takeRun? isPathChar (path.toList ++ (after ++ closing)) =
      some (path, after ++ closing) :=
    takeRun?_isRun hrun (fun c => isBlank_of_isPathChar) hafter (by decide)
  cases blanks with
  | nil => exact absurd rfl hne
  | cons b blanks =>
    rw [List.cons_append] at htrim ⊢
    rw [readBlockPath?, if_pos (hblanks b List.mem_cons_self), htrim, htake]

theorem readFallback?_of_written {fallback : Fallback} {shown after : List Char}
    (h : fallback.Written shown) (hafter : Blank after) :
    readFallback? (shown ++ (after ++ closing)) = some (fallback, after ++ closing) := by
  cases h with
  | @literal text hquote =>
    have hcut : Text.cutAt? ['"'] (text ++ '"' :: (after ++ closing)) =
        some (text, after ++ closing) :=
      cutAt?_eq_some_iff.mpr ⟨rfl, hquote⟩
    rw [List.cons_append, List.append_assoc, List.singleton_append, readFallback?, hcut]
    rfl
  | @path path hrun =>
    have htake : takeRun? isPathChar (path.toList ++ (after ++ closing)) =
        some (path, after ++ closing) :=
      takeRun?_isRun hrun (fun c => isBlank_of_isPathChar) hafter (by decide)
    obtain ⟨c, tail, hcons, hc⟩ := exists_cons_of_isRun hrun
    unfold readFallback?
    split
    · rename_i hhead
      rw [hcons] at hhead
      cases hhead
      cases hc
    · rw [htake]
      rfl

/-- White space in front of a fallback is left out. -/
theorem trimStart_fallback {fallback : Fallback} {shown : List Char} (h : fallback.Written shown)
    (hblanks : Blank blanks) (rest : List Char) :
    Text.trimStart (blanks ++ (shown ++ rest)) = shown ++ rest := by
  cases h with
  | literal =>
    refine trimStart_exact hblanks fun c hc => ?_
    cases hc
    decide
  | path hrun => exact trimStart_isRun hblanks hrun (fun c => isBlank_of_isPathChar) rest

/-- A path is read with its fallback, with white space before the bars, after them, and at the
end. -/
theorem readInterpolation?_of_fallback {path : String} {fallback : Fallback}
    {before between shown after : List Char} (hrun : IsRun isPathChar path.toList)
    (hbefore : Blank before) (hbetween : Blank between) (hshown : fallback.Written shown)
    (hafter : Blank after) :
    readInterpolation?
        (path.toList ++ (before ++ '|' :: ('|' :: (between ++ (shown ++ (after ++ closing)))))) =
      some (.interpolation path (some fallback), after ++ closing) := by
  have htake : takeRun? isPathChar
      (path.toList ++ (before ++ '|' :: ('|' :: (between ++ (shown ++ (after ++ closing)))))) =
        some (path, before ++ '|' :: ('|' :: (between ++ (shown ++ (after ++ closing))))) :=
    takeRun?_isRun hrun (fun c => isBlank_of_isPathChar) hbefore (by decide)
  have hbars : Text.trimStart
      (before ++ '|' :: ('|' :: (between ++ (shown ++ (after ++ closing))))) =
        '|' :: ('|' :: (between ++ (shown ++ (after ++ closing)))) := by
    refine trimStart_exact hbefore fun c hc => ?_
    cases hc
    decide
  rw [readInterpolation?_of_takeRun? htake, hbars]
  change ((readFallback? (Text.trimStart (between ++ (shown ++ (after ++ closing))))).map _) = _
  rw [trimStart_fallback hshown hbetween, readFallback?_of_written hshown hafter]
  rfl

/-- A path is no keyword, so what starts with one is an interpolation. -/
theorem readInside?_isRun (hrun : IsRun isPathChar s) (rest : List Char) :
    readInside? (s ++ rest) = readInterpolation? (s ++ rest) := by
  obtain ⟨c, tail, rfl, hc⟩ := exists_cons_of_isRun hrun
  have hword : ∀ w word, isPathChar w = false →
      Text.dropStart? (w :: word) (c :: tail ++ rest) = none := by
    intro w word hw
    rw [List.cons_append, Text.dropStart?, if_neg]
    rintro rfl
    rw [hw] at hc
    cases hc
  have heach : Text.dropStart? "#each".toList (c :: tail ++ rest) = none := hword _ _ (by decide)
  have hif : Text.dropStart? "#if".toList (c :: tail ++ rest) = none := hword _ _ (by decide)
  have heachEnd : Text.dropStart? "/each".toList (c :: tail ++ rest) = none :=
    hword _ _ (by decide)
  have hifEnd : Text.dropStart? "/if".toList (c :: tail ++ rest) = none := hword _ _ (by decide)
  unfold readInside?
  rw [hword _ _ (by decide), heach, hif, heachEnd, hifEnd]

/-- The inside of a marker is read up to its end, and white space after it may be left out. -/
theorem readInside?_of_inside {inside after : List Char} (h : m.Inside inside)
    (hafter : Blank after) :
    ∃ rest, readInside? (inside ++ (after ++ closing)) = some (m, rest) ∧
      Text.trimStart rest = closing := by
  have htrim : Text.trimStart (after ++ closing) = closing := by
    refine trimStart_exact hafter fun c hc => ?_
    cases hc
    rfl
  cases h with
  -- the name ends at the white space or at the closing brace
  | @inclusion blanks name hblanks hrun =>
    have htake : takeRun? isNameChar (name.toList ++ (after ++ closing)) =
        some (name, after ++ closing) :=
      takeRun?_isRun hrun (fun c => isBlank_of_isNameChar) hafter (by decide)
    refine ⟨after ++ closing, ?_, htrim⟩
    have hsign : ∀ s, Text.dropStart? ['>'] ('>' :: s) = some s := fun s => rfl
    rw [List.cons_append, List.append_assoc, readInside?, hsign]
    dsimp only
    rw [trimStart_isRun hblanks hrun fun c => isBlank_of_isNameChar, htake]
    rfl
  | @loopOpen blanks path hblanks hne hrun =>
    have hread := readBlockPath?_isRun hblanks hne hrun hafter
    refine ⟨after ++ closing, ?_, htrim⟩
    rw [List.append_assoc, List.append_assoc]
    change (readBlockPath? (blanks ++ (path.toList ++ (after ++ closing)))).map _ = _
    rw [hread]
    rfl
  | @conditionOpen blanks path hblanks hne hrun =>
    have hread := readBlockPath?_isRun hblanks hne hrun hafter
    refine ⟨after ++ closing, ?_, htrim⟩
    rw [List.append_assoc, List.append_assoc]
    change (readBlockPath? (blanks ++ (path.toList ++ (after ++ closing)))).map _ = _
    rw [hread]
    rfl
  | loopClose => exact ⟨after ++ closing, rfl, htrim⟩
  | conditionClose => exact ⟨after ++ closing, rfl, htrim⟩
  -- a path is not mistaken for a keyword, and no bars follow it
  | @value path hrun =>
    have htake : takeRun? isPathChar (path.toList ++ (after ++ closing)) =
        some (path, after ++ closing) :=
      takeRun?_isRun hrun (fun c => isBlank_of_isPathChar) hafter (by decide)
    refine ⟨closing, ?_, by decide⟩
    rw [readInside?_isRun hrun, readInterpolation?_of_takeRun? htake, htrim]
    rfl
  | @valueOr before between shown path fallback hrun hbefore hbetween hshown =>
    refine ⟨after ++ closing, ?_, htrim⟩
    have hassoc : path.toList ++ (before ++ (['|', '|'] ++ (between ++ shown))) ++
        (after ++ closing) =
        path.toList ++ (before ++ '|' :: ('|' :: (between ++ (shown ++ (after ++ closing))))) := by
      simp
    rw [hassoc, readInside?_isRun hrun]
    exact readInterpolation?_of_fallback hrun hbefore hbetween hshown hafter

theorem trimStart_inside {inside : List Char} (h : m.Inside inside) (hblanks : Blank blanks)
    (rest : List Char) : Text.trimStart (blanks ++ (inside ++ rest)) = inside ++ rest := by
  have hpath : ∀ {path : String} (more : List Char), IsRun isPathChar path.toList →
      Text.trimStart (blanks ++ (path.toList ++ more)) = path.toList ++ more := fun more hrun =>
    trimStart_isRun hblanks hrun (fun c => isBlank_of_isPathChar) more
  cases h with
  | value hrun => exact hpath rest hrun
  | valueOr hrun =>
    rw [List.append_assoc]
    exact hpath _ hrun
  | inclusion => exact trimStart_exact hblanks fun c hc => by cases hc; decide
  | loopOpen => exact trimStart_exact hblanks fun c hc => by cases hc; decide
  | conditionOpen => exact trimStart_exact hblanks fun c hc => by cases hc; decide
  | loopClose => exact trimStart_exact hblanks fun c hc => by cases hc; decide
  | conditionClose => exact trimStart_exact hblanks fun c hc => by cases hc; decide

/-- **The reader reads what is written as a marker**, whatever comes after it. -/
theorem read?_iff_written {written : List Char} :
    read? (written ++ rest) = some (m, rest) ↔ m.Written written := by
  constructor
  · intro h
    obtain ⟨found, hfound, heq⟩ := written_of_read? h
    rwa [List.append_cancel_right heq]
  · rintro ⟨before, inside, after, hbefore, hinside, hafter, rfl⟩
    obtain ⟨left, hread, htrim⟩ := readInside?_of_inside hinside hafter
    have hown : read? (opening ++ (before ++ (inside ++ (after ++ closing)))) = some (m, []) := by
      refine read?_eq_some_iff.mpr ⟨_, left, rfl, ?_, ?_⟩
      · rw [trimStart_inside hinside hbefore]
        exact hread
      · rw [htrim, List.append_nil]
    exact read?_append_iff.mpr hown

theorem read?_eq_none_iff :
    read? s = none ↔ ∀ m written, Written m written → ¬ written <+: s := by
  constructor
  · rintro h m written hwritten ⟨rest, rfl⟩
    rw [read?_iff_written.mpr hwritten] at h
    cases h
  · intro h
    cases hread : read? s with
    | none => rfl
    | some found =>
      obtain ⟨written, hwritten, rfl⟩ := written_of_read? hread
      exact absurd (List.prefix_append _ _) (h _ _ hwritten)

/-- The marker that a text is, from its first character to its last. -/
def ofText? (text : List Char) : Option Marker :=
  match read? text with
  | some (m, []) => some m
  | _ => none

theorem ofText?_eq_some_iff {text : List Char} : ofText? text = some m ↔ m.Written text := by
  have hwritten : read? (text ++ []) = some (m, []) ↔ m.Written text := read?_iff_written
  rw [← hwritten, List.append_nil]
  unfold ofText?
  split
  · rename_i found hread
    simp [hread]
  · rename_i hother
    refine iff_of_false (by simp) fun hread => hother m hread

/-! ### A marker and its bytes

A text is a list of characters here, and the number of bytes is that of their encoding. A prefix is
determined by its number of bytes, since each character takes at least one. -/

/-- How many bytes a text takes. -/
def byteCount (s : List Char) : Nat := (String.ofList s).utf8ByteSize

theorem byteCount_append (s t : List Char) :
    byteCount (s ++ t) = byteCount s + byteCount t := by
  simp [byteCount, String.ofList_append]

/-- The marker at the start of a text, and how many bytes it takes. -/
def readSized? (s : List Char) : Option (Marker × Nat) :=
  (read? s).map fun (m, rest) => (m, byteCount s - byteCount rest)

/-- Whether the first `n` bytes of a text are written as a marker. -/
def StartsAs (s : List Char) (m : Marker) (n : Nat) : Prop :=
  ∃ written rest, s = written ++ rest ∧ byteCount written = n ∧ m.Written written

theorem readSized?_of_written {written : List Char} (h : m.Written written) (rest : List Char) :
    readSized? (written ++ rest) = some (m, byteCount written) := by
  have hread : read? (written ++ rest) = some (m, rest) := read?_iff_written.mpr h
  simp [readSized?, hread, byteCount_append]

theorem readSized?_eq_some_iff {n : Nat} : readSized? s = some (m, n) ↔ StartsAs s m n := by
  constructor
  · intro h
    obtain ⟨⟨found, rest⟩, hread, hfound⟩ := Option.map_eq_some_iff.mp h
    obtain ⟨written, hwritten, rfl⟩ := written_of_read? hread
    simp only [byteCount_append, Nat.add_sub_cancel, Prod.mk.injEq] at hfound
    obtain ⟨rfl, rfl⟩ := hfound
    exact ⟨written, rest, rfl, rfl, hwritten⟩
  · rintro ⟨written, rest, rfl, rfl, hwritten⟩
    exact readSized?_of_written hwritten rest

/-- The first `n` bytes of a text can be only one text. -/
theorem eq_of_byteCount_eq {first second more : List Char} (h : first ++ rest = second ++ more)
    (hcount : byteCount first = byteCount second) : first = second := by
  have hempty : ∀ tail : List Char, byteCount tail = 0 → tail = [] := by
    intro tail htail
    simpa [byteCount] using htail
  rcases List.append_eq_append_iff.mp h with ⟨tail, rfl, -⟩ | ⟨tail, rfl, -⟩
  · rw [byteCount_append] at hcount
    rw [hempty tail (by omega), List.append_nil]
  · rw [byteCount_append] at hcount
    rw [hempty tail (by omega), List.append_nil]

/-- **The reader finds exactly what the grammar says**, and how many bytes it takes: one marker at
most is written at the start of a text, in one number of bytes, and what comes after these bytes has
no part in it. -/
theorem readSized?_exact (s : List Char) :
    (∀ m n, readSized? s = some (m, n) ↔ StartsAs s m n) ∧
      (∀ m n m' n', StartsAs s m n → StartsAs s m' n' → m = m' ∧ n = n') ∧
      ∀ m n, readSized? s = some (m, n) → ∀ first rest, s = first ++ rest → byteCount first = n →
        ∀ other, readSized? (first ++ other) = some (m, n) := by
  refine ⟨fun m n => readSized?_eq_some_iff, fun m n m' n' h h' => ?_, ?_⟩
  · have hread := readSized?_eq_some_iff.mpr h
    rw [readSized?_eq_some_iff.mpr h'] at hread
    cases hread
    exact ⟨rfl, rfl⟩
  · intro m n h first rest hs hn other
    obtain ⟨written, more, hwhole, hcount, hwritten⟩ := readSized?_eq_some_iff.mp h
    have hsame : first = written :=
      eq_of_byteCount_eq (hs.symm.trans hwhole) (hn.trans hcount.symm)
    rw [hsame, readSized?_of_written hwritten, hcount]

end Marker

/-! ### Segmentations

The tokens of a template are known to be its only reading. What is left is to say that what a
segmentation asks for is what a reading is: the markers are read to their own ends, and no marker is
read where a text stands. -/

open Token

/-- A way to cut a text into text and markers. -/
structure Segments (source : List Char) (tokens : List Token) : Prop where
  whole : tokens.flatMap raw = source
  apart : TextsApart tokens
  markers : ∀ m written, .marker m written ∈ tokens → m.Written written
  /-- No marker starts at a character of a text; it may well end behind the text. -/
  texts : ∀ before piece after, tokens = before ++ .text piece :: after →
    ∀ front back, piece = front ++ back → back ≠ [] →
    ∀ m written, Marker.Written m written → ¬ written <+: back ++ after.flatMap raw

theorem isReading_iff {tokens : List Token} :
    IsReading tokens ↔
      (∀ m written, .marker m written ∈ tokens → m.Written written) ∧
        ∀ before piece after, tokens = before ++ .text piece :: after →
          ReadAsText piece (after.flatMap raw) := by
  constructor
  · intro h
    refine ⟨fun m written hmem => ?_, fun before piece after htokens => ?_⟩
    · have hread : Marker.read? (written ++ []) = some (m, []) := by
        rw [List.append_nil]
        exact h.read?_of_mem hmem
      exact Marker.read?_iff_written.mp hread
    · rw [htokens] at h
      exact h.of_append_right.1
  · rintro ⟨hmarkers, htexts⟩
    -- a reading looks at each token with all that follows it, so the induction is on the tokens
    induction tokens with
    | nil => trivial
    | cons token rest ih =>
      have hrest : IsReading rest :=
        ih (fun m written hmem => hmarkers m written (List.mem_cons_of_mem _ hmem))
          fun before piece after htokens =>
            htexts (token :: before) piece after (congrArg (token :: ·) htokens)
      cases token with
      | text piece => exact ⟨htexts [] piece rest rfl, hrest⟩
      | marker m written =>
        exact ⟨Marker.read?_iff_written.mpr (hmarkers m written List.mem_cons_self), hrest⟩

theorem readAsText_iff {piece rest : List Char} :
    ReadAsText piece rest ↔ ∀ front back, piece = front ++ back → back ≠ [] →
      ∀ m written, Marker.Written m written → ¬ written <+: back ++ rest := by
  unfold ReadAsText
  simp only [Marker.read?_eq_none_iff]

theorem segments_iff {source : List Char} {tokens : List Token} :
    Segments source tokens ↔
      tokens.flatMap raw = source ∧ TextsApart tokens ∧ IsReading tokens := by
  rw [isReading_iff]
  simp only [readAsText_iff]
  exact ⟨fun h => ⟨h.whole, h.apart, h.markers, h.texts⟩,
    fun ⟨hwhole, hapart, hmarkers, htexts⟩ => ⟨hwhole, hapart, hmarkers, htexts⟩⟩

theorem textsApart_of_mem {tokens : List Token} (h : TextsApart tokens) {token : Token}
    (hmem : token ∈ tokens) : TextsApart [token] := by
  induction tokens with
  | nil => cases hmem
  | cons first rest ih =>
    have hrest : TextsApart rest := by
      cases first with
      | text piece => exact h.2.2
      | marker m written => exact h
    rcases List.mem_cons.mp hmem with rfl | hmem
    · cases token with
      | text piece => exact ⟨h.1, by simp, trivial⟩
      | marker m written => trivial
    · exact ih hrest hmem

/-- A token is read again from its own characters. -/
theorem tokenize_raw_of_mem {source : List Char} {token : Token} (h : token ∈ tokenize source) :
    tokenize token.raw = [token] := by
  have halone : IsReading [token] := by
    obtain ⟨before, after, htokens⟩ := List.append_of_mem h
    have hread := isReading_tokenize source
    rw [htokens] at hread
    have hfrom : IsReading ([token] ++ after) := hread.of_append_right
    exact hfrom.of_append_left
  have hraw : [token].flatMap raw = token.raw := List.append_nil _
  rw [← hraw, tokenize_of_isReading halone,
    merged_of_textsApart (textsApart_of_mem (textsApart_tokenize source) h)]

/-- Whether a token is what its characters say: a marker as it is written, or text that is none. -/
def Token.IsGenuine : Token → Prop
  | .text piece => Marker.ofText? piece = none
  | .marker m written => Marker.ofText? written = some m

/-- The tokens of a template are what their characters say. -/
theorem isGenuine_of_mem_tokenize {source : List Char} {token : Token}
    (h : token ∈ tokenize source) : token.IsGenuine := by
  obtain ⟨hmarkers, htexts⟩ := isReading_iff.mp (isReading_tokenize source)
  cases token with
  | marker m written => exact Marker.ofText?_eq_some_iff.mpr (hmarkers m written h)
  | text piece =>
    obtain ⟨before, after, htokens⟩ := List.append_of_mem h
    have hnone := htexts before piece after htokens [] piece rfl
    by_cases hpiece : piece = []
    · subst hpiece
      rfl
    · cases htext : Marker.ofText? piece with
      | none => exact htext
      | some m =>
        -- a text that is a marker would be read as one
        have hread : Marker.read? (piece ++ after.flatMap raw) = some (m, after.flatMap raw) :=
          Marker.read?_iff_written.mpr (Marker.ofText?_eq_some_iff.mp htext)
        rw [hnone hpiece] at hread
        cases hread

/-- **The one way to cut a template.** Its tokens are its only segmentation, and each of them is
read again from its own characters. -/
theorem segments_iff_eq_tokenize (source : List Char) :
    (∀ tokens, Segments source tokens ↔ tokens = tokenize source) ∧
      ∀ token ∈ tokenize source, tokenize token.raw = [token] := by
  refine ⟨fun tokens => ?_, fun token => tokenize_raw_of_mem⟩
  rw [segments_iff]
  constructor
  · rintro ⟨rfl, hapart, hread⟩
    rw [tokenize_of_isReading hread, merged_of_textsApart hapart]
  · rintro rfl
    exact ⟨flatMap_raw_tokenize source, textsApart_tokenize source, isReading_tokenize source⟩

end StaticSite
