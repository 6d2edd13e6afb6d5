import StaticSite.Proofs.Text.Blank
import StaticSite.Proofs.Text.Split
import StaticSite.Template.Token
/-!
# StaticSite.Proofs.Template.Tokens

**Tokens lose nothing.** A reader of markers leaves an end of the text that it has been given
(`ReadsOff`), and a marker is longer than nothing. So the scanner skips exactly the characters of
the markers that it has read, and the raw texts of the tokens, one after the other, are the template
(`flatMap_raw_tokenize`).
-/

set_option autoImplicit false

namespace StaticSite

/-- What a reader leaves is an end of what it has been given. -/
def ReadsOff {α : Type} (read? : List Char → Option (α × List Char)) : Prop :=
  ∀ s a rest, read? s = some (a, rest) → rest <:+ s

theorem dropStart?_suffix {start s rest : List Char} (h : Text.dropStart? start s = some rest) :
    rest <:+ s :=
  ⟨start, (Text.dropStart?_eq_some_iff.mp h).symm⟩

/-- A reader of one part goes on as another. -/
theorem ReadsOff.map {α β : Type} {read? : List Char → Option (α × List Char)}
    (h : ReadsOff read?) (f : α → β) :
    ReadsOff fun s => (read? s).map fun (a, rest) => (f a, rest) := by
  intro s b rest hread
  simp only [Option.map_eq_some_iff, Prod.mk.injEq] at hread
  obtain ⟨⟨a, rest'⟩, hread, -, rfl⟩ := hread
  exact h _ _ _ hread

namespace Marker

theorem takeRun?_readsOff (isMember : Char → Bool) : ReadsOff (takeRun? isMember) := by
  intro s path rest h
  unfold takeRun? at h
  split at h
  · cases h
  · cases h
    exact List.dropWhile_suffix _

theorem readBlockPath?_readsOff : ReadsOff readBlockPath? := by
  intro s path rest h
  unfold readBlockPath? at h
  split at h
  · split at h
    · exact (takeRun?_readsOff _ _ _ _ h).trans (trimStart_suffix _)
    · cases h
  · cases h

theorem readFallback?_readsOff : ReadsOff readFallback? := by
  intro s fallback rest h
  unfold readFallback? at h
  split at h
  · simp only [Option.map_eq_some_iff, Prod.mk.injEq] at h
    obtain ⟨⟨literal, after⟩, hcut, -, rfl⟩ := h
    rw [Text.cutAt?_eq_some hcut]
    exact (List.suffix_append _ _).trans (List.suffix_cons _ _)
  · exact (takeRun?_readsOff _).map Fallback.path _ _ _ h

theorem readInterpolation?_readsOff : ReadsOff readInterpolation? := by
  intro s marker rest h
  unfold readInterpolation? at h
  split at h
  · cases h
  · rename_i path afterPath hpath
    have hrun := (trimStart_suffix afterPath).trans (takeRun?_readsOff _ _ _ _ hpath)
    split at h
    · rename_i afterBars hbars
      simp only [Option.map_eq_some_iff, Prod.mk.injEq] at h
      obtain ⟨⟨fallback, afterFallback⟩, hfallback, -, rfl⟩ := h
      have hbars' : afterBars <:+ Text.trimStart afterPath := by
        rw [hbars]
        exact (List.suffix_cons _ _).trans (List.suffix_cons _ _)
      exact ((readFallback?_readsOff _ _ _ hfallback).trans (trimStart_suffix _)).trans
        (hbars'.trans hrun)
    · cases h
      exact hrun

theorem readInside?_readsOff : ReadsOff readInside? := by
  intro s marker rest h
  unfold readInside? at h
  split at h
  · rename_i afterSign hsign
    exact (((takeRun?_readsOff _).map inclusion _ _ _ h).trans (trimStart_suffix _)).trans
      (dropStart?_suffix hsign)
  · split at h
    · rename_i afterWord hword
      exact (readBlockPath?_readsOff.map loopOpen _ _ _ h).trans (dropStart?_suffix hword)
    · split at h
      · rename_i afterWord hword
        exact (readBlockPath?_readsOff.map conditionOpen _ _ _ h).trans (dropStart?_suffix hword)
      · split at h
        · rename_i afterWord hword
          cases h
          exact dropStart?_suffix hword
        · split at h
          · rename_i afterWord hword
            cases h
            exact dropStart?_suffix hword
          · exact readInterpolation?_readsOff _ _ _ h

/-- A marker is followed by the end of the text after its opening braces. -/
theorem read?_suffix {s rest : List Char} {marker : Marker} (h : read? s = some (marker, rest)) :
    ∃ inside, s = opening ++ inside ∧ rest <:+ inside := by
  unfold read? at h
  split at h
  · cases h
  · rename_i inside hopening
    refine ⟨inside, Text.dropStart?_eq_some_iff.mp hopening, ?_⟩
    split at h
    · cases h
    · rename_i marker' afterInside hinside
      simp only [Option.map_eq_some_iff, Prod.mk.injEq] at h
      obtain ⟨rest', hclosing, -, rfl⟩ := h
      exact ((dropStart?_suffix hclosing).trans (trimStart_suffix _)).trans
        ((readInside?_readsOff _ _ _ hinside).trans (trimStart_suffix _))

/-- A marker has at least one character. -/
theorem length_lt_of_read? {s rest : List Char} {marker : Marker}
    (h : read? s = some (marker, rest)) : rest.length < s.length := by
  obtain ⟨inside, rfl, hrest⟩ := read?_suffix h
  have hlength := hrest.length_le
  simp only [opening, List.length_append, List.length_cons, List.length_nil]
  omega

end Marker

namespace Token

theorem flatMap_raw_flush (collected : List Char) (tokens : List Token) :
    (flush collected tokens).flatMap raw = collected.reverse ++ tokens.flatMap raw := by
  cases collected with
  | nil => rfl
  | cons c collected => simp [flush, raw]

/-- The scanner gives back the characters that it holds and those that it does not skip. -/
theorem flatMap_raw_scan (skip : Nat) (collected s : List Char) :
    (scan skip collected s).flatMap raw = collected.reverse ++ s.drop skip := by
  induction s generalizing skip collected with
  | nil => simp [scan, flatMap_raw_flush]
  | cons c rest ih =>
    unfold scan
    cases skip with
    | succ skip => simpa using ih skip collected
    | zero =>
      dsimp only
      split
      · rename_i marker after hread
        -- the marker itself and what the scanner goes on with make up the text
        have hlength := Marker.length_lt_of_read? hread
        obtain ⟨n, hn⟩ : ∃ n, (c :: rest).length - after.length = n + 1 :=
          ⟨(c :: rest).length - after.length - 1, by omega⟩
        rw [flatMap_raw_flush, List.flatMap_cons, ih, hn]
        simp [raw]
      · rw [ih]
        simp

end Token

/-- **Tokens lose nothing.** The raw texts of the tokens are the template. -/
theorem flatMap_raw_tokenize (source : List Char) :
    (tokenize source).flatMap Token.raw = source := by
  unfold tokenize
  rw [Token.flatMap_raw_scan]
  rfl

/-- A template that is written with double angle quotes for the double braces. -/
def templateOf (written : String) : List Char :=
  written.toList.flatMap fun c =>
    if c == '«' then Marker.opening else if c == '»' then Marker.closing else [c]

end StaticSite
