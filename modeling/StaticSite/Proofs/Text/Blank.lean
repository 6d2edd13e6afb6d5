import Mathlib.Data.List.DropRight
import StaticSite.Text.Blank
/-!
# StaticSite.Proofs.Text.Blank

White space around texts. What is trimmed off is white space, as much of it as there is
(`trimStart_exact`), so **a trimmed text neither starts nor ends with white space**
(`isTrimmed_trim`).
-/

set_option autoImplicit false

namespace StaticSite

/-- White space, or nothing. -/
def Blank (s : List Char) : Prop := ∀ c ∈ s, Text.isBlank c = true

variable {isMember : Char → Bool} {s rest blanks : List Char}

theorem takeWhile_dropWhile_exact (hs : ∀ c ∈ s, isMember c = true)
    (hrest : ∀ c ∈ rest.head?, isMember c = false) :
    (s ++ rest).takeWhile isMember = s ∧ (s ++ rest).dropWhile isMember = rest := by
  rw [List.takeWhile_append_of_pos hs, List.dropWhile_append_of_pos hs]
  cases rest with
  | nil => simp
  | cons c rest => simp [hrest c rfl]

theorem trimStart_exact (hblanks : Blank blanks)
    (hrest : ∀ c ∈ rest.head?, Text.isBlank c = false) :
    Text.trimStart (blanks ++ rest) = rest :=
  (takeWhile_dropWhile_exact hblanks hrest).2

theorem exists_blank_trimStart (s : List Char) :
    ∃ blanks, Blank blanks ∧ s = blanks ++ Text.trimStart s :=
  ⟨s.takeWhile Text.isBlank, List.all_eq_true.mp List.all_takeWhile,
    List.takeWhile_append_dropWhile.symm⟩

theorem trimStart_suffix (s : List Char) : Text.trimStart s <:+ s := List.dropWhile_suffix _

namespace Text

/-- Whether a text neither starts nor ends with white space. -/
structure IsTrimmed (s : List Char) : Prop where
  start : ∀ c ∈ s.head?, isBlank c = false
  stop : ∀ c ∈ s.getLast?, isBlank c = false

theorem not_isBlank_head?_trimStart (s : List Char) :
    ∀ c ∈ (trimStart s).head?, isBlank c = false := by
  intro c hc
  have hhead := List.head?_dropWhile_not isBlank s
  unfold trimStart at hc
  rw [Option.mem_def.mp hc] at hhead
  simpa using hhead

theorem isTrimmed_trim (s : List Char) : IsTrimmed (trim s) := by
  have hprefix : trim s <+: trimStart s := List.rdropWhile_prefix isBlank _
  refine ⟨fun c hc => ?_, fun c hc => ?_⟩
  · refine not_isBlank_head?_trimStart s c ?_
    obtain ⟨after, hafter⟩ := hprefix
    rw [← hafter, List.head?_append, Option.mem_def.mp hc]
    rfl
  · have hne : trim s ≠ [] := by
      rintro hnil
      rw [hnil] at hc
      cases hc
    have hlast := List.rdropWhile_last_not isBlank (trimStart s) hne
    rw [List.getLast?_eq_some_getLast hne] at hc
    cases hc
    exact Bool.eq_false_iff.mpr hlast

end Text

end StaticSite
