import Mathlib.Data.List.Basic
/-!
# StaticSite.Proofs.Text.ByteOrder

**Texts in the order of their characters are in the order of their bytes** (`bytes_lt_iff`). For of
two characters, the one that comes first also has the smaller byte where their bytes in UTF-8 first
differ (`firstLess_utf8EncodeChar`), and there is such a place whatever follows them.
-/

set_option autoImplicit false

namespace StaticSite.Text

/-- The bytes of a text in UTF-8. -/
def bytes (s : String) : List UInt8 := s.toUTF8.data.toList

theorem bytes_eq (s : String) : bytes s = s.toList.flatMap String.utf8EncodeChar := by
  unfold bytes
  rw [String.toUTF8_eq_toByteArray, ← String.utf8Encode_toList]
  exact List.toList_data_toByteArray

/-- Whether two lists of bytes differ at some place, and the first has the smaller byte at the first
such place. -/
def FirstLess : List UInt8 → List UInt8 → Prop
  | a :: first, b :: second => a < b ∨ a = b ∧ FirstLess first second
  | _, _ => False

theorem FirstLess.append_lt {first second : List UInt8} (h : FirstLess first second)
    (s t : List UInt8) : first ++ s < second ++ t := by
  induction first generalizing second with
  | nil => exact h.elim
  | cons a first ih =>
    cases second with
    | nil => exact h.elim
    | cons b second =>
      rw [List.cons_append, List.cons_append, List.cons_lt_cons_iff]
      exact h.imp_right fun ⟨heq, hrest⟩ => ⟨heq, ih hrest⟩

/-- Shorter forms start with smaller bytes, and forms of one length list the digits of the number of
the character to the base 64, the highest first. -/
theorem firstLess_utf8EncodeChar {c d : Char} (h : c < d) :
    FirstLess (String.utf8EncodeChar c) (String.utf8EncodeChar d) := by
  have hlt : c.val.toNat < d.val.toNat := h
  have hbound : d.val.toNat < 0x110000 := by
    rcases d.valid with hlow | ⟨-, hhigh⟩
    · exact Nat.lt_trans hlow (by decide)
    · exact hhigh
  unfold String.utf8EncodeChar
  dsimp only
  split_ifs
  all_goals
    simp only [FirstLess, UInt8.lt_iff_toNat_lt, ← UInt8.toNat_inj, UInt8.toNat_ofNat',
      Nat.reducePow]
    simp (disch := omega) only [Nat.mod_eq_of_lt]
    omega

theorem flatMap_utf8EncodeChar_lt {s t : List Char} (h : s < t) :
    s.flatMap String.utf8EncodeChar < t.flatMap String.utf8EncodeChar := by
  induction s generalizing t with
  | nil =>
    cases t with
    | nil => exact absurd h (List.lt_irrefl [])
    | cons d t =>
      obtain ⟨b, rest, hbytes⟩ :=
        List.exists_cons_of_ne_nil (String.utf8EncodeChar_ne_nil (c := d))
      rw [List.flatMap_cons, hbytes]
      exact List.nil_lt_cons _ _
  | cons c s ih =>
    cases t with
    | nil => exact absurd h (List.not_lt_nil _)
    | cons d t =>
      rw [List.flatMap_cons, List.flatMap_cons]
      rcases List.cons_lt_cons_iff.mp h with hlt | ⟨rfl, hrest⟩
      · exact (firstLess_utf8EncodeChar hlt).append_lt _ _
      · exact List.append_left_lt (ih hrest)

theorem bytes_lt {s t : String} (h : s < t) : bytes s < bytes t := by
  rw [bytes_eq, bytes_eq]
  exact flatMap_utf8EncodeChar_lt h

theorem bytes_lt_iff {s t : String} : bytes s < bytes t ↔ s < t := by
  refine ⟨fun h => ?_, bytes_lt⟩
  by_contra hnot
  rcases Std.le_iff_lt_or_eq.mp (String.not_lt.mp hnot) with hlt | rfl
  · exact List.lt_asymm h (bytes_lt hlt)
  · exact List.lt_irrefl _ h

end StaticSite.Text
