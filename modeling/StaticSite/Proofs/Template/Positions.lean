import StaticSite.Proofs.Number.Digits
import StaticSite.Proofs.Number.Rounding
import StaticSite.Proofs.Template.Lookup
/-!
# StaticSite.Proofs.Template.Positions

Positions in sequences and strings, and their lengths. The keys that stand for positions are the
decimal digits of the natural numbers below `2 ^ 64` (`position?_eq_some_iff`). At a position stands
an element of a sequence or a character of a string, and there are as many of them as the value has
elements or characters.

**The length of a string is not the number of its characters.** It is the number of 16-bit units,
rounded to a number, so the positions that have something and those below the length are the same if
and only if that happens to be the number of characters (`positions_and_length`). For values that
are not too long for their length to be exact, this means that no character takes two units.
-/

set_option autoImplicit false

namespace StaticSite

/-! ### Keys of positions

A key is read as a position if it is written as a number is: no sign, no zero in front, and not too
large. So to read a key and to write a position are inverse to each other. -/

/-- The key that stands for a position. -/
def positionKey (i : Nat) : String := String.ofList (decimalDigits i)

theorem position?_nil {key : String} (h : key.toList = []) : position? key = none := by
  unfold position?
  rw [h]

theorem position?_zero {key : String} (h : key.toList = ['0']) : position? key = some 0 := by
  unfold position?
  rw [h]
  rfl

/-- Other keys stand for the number that their digits are read as. -/
theorem position?_cons {key : String} {c : Char} {digits : List Char}
    (h : key.toList = c :: digits) (hzero : c :: digits ≠ ['0']) :
    position? key =
      if (c :: digits).all Char.isDigit ∧ c ≠ '0' ∧
        Nat.ofDigitChars 10 (c :: digits) 0 < 2 ^ 64
      then some (Nat.ofDigitChars 10 (c :: digits) 0) else none := by
  have hread : (c :: digits).foldl (fun n c => n * 10 + (c.toNat - '0'.toNat)) 0 =
      Nat.ofDigitChars 10 (c :: digits) 0 := by
    rw [Nat.ofDigitChars_eq_foldl]
    simp only [Nat.mul_comm]
  unfold position?
  rw [h]
  -- the empty key and a lone zero have rules of their own, which do not apply here
  split
  · rename_i hnil
    cases hnil
  · rename_i hkey
    exact absurd hkey hzero
  · simp only [hread, Nat.pow_eq, Bool.and_eq_true, List.head?_cons, bne_iff_ne, ne_eq,
      Option.some.injEq]
    split
    · rename_i hdigits
      simp only [hdigits, true_and, not_false_eq_true]
    · rename_i hdigits
      rw [if_neg fun hall => hdigits ⟨hall.1, hall.2.1⟩]

/-- The digits of a position are read, and those of another key are not its own. -/
theorem position?_cons_eq_some_iff {key : String} {c : Char} {digits : List Char} {i : Nat}
    (h : key.toList = c :: digits) (hzero : c :: digits ≠ ['0']) :
    position? key = some i ↔ i < 2 ^ 64 ∧ c :: digits = decimalDigits i := by
  rw [position?_cons h hzero]
  constructor
  · -- what has been read is written with the digits that were read, as there is no zero in front
    intro hread
    split at hread
    · rename_i hdigits
      obtain ⟨hall, hfirst, hlt⟩ := hdigits
      cases hread
      exact ⟨hlt, (decimalDigits_ofDigitChars_cons (List.all_eq_true.mp hall) hfirst).symm⟩
    · cases hread
  · rintro ⟨hlt, hkey⟩
    have hread : Nat.ofDigitChars 10 (c :: digits) 0 = i := by
      rw [hkey]
      exact Nat.ofDigitChars_ten_toDigits
    have hall : (c :: digits).all Char.isDigit = true := by
      rw [hkey]
      exact List.all_eq_true.mpr fun _ => isDigit_of_mem_decimalDigits
    have hi : i ≠ 0 := by
      rintro rfl
      exact hzero (hkey.trans decimalDigits_zero)
    have hfirst : c ≠ '0' := by
      rintro rfl
      exact head?_decimalDigits hi (hkey ▸ rfl)
    rw [hread, if_pos ⟨hall, hfirst, hlt⟩]

theorem position?_eq_some_iff {key : String} {i : Nat} :
    position? key = some i ↔ i < 2 ^ 64 ∧ key.toList = decimalDigits i := by
  rcases h : key.toList with _ | ⟨c, digits⟩
  · rw [position?_nil h]
    exact iff_of_false (by simp) fun hkey => decimalDigits_ne_nil i hkey.2.symm
  · by_cases hzero : c :: digits = ['0']
    · rw [position?_zero (h.trans hzero), hzero, ← decimalDigits_zero, decimalDigits_inj,
        Option.some.injEq]
      exact ⟨fun hi => ⟨hi ▸ Nat.two_pow_pos 64, hi⟩, And.right⟩
    · exact position?_cons_eq_some_iff h hzero

theorem position?_positionKey {i : Nat} (hi : i < 2 ^ 64) : position? (positionKey i) = some i :=
  position?_eq_some_iff.mpr ⟨hi, String.toList_ofList⟩

/-- The length is no position. -/
theorem positionKey_ne_length (i : Nat) : positionKey i ≠ "length" := by
  intro h
  have hmem : 'l' ∈ decimalDigits i := by
    have hkey : decimalDigits i = "length".toList := by
      rw [← h, positionKey, String.toList_ofList]
    rw [hkey]
    decide
  exact absurd (isDigit_of_mem_decimalDigits hmem) (by decide)

/-- Two numbers have the same below them, as far as a limit, if they are equal or both beyond. -/
theorem forall_lt_iff_lt {limit m n : Nat} :
    (∀ i < limit, i < m ↔ i < n) ↔ m = n ∨ limit ≤ m ∧ limit ≤ n := by
  constructor
  · intro hall
    -- a number below the limit is not below itself, so the other one does not exceed it
    have hm : m < limit → n ≤ m := fun hlt =>
      Nat.le_of_not_lt fun h => Nat.lt_irrefl m ((hall m hlt).mpr h)
    have hn : n < limit → m ≤ n := fun hlt =>
      Nat.le_of_not_lt fun h => Nat.lt_irrefl n ((hall n hlt).mp h)
    omega
  · rintro (rfl | ⟨hm, hn⟩) i hi
    · rfl
    · exact iff_of_true (Nat.lt_of_lt_of_le hi hm) (Nat.lt_of_lt_of_le hi hn)

namespace Value

/-! ### What stands at a position -/

/-- Whether a value has positions and a length. -/
def HasLength : Value → Bool
  | sequence _ | string _ => true
  | _ => false

/-- What stands at a position: an element of a sequence, a string of one character of a string. -/
def at? : Value → Nat → Option Value
  | sequence items, i => items[i]?
  | string s, i => s.toList[i]?.map fun c => string (String.singleton c)
  | _, _ => none

/-- The number of elements or characters. -/
def size : Value → Nat
  | sequence items => items.length
  | string s => s.toList.length
  | _ => 0

/-- The number of elements, or of the 16-bit units that the characters take. -/
def units : Value → Nat
  | sequence items => items.length
  | string s => units16 s.toList
  | _ => 0

variable {value : Value} {key : String} {i : Nat}

theorem at?_isSome_iff (value : Value) (i : Nat) :
    (value.at? i).isSome = true ↔ i < value.size := by
  cases value with
  | null | bool | number | mapping => simp [at?, size]
  | sequence items => simp [at?, size]
  | string s => simp [at?, size]

theorem walk_length (htruthy : value.isTruthy = true) (h : value.HasLength = true) :
    value.walk ["length"] = number (.ofNat value.units) := by
  rw [walk_of_truthy htruthy]
  cases value with
  | null | bool | number | mapping => cases h
  | sequence items | string s => rfl

/-- Any other key leads to what stands at its position. -/
theorem walk_of_ne_length (htruthy : value.isTruthy = true) (h : value.HasLength = true)
    (hkey : key ≠ "length") : value.walk [key] = ((position? key).bind value.at?).getD null := by
  rw [walk_of_truthy htruthy, walk]
  cases value with
  | null | bool | number | mapping => cases h
  | sequence items =>
    simp only [property, if_neg hkey]
    rfl
  | string s =>
    simp only [property, if_neg hkey]
    cases position? key with
    | none => rfl
    | some i =>
      simp only [Option.bind_some, at?]
      cases s.toList[i]? with
      | none => rfl
      | some c => rfl

theorem units_eq_size_iff (h : value.HasLength = true) :
    value.units = value.size ↔ ∀ s, value = string s → ∀ c ∈ s.toList, c.toNat < 0x10000 := by
  cases value with
  | null | bool | number | mapping => cases h
  | sequence items => exact iff_of_true rfl fun s hs => by cases hs
  | string s =>
    have hwide : (s.toList.countP fun c => decide (0x10000 ≤ c.toNat)) = 0 ↔
        ∀ c ∈ s.toList, c.toNat < 0x10000 := by
      rw [List.countP_eq_zero]
      simp only [decide_eq_true_eq, Nat.not_le]
    have hunits : (string s).units = (string s).size ↔
        (s.toList.countP fun c => decide (0x10000 ≤ c.toNat)) = 0 := by
      simp only [units, size, units16]
      omega
    rw [hunits, hwide]
    exact ⟨fun hall t ht => string.inj ht ▸ hall, fun hall => hall s rfl⟩

theorem size_le_units (value : Value) : value.size ≤ value.units := by
  cases value with
  | null | bool | number | mapping | sequence => exact Nat.le_refl _
  | string s => exact Nat.le_add_right _ _

/-! ### Positions and lengths

Three numbers may differ: the elements or characters that a value has, the units that its length
counts, and the nearest number to that. Something stands below the first, and the length is the
third. -/

/-- Whether something stands at the positions below the length, and at no others. -/
def PositionsMatchLength (value : Value) : Prop :=
  ∃ length, value.walk ["length"] = number length ∧
    ∀ i < 2 ^ 64, (value.at? i).isSome = true ↔ length.Exceeds i

/-- Positions go on to the number of elements or characters, and the length is the nearest number to
that of the units. -/
theorem positionsMatchLength_iff (htruthy : value.isTruthy = true) (h : value.HasLength = true) :
    value.PositionsMatchLength ↔
      ∀ i < 2 ^ 64, i < value.size ↔ i < Binary64.nearest value.units := by
  have hexceeds : ∀ i < 2 ^ 64, (Binary64.ofNat value.units).Exceeds i ↔
      i < Binary64.nearest value.units :=
    fun i hi => Binary64.exceeds_ofNat_iff (Binary64.lt_overflow hi (by decide))
  unfold PositionsMatchLength
  rw [walk_length htruthy h]
  constructor
  · rintro ⟨length, hlength, hall⟩ i hi
    cases hlength
    rw [← hexceeds i hi, ← hall i hi, at?_isSome_iff]
  · intro hall
    refine ⟨_, rfl, fun i hi => ?_⟩
    rw [hexceeds i hi, ← hall i hi, at?_isSome_iff]

/-- The length has to be the number of elements or characters, except for values with something at
every position. -/
theorem positionsMatchLength_iff_integer? (htruthy : value.isTruthy = true)
    (h : value.HasLength = true) :
    value.PositionsMatchLength ↔
      2 ^ 64 ≤ value.size ∨ (Binary64.ofNat value.units).integer? = some (value.size : Int) := by
  have hlong : 2 ^ 64 ≤ value.size → 2 ^ 64 ≤ Binary64.nearest value.units := fun hsize =>
    Binary64.two_pow_le_nearest (Nat.le_trans hsize (size_le_units value))
  rw [positionsMatchLength_iff htruthy h, forall_lt_iff_lt,
    Binary64.integer?_ofNat_eq_some_iff]
  constructor
  · rintro (heq | ⟨hsize, -⟩)
    · rcases Nat.lt_or_ge value.size (2 ^ 64) with hlt | hge
      · exact .inr ⟨heq.symm, heq ▸ Binary64.lt_overflow hlt (by decide)⟩
      · exact .inl hge
    · exact .inl hsize
  · rintro (hsize | ⟨heq, -⟩)
    · exact .inr ⟨hsize, hlong hsize⟩
    · exact .inl heq.symm

/-- As long as the length is exact, no character may take two units. -/
theorem positionsMatchLength_iff_of_le (htruthy : value.isTruthy = true)
    (h : value.HasLength = true) (hunits : value.units ≤ 2 ^ 53) :
    value.PositionsMatchLength ↔ ∀ s, value = string s → ∀ c ∈ s.toList, c.toNat < 0x10000 := by
  have hsize := size_le_units value
  rw [positionsMatchLength_iff htruthy h, forall_lt_iff_lt, Binary64.nearest_of_le hunits,
    ← units_eq_size_iff h, eq_comm, or_iff_left]
  omega

/-- **Positions count characters, and lengths count units.** Of a truthy sequence or string, the
keys that stand for positions lead to its elements, or to strings of one character, as far as it has
them; all other keys but the length lead to null. The length is the number of units, rounded to a
number. So something stands at exactly the positions below the length if and only if that is the
number of elements or characters, or there are more of them than positions. Up to a length of
`2 ^ 53` this is so for all sequences, and for just the strings without characters that take two
units. -/
theorem positions_and_length (value : Value) (htruthy : value.isTruthy = true)
    (h : value.HasLength = true) :
    (∀ i < 2 ^ 64, value.walk [positionKey i] = (value.at? i).getD null ∧
      ((value.at? i).isSome = true ↔ i < value.size)) ∧
    (∀ key, key ≠ "length" → (∀ i < 2 ^ 64, key ≠ positionKey i) → value.walk [key] = null) ∧
    value.walk ["length"] = number (.ofNat value.units) ∧
    (value.PositionsMatchLength ↔
      2 ^ 64 ≤ value.size ∨ (Binary64.ofNat value.units).integer? = some (value.size : Int)) ∧
    (value.units ≤ 2 ^ 53 → (value.PositionsMatchLength ↔
      ∀ s, value = string s → ∀ c ∈ s.toList, c.toNat < 0x10000)) := by
  refine ⟨fun i hi => ⟨?_, at?_isSome_iff value i⟩, fun key hkey hother => ?_,
    walk_length htruthy h, positionsMatchLength_iff_integer? htruthy h,
    positionsMatchLength_iff_of_le htruthy h⟩
  · rw [walk_of_ne_length htruthy h (positionKey_ne_length i), position?_positionKey hi]
    rfl
  · have hnone : position? key = none := by
      rw [Option.eq_none_iff_forall_ne_some]
      intro i hposition
      obtain ⟨hi, hdigits⟩ := position?_eq_some_iff.mp hposition
      refine hother i hi ?_
      rw [positionKey, ← hdigits, String.ofList_toList]
    rw [walk_of_ne_length htruthy h hkey, hnone]
    rfl

/-- A string of three characters, all of one unit. -/
theorem positions_and_length_name :
    isTruthy (string "Ōmu") = true ∧ HasLength (string "Ōmu") = true ∧
      2 < 2 ^ 64 ∧ walk (string "Ōmu") [positionKey 2] = string "u" ∧
      "02" ≠ "length" ∧ (∀ i < 2 ^ 64, "02" ≠ positionKey i) ∧
      walk (string "Ōmu") ["02"] = null ∧
      walk (string "Ōmu") ["length"] = number (.ofNat 3) ∧
      units (string "Ōmu") ≤ 2 ^ 53 ∧ PositionsMatchLength (string "Ōmu") := by
  have htruthy : isTruthy (string "Ōmu") = true := rfl
  have hlength : HasLength (string "Ōmu") = true := rfl
  have hother : ∀ i < 2 ^ 64, "02" ≠ positionKey i := by
    intro i hi hkey
    have hnone : position? "02" = none := by decide +kernel
    rw [hkey, position?_positionKey hi] at hnone
    cases hnone
  have hunits : units (string "Ōmu") ≤ 2 ^ 53 := by decide +kernel
  have hnarrow : ("Ōmu".toList.all fun c => decide (c.toNat < 0x10000)) = true := by
    decide +kernel
  obtain ⟨hpositions, hkeys, hlen, -, hshort⟩ := positions_and_length _ htruthy hlength
  refine ⟨htruthy, hlength, by decide, (hpositions 2 (by decide)).1, by decide, hother,
    hkeys _ (by decide) hother, hlen, hunits, (hshort hunits).mpr ?_⟩
  intro s hs c hc
  cases hs
  exact of_decide_eq_true (List.all_eq_true.mp hnarrow c hc)

/-- With a character of two units in front, the last position below the length has nothing. -/
theorem length_beyond_characters :
    isTruthy (string "😀é") = true ∧ walk (string "😀é") ["length"] = number (.ofNat 3) ∧
      (Binary64.ofNat 3).Exceeds 2 ∧ walk (string "😀é") [positionKey 2] = null ∧
      ¬ PositionsMatchLength (string "😀é") := by
  have hlength : walk (string "😀é") ["length"] = number (.ofNat 3) := rfl
  have hexceeds : (Binary64.ofNat 3).Exceeds 2 := by
    exact ⟨rfl, by decide +kernel⟩
  refine ⟨rfl, hlength, hexceeds, rfl, ?_⟩
  rintro ⟨length, hwalk, hall⟩
  rw [hlength] at hwalk
  cases hwalk
  exact absurd ((hall 2 (by decide)).mpr hexceeds) (by decide +kernel)

end Value

end StaticSite
