import StaticSite.Number.Layout
/-!
# StaticSite.Proofs.Number.Digits

Decimal digits and the numbers that they stand for. A natural number has one row of digits, the one
without a leading zero: reading gives the number back (`decimalDigits_inj`), and what is read from
such a row has it for its digits (`decimalDigits_ofDigitChars_cons`).
-/

set_option autoImplicit false

namespace StaticSite

variable {n : Nat} {c : Char} {digits : List Char}

theorem decimalDigits_zero : decimalDigits 0 = ['0'] := Nat.toDigits_zero 10

theorem decimalDigits_inj {m n : Nat} : decimalDigits m = decimalDigits n ↔ m = n := by
  refine ⟨fun h => ?_, fun h => h ▸ rfl⟩
  have hread : Nat.ofDigitChars 10 (decimalDigits m) 0 = Nat.ofDigitChars 10 (decimalDigits n) 0 :=
    h ▸ rfl
  rwa [decimalDigits, decimalDigits, Nat.ofDigitChars_ten_toDigits,
    Nat.ofDigitChars_ten_toDigits] at hread

theorem isDigit_of_mem_decimalDigits (h : c ∈ decimalDigits n) : c.isDigit = true :=
  Nat.isDigit_of_mem_toDigits (by decide) (by decide) h

/-- A sign is no digit, so integers of the same text are equal. -/
theorem integerText_inj {i j : Int} : integerText i = integerText j ↔ i = j := by
  refine ⟨fun h => ?_, fun h => h ▸ rfl⟩
  have hsign : ∀ {m n : Nat}, '-' :: decimalDigits m ≠ decimalDigits n := fun heq =>
    absurd (isDigit_of_mem_decimalDigits (heq ▸ List.mem_cons_self)) (by decide)
  unfold integerText signed at h
  by_cases hi : i < 0
  · by_cases hj : j < 0
    · simp only [hi, hj, decide_true, if_true, List.cons.injEq, true_and, decimalDigits_inj] at h
      omega
    · simp only [hi, hj, decide_true, decide_false, if_true, Bool.false_eq_true, if_false] at h
      exact absurd h hsign
  · by_cases hj : j < 0
    · simp only [hi, hj, decide_true, decide_false, if_true, Bool.false_eq_true, if_false] at h
      exact absurd h.symm hsign
    · simp only [hi, hj, decide_false, Bool.false_eq_true, if_false, decimalDigits_inj] at h
      omega

theorem decimalDigits_ne_nil (n : Nat) : decimalDigits n ≠ [] := Nat.toDigits_ne_nil

/-- A digit is that of its value. -/
theorem digitChar_of_isDigit (h : c.isDigit = true) :
    c.toNat - '0'.toNat < 10 ∧ (c.toNat - '0'.toNat).digitChar = c := by
  have hzero : '0'.toNat = 48 := rfl
  have hnine : '9'.toNat = 57 := rfl
  rw [Char.isDigit_iff_toNat, hzero, hnine] at h
  have hlt : c.toNat - '0'.toNat < 10 := by omega
  refine ⟨hlt, Char.toNat_inj.mp ?_⟩
  rw [Nat.toNat_digitChar_of_lt_ten hlt]
  omega

/-- Only zero starts with a zero. -/
theorem head?_decimalDigits (hn : n ≠ 0) : (decimalDigits n).head? ≠ some '0' := by
  unfold decimalDigits
  induction n using Nat.strongRecOn with
  | ind n ih =>
    rw [Nat.toDigits_eq_if (by decide)]
    split
    · rw [List.head?_cons, ne_eq, Option.some.injEq, Nat.digitChar_eq_zero]
      exact hn
    · -- the leading digit is that of the quotient
      obtain ⟨first, rest, hquotient⟩ := List.exists_cons_of_ne_nil (decimalDigits_ne_nil (n / 10))
      have hfirst := ih (n / 10) (by omega) (by omega)
      unfold decimalDigits at hquotient
      rw [hquotient] at hfirst ⊢
      exact hfirst

/-- More digits are read on to the number in front of them. -/
theorem decimalDigits_ofDigitChars (hn : 0 < n) (h : ∀ c ∈ digits, c.isDigit = true) :
    decimalDigits (Nat.ofDigitChars 10 digits n) = decimalDigits n ++ digits := by
  induction digits generalizing n with
  | nil => rw [Nat.ofDigitChars_nil, List.append_nil]
  | cons c digits ih =>
    obtain ⟨hlt, hchar⟩ := digitChar_of_isDigit (h c List.mem_cons_self)
    have hfirst : decimalDigits (10 * n + (c.toNat - '0'.toNat)) = decimalDigits n ++ [c] := by
      unfold decimalDigits
      rw [← Nat.toDigits_append_toDigits (by decide) hn hlt, Nat.toDigits_of_lt_base hlt, hchar]
    rw [Nat.ofDigitChars_cons, ih (by omega) fun d hd => h d (List.mem_cons_of_mem c hd), hfirst,
      List.append_assoc, List.singleton_append]

/-- Digits without a leading zero are those of the number that is read. -/
theorem decimalDigits_ofDigitChars_cons (h : ∀ d ∈ c :: digits, d.isDigit = true) (hc : c ≠ '0') :
    decimalDigits (Nat.ofDigitChars 10 (c :: digits) 0) = c :: digits := by
  obtain ⟨hlt, hchar⟩ := digitChar_of_isDigit (h c List.mem_cons_self)
  have hpos : 0 < c.toNat - '0'.toNat := by
    rw [Nat.pos_iff_ne_zero]
    intro hzero
    rw [hzero] at hchar
    exact hc hchar.symm
  rw [Nat.ofDigitChars_cons, Nat.mul_zero, Nat.zero_add,
    decimalDigits_ofDigitChars hpos fun d hd => h d (List.mem_cons_of_mem c hd), decimalDigits,
    Nat.toDigits_of_lt_base hlt, hchar, List.singleton_append]

end StaticSite
