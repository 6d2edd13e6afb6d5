import Mathlib.Algebra.Order.Field.Power
import Mathlib.Data.Rat.Cast.Order
import Mathlib.Tactic.FieldSimp
import Mathlib.Tactic.Linarith
import Mathlib.Tactic.Positivity
import Mathlib.Tactic.Ring
import StaticSite.Number.Layout
/-!
# StaticSite.Proofs.Number.Decimals

What the decimals around a number are worth. A decimal that reads back to a number is at most half a
step away from it (`near_of_readsBack`). The search gives only such decimals, and to move trailing
zeros into the exponent changes no value, so the shortest decimal of a number is near to it
(`near_shortest`). Between which powers of ten a decimal lies is told by the exponent of its leading
digit (`leading_lt_iff`).
-/

set_option autoImplicit false

namespace StaticSite.Decimal

variable {a n significand fuel count : Nat} {i j k exponent : Int} {d : Decimal}

/-- What a decimal is worth. -/
def value (d : Decimal) : ℚ := d.digits * (10 : ℚ) ^ d.exponent

/-! ### Exact comparison

The program compares two scaled numbers without fractions, with both sides multiplied out. In
rational numbers this is the comparison of the values. -/

theorem zpow_mul_toNat_neg {b : ℚ} (hb : b ≠ 0) (i : Int) :
    b ^ i * b ^ (-i).toNat = b ^ i.toNat := by
  rw [← zpow_natCast, ← zpow_natCast, ← zpow_add₀ hb]
  congr 1
  omega

/-- What is compared are the two sides, brought to one denominator. -/
theorem exists_denominator (a n : Nat) (i j : Int) :
    ∃ den : ℚ, 0 < den ∧
      (a : ℚ) * 10 ^ i * den = (a * 10 ^ i.toNat * 2 ^ (-j).toNat : Nat) ∧
      (n : ℚ) * 2 ^ j * den = (n * 2 ^ j.toNat * 10 ^ (-i).toNat : Nat) := by
  refine ⟨10 ^ (-i).toNat * 2 ^ (-j).toNat, by positivity, ?_, ?_⟩
  · push_cast
    rw [← zpow_mul_toNat_neg (by norm_num) i]
    ring
  · push_cast
    rw [← zpow_mul_toNat_neg (by norm_num) j]
    ring

theorem compareScaled_ne_gt_iff :
    compareScaled a i n j ≠ .gt ↔ (a : ℚ) * 10 ^ i ≤ n * 2 ^ j := by
  obtain ⟨den, hden, hleft, hright⟩ := exists_denominator a n i j
  unfold compareScaled
  rw [Nat.compare_ne_gt, ← mul_le_mul_iff_of_pos_right hden, hleft, hright, Nat.cast_le]
  rfl

theorem compareScaled_ne_lt_iff :
    compareScaled a i n j ≠ .lt ↔ (n : ℚ) * 2 ^ j ≤ a * 10 ^ i := by
  obtain ⟨den, hden, hleft, hright⟩ := exists_denominator a n i j
  unfold compareScaled
  rw [Nat.compare_ne_lt, ← mul_le_mul_iff_of_pos_right hden, hleft, hright, Nat.cast_le]
  rfl

/-! ### Decimals near a number

The search takes the first decimal that reads back, and it may come out with zeros at its end. What
counts later is only where the decimal lies, and to take the zeros off does not move it. -/

/-- Whether a decimal is at most half a step away from `significand * 2 ^ exponent`. -/
structure Near (significand : Nat) (exponent : Int) (d : Decimal) : Prop where
  low : ((significand : ℚ) - 1 / 2) * 2 ^ exponent ≤ d.value
  high : d.value ≤ ((significand : ℚ) + 1 / 2) * 2 ^ exponent

theorem two_zpow_sub_two (exponent : Int) : (2 : ℚ) ^ (exponent - 2) = 2 ^ exponent / 4 := by
  rw [zpow_sub₀ (by norm_num)]
  norm_num

/-- The ends of the interval are compared in quarters of a step. -/
theorem near_of_quarters (low : Nat) (hlow : 4 * significand ≤ low + 2)
    (hatLow : compareScaled d.digits d.exponent low (exponent - 2) ≠ .lt)
    (hatHigh : compareScaled d.digits d.exponent (4 * significand + 2) (exponent - 2) ≠ .gt) :
    Near significand exponent d := by
  have hstep : (0 : ℚ) < 2 ^ exponent := by positivity
  have hquarters : (4 * significand : ℚ) ≤ low + 2 := mod_cast hlow
  have hscaled := mul_le_mul_of_nonneg_right hquarters hstep.le
  rw [compareScaled_ne_lt_iff, two_zpow_sub_two] at hatLow
  rw [compareScaled_ne_gt_iff, two_zpow_sub_two] at hatHigh
  push_cast at hatHigh
  constructor
  · unfold value
    linarith
  · unfold value
    linarith

/-- What reads back is near. -/
theorem near_of_readsBack (h : readsBack significand exponent d = true) :
    Near significand exponent d := by
  have hge : ∀ {o : Ordering} {closed : Prop}, o = .gt ∨ closed ∧ o = .eq → o ≠ .lt := by
    rintro o closed (rfl | ⟨-, rfl⟩)
    · decide
    · decide
  have hle : ∀ {o : Ordering} {closed : Prop}, o = .lt ∨ closed ∧ o = .eq → o ≠ .gt := by
    rintro o closed (rfl | ⟨-, rfl⟩)
    · decide
    · decide
  unfold readsBack at h
  simp only [Bool.and_eq_true, Bool.or_eq_true, beq_iff_eq] at h
  refine near_of_quarters _ ?_ (hge h.1) (hle h.2)
  split
  · omega
  · omega

/-- The exact decimal is no step away. -/
theorem value_exact (significand : Nat) (exponent : Int) :
    (exact significand exponent).value = significand * (2 : ℚ) ^ exponent := by
  unfold exact value
  rcases Int.le_total 0 exponent with hnonneg | hneg
  · obtain ⟨k, rfl⟩ := Int.eq_ofNat_of_zero_le hnonneg
    simp
  · obtain ⟨k, hk⟩ := Int.eq_ofNat_of_zero_le (Int.neg_nonneg_of_nonpos hneg)
    obtain rfl : exponent = -(k : Int) := by omega
    have hten : (10 : ℚ) ^ k = 2 ^ k * 5 ^ k := by
      rw [← mul_pow]
      norm_num
    rw [min_eq_left (by omega), Int.neg_neg, Int.toNat_natCast, Int.toNat_neg_natCast,
      zpow_neg, zpow_neg, zpow_natCast, zpow_natCast, hten, Nat.pow_eq, Nat.pow_eq]
    push_cast
    field_simp

theorem near_of_value_eq (h : d.value = significand * (2 : ℚ) ^ exponent) :
    Near significand exponent d := by
  have hstep : (0 : ℚ) < 2 ^ exponent := by positivity
  constructor
  · linarith
  · linarith

theorem value_normalizeWith (fuel : Nat) (d : Decimal) :
    (normalizeWith fuel d).value = d.value := by
  induction fuel generalizing d with
  | zero => rfl
  | succ fuel ih =>
    unfold normalizeWith
    split
    · rename_i hzero
      obtain ⟨digits, hdigits⟩ := Nat.dvd_of_mod_eq_zero hzero.2
      rw [ih]
      simp only [value]
      rw [hdigits, Nat.mul_div_cancel_left _ (by decide), zpow_add_one₀ (by norm_num)]
      push_cast
      ring
    · rfl

theorem readsBack_of_search (h : search significand exponent k fuel count = some d) :
    readsBack significand exponent d = true := by
  induction fuel generalizing count with
  | zero => cases h
  | succ fuel ih =>
    unfold search at h
    simp only at h
    split at h
    · rename_i hnear
      cases h
      exact hnear
    · split at h
      · rename_i hfar
        cases h
        exact hfar
      · exact ih h

theorem near_shortest (significand : Nat) (exponent : Int) :
    Near significand exponent (shortest significand exponent) := by
  have hnormalize : ∀ {d : Decimal}, Near significand exponent d →
      Near significand exponent d.normalize := by
    intro d hd
    have hvalue : d.normalize.value = d.value := value_normalizeWith 400 d
    exact ⟨hvalue ▸ hd.low, hvalue ▸ hd.high⟩
  unfold shortest
  split
  · rename_i d hd
    exact hnormalize (near_of_readsBack (readsBack_of_search hd))
  · exact hnormalize (near_of_value_eq (value_exact significand exponent))

/-- Half a step is half of the number at most. -/
theorem Near.half_le (h : Near significand exponent d) (hsignificand : significand ≠ 0) :
    (significand : ℚ) * 2 ^ exponent / 2 ≤ d.value := by
  have hone : (1 : ℚ) ≤ significand := mod_cast Nat.pos_of_ne_zero hsignificand
  have hstep : (0 : ℚ) < 2 ^ exponent := by positivity
  calc (significand : ℚ) * 2 ^ exponent / 2 = significand / 2 * 2 ^ exponent := by ring
    _ ≤ (significand - 1 / 2) * 2 ^ exponent :=
      mul_le_mul_of_nonneg_right (by linarith) hstep.le
    _ ≤ d.value := h.low

/-! ### The leading digit -/

theorem digits_bounds (hd : d.digits ≠ 0) :
    10 ^ ((decimalDigits d.digits).length - 1) ≤ d.digits ∧
      d.digits < 10 ^ (decimalDigits d.digits).length := by
  have hpos : 0 < (decimalDigits d.digits).length := Nat.length_toDigits_pos
  refine ⟨?_, (Nat.length_toDigits_le_iff (by decide) hpos).mp (Nat.le_refl _)⟩
  rcases Nat.eq_zero_or_pos ((decimalDigits d.digits).length - 1) with hone | hmore
  · rw [hone, Nat.pow_zero]
    exact Nat.pos_of_ne_zero hd
  · refine Nat.le_of_not_lt fun hlt => ?_
    have hle := (Nat.length_toDigits_le_iff (by decide) hmore).mpr hlt
    unfold decimalDigits at hle hpos
    omega

/-- A decimal lies between the power of ten of its leading digit and the next one. -/
theorem leading_bounds (hd : d.digits ≠ 0) :
    (10 : ℚ) ^ d.leading ≤ d.value ∧ d.value < (10 : ℚ) ^ (d.leading + 1) := by
  obtain ⟨hlow, hhigh⟩ := digits_bounds hd
  have hscale : (0 : ℚ) < 10 ^ d.exponent := by positivity
  have hpos : 0 < (decimalDigits d.digits).length := Nat.length_toDigits_pos
  have hleading : d.leading =
      (((decimalDigits d.digits).length - 1 : Nat) : Int) + d.exponent := by
    unfold leading
    omega
  have hnext : d.leading + 1 = ((decimalDigits d.digits).length : Int) + d.exponent := by
    unfold leading
    omega
  unfold value
  constructor
  · rw [hleading, zpow_add₀ (by norm_num), zpow_natCast]
    exact mul_le_mul_of_nonneg_right (mod_cast hlow) hscale.le
  · rw [hnext, zpow_add₀ (by norm_num), zpow_natCast]
    exact mul_lt_mul_of_pos_right (mod_cast hhigh) hscale

theorem leading_lt_iff (hd : d.digits ≠ 0) : d.leading < k ↔ d.value < (10 : ℚ) ^ k := by
  obtain ⟨hlow, hhigh⟩ := leading_bounds hd
  constructor
  · intro h
    exact hhigh.trans_le (zpow_le_zpow_right₀ (by norm_num) h)
  · intro h
    exact (zpow_lt_zpow_iff_right₀ (by norm_num)).mp (hlow.trans_lt h)

end StaticSite.Decimal
