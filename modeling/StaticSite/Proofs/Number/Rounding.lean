import Mathlib.Algebra.Group.Nat.Defs
import StaticSite.Number.Binary64
/-!
# StaticSite.Proofs.Number.Rounding

**Natural numbers as binary64 numbers.** Around `n` the numbers stand at the multiples of a power of
two, the step of `n`, and `nearest n` is the multiple next to `n`. Rounding gives just that, as a
finite number or, from `overflow` on, as infinity (`roundedTo_nearest`), and all else that is said
here of rounding follows from facts about `nearest`: it is half a step away at most
(`two_mul_le_nearest`), does not go below a power of two (`two_pow_le_nearest`) and leaves the
numbers up to `2 ^ 53` alone (`nearest_of_le`).

A canonical number that stands for a natural number is what that number is rounded to
(`roundQuotient_of_magnitude?`).
-/

set_option autoImplicit false

namespace StaticSite.Binary64

variable {n num den significand : Nat} {exponent : Int} {negative : Bool}

/-! ### Division to the nearest -/

/-- The quotient is rounded down or up, whichever is half of the divisor away at most. -/
theorem divideToEven_cases (num den : Nat) :
    divideToEven num den = num / den ∧ 2 * (num % den) ≤ den ∨
      divideToEven num den = num / den + 1 ∧ den ≤ 2 * (num % den) := by
  unfold divideToEven
  simp only
  split
  · exact .inl ⟨rfl, by omega⟩
  · split
    · exact .inr ⟨rfl, by omega⟩
    · -- a half goes to the even neighbour
      rcases Nat.mod_two_eq_zero_or_one (num / den) with heven | hodd
      · exact .inl ⟨by omega, by omega⟩
      · exact .inr ⟨by omega, by omega⟩

theorem divideToEven_mul (a : Nat) (hden : 0 < den) : divideToEven (a * den) den = a := by
  unfold divideToEven
  rw [Nat.mul_div_cancel _ hden, Nat.mul_mod_left]
  exact if_pos hden

theorem div_le_divideToEven (num den : Nat) : num / den ≤ divideToEven num den := by
  rcases divideToEven_cases num den with ⟨h, -⟩ | ⟨h, -⟩
  · omega
  · omega

theorem divideToEven_le (num den : Nat) : divideToEven num den ≤ num / den + 1 := by
  rcases divideToEven_cases num den with ⟨h, -⟩ | ⟨h, -⟩
  · omega
  · omega

theorem two_mul_le_divideToEven (num : Nat) (hden : 0 < den) :
    2 * num ≤ 2 * (divideToEven num den * den) + den := by
  have hnum := Nat.div_add_mod' num den
  rcases divideToEven_cases num den with ⟨h, hrest⟩ | ⟨h, -⟩
  · rw [h]
    omega
  · have hrest := Nat.mod_lt num hden
    rw [h, Nat.add_mul, Nat.one_mul]
    omega

/-! ### The nearest number

The step of a number is the distance of its neighbours. It doubles with each power of two, and below
`2 ^ 53` it is one, so that nothing is rounded there. -/

/-- The distance of the numbers around `n`, as far as it is a natural number. -/
def step (n : Nat) : Nat := 2 ^ (n.log2 - 52)

/-- The number nearest to `n` if numbers go on without end, of two the even one. -/
def nearest (n : Nat) : Nat := divideToEven n (step n) * step n

theorem step_pos (n : Nat) : 0 < step n := Nat.two_pow_pos _

theorem step_of_log2 {k : Nat} (h : n.log2 = 52 + k) : step n = 2 ^ k := by
  rw [step, h, Nat.add_sub_cancel_left]

theorem step_of_log2_le (h : n.log2 ≤ 52) : step n = 1 := by
  rw [step, Nat.sub_eq_zero_of_le h, Nat.pow_zero]

theorem step_of_lt (h : n < 2 ^ 53) : step n = 1 := by
  refine step_of_log2_le ?_
  rcases Nat.eq_zero_or_pos n with rfl | hpos
  · decide
  · exact Nat.le_of_lt_succ ((Nat.log2_lt (Nat.ne_of_gt hpos)).mpr h)

theorem nearest_of_lt (h : n < 2 ^ 53) : nearest n = n := by
  have hdivide := divideToEven_mul n Nat.one_pos
  rw [Nat.mul_one] at hdivide
  rw [nearest, step_of_lt h, Nat.mul_one, hdivide]

/-- Every natural number up to `2 ^ 53` is a number. -/
theorem nearest_of_le (h : n ≤ 2 ^ 53) : nearest n = n := by
  rcases Nat.lt_or_eq_of_le h with hlt | rfl
  · exact nearest_of_lt hlt
  · decide +kernel

/-- The nearest number is half a step away at most. -/
theorem two_mul_le_nearest (n : Nat) : 2 * n ≤ 2 * nearest n + step n :=
  two_mul_le_divideToEven n (step_pos n)

/-- From `2 ^ 52` on, the nearest number is a full significand times the step, or just beyond. -/
theorem significand_bounds (hlog : 52 ≤ n.log2) :
    2 ^ 52 ≤ divideToEven n (step n) ∧ divideToEven n (step n) ≤ 2 ^ 53 := by
  have hn : n ≠ 0 := by
    rintro rfl
    exact absurd hlog (by decide)
  have hbits : 52 + (n.log2 - 52) = n.log2 := by omega
  constructor
  · refine Nat.le_trans ?_ (div_le_divideToEven n (step n))
    rw [Nat.le_div_iff_mul_le (step_pos n), step, ← Nat.pow_add, hbits]
    exact Nat.log2_self_le hn
  · refine Nat.le_trans (divideToEven_le n (step n)) (Nat.succ_le_of_lt ?_)
    rw [Nat.div_lt_iff_lt_mul (step_pos n), step, ← Nat.pow_add, Nat.add_right_comm 52 1, hbits]
    exact Nat.lt_log2_self

/-- Rounding does not go below a power of two. -/
theorem two_pow_le_nearest {k : Nat} (h : 2 ^ k ≤ n) : 2 ^ k ≤ nearest n := by
  rcases Nat.lt_or_ge n (2 ^ 53) with hlt | hge
  · rw [nearest_of_lt hlt]
    exact h
  · have hn : n ≠ 0 := by omega
    have hlog : 53 ≤ n.log2 := (Nat.le_log2 hn).mpr hge
    have hk : k ≤ n.log2 := (Nat.le_log2 hn).mpr h
    calc 2 ^ k ≤ 2 ^ (52 + (n.log2 - 52)) := Nat.pow_le_pow_right Nat.two_pos (by omega)
      _ = 2 ^ 52 * step n := Nat.pow_add ..
      _ ≤ nearest n := Nat.mul_le_mul_right _ (significand_bounds (by omega)).1

/-! ### Rounding natural numbers

Rounding works with a significand and an exponent. The value of the result is the nearest number,
unless that is out of range; a significand that is rounded up to the next power of two has an
exponent of its own but no other value. -/

/-- What a magnitude stands for, without division. -/
theorem magnitude?_eq_some_iff :
    magnitude? significand exponent = some n ↔
      n * 2 ^ (-exponent).toNat = significand * 2 ^ exponent.toNat := by
  unfold magnitude?
  split
  · rename_i hnonneg
    have hdown : (-exponent).toNat = 0 := by omega
    rw [hdown, Nat.pow_zero, Nat.mul_one, Nat.pow_eq, Option.some.injEq, eq_comm]
  · rename_i hneg
    have hup : exponent.toNat = 0 := by omega
    have hscale : 0 < 2 ^ (-exponent).toNat := Nat.two_pow_pos _
    simp only [hup, Nat.pow_zero, Nat.mul_one, Nat.pow_eq]
    split
    · rename_i hmod
      rw [Option.some.injEq, Nat.div_eq_iff_eq_mul_left hscale (Nat.dvd_of_mod_eq_zero hmod),
        eq_comm]
    · rename_i hmod
      refine iff_of_false (by simp) fun heq => hmod ?_
      rw [← heq, Nat.mul_mod_left]

theorem magnitude?_natCast (significand k : Nat) :
    magnitude? significand (k : Int) = some (significand * 2 ^ k) := by
  rw [magnitude?_eq_some_iff, Int.toNat_natCast, Int.toNat_neg_natCast, Nat.pow_zero, Nat.mul_one]

theorem magnitude?_mul_two_pow (n k : Nat) : magnitude? (n * 2 ^ k) (-(k : Int)) = some n := by
  rw [magnitude?_eq_some_iff, Int.neg_neg, Int.toNat_natCast, Int.toNat_neg_natCast, Nat.pow_zero,
    Nat.mul_one]

/-- A natural number has a full significand at an exponent 52 below that of its leading bit. -/
theorem quotientExponent_one (hn : n ≠ 0) : quotientExponent n 1 = (n.log2 : Int) - 52 := by
  have hlog : Nat.log2 1 = 0 := by decide
  have hfull : ¬ n * Nat.pow 2 (-((n.log2 : Int) - (0 : Nat) - 52)).toNat <
      1 * Nat.pow 2 ((n.log2 : Int) - (0 : Nat) - 52).toNat * Nat.pow 2 (precision - 1) := by
    have hle := Nat.log2_self_le hn
    rw [Nat.not_lt, Nat.one_mul, Nat.pow_eq, Nat.pow_eq, Nat.pow_eq, ← Nat.pow_add]
    calc 2 ^ (((n.log2 : Int) - (0 : Nat) - 52).toNat + (precision - 1))
        = 2 ^ (n.log2 + (-((n.log2 : Int) - (0 : Nat) - 52)).toNat) := by
          congr 1
          unfold precision
          omega
      _ ≤ n * 2 ^ (-((n.log2 : Int) - (0 : Nat) - 52)).toNat := by
          rw [Nat.pow_add]
          exact Nat.mul_le_mul_right _ hle
  unfold quotientExponent
  simp only [hlog, hfull, decide_false, Bool.false_eq_true, if_false]
  unfold minExponent
  omega

/-- The number of bits of the largest natural numbers in range. -/
def rangeBits : Nat := 1024

/-- Natural numbers from here on are out of range. -/
def overflow : Nat := 2 ^ rangeBits

theorem lt_overflow {k : Nat} (h : n < 2 ^ k) (hk : k ≤ 1024) : n < overflow :=
  Nat.lt_of_lt_of_le h (Nat.pow_le_pow_right Nat.two_pos hk)

theorem overflow_le {k : Nat} (h : 2 ^ k ≤ n) (hk : 1024 ≤ k) : overflow ≤ n :=
  Nat.le_trans (Nat.pow_le_pow_right Nat.two_pos hk) h

/-- What `value` is as a number: finite and with that value, or infinite if it is out of range. -/
inductive RoundedTo (negative : Bool) (value : Nat) : Binary64 → Prop
  | finite {significand : Nat} {exponent : Int} (h : magnitude? significand exponent = some value)
      (hlt : value < overflow) : RoundedTo negative value (.finite negative significand exponent)
  | infinite (hge : overflow ≤ value) : RoundedTo negative value (.infinite negative)

theorem roundQuotient_one (negative : Bool) (hn : n ≠ 0) :
    roundQuotient negative n 1 =
      if divideToEven (n * 2 ^ (52 - n.log2)) (step n) = 2 ^ 53 then
        if maxExponent < (n.log2 : Int) - 52 + 1 then .infinite negative
        else .finite negative (2 ^ 52) ((n.log2 : Int) - 52 + 1)
      else if maxExponent < (n.log2 : Int) - 52 then .infinite negative
      else .finite negative (divideToEven (n * 2 ^ (52 - n.log2)) (step n))
        ((n.log2 : Int) - 52) := by
  have hdown : (-((n.log2 : Int) - 52)).toNat = 52 - n.log2 := by omega
  have hup : ((n.log2 : Int) - 52).toNat = n.log2 - 52 := by omega
  unfold roundQuotient
  rw [if_neg hn, quotientExponent_one hn]
  simp only [hdown, hup, Nat.pow_eq, Nat.one_mul, precision, step, gt_iff_lt]
  rfl

/-- All bits of a small number fit. -/
theorem roundQuotient_one_of_lt (negative : Bool) (hn : n ≠ 0) (hlog : n.log2 ≤ 52) :
    roundQuotient negative n 1 =
      .finite negative (n * 2 ^ (52 - n.log2)) (-((52 - n.log2 : Nat) : Int)) := by
  have hlt : n * 2 ^ (52 - n.log2) < 2 ^ 53 := by
    have hbits : 2 ^ (n.log2 + 1) * 2 ^ (52 - n.log2) = 2 ^ 53 := by
      rw [← Nat.pow_add]
      congr 1
      omega
    rw [← hbits]
    exact Nat.mul_lt_mul_of_pos_right Nat.lt_log2_self (Nat.two_pow_pos _)
  have hstep : step n = 1 := step_of_log2_le hlog
  have hdivide := divideToEven_mul (n * 2 ^ (52 - n.log2)) Nat.one_pos
  rw [Nat.mul_one] at hdivide
  have hexponent : (n.log2 : Int) - 52 = -((52 - n.log2 : Nat) : Int) := by omega
  rw [roundQuotient_one negative hn, hstep, hdivide, if_neg (Nat.ne_of_lt hlt), hexponent, if_neg]
  unfold maxExponent
  omega

/-- Of a large number as many bits are kept as fit. -/
theorem roundQuotient_one_of_ge (negative : Bool) (hn : n ≠ 0) {k : Nat}
    (hlog : n.log2 = 52 + k) :
    roundQuotient negative n 1 =
      if divideToEven n (2 ^ k) = 2 ^ 53 then
        if maxExponent < (k + 1 : Nat) then .infinite negative
        else .finite negative (2 ^ 52) (k + 1 : Nat)
      else if maxExponent < k then .infinite negative
      else .finite negative (divideToEven n (2 ^ k)) k := by
  have hexponent : (n.log2 : Int) - 52 = (k : Int) := by omega
  have hstep : step n = 2 ^ k := step_of_log2 hlog
  have hdown : 52 - n.log2 = 0 := by omega
  rw [roundQuotient_one negative hn, hstep, hdown, Nat.pow_zero, Nat.mul_one, hexponent]
  rfl

theorem roundedTo_nearest_of_ge (negative : Bool) (hlog : 52 ≤ n.log2) :
    RoundedTo negative (nearest n) (roundQuotient negative n 1) := by
  have hn : n ≠ 0 := by
    rintro rfl
    exact absurd hlog (by decide)
  obtain ⟨k, hk⟩ := Nat.exists_eq_add_of_le hlog
  have hstep : step n = 2 ^ k := step_of_log2 hk
  have hnearest : nearest n = divideToEven n (2 ^ k) * 2 ^ k := by
    rw [nearest, hstep]
  obtain ⟨hlow, hhigh⟩ := significand_bounds hlog
  rw [hstep] at hlow hhigh
  rw [roundQuotient_one_of_ge negative hn hk]
  unfold maxExponent
  split
  · -- the significand is rounded up to the next power of two
    rename_i hcarry
    have hvalue : nearest n = 2 ^ 52 * 2 ^ (k + 1) := by
      rw [hnearest, hcarry, Nat.pow_succ 2 k]
      omega
    rw [hvalue]
    split
    · rw [← Nat.pow_add]
      exact .infinite (overflow_le (Nat.le_refl _) (by omega))
    · have hlt : 2 ^ (52 + (k + 1)) < 2 ^ (54 + k) :=
        Nat.pow_lt_pow_right Nat.one_lt_two (by omega)
      rw [Nat.pow_add] at hlt
      exact .finite (magnitude?_natCast ..) (lt_overflow hlt (by omega))
  · rename_i hcarry
    rw [hnearest]
    split
    · refine .infinite (Nat.le_trans ?_ (Nat.mul_le_mul_right _ hlow))
      rw [← Nat.pow_add]
      exact overflow_le (Nat.le_refl _) (by omega)
    · have hlt : divideToEven n (2 ^ k) * 2 ^ k < 2 ^ 53 * 2 ^ k :=
        Nat.mul_lt_mul_of_pos_right (by omega) (Nat.two_pow_pos k)
      rw [← Nat.pow_add] at hlt
      exact .finite (magnitude?_natCast ..) (lt_overflow hlt (by omega))

/-- A natural number is rounded to the nearest number. -/
theorem roundedTo_nearest (negative : Bool) (n : Nat) :
    RoundedTo negative (nearest n) (roundQuotient negative n 1) := by
  rcases Nat.eq_zero_or_pos n with rfl | hpos
  · rw [nearest_of_lt (Nat.two_pow_pos 53)]
    exact .finite (by decide +kernel) (lt_overflow (Nat.two_pow_pos 53) (by decide))
  · have hn : n ≠ 0 := Nat.ne_of_gt hpos
    rcases Nat.lt_or_ge n.log2 52 with hlog | hlog
    · have hlt : n < 2 ^ 52 := (Nat.log2_lt hn).mp hlog
      rw [roundQuotient_one_of_lt negative hn (by omega), nearest_of_lt (by omega)]
      exact .finite (magnitude?_mul_two_pow ..) (lt_overflow hlt (by decide))
    · exact roundedTo_nearest_of_ge negative hlog

section Rounded

variable {value : Nat} {x : Binary64}

theorem integer?_finite (negative : Bool) (h : magnitude? significand exponent = some n) :
    (finite negative significand exponent).integer? =
      some (if negative then -(n : Int) else (n : Int)) := by
  simp only [integer?]
  rw [h]
  rfl

theorem RoundedTo.integer?_eq_some_iff (h : RoundedTo false value x) {m : Nat} :
    x.integer? = some (m : Int) ↔ value = m ∧ value < overflow := by
  cases h with
  | finite hvalue hlt =>
    rw [integer?_finite false hvalue, if_neg Bool.false_ne_true, Option.some.injEq, Int.ofNat_inj]
    exact (and_iff_left hlt).symm
  | infinite hge => exact iff_of_false (by simp [integer?]) fun hvalue => by omega

theorem integer?_ofNat_eq_some_iff {m : Nat} :
    (ofNat n).integer? = some (m : Int) ↔ nearest n = m ∧ nearest n < overflow :=
  (roundedTo_nearest false n).integer?_eq_some_iff

/-- Whether a number is greater than a natural number. -/
def Exceeds (x : Binary64) (i : Nat) : Prop :=
  match x with
  | nan => False
  | infinite negative => negative = false
  | finite negative significand exponent =>
    negative = false ∧ i * 2 ^ (-exponent).toNat < significand * 2 ^ exponent.toNat

theorem RoundedTo.exceeds_iff (h : RoundedTo false value x) {i : Nat} (hi : i < overflow) :
    x.Exceeds i ↔ i < value := by
  cases h with
  | finite hvalue _ =>
    simp only [Exceeds, true_and]
    rw [← magnitude?_eq_some_iff.mp hvalue, Nat.mul_lt_mul_right (Nat.two_pow_pos _)]
  | infinite hge => exact iff_of_true rfl (Nat.lt_of_lt_of_le hi hge)

theorem exceeds_ofNat_iff {i : Nat} (hi : i < overflow) : (ofNat n).Exceeds i ↔ i < nearest n :=
  (roundedTo_nearest false n).exceeds_iff hi

end Rounded

/-! ### Canonical numbers

A canonical number has a full significand, unless it is very small. So the natural number that it
stands for determines both of its parts. -/

/-- Whether a number is written as binary64 numbers are: the significand is full, unless the
exponent is the least one, and the exponent is in range. -/
def IsCanonical : Binary64 → Prop
  | nan | infinite _ => True
  | finite _ significand exponent =>
    significand < 2 ^ precision ∧ minExponent ≤ exponent ∧ exponent ≤ maxExponent ∧
      (2 ^ (precision - 1) ≤ significand ∨ exponent = minExponent)

instance (x : Binary64) : Decidable x.IsCanonical :=
  match x with
  | nan | infinite _ => isTrue trivial
  | finite .. => instDecidableAnd

/-- A full significand is kept. -/
theorem roundQuotient_mul_two_pow {k : Nat} (hlow : 2 ^ 52 ≤ significand)
    (hlt : significand < 2 ^ 53) (hmax : (k : Int) ≤ maxExponent) :
    roundQuotient negative (significand * 2 ^ k) 1 = .finite negative significand k := by
  have hpos : 0 < significand * 2 ^ k :=
    Nat.mul_pos (Nat.lt_of_lt_of_le (Nat.two_pow_pos 52) hlow) (Nat.two_pow_pos k)
  have hn : significand * 2 ^ k ≠ 0 := Nat.ne_of_gt hpos
  have hlog : (significand * 2 ^ k).log2 = 52 + k := by
    rw [Nat.log2_eq_iff hn, Nat.add_right_comm 52 k 1, Nat.pow_add, Nat.pow_add]
    exact ⟨Nat.mul_le_mul_right _ hlow, Nat.mul_lt_mul_of_pos_right hlt (Nat.two_pow_pos k)⟩
  rw [roundQuotient_one_of_ge negative hn hlog, divideToEven_mul _ (Nat.two_pow_pos k),
    if_neg (Nat.ne_of_lt hlt), if_neg (Int.not_lt.mpr hmax)]

/-- A significand has no place for a number that is moved up by more than 52 bits. -/
theorem le_of_mul_two_pow_lt {k : Nat} (hn : n ≠ 0) (hlt : n * 2 ^ k < 2 ^ 53) : k ≤ 52 := by
  have hscaled : 2 ^ k ≤ n * 2 ^ k := Nat.le_mul_of_pos_left _ (Nat.pos_of_ne_zero hn)
  exact Nat.le_of_lt_succ
    ((Nat.pow_lt_pow_iff_right Nat.one_lt_two).mp (Nat.lt_of_le_of_lt hscaled hlt))

/-- A number that is brought to a full significand is kept. -/
theorem roundQuotient_of_mul_two_pow {k : Nat} (hlow : 2 ^ 52 ≤ n * 2 ^ k)
    (hlt : n * 2 ^ k < 2 ^ 53) :
    roundQuotient negative n 1 = .finite negative (n * 2 ^ k) (-(k : Int)) := by
  have hn : n ≠ 0 := by
    rintro rfl
    rw [Nat.zero_mul] at hlow
    exact absurd hlow (by decide)
  have hk : k ≤ 52 := le_of_mul_two_pow_lt hn hlt
  have hlower : 2 ^ (52 - k) * 2 ^ k ≤ n * 2 ^ k := by
    rw [← Nat.pow_add, Nat.sub_add_cancel hk]
    exact hlow
  have hupper : n * 2 ^ k < 2 ^ (52 - k + 1) * 2 ^ k := by
    rw [← Nat.pow_add, Nat.add_right_comm, Nat.sub_add_cancel hk]
    exact hlt
  have hlog : n.log2 = 52 - k :=
    (Nat.log2_eq_iff hn).mpr ⟨Nat.le_of_mul_le_mul_right hlower (Nat.two_pow_pos k),
      Nat.lt_of_mul_lt_mul_right hupper⟩
  rw [roundQuotient_one_of_lt negative hn (by omega), hlog, Nat.sub_sub_self hk]

/-- A canonical number that stands for a natural number is what that number is rounded to. -/
theorem roundQuotient_of_magnitude?
    (hcanonical : (finite negative significand exponent).IsCanonical)
    (h : magnitude? significand exponent = some n) (hn : n ≠ 0) :
    roundQuotient negative n 1 = .finite negative significand exponent := by
  obtain ⟨hlt, -, hmax, hfull⟩ := hcanonical
  rw [magnitude?_eq_some_iff] at h
  unfold precision at hlt hfull
  unfold minExponent at hfull
  rcases Int.le_total 0 exponent with hnonneg | hneg
  · obtain ⟨k, rfl⟩ := Int.eq_ofNat_of_zero_le hnonneg
    rw [Int.toNat_natCast, Int.toNat_neg_natCast, Nat.pow_zero, Nat.mul_one] at h
    rw [h]
    exact roundQuotient_mul_two_pow (hfull.resolve_right (by omega)) hlt hmax
  · obtain ⟨k, hk⟩ := Int.eq_ofNat_of_zero_le (Int.neg_nonneg_of_nonpos hneg)
    obtain rfl : exponent = -(k : Int) := by omega
    rw [Int.neg_neg, Int.toNat_natCast, Int.toNat_neg_natCast, Nat.pow_zero, Nat.mul_one] at h
    subst h
    -- so the exponent is not the least one
    have hk : k ≤ 52 := le_of_mul_two_pow_lt hn hlt
    exact roundQuotient_of_mul_two_pow (hfull.resolve_right (by omega)) hlt

end StaticSite.Binary64
