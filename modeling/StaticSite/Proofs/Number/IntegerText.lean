import StaticSite.Template.Value
import StaticSite.Proofs.Number.Decimals
import StaticSite.Proofs.Number.Digits
import StaticSite.Proofs.Number.Rounding
/-!
# StaticSite.Proofs.Number.IntegerText

**Integers are shown with all their digits.** A number below `10 ^ 21` that stands for an integer
has the exact digits of that integer for its text (`text_of_magnitude?`), whatever fewer digits read
back to it. For which numbers this is also the shortest text is said by `text_of_integer?`: for
those that no integer of fewer significant digits is rounded to. All numbers up to `2 ^ 53` are
such, since hardly any other integer is rounded to them (`eq_of_nearest_eq`).
-/

set_option autoImplicit false

namespace StaticSite.Binary64

variable {significand n : Nat} {exponent : Int} {negative : Bool}

/-! ### The range of the positional text -/

/-- What a magnitude stands for, as a product. -/
theorem cast_of_magnitude? (h : magnitude? significand exponent = some n) :
    (n : ℚ) = significand * 2 ^ exponent := by
  rw [magnitude?_eq_some_iff] at h
  have hdown : (0 : ℚ) < 2 ^ (-exponent).toNat := by positivity
  have hcast : (n : ℚ) * 2 ^ (-exponent).toNat = significand * 2 ^ exponent.toNat := mod_cast h
  rw [← mul_left_inj' hdown.ne', hcast, ← Decimal.zpow_mul_toNat_neg (by norm_num) exponent,
    mul_assoc]

/-- Below `10 ^ 21` the steps of integral numbers divide it, so the last number is a step below. -/
theorem add_step_le {k : Nat} (hfull : 2 ^ 52 ≤ significand) (hlt : significand * 2 ^ k < 10 ^ 21) :
    significand * 2 ^ k + 2 ^ k ≤ 10 ^ 21 := by
  have hsteps : 2 ^ (52 + k) < 2 ^ 70 := by
    rw [Nat.pow_add]
    exact Nat.lt_of_le_of_lt (Nat.mul_le_mul_right _ hfull) (Nat.lt_trans hlt (by decide))
  have hk : k ≤ 21 := by
    have := (Nat.pow_lt_pow_iff_right Nat.one_lt_two).mp hsteps
    omega
  obtain ⟨steps, htotal⟩ : 2 ^ k ∣ 10 ^ 21 := (pow_dvd_pow 2 hk).trans (by decide)
  rw [htotal, Nat.mul_comm (2 ^ k)] at hlt ⊢
  rw [← Nat.succ_mul]
  exact Nat.mul_le_mul_right _ (Nat.lt_of_mul_lt_mul_right hlt)

theorem add_half_step_lt (hcanonical : (finite negative significand exponent).IsCanonical)
    (h : magnitude? significand exponent = some n) (hlt : n < 10 ^ 21) :
    (n : ℚ) + 2 ^ exponent / 2 < 10 ^ 21 := by
  rcases Int.le_total exponent 0 with hneg | hnonneg
  · have hstep : (2 : ℚ) ^ exponent ≤ 1 := zpow_le_one_of_nonpos₀ (by norm_num) hneg
    have hnext : (n : ℚ) + 1 ≤ 10 ^ 21 := mod_cast hlt
    linarith
  · obtain ⟨k, rfl⟩ := Int.eq_ofNat_of_zero_le hnonneg
    obtain ⟨-, -, -, hfull⟩ := hcanonical
    rw [magnitude?_natCast, Option.some.injEq] at h
    subst h
    have hnext := add_step_le (hfull.resolve_right (by unfold minExponent; omega)) hlt
    have hcast : ((significand * 2 ^ k : Nat) : ℚ) + 2 ^ k ≤ 10 ^ 21 := mod_cast hnext
    have hstep : (0 : ℚ) < 2 ^ k := by positivity
    rw [zpow_natCast]
    linarith

theorem significand_ne_zero (h : magnitude? significand exponent = some n) (hn : n ≠ 0) :
    significand ≠ 0 := by
  rintro rfl
  rw [magnitude?_eq_some_iff, Nat.zero_mul, Nat.mul_eq_zero] at h
  exact h.elim hn (Nat.ne_of_gt (Nat.two_pow_pos _))

theorem leading_shortest_bounds (hcanonical : (finite negative significand exponent).IsCanonical)
    (h : magnitude? significand exponent = some n) (hn : n ≠ 0) (hlt : n < 10 ^ 21) :
    -6 ≤ (Decimal.shortest significand exponent).leading ∧
      (Decimal.shortest significand exponent).leading ≤ 20 := by
  have hnear := Decimal.near_shortest significand exponent
  have hvalue := cast_of_magnitude? h
  have hone : (1 : ℚ) ≤ n := mod_cast Nat.pos_of_ne_zero hn
  have hhalf := hnear.half_le (significand_ne_zero h hn)
  rw [← hvalue] at hhalf
  have hdigits : (Decimal.shortest significand exponent).digits ≠ 0 := by
    intro hzero
    rw [Decimal.value, hzero, Nat.cast_zero, zero_mul] at hhalf
    linarith
  constructor
  · rw [← not_lt, Decimal.leading_lt_iff hdigits, not_lt]
    refine le_trans ?_ hhalf
    norm_num
    linarith
  · have hbelow := add_half_step_lt hcanonical h hlt
    refine Int.le_of_lt_add_one ((Decimal.leading_lt_iff hdigits).mpr ?_)
    refine lt_of_le_of_lt (hnear.high.trans ?_) hbelow
    rw [hvalue]
    linarith

/-- The text of a number that stands for a natural number has all digits of that number. -/
theorem text_of_magnitude? (hcanonical : (finite negative significand exponent).IsCanonical)
    (h : magnitude? significand exponent = some n) (hn : n ≠ 0) (hlt : n < 10 ^ 21) :
    (Value.number (finite negative significand exponent)).text =
      signed negative (decimalDigits n) := by
  have hsignificand := significand_ne_zero h hn
  have hleading := leading_shortest_bounds hcanonical h hn hlt
  have hlayout : (Value.number (finite negative significand exponent)).text =
      Value.numberLayout.text (finite negative significand exponent) := rfl
  rw [hlayout]
  simp only [Layout.text, Value.numberLayout, if_neg hsignificand, if_pos hleading, h]
  simp

/-! ### Integers and the numbers that they are rounded to

The shortest integer is sought among all that are rounded to one number. Of these only one is known
to begin with, the integer that the number stands for. -/

/-- What is rounded to a finite number has what it stands for as its nearest number. -/
theorem nearest_of_roundQuotient {sign : Bool} {m : Nat}
    (hround : roundQuotient sign m 1 = finite negative significand exponent)
    (h : magnitude? significand exponent = some n) : nearest m = n := by
  have hrounded := roundedTo_nearest sign m
  rw [hround] at hrounded
  cases hrounded with
  | finite hvalue _ => exact Option.some.inj (hvalue.symm.trans h)

/-- Up to `2 ^ 53` only the number itself is rounded to a number, and the next one to `2 ^ 53`. -/
theorem eq_of_nearest_eq {m : Nat} (hn : n ≤ 2 ^ 53) (h : nearest m = n) :
    m = n ∨ n = 2 ^ 53 ∧ m = 2 ^ 53 + 1 := by
  rcases Nat.lt_or_ge m (2 ^ 53) with hlt | hge
  · exact .inl ((nearest_of_lt hlt).symm.trans h)
  · have hlow := two_pow_le_nearest hge
    rcases Nat.lt_or_ge m (2 ^ 54) with hlt | hfar
    · have hlog : m.log2 = 52 + 1 := (Nat.log2_eq_iff (by omega)).mpr ⟨hge, hlt⟩
      have hstep : step m = 2 ^ 1 := step_of_log2 hlog
      have hnear := two_mul_le_nearest m
      omega
    · have hhigh := two_pow_le_nearest hfar
      omega

/-- The digits of a natural number without the zeros at the end. -/
def significantDigits (n : Nat) : Nat :=
  ((decimalDigits n).reverse.dropWhile (· == '0')).length

/-- Whether an integer is the shortest one for a number that stands for `n`: of those that are
rounded to the number, it has the fewest significant digits, and of those with as many it is nearest
to `n`. -/
structure IsShortest (x : Binary64) (n shortest : Int) : Prop where
  rounds : ofInt shortest = x
  fewest : ∀ other, ofInt other = x →
    significantDigits shortest.natAbs ≤ significantDigits other.natAbs
  nearest : ∀ other, ofInt other = x →
    significantDigits other.natAbs = significantDigits shortest.natAbs →
      (shortest - n).natAbs ≤ (other - n).natAbs

/-- A number that stands for an integer has its sign and its magnitude. -/
theorem exists_of_integer? {x : Binary64} {i : Int} (h : x.integer? = some i) :
    ∃ negative significand exponent n, x = finite negative significand exponent ∧
      magnitude? significand exponent = some n ∧
      i = if negative then -(n : Int) else (n : Int) := by
  cases x with
  | nan | infinite => cases h
  | finite negative significand exponent =>
    cases hmagnitude : magnitude? significand exponent with
    | none =>
      simp only [integer?] at h
      rw [hmagnitude] at h
      cases h
    | some n =>
      rw [integer?_finite negative hmagnitude, Option.some.injEq] at h
      exact ⟨_, _, _, n, rfl, hmagnitude, h.symm⟩

section Integral

variable {x : Binary64} {i : Int}

/-- Both sides of a number that stands for an integer: its text, and what is rounded to it. -/
theorem text_and_rounding (hcanonical : x.IsCanonical) (h : x.integer? = some i) (hi : i ≠ 0)
    (hlt : i.natAbs < 10 ^ 21) :
    (Value.number x).text = integerText i ∧ ofInt i = x ∧
      ∀ other, ofInt other = x → nearest other.natAbs = i.natAbs := by
  obtain ⟨negative, significand, exponent, n, rfl, hmagnitude, rfl⟩ := exists_of_integer? h
  have habs : (if negative then -(n : Int) else (n : Int)).natAbs = n := by
    split
    · omega
    · omega
  have hsign : decide ((if negative then -(n : Int) else (n : Int)) < 0) = negative := by
    cases negative with
    | true =>
      simp only [if_true] at hi ⊢
      exact decide_eq_true (by omega)
    | false => exact decide_eq_false (by simp)
  have hn : n ≠ 0 := by
    rintro rfl
    exact hi (by simp)
  rw [habs] at hlt ⊢
  -- the text and the rounding are known for natural numbers; the sign goes along with both
  refine ⟨?_, ?_, fun other hother => nearest_of_roundQuotient hother hmagnitude⟩
  · unfold integerText
    rw [habs, hsign]
    exact text_of_magnitude? hcanonical hmagnitude hn hlt
  · unfold ofInt
    rw [habs, hsign]
    exact roundQuotient_of_magnitude? hcanonical hmagnitude hn

/-- There is a shortest integer for every number to which some integer is rounded. -/
theorem exists_isShortest (h : ofInt i = x) : ∃ shortest, IsShortest x i shortest := by
  obtain ⟨least, hleast, hfewest⟩ := WellFounded.has_min
    (measure fun other : Int => significantDigits other.natAbs).wf {other | ofInt other = x} ⟨i, h⟩
  obtain ⟨shortest, ⟨hshortest, hdigits⟩, hnearest⟩ := WellFounded.has_min
    (measure fun other : Int => (other - i).natAbs).wf
    {other | ofInt other = x ∧ significantDigits other.natAbs = significantDigits least.natAbs}
    ⟨least, hleast, rfl⟩
  refine ⟨shortest, hshortest, fun other hother => ?_, fun other hother hsame => ?_⟩
  · exact hdigits ▸ Nat.le_of_not_lt (hfewest other hother)
  · exact Nat.le_of_not_lt (hnearest other ⟨hother, hsame.trans hdigits⟩)

/-- An integer that is a number is the shortest one for it if none has fewer digits. -/
theorem isShortest_self_iff (h : ofInt i = x) :
    IsShortest x i i ↔
      ∀ other, ofInt other = x → significantDigits i.natAbs ≤ significantDigits other.natAbs :=
  ⟨fun hshortest => hshortest.fewest, fun hfewest => ⟨h, hfewest, fun _ _ _ => by omega⟩⟩

/-- **Integers are shown exactly, not shortly.** The text of a number that stands for an integer
below `10 ^ 21` has all digits of that integer. Of the integers that are rounded to the number there
is a shortest one, and its digits are shown if and only if no other has fewer significant digits
than the integer itself. So it is up to `2 ^ 53`. -/
theorem text_of_integer? (hcanonical : x.IsCanonical) (h : x.integer? = some i) (hi : i ≠ 0)
    (hlt : i.natAbs < 10 ^ 21) :
    (Value.number x).text = integerText i ∧ (∃ shortest, IsShortest x i shortest) ∧
      ((∃ shortest, IsShortest x i shortest ∧ (Value.number x).text = integerText shortest) ↔
        ∀ other, ofInt other = x → significantDigits i.natAbs ≤ significantDigits other.natAbs) ∧
      (i.natAbs ≤ 2 ^ 53 →
        ∃ shortest, IsShortest x i shortest ∧ (Value.number x).text = integerText shortest) := by
  obtain ⟨htext, hself, hothers⟩ := text_and_rounding hcanonical h hi hlt
  have hshown : (∃ shortest, IsShortest x i shortest ∧
      (Value.number x).text = integerText shortest) ↔
        ∀ other, ofInt other = x → significantDigits i.natAbs ≤ significantDigits other.natAbs := by
    rw [← isShortest_self_iff hself]
    constructor
    · rintro ⟨shortest, hshortest, hsame⟩
      rw [htext, integerText_inj] at hsame
      exact hsame ▸ hshortest
    · exact fun hshortest => ⟨i, hshortest, htext⟩
  refine ⟨htext, exists_isShortest hself, hshown, fun hsmall => hshown.mpr ?_⟩
  intro other hother
  rcases eq_of_nearest_eq hsmall (hothers other hother) with heq | ⟨hlast, hnext⟩
  · rw [heq]
  · rw [hlast, hnext]
    decide +kernel

end Integral

/-- The last integer below which all integers are numbers, with its sign. -/
theorem text_of_integer?_last :
    (ofInt (-9007199254740992)).IsCanonical ∧
      (ofInt (-9007199254740992)).integer? = some (-9007199254740992) ∧
      (-9007199254740992 : Int) ≠ 0 ∧ (-9007199254740992 : Int).natAbs < 10 ^ 21 ∧
      (Value.number (ofInt (-9007199254740992))).text = integerText (-9007199254740992) ∧
      (-9007199254740992 : Int).natAbs ≤ 2 ^ 53 ∧
      ∃ shortest, IsShortest (ofInt (-9007199254740992)) (-9007199254740992) shortest ∧
        (Value.number (ofInt (-9007199254740992))).text = integerText shortest := by
  have hcanonical : (ofInt (-9007199254740992)).IsCanonical := by decide +kernel
  have hinteger : (ofInt (-9007199254740992)).integer? = some (-9007199254740992) := by
    decide +kernel
  have hzero : (-9007199254740992 : Int) ≠ 0 := by decide
  have hlt : (-9007199254740992 : Int).natAbs < 10 ^ 21 := by decide
  have hsmall : (-9007199254740992 : Int).natAbs ≤ 2 ^ 53 := by decide
  obtain ⟨htext, -, -, hshortest⟩ := text_of_integer? hcanonical hinteger hzero hlt
  exact ⟨hcanonical, hinteger, hzero, hlt, htext, hsmall, hshortest hsmall⟩

/-- Of `2 ^ 60` all nineteen digits are shown, though sixteen and three zeros are rounded to it. -/
theorem text_longer_than_shortest :
    (ofInt 1152921504606846976).IsCanonical ∧
      (ofInt 1152921504606846976).integer? = some 1152921504606846976 ∧
      (Value.number (ofInt 1152921504606846976)).text = "1152921504606846976".toList ∧
      ofInt 1152921504606847000 = ofInt 1152921504606846976 ∧
      significantDigits 1152921504606847000 = 16 ∧ significantDigits 1152921504606846976 = 19 ∧
      ¬ ∃ shortest, IsShortest (ofInt 1152921504606846976) 1152921504606846976 shortest ∧
        (Value.number (ofInt 1152921504606846976)).text = integerText shortest := by
  have htext : (Value.number (ofInt 1152921504606846976)).text = "1152921504606846976".toList := by
    decide +kernel
  have hexact : integerText 1152921504606846976 = "1152921504606846976".toList := by
    decide +kernel
  have hrounded : ofInt 1152921504606847000 = ofInt 1152921504606846976 := by decide +kernel
  refine ⟨by decide +kernel, by decide +kernel, htext, hrounded, by decide +kernel,
    by decide +kernel, ?_⟩
  rintro ⟨shortest, hshortest, hsame⟩
  rw [htext, ← hexact, integerText_inj] at hsame
  subst hsame
  exact absurd (hshortest.fewest _ hrounded) (by decide +kernel)

end StaticSite.Binary64
