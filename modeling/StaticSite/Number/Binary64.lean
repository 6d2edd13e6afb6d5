/-!
# StaticSite.Number.Binary64

Binary64 numbers as exact values. A finite number is `significand * 2 ^ exponent` with a sign of
its own, so that zero keeps its sign; every operation is computed exactly in natural numbers and
rounded once, to nearest with ties to the even significand.

* `roundQuotient` rounds a quotient of naturals: all other operations are instances of it.
* `ofNat`, `ofDecimal`, `mul` and `div` are correctly rounded.
* `integer?` reads back the integer that a number stands for, if it stands for one.
-/

set_option autoImplicit false

namespace StaticSite

/-- A binary64 number. -/
inductive Binary64 where
  /-- The result that is no number. -/
  | nan
  /-- Beyond the largest finite number. -/
  | infinite (negative : Bool)
  /-- The value `significand * 2 ^ exponent`, negated if `negative`. -/
  | finite (negative : Bool) (significand : Nat) (exponent : Int)
deriving DecidableEq, Inhabited, Repr

namespace Binary64

/-- Number of bits of a full significand. -/
def precision : Nat := 53

/-- Exponent of the smallest step between two numbers. -/
def minExponent : Int := -1074

/-- Largest exponent of a full significand. -/
def maxExponent : Int := 971

/-- `num / den` to the nearest natural number, a half going to the even neighbour. -/
def divideToEven (num den : Nat) : Nat :=
  let low := num / den
  let doubled := 2 * (num % den)
  if doubled < den then low
  else if den < doubled then low + 1
  else low + low % 2

/-- The exponent at which `num / den` has a full significand, or the least one there is. -/
def quotientExponent (num den : Nat) : Int :=
  let estimate : Int := (num.log2 : Int) - den.log2 - 52
  let tooLarge : Bool :=
    num * Nat.pow 2 (-estimate).toNat < den * Nat.pow 2 estimate.toNat * Nat.pow 2 (precision - 1)
  max (if tooLarge then estimate - 1 else estimate) minExponent

/-- `num / den` rounded to the nearest number; `den` is positive. -/
def roundQuotient (negative : Bool) (num den : Nat) : Binary64 :=
  if num = 0 then finite negative 0 minExponent
  else
    let exponent := quotientExponent num den
    let significand :=
      divideToEven (num * Nat.pow 2 (-exponent).toNat) (den * Nat.pow 2 exponent.toNat)
    if significand = Nat.pow 2 precision then
      if exponent + 1 > maxExponent then infinite negative
      else finite negative (Nat.pow 2 (precision - 1)) (exponent + 1)
    else if exponent > maxExponent then infinite negative
    else finite negative significand exponent

/-- The number nearest to a natural number. -/
def ofNat (n : Nat) : Binary64 := roundQuotient false n 1

/-- The number nearest to an integer. Zero is positive. -/
def ofInt (i : Int) : Binary64 := roundQuotient (decide (i < 0)) i.natAbs 1

/-- The number nearest to `digits * 10 ^ scale`. Beyond a scale of about 310 decimal places more
than there are digits, the answer is zero or infinite without the power being computed. -/
def ofDecimal (negative : Bool) (digits : Nat) (scale : Int) : Binary64 :=
  if digits = 0 then finite negative 0 minExponent
  else if scale > 400 then infinite negative
  else if scale + (digits.log2 : Int) < -1200 then finite negative 0 minExponent
  else roundQuotient negative (digits * Nat.pow 10 scale.toNat) (Nat.pow 10 (-scale).toNat)

/-- Either zero. -/
def isZero : Binary64 → Bool
  | finite _ significand _ => significand == 0
  | _ => false

/-- Whether this is the result that is no number. -/
def isNaN : Binary64 → Bool
  | nan => true
  | _ => false

/-- Whether this is an infinity. -/
def isInfinite : Binary64 → Bool
  | infinite _ => true
  | _ => false

/-- Product, rounded once. -/
def mul : Binary64 → Binary64 → Binary64
  | nan, _ | _, nan => nan
  | infinite a, infinite b => infinite (a != b)
  | infinite a, finite b m _ | finite b m _, infinite a =>
    if m = 0 then nan else infinite (a != b)
  | finite a m p, finite b n q =>
    roundQuotient (a != b) (m * n * Nat.pow 2 (p + q).toNat) (Nat.pow 2 (-(p + q)).toNat)

/-- Quotient, rounded once. -/
def div : Binary64 → Binary64 → Binary64
  | nan, _ | _, nan => nan
  | infinite _, infinite _ => nan
  | infinite a, finite b _ _ => infinite (a != b)
  | finite a _ _, infinite b => finite (a != b) 0 minExponent
  | finite a m p, finite b n q =>
    if n = 0 then (if m = 0 then nan else infinite (a != b))
    else roundQuotient (a != b) (m * Nat.pow 2 (p - q).toNat) (n * Nat.pow 2 (q - p).toNat)

/-- The number negated. -/
def neg : Binary64 → Binary64
  | nan => nan
  | infinite negative => infinite (!negative)
  | finite negative significand exponent => finite (!negative) significand exponent

/-- The natural number that a finite magnitude stands for, if it is integral. -/
def magnitude? (significand : Nat) (exponent : Int) : Option Nat :=
  if 0 ≤ exponent then some (significand * Nat.pow 2 exponent.toNat)
  else
    let scale := Nat.pow 2 (-exponent).toNat
    if significand % scale = 0 then some (significand / scale) else none

/-- The integer that a number stands for, if it stands for one. -/
def integer? : Binary64 → Option Int
  | finite negative significand exponent =>
    (magnitude? significand exponent).map fun n => if negative then -(n : Int) else n
  | _ => none

/-- The integer nearest to a finite number, a half going away from zero. -/
def roundAwayFromZero? : Binary64 → Option Int
  | finite negative significand exponent =>
    let num := significand * Nat.pow 2 exponent.toNat
    let den := Nat.pow 2 (-exponent).toNat
    let n := (2 * num + den) / (2 * den)
    some (if negative then -(n : Int) else n)
  | _ => none

end Binary64

end StaticSite
