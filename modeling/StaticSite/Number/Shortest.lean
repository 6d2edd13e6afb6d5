import StaticSite.Number.Binary64
/-!
# StaticSite.Number.Shortest

The fewest decimal digits that read back to a binary64 number, and of those the nearest to it.

The reals that round to a number form an interval that reaches half way to each neighbour, ends
included exactly when the significand is even. For one, two, … seventeen digits the two decimal
neighbours of the number are tested against that interval; the first grid with a hit wins, and of
two hits the nearer.
-/

set_option autoImplicit false

namespace StaticSite

/-- A positive decimal `digits * 10 ^ exponent`. -/
structure Decimal where
  digits : Nat
  exponent : Int
deriving DecidableEq, Inhabited, Repr

namespace Decimal

/-- Comparison of `a * 10 ^ i` with `n * 2 ^ j`, in exact arithmetic. -/
def compareScaled (a : Nat) (i : Int) (n : Nat) (j : Int) : Ordering :=
  compare (a * Nat.pow 10 i.toNat * Nat.pow 2 (-j).toNat)
    (n * Nat.pow 2 j.toNat * Nat.pow 10 (-i).toNat)

/-- Whether a decimal lies among the reals that round to `significand * 2 ^ exponent`. Below a
power of two the neighbour is only half as far away. -/
def readsBack (significand : Nat) (exponent : Int) (d : Decimal) : Bool :=
  let narrow :=
    significand == Nat.pow 2 (Binary64.precision - 1) && exponent > Binary64.minExponent
  let low := 4 * significand - (if narrow then 1 else 2)
  let high := 4 * significand + 2
  let atLow := compareScaled d.digits d.exponent low (exponent - 2)
  let atHigh := compareScaled d.digits d.exponent high (exponent - 2)
  let closed := significand % 2 == 0
  (atLow == .gt || (closed && atLow == .eq)) && (atHigh == .lt || (closed && atHigh == .eq))

/-- The least `k` with `significand * 2 ^ exponent < 10 ^ k`, found upward from an estimate that
is at most the answer; `fuel` bounds the steps. -/
def scaleFrom (significand : Nat) (exponent : Int) : Nat → Int → Int
  | 0, k => k
  | fuel + 1, k =>
    if compareScaled 1 k significand exponent == .gt then k
    else scaleFrom significand exponent fuel (k + 1)

/-- The least `k` with `significand * 2 ^ exponent < 10 ^ k`. -/
def scale (significand : Nat) (exponent : Int) : Int :=
  let bits : Int := (significand.log2 : Int) + exponent
  scaleFrom significand exponent 8 (bits * 30103 / 100000 - 2)

/-- The two decimals with step `10 ^ step` next to `significand * 2 ^ exponent`, the nearer
first. -/
def neighbours (significand : Nat) (exponent step : Int) : Decimal × Decimal :=
  let num := significand * Nat.pow 2 exponent.toNat * Nat.pow 10 (-step).toNat
  let den := Nat.pow 2 (-exponent).toNat * Nat.pow 10 step.toNat
  let low := num / den
  let below : Decimal := ⟨low, step⟩
  let above : Decimal := ⟨low + 1, step⟩
  let rest := 2 * (num % den)
  if rest < den || (rest == den && low % 2 == 0) then (below, above) else (above, below)

/-- Tries `count` digits, then one more, until a decimal reads back. -/
def search (significand : Nat) (exponent k : Int) : Nat → Nat → Option Decimal
  | 0, _ => none
  | fuel + 1, count =>
    let (near, far) := neighbours significand exponent (k - count)
    if readsBack significand exponent near then some near
    else if readsBack significand exponent far then some far
    else search significand exponent k fuel (count + 1)

/-- Trailing zeros of the digits moved into the exponent; `fuel` bounds their number. -/
def normalizeWith : Nat → Decimal → Decimal
  | 0, d => d
  | fuel + 1, d =>
    if d.digits ≠ 0 ∧ d.digits % 10 = 0 then normalizeWith fuel ⟨d.digits / 10, d.exponent + 1⟩
    else d

/-- Trailing zeros of the digits moved into the exponent. -/
def normalize (d : Decimal) : Decimal := normalizeWith 400 d

/-- The exact decimal value of `significand * 2 ^ exponent`. -/
def exact (significand : Nat) (exponent : Int) : Decimal :=
  ⟨significand * Nat.pow 2 exponent.toNat * Nat.pow 5 (-exponent).toNat, min exponent 0⟩

/-- The shortest decimal that reads back to the positive number `significand * 2 ^ exponent`. -/
def shortest (significand : Nat) (exponent : Int) : Decimal :=
  match search significand exponent (scale significand exponent) 17 1 with
  | some d => d.normalize
  | none => (exact significand exponent).normalize

end Decimal

end StaticSite
