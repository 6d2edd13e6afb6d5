import StaticSite.Number.Shortest
/-!
# StaticSite.Number.Layout

How the digits of a number are laid out as text: positionally, or as a mantissa with an exponent.
A format chooses between the two by the magnitude of the number (`Layout`).
-/

set_option autoImplicit false

namespace StaticSite

/-- The decimal digits of a natural number, the most significant first. -/
def decimalDigits (n : Nat) : List Char := Nat.toDigits 10 n

/-- A sign, if there is one, in front of a magnitude. -/
def signed (negative : Bool) (magnitude : List Char) : List Char :=
  if negative then '-' :: magnitude else magnitude

/-- An integer in decimal. -/
def integerText (i : Int) : List Char := signed (decide (i < 0)) (decimalDigits i.natAbs)

namespace Decimal

/-- The exponent of the leading digit. -/
def leading (d : Decimal) : Int := d.exponent + (decimalDigits d.digits).length - 1

/-- All digits before and after a point, with zeros wherever a place is not among the digits. A
decimal without a fractional part has no point. -/
def positional (d : Decimal) : List Char :=
  let digits := decimalDigits d.digits
  if 0 ≤ d.exponent then digits ++ List.replicate d.exponent.toNat '0'
  else
    let places := (-d.exponent).toNat
    if places < digits.length then
      digits.take (digits.length - places) ++ '.' :: digits.drop (digits.length - places)
    else '0' :: '.' :: List.replicate (places - digits.length) '0' ++ digits

/-- The leading digit, a point before further digits if there are any, and the exponent with a
sign. -/
def scientific (d : Decimal) : List Char :=
  let mantissa := match decimalDigits d.digits with
    | [] => []
    | [c] => [c]
    | c :: more => c :: '.' :: more
  let e := d.leading
  mantissa ++ 'e' :: (if e < 0 then '-' else '+') :: decimalDigits e.natAbs

end Decimal

namespace Binary64

/-- How a format lays numbers out. -/
structure Layout where
  /-- Exponents of the leading digit that are written positionally start here, … -/
  lowest : Int
  /-- … and end here. -/
  highest : Int
  /-- What follows a positional number without a fractional part. -/
  integralTail : String
  /-- Whether a zero keeps its sign. -/
  signedZero : Bool
  /-- Whether an integral number is written with its exact digits, not the fewest. -/
  exactIntegers : Bool
  nan : String
  infinity : String

/-- The text of a number in a layout. -/
def Layout.text (layout : Layout) : Binary64 → List Char
  | .nan => layout.nan.toList
  | .infinite negative => signed negative layout.infinity.toList
  | .finite negative significand exponent =>
    if significand = 0 then
      signed (negative && layout.signedZero) ('0' :: layout.integralTail.toList)
    else
      let d := Decimal.shortest significand exponent
      signed negative <|
        if layout.lowest ≤ d.leading ∧ d.leading ≤ layout.highest then
          match magnitude? significand exponent with
          | some n =>
            (if layout.exactIntegers then decimalDigits n else d.positional)
              ++ layout.integralTail.toList
          | none => d.positional
        else d.scientific

end Binary64

end StaticSite
