import StaticSite.Number.Binary64
import StaticSite.Text.Case
/-!
# StaticSite.Number.Numeral

Reading numbers as they are written.

* `naturalIn?` reads digits in a base.
* `Binary64.read?` reads a decimal number, with or without a point and an exponent, to the nearest
  binary64 number. It also knows the words for the values that are not finite.
-/

set_option autoImplicit false

namespace StaticSite

/-- The value of an ASCII digit of a base up to 36. -/
def digitValue? (base : Nat) (c : Char) : Option Nat :=
  let value :=
    if '0' ≤ c ∧ c ≤ '9' then c.toNat - '0'.toNat
    else if 'a' ≤ c ∧ c ≤ 'z' then c.toNat - 'a'.toNat + 10
    else if 'A' ≤ c ∧ c ≤ 'Z' then c.toNat - 'A'.toNat + 10
    else base
  if value < base then some value else none

/-- The number that a non-empty run of digits stands for. -/
def naturalIn? (base : Nat) (digits : List Char) : Option Nat :=
  if digits.isEmpty then none
  else digits.foldlM (fun n c => (digitValue? base c).map (n * base + ·)) 0

/-- The number that a non-empty run of decimal digits stands for. -/
def natural? (digits : List Char) : Option Nat := naturalIn? 10 digits

/-- The text after a sign, and whether the sign is a minus. -/
def takeSign : List Char → Bool × List Char
  | '-' :: rest => (true, rest)
  | '+' :: rest => (false, rest)
  | rest => (false, rest)

/-- The integer that decimal digits with or without a sign stand for. -/
def integerNumeral? (s : List Char) : Option Int :=
  let (negative, digits) := takeSign s
  (natural? digits).map fun n => if negative then -(n : Int) else n

/-- Whether an integer fits a number of bits, one of which is for its sign. -/
def fitsSigned (bits : Nat) (i : Int) : Bool :=
  let limit : Int := (Nat.pow 2 (bits - 1) : Nat)
  decide (-limit ≤ i ∧ i < limit)

/-- Whether an integer that has no sign fits a number of bits. -/
def fitsUnsigned (bits : Nat) (i : Int) : Bool :=
  let limit : Int := (Nat.pow 2 bits : Nat)
  decide (0 ≤ i ∧ i < limit)

namespace Binary64

/-- The exponent of a decimal number: zero if the text is empty, else a mark and an integer. -/
def exponent? : List Char → Option Int
  | [] => some 0
  | c :: rest => if c == 'e' || c == 'E' then integerNumeral? rest else none

/-- The number that a decimal numeral without a sign stands for. -/
def readUnsigned? (negative : Bool) (s : List Char) : Option Binary64 :=
  if ["inf", "infinity"].any fun word => Text.equalIgnoringCase s word.toList then
    some (infinite negative)
  else if Text.equalIgnoringCase s "nan".toList then some nan
  else
    let whole := s.takeWhile Char.isDigit
    let rest := s.dropWhile Char.isDigit
    let (fraction, rest) := match rest with
      | '.' :: rest => (rest.takeWhile Char.isDigit, rest.dropWhile Char.isDigit)
      | _ => ([], rest)
    match natural? (whole ++ fraction), exponent? rest with
    | some digits, some exponent => some (ofDecimal negative digits (exponent - fraction.length))
    | _, _ => none

/-- The number that a decimal numeral stands for. -/
def read? (s : List Char) : Option Binary64 :=
  let (negative, rest) := takeSign s
  readUnsigned? negative rest

/-- Whether the number is finite. -/
def isFinite (x : Binary64) : Bool := !x.isNaN && !x.isInfinite

end Binary64

end StaticSite
