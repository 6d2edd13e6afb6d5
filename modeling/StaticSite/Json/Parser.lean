import StaticSite.Json.Basic
/-!
# StaticSite.Json.Parser

Reading JSON text. The whole text has to be one value with blanks around it. Of two members with
one name the later counts. At most 127 arrays and objects lie inside each other.

A number without point and exponent that fits 64 bits is an integer (except `-0`). Any other
number is its first digits (as many as fit 64 bits) scaled by one power of ten, so it is rounded
twice when it has more than fifteen digits or a large exponent; one that overflows is refused.
-/

set_option autoImplicit false

namespace StaticSite.Json

/-- The blanks between the tokens of a JSON text. -/
def isBlank (c : Char) : Bool := c == ' ' || c == '\t' || c == '\n' || c == '\r'

/-- The text after leading blanks. -/
def skipBlanks (s : List Char) : List Char := s.dropWhile isBlank

/-- The value of a hexadecimal digit. -/
def hexValue? (c : Char) : Option Nat :=
  if '0' ≤ c ∧ c ≤ '9' then some (c.toNat - '0'.toNat)
  else if 'a' ≤ c ∧ c ≤ 'f' then some (c.toNat - 'a'.toNat + 10)
  else if 'A' ≤ c ∧ c ≤ 'F' then some (c.toNat - 'A'.toNat + 10)
  else none

/-- The value of four hexadecimal digits, and the text after them. -/
def hexUnit? : List Char → Option (Nat × List Char)
  | a :: b :: c :: d :: rest => do
    let a ← hexValue? a
    let b ← hexValue? b
    let c ← hexValue? c
    let d ← hexValue? d
    pure (((a * 16 + b) * 16 + c) * 16 + d, rest)
  | _ => none

/-- The character of an escape `\u…`, which may take a pair of units, and the text after it. The
text starts after the `u`. -/
def unicodeEscape? (s : List Char) : Option (Char × List Char) := do
  let (unit, rest) ← hexUnit? s
  if 0xDC00 ≤ unit ∧ unit ≤ 0xDFFF then none
  else if 0xD800 ≤ unit ∧ unit ≤ 0xDBFF then
    match rest with
    | '\\' :: 'u' :: more =>
      let (second, rest) ← hexUnit? more
      if 0xDC00 ≤ second ∧ second ≤ 0xDFFF then
        pure (Char.ofNat (0x10000 + (unit - 0xD800) * 0x400 + (second - 0xDC00)), rest)
      else none
    | _ => none
  else pure (Char.ofNat unit, rest)

/-- The character that a backslash and `c` stand for, except `u`. -/
def simpleEscape? (c : Char) : Option Char :=
  if c = '"' ∨ c = '\\' ∨ c = '/' then some c
  else if c = 'b' then some '\x08'
  else if c = 'f' then some '\x0c'
  else if c = 'n' then some '\n'
  else if c = 'r' then some '\r'
  else if c = 't' then some '\t'
  else none

/-- The characters up to the closing quote, in reverse order in front of `taken`, and the text
after the quote; `fuel` bounds the length of the text. -/
def stringBody? : Nat → List Char → List Char → Option (String × List Char)
  | 0, _, _ => none
  | _, _, [] => none
  | fuel + 1, taken, c :: rest =>
    if c = '"' then some (String.ofList taken.reverse, rest)
    else if c = '\\' then
      match rest with
      | [] => none
      | e :: more =>
        if e = 'u' then
          match unicodeEscape? more with
          | some (d, more) => stringBody? fuel (d :: taken) more
          | none => none
        else
          match simpleEscape? e with
          | some d => stringBody? fuel (d :: taken) more
          | none => none
    else if c.toNat < 0x20 then none
    else stringBody? fuel (c :: taken) rest

/-- The string after an opening quote, and the text after its closing quote. -/
def stringAfterQuote? (s : List Char) : Option (String × List Char) :=
  stringBody? (s.length + 1) [] s

/-- The value of a run of decimal digits. -/
def digitsValue (digits : List Char) : Nat :=
  digits.foldl (fun n c => n * 10 + (c.toNat - '0'.toNat)) 0

/-- One more than the largest 64-bit natural number. -/
def wordLimit : Nat := Nat.pow 2 64

/-- The longest start of `digits` that continues `significand` within 64 bits: the number it
gives, and the digits left over. -/
def takeWord (significand : Nat) : List Char → Nat × List Char
  | [] => (significand, [])
  | c :: rest =>
    let next := significand * 10 + (c.toNat - '0'.toNat)
    if next < wordLimit then takeWord next rest else (significand, c :: rest)

/-- `x` scaled by `10 ^ exponent` with one product or quotient for each 308 places. Nothing if it
overflows. -/
def scaleByPower? : Nat → Binary64 → Int → Option Binary64
  | 0, x, _ => some x
  | fuel + 1, x, exponent =>
    if exponent.natAbs ≤ 308 then
      let power := Binary64.ofDecimal false 1 exponent.natAbs
      if 0 ≤ exponent then
        let product := x.mul power
        if product.isInfinite then none else some product
      else some (x.div power)
    else if x.isZero then some x
    else if 0 ≤ exponent then none
    else scaleByPower? fuel (x.div (Binary64.ofDecimal false 1 308)) (exponent + 308)

/-- The parts of a number as it is written. -/
structure Numeral where
  negative : Bool
  whole : List Char
  /-- The digits after the point, if there is one. -/
  fraction : Option (List Char)
  /-- The exponent with its sign, if there is one. -/
  exponent : Option (Bool × List Char)

/-- The number that a numeral stands for. -/
def Numeral.value? (n : Numeral) : Option Json :=
  let (significand, cut) := takeWord 0 n.whole
  let isInteger := n.fraction.isNone && n.exponent.isNone && cut.isEmpty
  if isInteger && !n.negative then some (integer significand)
  else if isInteger && significand != 0 && significand ≤ Nat.pow 2 63 then
    some (integer (-(significand : Int)))
  else
    let fraction := n.fraction.getD []
    let (digits, scale) :=
      let (all, left) := takeWord significand fraction
      (all, (cut.length : Int) - (fraction.length - left.length : Nat))
    let sign := fun (x : Binary64) => if n.negative then x.neg else x
    match n.exponent with
    | none => (scaleByPower? (cut.length + fraction.length + 2) (.ofNat digits) scale).map
        fun x => decimal (sign x)
    | some (negativeExponent, exponent) =>
      let e := digitsValue exponent
      if e ≥ Nat.pow 2 31 then
        if digits ≠ 0 ∧ !negativeExponent then none
        else some (decimal (sign (.ofNat 0)))
      else
        let total := if negativeExponent then scale - e else scale + e
        (scaleByPower? (cut.length + fraction.length + e / 308 + 2) (.ofNat digits) total).map
          fun x => decimal (sign x)

/-- A non-empty run of digits, and the text after it. -/
def digitRun? (s : List Char) : Option (List Char × List Char) :=
  match s.span Char.isDigit with
  | ([], _) => none
  | (digits, rest) => some (digits, rest)

/-- The digits before the point: a zero stands alone. -/
def wholePart? (s : List Char) : Option (List Char × List Char) := do
  let (digits, rest) ← digitRun? s
  match digits with
  | '0' :: _ :: _ => none
  | _ => pure (digits, rest)

/-- A point and the digits after it, if there is a point. -/
def fractionPart? (s : List Char) : Option (Option (List Char) × List Char) :=
  match s with
  | '.' :: rest => do
    let (digits, rest) ← digitRun? rest
    pure (some digits, rest)
  | _ => some (none, s)

/-- The exponent, if there is one: its sign and its digits. -/
def exponentPart? (s : List Char) : Option (Option (Bool × List Char) × List Char) :=
  match s with
  | c :: rest =>
    if c = 'e' ∨ c = 'E' then do
      let (negative, rest) := match rest with
        | '-' :: rest => (true, rest)
        | '+' :: rest => (false, rest)
        | _ => (false, rest)
      let (digits, rest) ← digitRun? rest
      pure (some (negative, digits), rest)
    else some (none, s)
  | [] => some (none, s)

/-- A number, and the text after it. -/
def number? (s : List Char) : Option (Json × List Char) := do
  let (negative, s) := match s with
    | '-' :: rest => (true, rest)
    | _ => (false, s)
  let (whole, s) ← wholePart? s
  let (fraction, s) ← fractionPart? s
  let (exponent, s) ← exponentPart? s
  let value ← Numeral.value? ⟨negative, whole, fraction, exponent⟩
  pure (value, s)

/-- The text after `word`, if it starts with it. -/
def after? (word s : List Char) : Option (List Char) :=
  match word, s with
  | [], s => some s
  | c :: word, d :: s => if c = d then after? word s else none
  | _ :: _, [] => none

mutual

/-- A value at the start of the text, blanks before it allowed, and the text after it. At most
`depth` arrays and objects may be open inside; `fuel` bounds the steps. -/
def value? : Nat → Nat → List Char → Option (Json × List Char)
  | 0, _, _ => none
  | fuel + 1, depth, s =>
    match skipBlanks s with
    | [] => none
    | c :: rest =>
      if c = 'n' then (after? "ull".toList rest).map (null, ·)
      else if c = 't' then (after? "rue".toList rest).map (bool true, ·)
      else if c = 'f' then (after? "alse".toList rest).map (bool false, ·)
      else if c = '"' then (stringAfterQuote? rest).map fun (s, rest) => (string s, rest)
      else if c = '[' then
        if depth ≤ 1 then none
        else
          match skipBlanks rest with
          | ']' :: rest => some (array [], rest)
          | rest => (items? fuel (depth - 1) rest).map fun (items, rest) => (array items, rest)
      else if c = '\x7b' then
        if depth ≤ 1 then none
        else
          match skipBlanks rest with
          | '\x7d' :: rest => some (object [], rest)
          | rest => (members? fuel (depth - 1) [] rest).map fun (fields, rest) =>
              (object fields, rest)
      else if c = '-' || c.isDigit then number? (c :: rest)
      else none

/-- The items of an array that is not empty, and the text after its closing bracket. -/
def items? : Nat → Nat → List Char → Option (List Json × List Char)
  | 0, _, _ => none
  | fuel + 1, depth, s =>
    match value? fuel depth s with
    | none => none
    | some (item, rest) =>
      match skipBlanks rest with
      | ',' :: rest => (items? fuel depth rest).map fun (items, rest) => (item :: items, rest)
      | ']' :: rest => some ([item], rest)
      | _ => none

/-- The members of an object that is not empty, set on top of `fields`, and the text after its
closing brace. -/
def members? : Nat → Nat → Fields Json → List Char → Option (Fields Json × List Char)
  | 0, _, _, _ => none
  | fuel + 1, depth, fields, s =>
    match skipBlanks s with
    | '"' :: rest =>
      match stringAfterQuote? rest with
      | none => none
      | some (name, rest) =>
        match skipBlanks rest with
        | ':' :: rest =>
          match value? fuel depth rest with
          | none => none
          | some (value, rest) =>
            match skipBlanks rest with
            | ',' :: rest => members? fuel depth (fields.set name value) rest
            | '\x7d' :: rest => some (fields.set name value, rest)
            | _ => none
        | _ => none
    | _ => none

end

/-- The value of a JSON text. -/
def parse? (s : List Char) : Option Json := do
  let (value, rest) ← value? (2 * s.length + 2) 128 s
  if (skipBlanks rest).isEmpty then some value else none

end StaticSite.Json
