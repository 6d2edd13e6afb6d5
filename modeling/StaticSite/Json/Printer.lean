import StaticSite.Json.Basic
/-!
# StaticSite.Json.Printer

JSON text. `compact` writes no blanks; `pretty` puts every item and member on a line of its own,
two blanks deeper than what holds it, and writes an empty array or object on one line.
-/

set_option autoImplicit false

namespace StaticSite.Json

/-- Decimals have a point or an exponent, positionally with exponents from -5 to 15. -/
def decimalLayout : Binary64.Layout :=
  { lowest := -5, highest := 15, integralTail := ".0", signedZero := true,
    exactIntegers := false, nan := "null", infinity := "null" }

/-- A hexadecimal digit in lower case. -/
def hexDigit (n : Nat) : Char :=
  if n < 10 then Char.ofNat ('0'.toNat + n) else Char.ofNat ('a'.toNat + n - 10)

/-- One character inside quotes: the quote, the backslash and the controls are escaped. -/
def escapeChar (c : Char) : List Char :=
  if c = '"' then ['\\', '"']
  else if c = '\\' then ['\\', '\\']
  else if c = '\n' then ['\\', 'n']
  else if c = '\r' then ['\\', 'r']
  else if c = '\t' then ['\\', 't']
  else if c = '\x08' then ['\\', 'b']
  else if c = '\x0c' then ['\\', 'f']
  else if c.toNat < 0x20 then
    ['\\', 'u', '0', '0', hexDigit (c.toNat / 16), hexDigit (c.toNat % 16)]
  else [c]

/-- A string in quotes. -/
def quote (s : String) : List Char := '"' :: s.toList.flatMap escapeChar ++ ['"']

/-- The text of a value that holds no other value. -/
def scalarText : Json → List Char
  | bool b => (if b then "true" else "false").toList
  | integer i => integerText i
  | decimal x => decimalLayout.text x
  | string s => quote s
  | _ => "null".toList

mutual

/-- The text without blanks, in front of `tail`. -/
def compactOnto : Json → List Char → List Char
  | array items, tail => '[' :: compactItems true items (']' :: tail)
  | object fields, tail => '\x7b' :: compactFields true fields ('\x7d' :: tail)
  | value, tail => scalarText value ++ tail

/-- The items of an array, a comma between two. -/
def compactItems : Bool → List Json → List Char → List Char
  | _, [], tail => tail
  | first, item :: rest, tail =>
    let text := compactOnto item (compactItems false rest tail)
    if first then text else ',' :: text

/-- The members of an object, a comma between two. -/
def compactFields : Bool → List (String × Json) → List Char → List Char
  | _, [], tail => tail
  | first, (name, value) :: rest, tail =>
    let text := quote name ++ ':' :: compactOnto value (compactFields false rest tail)
    if first then text else ',' :: text

end

/-- The text without blanks. -/
def compact (value : Json) : List Char := compactOnto value []

/-- A new line, indented by two blanks for each level. -/
def lineAt (level : Nat) : List Char := '\n' :: List.replicate (2 * level) ' '

mutual

/-- The text over several lines at a level of indentation, in front of `tail`. -/
def prettyOnto : Nat → Json → List Char → List Char
  | _, array [], tail => '[' :: ']' :: tail
  | level, array items, tail =>
    '[' :: prettyItems level true items (lineAt level ++ ']' :: tail)
  | _, object [], tail => '\x7b' :: '\x7d' :: tail
  | level, object fields, tail =>
    '\x7b' :: prettyFields level true fields (lineAt level ++ '\x7d' :: tail)
  | _, value, tail => scalarText value ++ tail

/-- The items of an array that stands at `level`. -/
def prettyItems : Nat → Bool → List Json → List Char → List Char
  | _, _, [], tail => tail
  | level, first, item :: rest, tail =>
    let text :=
      lineAt (level + 1) ++ prettyOnto (level + 1) item (prettyItems level false rest tail)
    if first then text else ',' :: text

/-- The members of an object that stands at `level`. -/
def prettyFields : Nat → Bool → List (String × Json) → List Char → List Char
  | _, _, [], tail => tail
  | level, first, (name, value) :: rest, tail =>
    let text :=
      lineAt (level + 1) ++ quote name ++ ':' :: ' ' ::
        prettyOnto (level + 1) value (prettyFields level false rest tail)
    if first then text else ',' :: text

end

/-- The text over several lines. -/
def pretty (value : Json) : List Char := prettyOnto 0 value []

end StaticSite.Json
