import StaticSite.Number.Numeral
import StaticSite.Yaml.Node
import StaticSite.Yaml.Value
/-!
# StaticSite.Yaml.Scalar

What scalars stand for. A plain scalar is null, a boolean, an integer or another number if it is
written like one, and else a string; a scalar in quotes is always a string. A tag of the language
fixes the kind, and the scalar has to be written like one of it.

Integers have 64 bits. One that has more but fits 128 bits is an error, and one that is larger
still is a number.
-/

set_option autoImplicit false

namespace StaticSite.Yaml

/-- Whether this is a way to write null. -/
def isNullWord (s : List Char) : Bool :=
  ["~", "null", "Null", "NULL"].contains (String.ofList s)

/-- The boolean that a word stands for. -/
def boolWord? (s : List Char) : Option Bool :=
  if ["true", "True", "TRUE"].contains (String.ofList s) then some true
  else if ["false", "False", "FALSE"].contains (String.ofList s) then some false
  else none

/-- Whether a run of digits starts with a needless zero. Such a run is no number. -/
def isPadded (s : List Char) : Bool :=
  let digits := match s with
    | '-' :: rest | '+' :: rest => rest
    | _ => s
  match digits with
  | '0' :: c :: rest => (c :: rest).all Char.isDigit
  | _ => false

/-- The magnitude of an integer written without a sign: in base 16, 8 or 2 after a mark, or in
base 10. -/
def magnitude? : List Char → Option Nat
  | '0' :: 'x' :: digits => naturalIn? 16 digits
  | '0' :: 'o' :: digits => naturalIn? 8 digits
  | '0' :: 'b' :: digits => naturalIn? 2 digits
  | digits => if isPadded digits then none else natural? digits

/-- The integer that a scalar is written like. -/
def integerLike? : List Char → Option Int
  | '-' :: rest => (magnitude? rest).map fun n => -(n : Int)
  | '+' :: rest => (magnitude? rest).map Int.ofNat
  | s => (magnitude? s).map Int.ofNat

/-- How many bits an integer takes: it fits 64 bits, 128 bits or neither. -/
inductive IntegerSize where
  | fits
  | wide
  | beyond
deriving DecidableEq, Repr

/-- The size of an integer. -/
def integerSize (i : Int) : IntegerSize :=
  if fitsSigned 64 i || fitsUnsigned 64 i then .fits
  else if fitsSigned 128 i || fitsUnsigned 128 i then .wide
  else .beyond

/-- The number, other than an integer, that a scalar is written like. Only the words with a point
stand for values that are not finite. -/
def numberLike? (s : List Char) : Option Binary64 :=
  let unsigned := match s with
    | '+' :: rest => rest
    | _ => s
  let startsSigned := match unsigned with
    | '+' :: _ => true
    | '-' :: _ => unsigned.length < s.length
    | _ => false
  if startsSigned then none
  else if [".inf", ".Inf", ".INF"].contains (String.ofList unsigned) then some (.infinite false)
  else if ["-.inf", "-.Inf", "-.INF"].contains (String.ofList s) then some (.infinite true)
  else if [".nan", ".NaN", ".NAN"].contains (String.ofList s) then some .nan
  else (Binary64.read? unsigned).filter Binary64.isFinite

/-- What a plain scalar stands for. -/
def ofPlain? (content : String) : Option Yaml :=
  let s := content.toList
  if s.isEmpty || isNullWord s then some null
  else
    match boolWord? s with
    | some b => some (bool b)
    | none =>
      let fallback := fun (_ : Unit) =>
        if isPadded s then string content
        else (numberLike? s).elim (string content) number
      match integerLike? s with
      | none => some (fallback ())
      | some i =>
        match integerSize i with
        | .fits => some (integer i)
        | .wide => none
        | .beyond => some (fallback ())

/-- What a scalar stands for whose tag is one of the language that fix its kind. -/
def ofStandardTag? (tag : List UInt8) (content : String) : Option (Option Yaml) :=
  let s := content.toList
  if tag == bytesOf "tag:yaml.org,2002:bool" then some ((boolWord? s).map bool)
  else if tag == bytesOf "tag:yaml.org,2002:int" then
    some ((integerLike? s).bind fun i => if integerSize i = .fits then some (integer i) else none)
  else if tag == bytesOf "tag:yaml.org,2002:float" then some ((numberLike? s).map number)
  else if tag == bytesOf "tag:yaml.org,2002:null" then
    some (if isNullWord s then some null else none)
  else none

/-- The exclamation mark. -/
def mark : UInt8 := 0x21

/-- A name without the exclamation mark it starts with, unless that is all of it. -/
def withoutMark : List UInt8 → List UInt8
  | first :: second :: rest => if first == mark then second :: rest else first :: second :: rest
  | name => name

/-- The name of a tag of the author's own: one that starts with an exclamation mark and is text.
Two of the marks at its start are no part of the name. The mark alone is its own name. -/
def ownTag? (tag : Option Tag) : Option String := do
  let bytes := (← tag).bytes
  if bytes.head? == some mark then
    let name := withoutMark bytes
    if (String.fromUTF8? ⟨name.toArray⟩).isSome then
      String.fromUTF8? ⟨(withoutMark name).toArray⟩
    else none
  else none

/-- What a scalar without a tag of the author's own stands for. A tag that is meant to be one but
is no text counts as none if the scalar is plain. -/
def ofScalar? (tag : Option Tag) (content : String) (plain : Bool) : Option Yaml :=
  match tag with
  | some tag =>
    if plain && tag.bytes.head? == some mark then ofPlain? content
    else (ofStandardTag? tag.bytes content).getD (some (string content))
  | none => if plain then ofPlain? content else some (string content)

end StaticSite.Yaml
