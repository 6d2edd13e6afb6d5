import StaticSite.Json.Basic
/-!
# StaticSite.Template.Value

The values that a template sees. A page is rendered against a tree of them, its context.

* `isTruthy`: zero, the result that is no number, the empty string, `false` and null are falsy;
  every sequence and mapping is truthy, even an empty one.
* `text` is the string form of a value and `renderText` what an interpolation shows of it: nothing
  for a falsy value.
* `ofJson` forgets which numbers were written as integers.
-/

set_option autoImplicit false

namespace StaticSite

/-- A node of a render context. -/
inductive Value where
  /-- Absent or null: what a look-up gives that finds nothing. -/
  | null
  | bool (b : Bool)
  | number (x : Binary64)
  | string (s : String)
  | sequence (items : List Value)
  | mapping (fields : List (String × Value))
deriving Inhabited

namespace Value

/-- Whether the value counts as true. -/
def isTruthy : Value → Bool
  | null => false
  | bool b => b
  | number x => !x.isZero && !x.isNaN
  | string s => s ≠ ""
  | sequence _ | mapping _ => true

/-- Whether a path can start at this value. -/
def isIndexable : Value → Bool
  | sequence _ | mapping _ => true
  | _ => false

/-- The items of a sequence. -/
def items? : Value → Option (List Value)
  | sequence items => some items
  | _ => none

/-- The fields of a mapping. -/
def fields? : Value → Option (Fields Value)
  | mapping fields => some fields
  | _ => none

/-- The value of a key of a mapping. -/
def get? (value : Value) (key : String) : Option Value := value.fields?.bind (·.get? key)

/-- Numbers are written positionally for magnitudes from 10⁻⁶ up to 10²¹, integers with all their
digits and without a point; zero has no sign. -/
def numberLayout : Binary64.Layout :=
  { lowest := -6, highest := 20, integralTail := "", signedZero := false, exactIntegers := true,
    nan := "NaN", infinity := "Infinity" }

mutual

/-- The string form of a value. A mapping has no form of its own. -/
def text : Value → List Char
  | null => "null".toList
  | bool b => (if b then "true" else "false").toList
  | number x => numberLayout.text x
  | string s => s.toList
  | sequence items => itemsText true items
  | mapping _ => "[object Object]".toList

/-- The string forms of items, a comma between two; a null item has none. -/
def itemsText : Bool → List Value → List Char
  | _, [] => []
  | first, item :: rest =>
    let itemText := match item with
      | null => []
      | item => text item
    (if first then itemText else ',' :: itemText) ++ itemsText false rest

end

/-- What an interpolation shows of a value. -/
def renderText (value : Value) : List Char := if value.isTruthy then value.text else []

mutual

/-- The value that JSON data stands for. -/
def ofJson : Json → Value
  | .null => null
  | .bool b => bool b
  | .integer i => number (.ofInt i)
  | .decimal x => number x
  | .string s => string s
  | .array items => sequence (ofItems items)
  | .object fields => mapping (ofFields fields)

/-- The values that the items of an array stand for. -/
def ofItems : List Json → List Value
  | [] => []
  | item :: rest => ofJson item :: ofItems rest

/-- The values that the members of an object stand for. -/
def ofFields : List (String × Json) → List (String × Value)
  | [] => []
  | (name, value) :: rest => (name, ofJson value) :: ofFields rest

end

end Value

end StaticSite
