import StaticSite.Fields
import StaticSite.Number.Layout
/-!
# StaticSite.Json.Basic

JSON values. An object is a record (`Fields`): its members are kept in ascending order of their
names. A number written as an integer stays one, so `4` and `4.0` are different values.
-/

set_option autoImplicit false

namespace StaticSite

/-- A JSON value. -/
inductive Json where
  | null
  | bool (b : Bool)
  /-- A number that is written as an integer. -/
  | integer (i : Int)
  /-- Any other number; it is finite. -/
  | decimal (x : Binary64)
  | string (s : String)
  | array (items : List Json)
  | object (fields : List (String × Json))
deriving Inhabited

namespace Json

/-- The member `name` of an object; nothing else has members. -/
def get? (value : Json) (name : String) : Option Json :=
  match value with
  | object fields => Fields.get? fields name
  | _ => none

/-- The characters of a string, and nothing for any other value. -/
def string? : Json → Option String
  | string s => some s
  | _ => none

/-- Whether this is `null`. -/
def isNull : Json → Bool
  | null => true
  | _ => false

/-- A number that may be no number or infinite, which JSON writes as `null`. -/
def ofNumber (x : Binary64) : Json :=
  if x.isNaN || x.isInfinite then null else decimal x

end Json

end StaticSite
