import StaticSite.Json.Printer
import StaticSite.Template.Value
/-!
# StaticSite.Yaml.Value

The values of YAML documents. Any value may be a key of a mapping, and no two keys of a mapping are
the same (`Yaml.same`).

* `Yaml.toValue` is what templates see: tags are dropped and keys become strings.
* `Yaml.toJson?` keeps tags, as objects with one member, and refuses keys that JSON has no names
  for.
-/

set_option autoImplicit false

namespace StaticSite

/-- A YAML value. -/
inductive Yaml where
  | null
  | bool (b : Bool)
  | integer (i : Int)
  | number (x : Binary64)
  | string (s : String)
  | sequence (items : List Yaml)
  | mapping (entries : List (Yaml × Yaml))
  /-- A value with a tag of the author's own. -/
  | tagged (tag : String) (content : Yaml)
deriving Inhabited

namespace Yaml

/-! ### Sameness -/

/-- Whether two numbers count as one: the zeros do, and so does what is no number. -/
def sameNumber (x y : Binary64) : Bool :=
  (x.isNaN && y.isNaN) || (x.isZero && y.isZero) || decide (x = y)

mutual

/-- Whether two values are the same. The order of a mapping is of no account; an integer is never
the same as another number. -/
def same : Yaml → Yaml → Bool
  | null, null => true
  | bool a, bool b => a == b
  | integer a, integer b => a == b
  | number a, number b => sameNumber a b
  | string a, string b => a == b
  | sequence a, sequence b => sameItems a b
  | mapping a, mapping b => a.length == b.length && includedIn b a
  | tagged t a, tagged u b => t == u && same a b
  | _, _ => false

/-- Whether two lists have the same items in the same order. -/
def sameItems : List Yaml → List Yaml → Bool
  | [], [] => true
  | a :: as, b :: bs => same a b && sameItems as bs
  | _, _ => false

/-- Whether all entries occur among `others`. -/
def includedIn (others : List (Yaml × Yaml)) : List (Yaml × Yaml) → Bool
  | [] => true
  | (key, value) :: rest =>
    others.any (fun other => same key other.1 && same value other.2) && includedIn others rest

end

/-! ### Other views -/

mutual

/-- The value as templates see it. Of two keys with one text the later counts. -/
def toValue : Yaml → Value
  | null => .null
  | bool b => .bool b
  | integer i => .number (.ofInt i)
  | number x => .number x
  | string s => .string s
  | sequence items => .sequence (toValues items)
  | mapping entries => .mapping (Fields.ofList (toFields entries))
  | tagged _ content => toValue content

/-- The items as templates see them. -/
def toValues : List Yaml → List Value
  | [] => []
  | item :: rest => toValue item :: toValues rest

/-- The entries as templates see them: a key is its string form. -/
def toFields : List (Yaml × Yaml) → List (String × Value)
  | [] => []
  | (key, value) :: rest => (String.ofList (toValue key).text, toValue value) :: toFields rest

end

/-- The name that JSON gives to a key. -/
def jsonName? : Yaml → Option String
  | string s => some s
  | bool b => some (if b then "true" else "false")
  | integer i => some (String.ofList (integerText i))
  | number x =>
    if x.isNaN || x.isInfinite then none else some (String.ofList (Json.decimalLayout.text x))
  | _ => none

mutual

/-- The value as JSON data. -/
def toJson? : Yaml → Option Json
  | null => some .null
  | bool b => some (.bool b)
  | integer i => some (.integer i)
  | number x => some (.ofNumber x)
  | string s => some (.string s)
  | sequence items => (toJsonItems? items).map .array
  | mapping entries => (toMembers? entries).map fun members => .object (Fields.ofList members)
  | tagged tag content => (toJson? content).map fun json => .object [("!" ++ tag, json)]

/-- The items as JSON data. -/
def toJsonItems? : List Yaml → Option (List Json)
  | [] => some []
  | item :: rest => do
    let item ← toJson? item
    let rest ← toJsonItems? rest
    pure (item :: rest)

/-- The entries as members of a JSON object. -/
def toMembers? : List (Yaml × Yaml) → Option (List (String × Json))
  | [] => some []
  | (key, value) :: rest => do
    let name ← jsonName? key
    let value ← toJson? value
    let rest ← toMembers? rest
    pure ((name, value) :: rest)

end

end Yaml

end StaticSite
