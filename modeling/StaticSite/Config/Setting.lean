import StaticSite.Json.Basic
import StaticSite.Number.Numeral
/-!
# StaticSite.Config.Setting

Settings as they are written, before it is known what they are for. They come from several sources,
and a later source is laid over an earlier one (`Setting.put`): tables are merged, and any other
value takes the place of what it meets.

Reading is lenient. A text may stand for a number or a truth value, any value that is no collection
has a text, and a record may also be written as the list of its parts.
-/

set_option autoImplicit false

namespace StaticSite

/-- A setting. -/
inductive Setting where
  | none
  | bool (b : Bool)
  | integer (i : Int)
  | number (x : Binary64)
  | text (s : String)
  | list (items : List Setting)
  | table (entries : List (String × Setting))
deriving Inhabited

namespace Setting

/-- The entries of a table; nothing else has entries. -/
def entries : Setting → Fields Setting
  | table entries => entries
  | _ => []

/-- The items of a list; nothing else has items. -/
def items : Setting → List Setting
  | list items => items
  | _ => []

/-! ### Laying one setting over another

A table that is put where one is already is merged into it, and any other value replaces what is
there. A name may also be a path; then the tables and lists on its way are made as they are needed,
in place of what is in the way. -/

mutual

/-- Puts a value into a table under a name. A table is merged into what is there. -/
def put (root : Setting) (name : String) : Setting → Setting
  | table incoming =>
    let there := (root.entries.get? name).getD (table [])
    table (root.entries.set name (putAll there incoming))
  | value => table (root.entries.set name value)

/-- Puts values into a table, each under its name. -/
def putAll (root : Setting) : List (String × Setting) → Setting
  | [] => root
  | (name, value) :: rest => putAll (put root name value) rest

end

/-- A step from a setting into it. -/
inductive Step where
  | name (name : String)
  /-- An item, counted from the end if the index is negative. -/
  | item (index : Int)
deriving DecidableEq, Repr

/-- The characters of the names in a setting's path. -/
def isNameChar (c : Char) : Bool :=
  ('a' ≤ c && c ≤ 'z') || ('A' ≤ c && c ≤ 'Z') || ('0' ≤ c && c ≤ '9') || c == '_' || c == '-'

/-- The index that stands between brackets: digits, with or without a minus in front, and blanks
around them. -/
def index? (s : List Char) : Option Int :=
  let isSpace := fun (c : Char) => c == ' ' || c == '\t'
  let s := ((s.dropWhile isSpace).reverse.dropWhile isSpace).reverse
  if s.head? == some '+' then Option.none else (integerNumeral? s).filter (fitsSigned 64)

/-- The steps after the first of a path: names after points, and indices in brackets. -/
def laterSteps? : Nat → List Char → Option (List Step)
  | _, [] => some []
  | 0, _ => Option.none
  | fuel + 1, '.' :: rest =>
    let name := rest.takeWhile isNameChar
    if name.isEmpty then Option.none
    else (laterSteps? fuel (rest.dropWhile isNameChar)).map (Step.name (String.ofList name) :: ·)
  | fuel + 1, '[' :: rest =>
    match rest.dropWhile (· != ']') with
    | ']' :: after => do
      let index ← index? (rest.takeWhile (· != ']'))
      let later ← laterSteps? fuel after
      pure (Step.item index :: later)
    | _ => Option.none
  | _, _ => Option.none

/-- The steps that a path describes. What is not written like a path is one name. -/
def stepsOf (path : String) : List Step :=
  let s := path.toList
  let name := s.takeWhile isNameChar
  match if name.isEmpty then Option.none else laterSteps? s.length (s.dropWhile isNameChar) with
  | some later => .name (String.ofList name) :: later
  | Option.none => [.name path]

/-- The items of a list, long enough to have one at `index`, and its position. -/
def withRoom (items : List Setting) (index : Int) : List Setting × Nat :=
  if 0 ≤ index then
    (items ++ List.replicate (index.toNat + 1 - items.length) none, index.toNat)
  else
    let missing := index.natAbs - items.length
    (List.replicate missing none ++ items, items.length + missing - index.natAbs)

/-- Puts a value at the end of a path. What is in the way of the path is replaced. -/
def putAt (root : Setting) : List Step → Setting → Setting
  | [], value => value
  | [.name name], value => put root name value
  | .name name :: rest, value =>
    table (root.entries.set name (putAt ((root.entries.get? name).getD none) rest value))
  | .item index :: rest, value =>
    let (items, position) := withRoom root.items index
    list (items.set position (putAt (items.getD position none) rest value))

/-- Lays a table over others; its names are paths. -/
def layOver (root : Setting) (entries : Fields Setting) : Setting :=
  entries.foldl (fun root entry => root.putAt (stepsOf entry.1) entry.2) root

/-! ### Reading -/

/-- Numbers are written with all their digits and without an exponent. -/
def numberLayout : Binary64.Layout :=
  { lowest := -400, highest := 400, integralTail := "", signedZero := true, exactIntegers := false,
    nan := "NaN", infinity := "inf" }

/-- The text that a setting stands for. -/
def text? : Setting → Option String
  | text s => some s
  | bool b => some (if b then "true" else "false")
  | integer i => some (String.ofList (integerText i))
  | number x => some (String.ofList (numberLayout.text x))
  | _ => Option.none

/-- The truth value that a word stands for. -/
def flagWord? (s : String) : Option Bool :=
  let word := String.ofList (Text.lower s.toList)
  if ["true", "on", "yes"].contains word then some true
  else if ["false", "off", "no"].contains word then some false
  else Option.none

/-- The truth value that a setting stands for. -/
def flag? : Setting → Option Bool
  | bool b => some b
  | integer i => some (i != 0)
  | number x => some (!x.isZero)
  | text "1" => some true
  | text "0" => some false
  | text s => flagWord? s
  | _ => Option.none

/-- One more than the largest natural number that a setting can stand for. -/
def naturalLimit : Nat := Nat.pow 2 64

/-- The natural number nearest to a number, within the limits. -/
def clamped : Binary64 → Nat
  | .nan => 0
  | .infinite negative => if negative then 0 else naturalLimit - 1
  | x => min ((x.roundAwayFromZero?.getD 0).toNat) (naturalLimit - 1)

/-- The natural number below `limit` that a setting stands for. -/
def natural? (limit : Nat) (setting : Setting) : Option Nat :=
  let value := match setting with
    | bool b => some (if b then 1 else 0)
    | integer i => if 0 ≤ i then some i.toNat else Option.none
    | number x => some (clamped x)
    | text s =>
      match flagWord? s with
      | some b => some (if b then 1 else 0)
      | Option.none =>
        match s.toList with
        | '+' :: digits => StaticSite.natural? digits
        | digits => StaticSite.natural? digits
    | _ => Option.none
  value.filter fun n => n < naturalLimit && n < limit

/-- The texts that a list stands for. -/
def texts? : Setting → Option (List String)
  | list items => items.mapM text?
  | _ => Option.none

/-- The parts of a record, by name. A list holds them in the order of `names`. -/
def parts? (names : List String) : Setting → Option (Fields Setting)
  | table entries => some entries
  | list items => some (Fields.ofList (names.zip items))
  | _ => Option.none

/-- The part `name` of a record: what `read?` makes of it, or a default if it is not there. -/
def part? {α : Type} (parts : Fields Setting) (name : String) (default : α)
    (read? : Setting → Option α) : Option α :=
  match parts.get? name with
  | some setting => read? setting
  | Option.none => some default

/-! ### JSON -/

mutual

/-- The setting as JSON data. -/
def toJson : Setting → Json
  | none => .null
  | bool b => .bool b
  | integer i => .integer i
  | number x => .ofNumber x
  | text s => .string s
  | list items => .array (itemsToJson items)
  | table entries => .object (entriesToJson entries)

/-- The items as JSON data. -/
def itemsToJson : List Setting → List Json
  | [] => []
  | item :: rest => toJson item :: itemsToJson rest

/-- The entries as JSON data. -/
def entriesToJson : List (String × Setting) → List (String × Json)
  | [] => []
  | (name, value) :: rest => (name, toJson value) :: entriesToJson rest

end

mutual

/-- The setting that JSON data stands for. -/
def ofJson : Json → Setting
  | .null => none
  | .bool b => bool b
  | .integer i => integer i
  | .decimal x => number x
  | .string s => text s
  | .array items => list (ofJsonItems items)
  | .object fields => table (ofJsonFields fields)

/-- The settings that the items of an array stand for. -/
def ofJsonItems : List Json → List Setting
  | [] => []
  | item :: rest => ofJson item :: ofJsonItems rest

/-- The settings that the members of an object stand for. -/
def ofJsonFields : List (String × Json) → List (String × Setting)
  | [] => []
  | (name, value) :: rest => (name, ofJson value) :: ofJsonFields rest

end

end Setting

end StaticSite
