import StaticSite.Config.Setting
import StaticSite.Yaml.Modern.Document
/-!
# StaticSite.Config.Document

Settings written as a YAML document. It has to hold a table, unless it is empty. Here fewer words
are special than in front matter: null and the values that are not finite have only some of their
spellings, integers have 64 bits with a sign, and larger ones are other numbers.

A document is first read as `Content`, of which every key is a content too; only then it turns out
whether it consists of settings.
-/

set_option autoImplicit false

namespace StaticSite.Setting

/-- What a node of a document holds. -/
inductive Content where
  /-- Nothing that makes sense: a scalar that does not fit its tag, or an alias of a collection
  around it. -/
  | unfit
  | none
  | bool (b : Bool)
  | integer (i : Int)
  /-- A number, as it is written. -/
  | number (written : String)
  | text (s : String)
  | list (items : List Content)
  | table (entries : List (Content × Content))
deriving Inhabited

/-! ### Scalars -/

/-- The integer that digits in a base stand for, with or without a sign, if it fits 64 bits. -/
def wordIn? (base : Nat) (s : List Char) : Option Int :=
  let (negative, digits) := takeSign s
  match naturalIn? base digits with
  | some n =>
    let i : Int := if negative then -(n : Int) else n
    if fitsSigned 64 i then some i else Option.none
  | Option.none => Option.none

/-- The number, other than an integer, that a scalar is written like. A word without a digit is a
number only if it is one of those with a point. -/
def numberLike? (s : List Char) : Option Binary64 :=
  let word := String.ofList s
  if [".inf", ".Inf", ".INF", "+.inf", "+.Inf", "+.INF"].contains word then some (.infinite false)
  else if ["-.inf", "-.Inf", "-.INF"].contains word then some (.infinite true)
  else if [".nan", ".NaN", ".NAN"].contains word then some .nan
  else if s.any Char.isDigit then Binary64.read? s
  else Option.none

/-- The boolean that a word stands for. -/
def boolWord? (word : String) : Option Bool :=
  if ["true", "True", "TRUE"].contains word then some true
  else if ["false", "False", "FALSE"].contains word then some false
  else Option.none

namespace Content

/-- What a plain scalar holds. -/
def ofPlain (written : String) : Content :=
  let s := written.toList
  let marked := match s with
    | '0' :: 'x' :: digits => wordIn? 16 digits
    | '0' :: 'o' :: digits => wordIn? 8 digits
    | '+' :: digits => wordIn? 10 digits
    | _ => Option.none
  match marked with
  | some i => integer i
  | Option.none =>
    if written == "" || written == "~" || written == "null" then none
    else
      match boolWord? written, wordIn? 10 s with
      | some b, _ => bool b
      | Option.none, some i => integer i
      | Option.none, Option.none => if (numberLike? s).isSome then number written else text written

/-- What a plain scalar with a tag holds. Only some tags of the language fix what it has to be. -/
def ofTagged (tag : Yaml.Tag) (written : String) : Content :=
  let s := written.toList
  if tag.start != Yaml.Node.standardStart then text written
  else if tag.rest == Yaml.bytesOf "bool" then (boolWord? written).elim unfit bool
  else if tag.rest == Yaml.bytesOf "int" then (wordIn? 10 s).elim unfit integer
  else if tag.rest == Yaml.bytesOf "float" then
    if (numberLike? s).isSome then number written else unfit
  else if tag.rest == Yaml.bytesOf "null" then
    if written == "~" || written == "null" then none else unfit
  else text written

/-- What a scalar holds. -/
def ofScalar (tag : Option Yaml.Tag) (written : String) (plain : Bool) : Content :=
  if !plain then text written
  else
    match tag with
    | some tag => ofTagged tag written
    | Option.none => ofPlain written

/-! ### Collections -/

mutual

/-- Whether two contents are the same. Numbers are if they are written in the same way. -/
def same : Content → Content → Bool
  | unfit, unfit => true
  | none, none => true
  | bool a, bool b => a == b
  | integer a, integer b => a == b
  | number a, number b => a == b
  | text a, text b => a == b
  | list a, list b => sameItems a b
  | table a, table b => sameEntries a b
  | _, _ => false

/-- Whether two lists have the same items in the same order. -/
def sameItems : List Content → List Content → Bool
  | [], [] => true
  | a :: as, b :: bs => same a b && sameItems as bs
  | _, _ => false

/-- Whether two tables have the same entries in the same order. -/
def sameEntries : List (Content × Content) → List (Content × Content) → Bool
  | [], [] => true
  | (k, a) :: as, (l, b) :: bs => same k l && same a b && sameEntries as bs
  | _, _ => false

end

/-- Pairs keys and values that follow each other, behind entries before them; `key` is a key whose
value comes next. Where a key should stand, what is unfit is passed over. No key may occur twice. -/
def pairUp? (taken : List (Content × Content)) :
    Option Content → List Content → Option (List (Content × Content))
  | _, [] => some taken
  | Option.none, unfit :: rest => pairUp? taken Option.none rest
  | Option.none, key :: rest => pairUp? taken (some key) rest
  | some key, value :: rest =>
    if taken.any fun entry => same entry.1 key then Option.none
    else pairUp? (taken ++ [(key, value)]) Option.none rest

/-! ### Nodes -/

/-- The anchors so far. While a collection is read its anchor has no content. -/
structure Anchored where
  /-- The place of each name; a later pair counts. -/
  places : List (String × Nat)
  contents : List (Nat × Content)

/-- Work that meets anchors and may fail. -/
abbrev Reading (α : Type) := StateT Anchored Option α

/-- Gives a place to an anchor, if there is one, and keeps there what `read` returns. -/
def readAnchored (properties : Yaml.Properties) (read : Reading Content) : Reading Content :=
  match properties.anchor with
  | Option.none => read
  | some name => do
    let place := (← get).places.length
    modify fun anchored => { anchored with places := (name, place) :: anchored.places }
    let content ← read
    modify fun anchored => { anchored with contents := (place, content) :: anchored.contents }
    pure content

mutual

/-- What a node holds. An alias without an anchor is an error. -/
def ofNode : Yaml.Node String → Reading Content
  | .alias name => do
    let anchored ← get
    match anchored.places.lookup name with
    | some place => pure ((anchored.contents.lookup place).getD unfit)
    | Option.none => failure
  | .scalar properties written plain =>
    readAnchored properties (pure (ofScalar properties.tag written plain))
  | .sequence properties items =>
    readAnchored properties do
      let items ← ofItems items
      pure (list items)
  | .mapping properties entries =>
    readAnchored properties do
      let parts ← ofEntries entries
      match pairUp? [] Option.none parts with
      | some entries => pure (table entries)
      | Option.none => failure

/-- What the items hold. -/
def ofItems : List (Yaml.Node String) → Reading (List Content)
  | [] => pure []
  | item :: rest => do
    let item ← ofNode item
    let rest ← ofItems rest
    pure (item :: rest)

/-- What keys and values hold, each key in front of its value. -/
def ofEntries : List (Yaml.Node String × Yaml.Node String) → Reading (List Content)
  | [] => pure []
  | (key, value) :: rest => do
    let key ← ofNode key
    let value ← ofNode value
    let rest ← ofEntries rest
    pure (key :: value :: rest)

end

/-! ### Settings -/

/-- The name that a key gives to a setting. -/
def name? : Content → Option String
  | bool b => some (if b then "true" else "false")
  | integer i => some (String.ofList (integerText i))
  | number written => some written
  | text s => some s
  | _ => Option.none

mutual

/-- The setting that a content is. Every key has to be a name, and every number has to have a
value: the words with a point have none. -/
def setting? : Content → Option Setting
  | unfit => some .none
  | none => some .none
  | bool b => some (.bool b)
  | integer i => some (.integer i)
  | number written => (Binary64.read? written.toList).map .number
  | text s => some (.text s)
  | list items => (settings? items).map .list
  | table entries => (namedSettings? entries).map fun named => .table (Fields.ofList named)

/-- The settings that the items are. -/
def settings? : List Content → Option (List Setting)
  | [] => some []
  | item :: rest => do
    let item ← setting? item
    let rest ← settings? rest
    pure (item :: rest)

/-- The settings that the entries are, with their names. -/
def namedSettings? : List (Content × Content) → Option (List (String × Setting))
  | [] => some []
  | (key, value) :: rest => do
    let name ← name? key
    let value ← setting? value
    let rest ← namedSettings? rest
    pure ((name, value) :: rest)

end

end Content

/-- The table that a YAML document holds. -/
def ofYaml? (s : List Char) : Option (Fields Setting) :=
  match Yaml.Modern.document? s with
  | Option.none => Option.none
  | some Option.none => some []
  | some (some root) =>
    match (Content.ofNode root).run ⟨[], []⟩ with
    | Option.none => Option.none
    | some (content, _) =>
      match content.setting? with
      | some (table entries) => some entries
      | _ => Option.none

end StaticSite.Setting
