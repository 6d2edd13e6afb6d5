import StaticSite.Yaml.Scalar
/-!
# StaticSite.Yaml.Document

From the tree of a document to its value. An alias stands for the node that bears its anchor.
An anchor is known by a number, which is how many names were in use before it; if a name is used
again, its number is shared with the next new name, and the last node to bear a number keeps it.

Collections may lie in each other at most 128 deep, aliases followed, and at most a hundred aliases
for each part of the document are followed, so no document expands without bound.
-/

set_option autoImplicit false

namespace StaticSite.Yaml

/-! ### Anchors -/

/-- The anchors met so far. -/
structure Anchors where
  /-- The number of each name. -/
  numbers : List (String × Nat)
  /-- For each number the place of the node that bears it, the last one first. -/
  bearers : List (Nat × Nat)
  /-- The nodes with an anchor, by their places. -/
  nodes : List (Nat × Node Nat)
deriving Inhabited

namespace Anchors

/-- No anchors. -/
def none : Anchors := ⟨[], [], []⟩

/-- Gives a number to an anchor, and returns the place of its node. -/
def bind (anchors : Anchors) (name : String) : Nat × Anchors :=
  let number := anchors.numbers.length
  let place := anchors.bearers.length
  let others := anchors.numbers.filter (·.1 != name)
  (place, { anchors with numbers := (name, number) :: others,
                         bearers := (number, place) :: anchors.bearers })

/-- The node that bears a number. -/
def node? (anchors : Anchors) (number : Nat) : Option (Node Nat) :=
  (anchors.bearers.lookup number).bind fun place => anchors.nodes.lookup place

end Anchors

/-- Work that meets anchors and may fail. -/
abbrev Linking (α : Type) := StateT Anchors Option α

/-- Numbers the anchor of a node, if it has one, and keeps the node that `build` makes of it. -/
def linkWith (properties : Properties) (build : Linking (Node Nat)) : Linking (Node Nat) :=
  match properties.anchor with
  | none => build
  | some name => do
    let place ← modifyGet (·.bind name)
    let node ← build
    modify fun anchors => { anchors with nodes := (place, node) :: anchors.nodes }
    pure node

mutual

/-- Replaces the names in aliases by the numbers they have there. A name without one is an
error. -/
def link : Node String → Linking (Node Nat)
  | .alias name => do
    match (← get).numbers.lookup name with
    | some n => pure (.alias n)
    | none => failure
  | .scalar properties content plain =>
    linkWith properties (pure (.scalar properties content plain))
  | .sequence properties items =>
    linkWith properties do pure (.sequence properties (← linkItems items))
  | .mapping properties entries =>
    linkWith properties do pure (.mapping properties (← linkEntries entries))

/-- Links the items in turn. -/
def linkItems : List (Node String) → Linking (List (Node Nat))
  | [] => pure []
  | item :: rest => do
    let item ← link item
    let rest ← linkItems rest
    pure (item :: rest)

/-- Links the keys and values in turn. -/
def linkEntries : List (Node String × Node String) → Linking (List (Node Nat × Node Nat))
  | [] => pure []
  | (key, value) :: rest => do
    let key ← link key
    let value ← link value
    let rest ← linkEntries rest
    pure ((key, value) :: rest)

end

mutual

/-- The number of parts of a tree: a collection counts for its start and its end. -/
def partCount : Node String → Nat
  | .alias _ => 1
  | .scalar _ _ _ => 1
  | .sequence _ items => 2 + partCountItems items
  | .mapping _ entries => 2 + partCountEntries entries

/-- The number of parts of all items. -/
def partCountItems : List (Node String) → Nat
  | [] => 0
  | item :: rest => partCount item + partCountItems rest

/-- The number of parts of all entries. -/
def partCountEntries : List (Node String × Node String) → Nat
  | [] => 0
  | (key, value) :: rest => partCount key + partCount value + partCountEntries rest

end

/-! ### Values -/

/-- Work that follows aliases: the state is how many more may be followed. -/
abbrev Following (α : Type) := StateT Nat Option α

/-- Adds an entry behind others, none of which may have its key. -/
def addEntry? (entries : List (Yaml × Yaml)) (key value : Yaml) : Option (List (Yaml × Yaml)) :=
  if entries.any fun entry => same entry.1 key then none else some (entries ++ [(key, value)])

/-- The value of a node that is no alias. `inner` gives the values of the nodes in it; without it
the node may not be a collection. -/
def contentWith (inner : Option (Node Nat → Following Yaml)) : Node Nat → Following Yaml
  | .alias _ => failure
  | .scalar properties content plain => do
    match ownTag? properties.tag with
    | some name =>
      match if plain then ofPlain? content else some (string content) with
      | some value => pure (tagged name value)
      | none => failure
    | none =>
      match ofScalar? properties.tag content plain with
      | some value => pure value
      | none => failure
  | .sequence properties items => do
    match inner with
    | none => failure
    | some inner => pure (withOwnTag properties (sequence (← items.mapM inner)))
  | .mapping properties entries => do
    match inner with
    | none => failure
    | some inner =>
      let entries ← entries.foldlM (fun (taken : List (Yaml × Yaml)) entry => do
        let key ← inner entry.1
        let value ← inner entry.2
        match addEntry? taken key value with
        | some taken => pure taken
        | none => failure) []
      pure (withOwnTag properties (mapping entries))
where
  /-- The value with the tag of the author's own, if it has one. -/
  withOwnTag (properties : Properties) (value : Yaml) : Yaml :=
    match ownTag? properties.tag with
    | some name => tagged name value
    | none => value

/-- The value of a node. An alias is followed first. -/
def valueWith (anchors : Anchors) (inner : Option (Node Nat → Following Yaml)) :
    Node Nat → Following Yaml
  | .alias n => do
    match (← get), anchors.node? n with
    | left + 1, some node =>
      set left
      contentWith inner node
    | _, _ => failure
  | node => contentWith inner node

/-- The value of a node inside which collections may lie `depth` deep. -/
def valueAt (anchors : Anchors) : Nat → Node Nat → Following Yaml
  | 0 => valueWith anchors none
  | depth + 1 => valueWith anchors (some (valueAt anchors depth))

/-- How deep collections may lie in each other. -/
def deepest : Nat := 128

/-- The value of a tree. -/
def ofNode? (root : Node String) : Option Yaml := do
  let (node, anchors) ← (link root).run .none
  let (value, _) ← (valueAt anchors deepest node).run (partCount root * 100)
  pure value

/-- The value of the only document of a text; a text without one is null. -/
def parse? (s : List Char) : Option Yaml :=
  match document? s with
  | none => none
  | some none => some null
  | some (some root) => ofNode? root

end StaticSite.Yaml
