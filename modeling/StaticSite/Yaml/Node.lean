import StaticSite.Yaml.TokenStream
/-!
# StaticSite.Yaml.Node

The tree that the tokens of a document describe. Tags are written out, scalars are not yet
interpreted and aliases not yet followed.

`document?` reads the only document of a text, which may also have none.
-/

set_option autoImplicit false

namespace StaticSite.Yaml

/-- A tag, in two parts: what its shorthand stands for, and what is written after that. They are
bytes, since what is written with percent signs need not be text. -/
structure Tag where
  start : List UInt8
  rest : List UInt8
deriving DecidableEq, Repr, Inhabited

/-- The whole tag. -/
def Tag.bytes (tag : Tag) : List UInt8 := tag.start ++ tag.rest

/-- A name for other places to refer to, and a tag. -/
structure Properties where
  anchor : Option String
  tag : Option Tag
deriving Repr, Inhabited

/-- A node of a document, with aliases of type `α`. -/
inductive Node (α : Type) where
  | alias (target : α)
  | scalar (properties : Properties) (content : String) (plain : Bool)
  | sequence (properties : Properties) (items : List (Node α))
  | mapping (properties : Properties) (entries : List (Node α × Node α))
deriving Inhabited, Repr

namespace Node

/-- A node that is not written. -/
def missing : Node String := .scalar ⟨none, none⟩ "" true

/-- Shorthands for the start of tags, and what they stand for. -/
abbrev Handles := List (String × List UInt8)

/-- The start of the tags of the language. -/
def standardStart : List UInt8 := bytesOf "tag:yaml.org,2002:"

/-- The shorthands that every document has. A tag without one is complete. -/
def standardHandles : Handles := [("", []), ("!", bytesOf "!"), ("!!", standardStart)]

/-- What a tag token stands for. -/
def fullTag? (handles : Handles) (handle : String) (suffix : List UInt8) : Option Tag :=
  (handles.lookup handle).map fun start => ⟨start, suffix⟩

/-- Reads an anchor and a tag, each at most once and in either order. -/
def properties? (handles : Handles) : List Token → Option (Properties × List Token)
  | .anchor name :: .tag handle suffix :: rest | .tag handle suffix :: .anchor name :: rest =>
    (fullTag? handles handle suffix).map fun tag => (⟨some name, some tag⟩, rest)
  | .anchor name :: rest => some (⟨some name, none⟩, rest)
  | .tag handle suffix :: rest =>
    (fullTag? handles handle suffix).map fun tag => (⟨none, some tag⟩, rest)
  | rest => some (⟨none, none⟩, rest)

/-- Where a node stands: in a block, in a block whose sequences need no indentation of their own,
or inside a flow collection. -/
inductive Place where
  | block
  | mappingBlock
  | flow
deriving DecidableEq, Repr

/-- Whether the node of a block sequence is missing before this token. -/
def endsItem (inMapping : Bool) : List Token → Bool
  | .blockEntry :: _ | .blockEnd :: _ => true
  | .key :: _ | .value :: _ => inMapping
  | _ => false

/-- Whether a key or value of a block mapping is missing before this token. -/
def endsEntry : List Token → Bool
  | .key :: _ | .value :: _ | .blockEnd :: _ => true
  | _ => false

/-- Whether the value of a pair inside a flow sequence is missing before this token. -/
def endsPair : List Token → Bool
  | .flowEntry :: _ | .flowSequenceEnd :: _ => true
  | _ => false

/-- Whether a key of a flow mapping is missing before this token. -/
def endsFlowKey : List Token → Bool
  | .value :: _ | .flowEntry :: _ | .flowMappingEnd :: _ => true
  | _ => false

/-- Whether the value of a flow mapping is missing before this token. -/
def endsFlowEntry : List Token → Bool
  | .flowEntry :: _ | .flowMappingEnd :: _ => true
  | _ => false

/-- A node of which only the properties are written, if these are. -/
def unwritten? (properties : Properties) (tokens : List Token) :
    Option (Node String × List Token) :=
  if properties.anchor.isSome || properties.tag.isSome then
    some (.scalar properties "" true, tokens)
  else none

mutual

/-- The node at the start of the tokens, and the tokens after it. -/
def node? (handles : Handles) : Nat → Place → List Token → Option (Node String × List Token)
  | 0, _, _ => none
  | fuel + 1, place, tokens =>
    match tokens with
    | .alias name :: rest => some (.alias name, rest)
    | _ =>
      match properties? handles tokens with
      | none => none
      | some (properties, tokens) =>
        match tokens with
        | .scalar content plain :: rest => some (.scalar properties content plain, rest)
        | .flowSequenceStart :: rest =>
          (flowItems? handles fuel true rest).map fun (items, rest) =>
            (.sequence properties items, rest)
        | .flowMappingStart :: rest =>
          (flowEntries? handles fuel true rest).map fun (entries, rest) =>
            (.mapping properties entries, rest)
        | .blockEntry :: _ =>
          if place = .mappingBlock then
            (bareItems? handles fuel tokens).map fun (items, rest) =>
              (.sequence properties items, rest)
          else unwritten? properties tokens
        | .blockSequenceStart :: rest =>
          if place = .flow then unwritten? properties tokens
          else (blockItems? handles fuel rest).map fun (items, rest) =>
            (.sequence properties items, rest)
        | .blockMappingStart :: rest =>
          if place = .flow then unwritten? properties tokens
          else (blockEntries? handles fuel rest).map fun (entries, rest) =>
            (.mapping properties entries, rest)
        | _ => unwritten? properties tokens

/-- The items of a block sequence up to its end. -/
def blockItems? (handles : Handles) : Nat → List Token → Option (List (Node String) × List Token)
  | 0, _ => none
  | fuel + 1, tokens =>
    match tokens with
    | .blockEntry :: rest =>
      match if endsItem false rest then some (missing, rest)
          else node? handles fuel .block rest with
      | none => none
      | some (item, rest) =>
        (blockItems? handles fuel rest).map fun (items, rest) => (item :: items, rest)
    | .blockEnd :: rest => some ([], rest)
    | _ => none

/-- The items of a sequence that stands at the column of the mapping around it. -/
def bareItems? (handles : Handles) : Nat → List Token → Option (List (Node String) × List Token)
  | 0, _ => none
  | fuel + 1, tokens =>
    match tokens with
    | .blockEntry :: rest =>
      match if endsItem true rest then some (missing, rest) else node? handles fuel .block rest with
      | none => none
      | some (item, rest) =>
        (bareItems? handles fuel rest).map fun (items, rest) => (item :: items, rest)
    | _ => some ([], tokens)

/-- The value that belongs to a key of a block mapping. -/
def blockValue? (handles : Handles) : Nat → List Token → Option (Node String × List Token)
  | 0, _ => none
  | fuel + 1, tokens =>
    match tokens with
    | .value :: rest =>
      if endsEntry rest then some (missing, rest) else node? handles fuel .mappingBlock rest
    | _ => some (missing, tokens)

/-- The entries of a block mapping up to its end. -/
def blockEntries? (handles : Handles) :
    Nat → List Token → Option (List (Node String × Node String) × List Token)
  | 0, _ => none
  | fuel + 1, tokens =>
    match tokens with
    | .key :: rest =>
      match if endsEntry rest then some (missing, rest)
          else node? handles fuel .mappingBlock rest with
      | none => none
      | some (key, rest) =>
        match blockValue? handles fuel rest with
        | none => none
        | some (value, rest) =>
          (blockEntries? handles fuel rest).map fun (entries, rest) =>
            ((key, value) :: entries, rest)
    | .blockEnd :: rest => some ([], rest)
    | _ => none

/-- The single pair that a key indicator starts inside a flow sequence. Where its key is missing
the next token belongs to it. -/
def flowPair? (handles : Handles) : Nat → List Token → Option (Node String × List Token)
  | 0, _ => none
  | fuel + 1, tokens =>
    let key? := match tokens with
      | .value :: rest | .flowEntry :: rest | .flowSequenceEnd :: rest => some (missing, rest)
      | _ => node? handles fuel .flow tokens
    match key? with
    | none => none
    | some (key, rest) =>
      let value? := match rest with
        | .value :: rest =>
          if endsPair rest then some (missing, rest) else node? handles fuel .flow rest
        | _ => some (missing, rest)
      value?.map fun (value, rest) => (.mapping ⟨none, none⟩ [(key, value)], rest)

/-- The items of a flow sequence up to its end; `first` tells that none stands before. -/
def flowItems? (handles : Handles) :
    Nat → Bool → List Token → Option (List (Node String) × List Token)
  | 0, _, _ => none
  | fuel + 1, first, tokens =>
    match tokens with
    | .flowSequenceEnd :: rest => some ([], rest)
    | _ =>
      match if first then some tokens
          else match tokens with
            | .flowEntry :: rest => some rest
            | _ => none with
      | none => none
      | some tokens =>
        match tokens with
        | .flowSequenceEnd :: rest => some ([], rest)
        | _ =>
          let item? := match tokens with
            | .key :: rest => flowPair? handles fuel rest
            | _ => node? handles fuel .flow tokens
          match item? with
          | none => none
          | some (item, rest) =>
            (flowItems? handles fuel false rest).map fun (items, rest) => (item :: items, rest)

/-- The entries of a flow mapping up to its end; `first` tells that none stands before. -/
def flowEntries? (handles : Handles) :
    Nat → Bool → List Token → Option (List (Node String × Node String) × List Token)
  | 0, _, _ => none
  | fuel + 1, first, tokens =>
    match tokens with
    | .flowMappingEnd :: rest => some ([], rest)
    | _ =>
      match if first then some tokens
          else match tokens with
            | .flowEntry :: rest => some rest
            | _ => none with
      | none => none
      | some tokens =>
        match tokens with
        | .flowMappingEnd :: rest => some ([], rest)
        | _ =>
          let entry? : Option ((Node String × Node String) × List Token) :=
            match tokens with
            | .key :: rest =>
              match if endsFlowKey rest then some (missing, rest)
                  else node? handles fuel .flow rest with
              | none => none
              | some (key, rest) =>
                let value? := match rest with
                  | .value :: rest =>
                    if endsFlowEntry rest then some (missing, rest)
                    else node? handles fuel .flow rest
                  | _ => some (missing, rest)
                value?.map fun (value, rest) => ((key, value), rest)
            | _ => (node? handles fuel .flow tokens).map fun (key, rest) => ((key, missing), rest)
          match entry? with
          | none => none
          | some (entry, rest) =>
            (flowEntries? handles fuel false rest).map fun (entries, rest) =>
              (entry :: entries, rest)

end

/-! ### Documents -/

/-- Reads the directives before a document, each shorthand and the version at most once. Versions
1.1 and 1.2 are known. -/
def directives? : Bool → Handles → List Token → Option (Handles × List Token)
  | versioned, handles, .version major minor :: rest =>
    if versioned || major != 1 || !(minor == 1 || minor == 2) then none
    else directives? true handles rest
  | versioned, handles, .tagHandle handle full :: rest =>
    if (handles.lookup handle).isSome then none
    else directives? versioned ((handle, full) :: handles) rest
  | _, handles, rest => some (handles, rest)

/-- The bound on the steps that `node?` takes. -/
def stepsFor (tokens : List Token) : Nat := 4 * tokens.length + 4

/-- Whether the content of a document is missing before this token. -/
def endsDocument : List Token → Bool
  | [] | .version _ _ :: _ | .tagHandle _ _ :: _ | .documentStart :: _ | .documentEnd :: _ => true
  | _ => false

/-- The root of a document behind its directives, and the tokens after it. Only where there are
none, `bare`, the mark at the start may be missing. -/
def root? (handles : Handles) (bare : Bool) (tokens : List Token) :
    Option (Node String × List Token) :=
  let handles := handles ++ standardHandles
  match tokens with
  | .documentStart :: rest =>
    if endsDocument rest then some (missing, rest) else node? handles (stepsFor rest) .block rest
  | _ => if bare then node? handles (stepsFor tokens) .block tokens else none

/-- The only document of a text, if there is one, from the tokens of the text. -/
def ofTokens? (tokens : List Token) : Option (Option (Node String)) := do
  if tokens.isEmpty then some none
  else
    let (handles, rest) ← directives? false [] tokens
    let (root, rest) ← root? handles (tokens.length == rest.length) rest
    if rest.all (· == .documentEnd) then some (some root) else none

end Node

/-- The only document of a text, if there is one. -/
def document? (s : List Char) : Option (Option (Node String)) := (tokens? s).bind Node.ofTokens?

end StaticSite.Yaml
