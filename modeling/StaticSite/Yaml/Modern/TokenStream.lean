import StaticSite.Yaml.Modern.Scalar
import StaticSite.Yaml.Modern.Token
/-!
# StaticSite.Yaml.Modern.TokenStream

Cuts a text into tokens. Indentation opens and closes blocks; besides, what belongs to a key or to
the hyphen of an item has to stand right of it, so a level of indentation may also be one that no
block belongs to. Inside a flow collection the indentation around it stays in force.

A word is a key if a colon follows it, which shows only later. Outside flow collections this has to
be on the same line and near. A pair of a flow sequence is put between the tokens of a mapping,
unless a mapping has been opened before it.
-/

set_option autoImplicit false

namespace StaticSite.Yaml.Modern

/-- A place where a key may have started. -/
structure PossibleKey where
  /-- How many tokens stand before it. -/
  position : Nat
  line : Nat
  column : Nat
  /-- Whether indentation allows nothing but a key here. -/
  required : Bool
deriving Repr, Inhabited

/-- The longest key outside flow collections, in characters. -/
def longestKey : Nat := 1024

/-- How deep flow collections may lie in each other. -/
def deepestFlow : Nat := 255

/-- A level of indentation. -/
structure Level where
  /-- The column of the level around it. -/
  outer : Int
  /-- Whether a block starts and ends with it. -/
  isBlock : Bool
deriving DecidableEq, Repr

/-- The state of cutting a text into tokens. -/
structure Scanner where
  cursor : Cursor
  /-- The tokens so far, the last one first. -/
  tokens : List Token
  /-- How many they are. -/
  count : Nat
  /-- The column left of which nothing may stand, or -1. -/
  indent : Int
  /-- The levels of indentation, from the innermost on. -/
  levels : List Level
  /-- Whether a key may start here. -/
  keyAllowed : Bool
  /-- The possible key of the innermost flow collection, or of the blocks if there is none. -/
  candidate : Option PossibleKey
  /-- Those of the collections around it: one for each open flow collection. -/
  outerCandidates : List (Option PossibleKey)
  /-- Where, inside a flow collection, a colon needs no white space after it. -/
  jointAt : Nat
  /-- Whether a flow mapping has been opened. -/
  mappingOpened : Bool
  /-- For each open flow sequence whether it is inside a pair. -/
  pairs : List Bool
deriving Inhabited

namespace Scanner

/-- The state at the start of a text. -/
def start (s : List Char) : Scanner :=
  ⟨Cursor.start s, [], 0, -1, [], true, none, [], 0, false, []⟩

/-- Whether a flow collection is open. -/
def inFlow (s : Scanner) : Bool := !s.outerCandidates.isEmpty

/-- Appends a token. -/
def push (s : Scanner) (token : Token) : Scanner :=
  { s with tokens := token :: s.tokens, count := s.count + 1 }

/-- Puts a token behind the first `position` tokens. -/
def insertAt (s : Scanner) (position : Nat) (token : Token) : Scanner :=
  let later := s.count - position
  { s with tokens := s.tokens.take later ++ token :: s.tokens.drop later, count := s.count + 1 }

/-- Steps over white space and a comment on the line. -/
def skipLineGap? (s : Scanner) : Option Scanner :=
  (lineGap? s.cursor).map fun (_, next) => { s with cursor := next }

/-! ### White space and comments -/

/-- Steps over white space, comments and line breaks. A line break outside flow collections allows
a key. Left of the column of a block, a tab may only stand on an empty line. -/
def skipGap? (s : Scanner) : Nat → Option Scanner
  | 0 => some s
  | fuel + 1 =>
    let c := s.cursor
    if c.peek == '\t' && !s.levels.isEmpty && c.column < s.indent then
      match emptyLine? c with
      | none => none
      | some next => skipGap? { s with cursor := next } fuel
    else if isSpace c.peek then skipGap? { s with cursor := c.skip } fuel
    else if isBreak c.peek then
      skipGap? { s with cursor := c.skipBreak, keyAllowed := s.keyAllowed || !s.inFlow } fuel
    else if c.peek == '#' then skipGap? { s with cursor := skipLine c } fuel
    else some s

/-- Steps over the white space after a question mark. There has to be some, without a tab. -/
def keyGap? : Nat → Bool → Cursor → Option (Bool × Cursor)
  | 0, _, _ => none
  | fuel + 1, spaced, c =>
    if c.peek == ' ' then keyGap? fuel true c.skip
    else if isBreak c.peek then keyGap? fuel true c.skipBreak
    else if c.peek == '#' then keyGap? fuel spaced (skipLine c)
    else if spaced && c.peek != '\t' then some (spaced, c)
    else none

/-! ### Possible keys -/

/-- Forgets the possible key of the innermost collection. It is an error if a key was required. -/
def forgetKey? (s : Scanner) : Option Scanner :=
  if s.candidate.any (·.required) then none else some { s with candidate := none }

/-- Outside flow collections, forgets a possible key on an earlier line or too far back. -/
def dropStale? (s : Scanner) : Option Scanner :=
  let isStale := fun (key : PossibleKey) =>
    key.line < s.cursor.line || key.column + longestKey < s.cursor.column
  if !s.inFlow && s.candidate.any isStale then s.forgetKey? else some s

/-- Remembers that a key may start here, if one is allowed. -/
def rememberKey (s : Scanner) : Scanner :=
  if s.keyAllowed then
    let c := s.cursor
    let required := !s.inFlow && s.indent == c.column && s.levels.head?.any (·.isBlock)
    { s with candidate := some ⟨s.count, c.line, c.column, required⟩ }
  else s

/-! ### Indentation -/

/-- Ends the levels right of `column`. -/
def closeLevels (column : Int) : Int → List Level → Scanner → Scanner
  | indent, [], s => { s with indent := indent, levels := [] }
  | indent, level :: outer, s =>
    if indent > column then
      closeLevels column level.outer outer (if level.isBlock then s.push .blockEnd else s)
    else { s with indent := indent, levels := level :: outer }

/-- Ends the levels right of `column`. Inside a flow collection none ends. -/
def unrollTo (s : Scanner) (column : Int) : Scanner :=
  if s.inFlow then s else closeLevels column s.indent s.levels s

/-- Asks what follows to stand right of the block. -/
def openColumn (s : Scanner) : Scanner :=
  if !s.inFlow && s.levels.head?.any (·.isBlock) then
    { s with indent := s.indent + 1, levels := ⟨s.indent, false⟩ :: s.levels }
  else s

/-- Ends the level that no block belongs to. -/
def closeColumn (s : Scanner) : Scanner :=
  match s.levels with
  | ⟨outer, false⟩ :: levels => { s with indent := outer, levels := levels }
  | _ => s

/-- Opens a block at `column` if this is right of the innermost one; its first token is put behind
the first `position` tokens. -/
def openBlock (s : Scanner) (column position : Nat) (token : Token) : Scanner :=
  if s.inFlow then s
  else
    let s := if s.indent ≤ column then s.closeColumn else s
    if s.indent < column then
      { s.insertAt position token with indent := column, levels := ⟨s.indent, true⟩ :: s.levels }
    else s

/-! ### One token -/

/-- Appends a token that `read?` finds at the cursor. -/
def readWith? (s : Scanner) (read? : Cursor → Option (Token × Cursor)) : Option Scanner :=
  (read? s.cursor).map fun (token, next) => { s.push token with cursor := next }

/-- Steps over an indicator and the white space and comment after it. -/
def skipIndicator? (s : Scanner) : Option Scanner :=
  { s with cursor := s.cursor.skip }.skipLineGap?

/-- Appends a token between documents, which ends all blocks. -/
def takeBetween? (s : Scanner) (read? : Cursor → Option (Token × Cursor)) : Option Scanner := do
  let s ← (s.unrollTo (-1)).forgetKey?
  { s with keyAllowed := false }.readWith? read?

/-- The mark at the end of a document, with nothing else on its line. -/
def takeDocumentEnd? (s : Scanner) : Option Scanner := do
  let s ← s.takeBetween? fun c => some (.documentEnd, c.skipMany 3)
  let c ← emptyLine? s.cursor
  pure { s with cursor := c }

/-- Ends a pair of a flow sequence, if one is open. -/
def endPair (s : Scanner) : Scanner :=
  match s.pairs with
  | true :: pairs => { s.push .flowMappingEnd with mappingOpened := false, pairs := false :: pairs }
  | _ => s

/-- Opens a flow collection. -/
def openFlow? (s : Scanner) (token : Token) : Option Scanner :=
  let s := s.rememberKey.openColumn
  if deepestFlow ≤ s.outerCandidates.length then none
  else
    let s := { s with outerCandidates := s.candidate :: s.outerCandidates, candidate := none,
                      keyAllowed := true }
    let s := if token = .flowMappingStart then { s with mappingOpened := true }
      else { s with pairs := false :: s.pairs }
    s.skipIndicator?.map (·.push token)

/-- Closes a flow collection. A colon may follow at once if another one is around it. -/
def closeFlow? (s : Scanner) (token : Token) : Option Scanner := do
  let s ← s.forgetKey?
  let s := match s.outerCandidates with
    | [] => s
    | candidate :: outer => { s with candidate := candidate, outerCandidates := outer }
  let s := { s with keyAllowed := false }
  let s := if token = .flowSequenceEnd then { s.endPair with pairs := s.pairs.tail } else s
  let s ← s.skipIndicator?
  let s := if s.inFlow then { s with jointAt := s.cursor.index } else s
  pure (s.push token)

/-- The comma between the items of a flow collection. -/
def takeFlowEntry? (s : Scanner) : Option Scanner := do
  let s ← s.forgetKey?
  let s ← { s with keyAllowed := true }.endPair.skipIndicator?
  pure (s.push .flowEntry)

/-- The hyphen of an item of a block sequence. It may not stand in a flow collection, and no tab may
separate two of them. -/
def takeBlockEntry? (s : Scanner) : Option Scanner := do
  if s.inFlow || !s.keyAllowed then none
  else
    let s := s.openBlock s.cursor.column s.count .blockSequenceStart
    let (run, c) ← lineGap? s.cursor.skip
    if run.contains '\t' && c.peek == '-' && isGapOrEnd (c.peekAt 1) then none
    else
      let s := { s with cursor := c }
      let s := if isBreak c.peek || isFlowIndicator c.peek then s.openColumn else s
      let s ← s.forgetKey?
      pure ({ s with keyAllowed := true }.push .blockEntry)

/-- The question mark before a key. -/
def takeKey? (s : Scanner) : Option Scanner := do
  let s ←
    if s.inFlow then some { s with mappingOpened := true }
    else if s.keyAllowed then some (s.openBlock s.cursor.column s.count .blockMappingStart)
    else none
  let s ← s.forgetKey?
  let (_, c) ← keyGap? (s.cursor.rest.length + 1) false s.cursor.skip
  pure ({ s with keyAllowed := !s.inFlow, cursor := c }.push .key)

/-- The colon before a value. If a key may have started before, it did. A pair of a flow sequence
has to have its key and its colon on one line. No word may be separated from the colon by tabs
alone. -/
def takeValue? (s : Scanner) : Option Scanner := do
  let colon := s.cursor
  let startsPair := !s.pairs.isEmpty && !s.mappingOpened
  let s := if startsPair then { s with pairs := true :: s.pairs.tail } else s
  let (run, c) ← if colon.peekAt 1 == '\t' then lineGap? colon.skip else some ([], colon.skip)
  if !run.isEmpty && !run.contains ' ' && isWordChar c.peek then none
  else
    let s := { s with cursor := c }
    match s.candidate with
    | some key =>
      if startsPair && key.line < colon.line then none
      else
        let s := s.insertAt key.position .key
        let s := if startsPair then s.insertAt key.position .flowMappingStart else s
        let s := (s.openBlock key.column key.position .blockMappingStart).openColumn
        pure ({ s with candidate := none, keyAllowed := false }.push .value)
    | none =>
      let s := if startsPair then s.push .flowMappingStart else s
      if !s.inFlow && !s.keyAllowed then none
      else
        let s := (s.openBlock colon.column s.count .blockMappingStart).openColumn
        pure ({ s with keyAllowed := !s.inFlow }.push .value)

/-- A token that may start a key and after which no other can start at once. -/
def takeContent? (s : Scanner) (read? : Cursor → Option (Token × Cursor)) : Option Scanner :=
  { s.rememberKey with keyAllowed := false }.readWith? read?

/-- A scalar in quotes. A colon may follow it at once, also on a later line. -/
def takeQuoted? (s : Scanner) : Option Scanner := do
  let s := { s.rememberKey with keyAllowed := false }
  let (content, c) ← quotedScalar? s.inFlow s.indent s.cursor
  let s ← { s with cursor := c }.skipGap? (c.rest.length + 1)
  pure ({ s with jointAt := s.cursor.index }.push (.scalar (String.ofList content) false))

/-- A scalar below an indicator. -/
def takeBlockScalar? (s : Scanner) : Option Scanner :=
  let s := { s.rememberKey with keyAllowed := true }.closeColumn
  s.readWith? fun c =>
    (blockScalar? s.indent c).map fun (content, next) =>
      (.scalar (String.ofList content) false, next)

/-- A plain scalar. A key may start after it if it reaches another line. -/
def takePlain? (s : Scanner) : Option Scanner := do
  let s := s.rememberKey.closeColumn
  let (content, multiline, next) ← plainScalar? s.inFlow s.indent s.cursor
  pure { s.push (.scalar (String.ofList content) true) with
           cursor := next, keyAllowed := multiline }

/-- Whether a colon here stands before a value. -/
def startsValue (s : Scanner) : Bool :=
  let next := s.cursor.peekAt 1
  isGapOrEnd next || (s.inFlow && (isFlowIndicator next || s.cursor.index == s.jointAt))

/-- Reads the token at the cursor, which is not the end of the text. -/
def takeToken? (s : Scanner) : Option Scanner :=
  let c := s.cursor
  let followed := isGapOrEnd (c.peekAt 1)
  if c.column == 0 && c.peek == '%' then s.takeBetween? directive?
  else if atMark c '-' then s.takeBetween? fun c => some (.documentStart, c.skipMany 3)
  else if atMark c '.' then s.takeDocumentEnd?
  else if c.column < s.indent then none
  else if c.peek == '[' then s.openFlow? .flowSequenceStart
  else if c.peek == '\x7b' then s.openFlow? .flowMappingStart
  else if c.peek == ']' then s.closeFlow? .flowSequenceEnd
  else if c.peek == '\x7d' then s.closeFlow? .flowMappingEnd
  else if c.peek == ',' then s.takeFlowEntry?
  else if c.peek == '-' && followed then s.takeBlockEntry?
  else if c.peek == '?' && followed then s.takeKey?
  else if c.peek == ':' && s.startsValue then s.takeValue?
  else if c.peek == '*' then
    s.takeContent? fun c => (anchorName? c).map fun (name, next) => (.alias name, next)
  else if c.peek == '&' then
    s.takeContent? fun c => (anchorName? c).map fun (name, next) => (.anchor name, next)
  else if c.peek == '!' then s.takeContent? (tag? s.inFlow)
  else if (c.peek == '|' || c.peek == '>') && !s.inFlow then s.takeBlockScalar?
  else if c.peek == '\'' || c.peek == '"' then s.takeQuoted?
  else if c.peek == '%' || c.peek == '@' || c.peek == '\x60' then none
  else s.takePlain?

/-- Reads tokens up to the end of the text. `fuel` is more than the length of the text. -/
def run? : Nat → Scanner → Option Scanner
  | 0, _ => none
  | fuel + 1, s =>
    match (s.skipGap? (fuel + 1)).bind (·.dropStale?) with
    | none => none
    | some s =>
      let s := s.unrollTo s.cursor.column
      if s.cursor.atEnd then
        if (s.candidate :: s.outerCandidates).any (·.any (·.required)) then none
        else some (s.unrollTo (-1))
      else
        match s.takeToken? with
        | none => none
        | some s => run? fuel s

end Scanner

/-- The tokens of a text. -/
def tokens? (s : List Char) : Option (List Token) :=
  let s := readable s
  (Scanner.run? (s.length + 1) (Scanner.start s)).map (·.tokens.reverse)

end StaticSite.Yaml.Modern
