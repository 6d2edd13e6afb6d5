import StaticSite.Yaml.Token
import StaticSite.Yaml.BlockScalar
/-!
# StaticSite.Yaml.TokenStream

Cuts a YAML text into tokens. Indentation opens and closes blocks. A word is a key if a colon
follows it on its line, which shows only later: then the token that marks it as a key is put in
front of it. So `Scanner` remembers for each open collection where its last possible key stands.
-/

set_option autoImplicit false

namespace StaticSite.Yaml

/-- A place where a key may have started. -/
structure PossibleKey where
  /-- How many tokens stand before it. -/
  position : Nat
  index : Nat
  line : Nat
  column : Nat
  /-- Whether indentation allows nothing but a key here. -/
  required : Bool
deriving Repr, Inhabited

/-- The longest key, in bytes. -/
def longestKey : Nat := 1024

/-- The state of cutting a text into tokens. -/
structure Scanner where
  cursor : Cursor
  /-- The tokens so far, the last one first. -/
  tokens : List Token
  /-- How many they are. -/
  count : Nat
  /-- The column of the innermost block, or -1. -/
  indent : Int
  /-- The columns of the blocks around it. -/
  outerIndents : List Int
  /-- Whether a key may start here. -/
  keyAllowed : Bool
  /-- The possible key of the innermost flow collection, or of the blocks if there is none. -/
  candidate : Option PossibleKey
  /-- Those of the collections around it: one for each open flow collection. -/
  outerCandidates : List (Option PossibleKey)
deriving Inhabited

namespace Scanner

/-- The state at the start of a text. -/
def start (s : List Char) : Scanner := ⟨Cursor.start s, [], 0, -1, [], true, none, []⟩

/-- Whether a flow collection is open. -/
def inFlow (s : Scanner) : Bool := !s.outerCandidates.isEmpty

/-- Appends a token. -/
def push (s : Scanner) (token : Token) : Scanner :=
  { s with tokens := token :: s.tokens, count := s.count + 1 }

/-- Puts a token behind the first `position` tokens. -/
def insertAt (s : Scanner) (position : Nat) (token : Token) : Scanner :=
  let later := s.count - position
  { s with tokens := s.tokens.take later ++ token :: s.tokens.drop later, count := s.count + 1 }

/-! ### White space and comments -/

/-- Steps over white space, comments and line breaks. Tabs count as white space only where no key
may start or inside a flow collection; a line break outside allows a key. A byte order mark at the
start of a line is skipped, and takes a column. -/
def skipGap (inFlow : Bool) : Nat → Bool → Cursor → Bool × Cursor
  | 0, keyAllowed, c => (keyAllowed, c)
  | fuel + 1, keyAllowed, c =>
    let c := if c.column == 0 && c.peek == '\ufeff' then c.skip else c
    let c := c.skipWhile fun d => d == ' ' || ((inFlow || !keyAllowed) && d == '\t')
    let c := if c.peek == '#' then c.skipLine else c
    if isBreak c.peek then skipGap inFlow fuel (keyAllowed || !inFlow) c.skipBreak
    else (keyAllowed, c)

/-! ### Possible keys

A key is known only when the colon after it is met. So the place where one may have started is
remembered, in each of the collections that are open, while it is on the same line and not too far
back. -/

/-- Whether a possible key is out of reach: on an earlier line, or too far back. -/
def isStale (c : Cursor) (key : PossibleKey) : Bool :=
  key.line < c.line || key.index + longestKey < c.index

/-- Forgets a possible key. It is an error if a key was required. -/
def dropCandidate? : Option PossibleKey → Option (Option PossibleKey)
  | none => some none
  | some key => if key.required then none else some none

/-- Forgets a possible key that is out of reach. -/
def dropStale? (c : Cursor) (candidate : Option PossibleKey) : Option (Option PossibleKey) :=
  if candidate.any (isStale c) then dropCandidate? candidate else some candidate

/-- Forgets the possible keys that are out of reach. -/
def dropAllStale? (s : Scanner) : Option Scanner := do
  let candidate ← dropStale? s.cursor s.candidate
  let outer ← s.outerCandidates.mapM (dropStale? s.cursor)
  pure { s with candidate := candidate, outerCandidates := outer }

/-- Forgets the possible key of the innermost collection. -/
def forgetKey? (s : Scanner) : Option Scanner :=
  (dropCandidate? s.candidate).map fun candidate => { s with candidate := candidate }

/-- Remembers that a key may start here, if one is allowed. -/
def rememberKey? (s : Scanner) : Option Scanner :=
  if s.keyAllowed then
    let c := s.cursor
    let required := !s.inFlow && s.indent == c.column
    s.forgetKey?.map fun s =>
      { s with candidate := some ⟨s.count, c.index, c.line, c.column, required⟩ }
  else some s

/-! ### Blocks

A block has no mark where it ends: it ends with the first line that stands further left. The columns
of those that are open are kept, the innermost first, and the tokens for their ends are made when
such a line is met. -/

/-- Closes blocks, given by their columns from the innermost on, that stand right of `column`. -/
def closeBlocks (column : Int) : Int → List Int → Scanner → Scanner
  | indent, [], s => { s with indent := indent, outerIndents := [] }
  | indent, next :: outer, s =>
    if indent > column then closeBlocks column next outer (s.push .blockEnd)
    else { s with indent := indent, outerIndents := next :: outer }

/-- Closes the blocks right of `column`. Inside a flow collection indentation has no meaning. -/
def unrollTo (s : Scanner) (column : Int) : Scanner :=
  if s.inFlow then s else closeBlocks column s.indent s.outerIndents s

/-- Opens a block at `column` if this is right of the innermost one; its first token is put behind
the first `position` tokens. -/
def openBlock (s : Scanner) (column position : Nat) (token : Token) : Scanner :=
  if !s.inFlow && s.indent < column then
    { s.insertAt position token with indent := column, outerIndents := s.indent :: s.outerIndents }
  else s

/-! ### One token -/

/-- Appends a token that `read?` finds at the cursor. -/
def readWith? (s : Scanner) (read? : Cursor → Option (Token × Cursor)) : Option Scanner :=
  (read? s.cursor).map fun (token, next) => { s.push token with cursor := next }

/-- Appends a token that `length` characters stand for. -/
def take (s : Scanner) (token : Token) (length : Nat) : Scanner :=
  { s.push token with cursor := s.cursor.skipMany length }

/-- A token between documents, which ends all blocks. -/
def takeBetween? (s : Scanner) (read? : Cursor → Option (Token × Cursor)) : Option Scanner := do
  let s ← (s.unrollTo (-1)).forgetKey?
  { s with keyAllowed := false }.readWith? read?

/-- Opens a flow collection. -/
def openFlow? (s : Scanner) (token : Token) : Option Scanner := do
  let s ← s.rememberKey?
  pure ({ s with outerCandidates := s.candidate :: s.outerCandidates, candidate := none,
                 keyAllowed := true }.take token 1)

/-- Closes a flow collection. -/
def closeFlow? (s : Scanner) (token : Token) : Option Scanner := do
  let s ← s.forgetKey?
  let s := match s.outerCandidates with
    | [] => s
    | candidate :: outer => { s with candidate := candidate, outerCandidates := outer }
  pure ({ s with keyAllowed := false }.take token 1)

/-- Opens a block of a kind where an indicator stands, unless a flow collection is open. -/
def openAtIndicator? (s : Scanner) (token : Token) : Option Scanner :=
  if s.inFlow then some s
  else if s.keyAllowed then some (s.openBlock s.cursor.column s.count token)
  else none

/-- The indicator of an item of a block sequence. -/
def takeBlockEntry? (s : Scanner) : Option Scanner := do
  let s ← s.openAtIndicator? .blockSequenceStart
  let s ← s.forgetKey?
  pure ({ s with keyAllowed := true }.take .blockEntry 1)

/-- The indicator of a key. -/
def takeKey? (s : Scanner) : Option Scanner := do
  let s ← s.openAtIndicator? .blockMappingStart
  let s ← s.forgetKey?
  pure ({ s with keyAllowed := !s.inFlow }.take .key 1)

/-- The indicator of a value. If a key may have started before, it did. -/
def takeValue? (s : Scanner) : Option Scanner :=
  match s.candidate with
  | some key =>
    let s := (s.insertAt key.position .key).openBlock key.column key.position .blockMappingStart
    some ({ s with candidate := none, keyAllowed := false }.take .value 1)
  | none => do
    let s ← s.openAtIndicator? .blockMappingStart
    pure ({ s with keyAllowed := !s.inFlow }.take .value 1)

/-- A token that may start a key and after which no other can start at once. -/
def takeContent? (s : Scanner) (read? : Cursor → Option (Token × Cursor)) : Option Scanner := do
  let s ← s.rememberKey?
  { s with keyAllowed := false }.readWith? read?

/-- A scalar below an indicator. -/
def takeBlockScalar? (s : Scanner) : Option Scanner := do
  let s ← s.forgetKey?
  { s with keyAllowed := true }.readWith? fun c =>
    (blockScalar? s.indent c).map fun (content, next) =>
      (.scalar (String.ofList content) false, next)

/-- A plain scalar. A key may start after it if it reaches another line. -/
def takePlain? (s : Scanner) : Option Scanner := do
  let s ← s.rememberKey?
  let (content, multiline, next) ← plainScalar? s.inFlow (s.indent + 1).toNat s.cursor
  pure { s.push (.scalar (String.ofList content) true) with
           cursor := next, keyAllowed := multiline }

/-- A tag, which white space has to follow. -/
def takeTag? (s : Scanner) : Option Scanner :=
  s.takeContent? fun c =>
    (tag? c).bind fun (token, next) =>
      if isGapOrEnd next.peek || (s.inFlow && next.peek == ',') then some (token, next) else none

/-- Whether a plain scalar may start with the next character. -/
def startsPlain (inFlow : Bool) (c : Cursor) : Bool :=
  !(isGapOrEnd c.peek || "-?:,[]\x7b\x7d#&*!|>'\"%@\x60".toList.contains c.peek) ||
  (c.peek == '-' && !isSpace (c.peekAt 1)) ||
  (!inFlow && (c.peek == '?' || c.peek == ':') && !isGapOrEnd (c.peekAt 1))

/-- Reads the token at the cursor, which is not the end of the text. -/
def takeToken? (s : Scanner) : Option Scanner :=
  let c := s.cursor
  let followed := isGapOrEnd (c.peekAt 1)
  if c.column == 0 && c.peek == '%' then s.takeBetween? directive?
  else if c.atMark '-' then s.takeBetween? fun c => some (.documentStart, c.skipMany 3)
  else if c.atMark '.' then s.takeBetween? fun c => some (.documentEnd, c.skipMany 3)
  else if c.peek == '[' then s.openFlow? .flowSequenceStart
  else if c.peek == '\x7b' then s.openFlow? .flowMappingStart
  else if c.peek == ']' then s.closeFlow? .flowSequenceEnd
  else if c.peek == '\x7d' then s.closeFlow? .flowMappingEnd
  else if c.peek == ',' then
    s.forgetKey?.map fun s => { s with keyAllowed := true }.take .flowEntry 1
  else if c.peek == '-' && followed then s.takeBlockEntry?
  else if c.peek == '?' && (s.inFlow || followed) then s.takeKey?
  else if c.peek == ':' && (s.inFlow || followed) then s.takeValue?
  else if c.peek == '*' then
    s.takeContent? fun c => (anchorName? c).map fun (name, next) => (.alias name, next)
  else if c.peek == '&' then
    s.takeContent? fun c => (anchorName? c).map fun (name, next) => (.anchor name, next)
  else if c.peek == '!' then s.takeTag?
  else if (c.peek == '|' || c.peek == '>') && !s.inFlow then s.takeBlockScalar?
  else if c.peek == '\'' || c.peek == '"' then
    s.takeContent? fun c => (quotedScalar? c).map fun (content, next) =>
      (.scalar (String.ofList content) false, next)
  else if startsPlain s.inFlow c then s.takePlain?
  else none

/-- Reads tokens up to the end of the text. `fuel` is more than the length of the text. -/
def run? : Nat → Scanner → Option Scanner
  | 0, _ => none
  | fuel + 1, s =>
    let (keyAllowed, c) := skipGap s.inFlow (fuel + 1) s.keyAllowed s.cursor
    match { s with keyAllowed := keyAllowed, cursor := c }.dropAllStale? with
    | none => none
    | some s =>
      let s := s.unrollTo c.column
      if c.atEnd then (s.unrollTo (-1)).forgetKey?
      else
        match s.takeToken? with
        | none => none
        | some s => run? fuel s

end Scanner

/-- The tokens of a text. -/
def tokens? (s : List Char) : Option (List Token) :=
  if s.all isReadable then
    (Scanner.run? (s.length + 1) (Scanner.start s)).map (·.tokens.reverse)
  else none

end StaticSite.Yaml
