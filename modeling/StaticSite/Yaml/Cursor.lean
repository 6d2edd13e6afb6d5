/-!
# StaticSite.Yaml.Cursor

A place in a YAML text: what follows it, and its line and column, which decide about indentation
and about which words may be keys. The classes of characters that YAML tells apart are here too.

The end of the text reads as the character NUL, which no YAML text contains (`isReadable`).
-/

set_option autoImplicit false

namespace StaticSite.Yaml

/-- The characters that a YAML text may contain. -/
def isReadable (c : Char) : Bool :=
  let n := c.toNat
  n == 0x09 || n == 0x0A || n == 0x0D || (0x20 ≤ n && n ≤ 0x7E) || n == 0x85 ||
  (0xA0 ≤ n && n ≤ 0xD7FF) || (0xE000 ≤ n && n ≤ 0xFFFD) || 0x10000 ≤ n

/-- What stands at the end of the text. -/
def endMark : Char := '\x00'

/-- The characters that end a line. -/
def isBreak (c : Char) : Bool :=
  c == '\n' || c == '\r' || c == '\u0085' || c == '\u2028' || c == '\u2029'

/-- A space or a tab. -/
def isSpace (c : Char) : Bool := c == ' ' || c == '\t'

/-- A line break or the end of the text. -/
def isBreakOrEnd (c : Char) : Bool := isBreak c || c == endMark

/-- What may follow an indicator: white space or the end of the text. -/
def isGapOrEnd (c : Char) : Bool := isSpace c || isBreakOrEnd c

/-- The characters of anchors and of the names of directives. -/
def isWordChar (c : Char) : Bool :=
  ('a' ≤ c && c ≤ 'z') || ('A' ≤ c && c ≤ 'Z') || ('0' ≤ c && c ≤ '9') || c == '_' || c == '-'

/-- The characters that structure flow collections. -/
def isFlowIndicator (c : Char) : Bool :=
  c == ',' || c == '[' || c == ']' || c == '\x7b' || c == '\x7d'

/-- A place in a text. -/
structure Cursor where
  /-- The text from here on. -/
  rest : List Char
  /-- How many bytes stand before. -/
  index : Nat
  line : Nat
  column : Nat
deriving Repr, Inhabited

namespace Cursor

/-- The start of a text. -/
def start (s : List Char) : Cursor := ⟨s, 0, 0, 0⟩

/-- The next character. -/
def peek (c : Cursor) : Char := c.rest.headD endMark

/-- The character after `n` others. -/
def peekAt (c : Cursor) (n : Nat) : Char := (c.rest.drop n).headD endMark

/-- Whether this is the end of the text. -/
def atEnd (c : Cursor) : Bool := c.peek == endMark

/-- Steps over a character of the line. -/
def skip (c : Cursor) : Cursor :=
  ⟨c.rest.tail, c.index + c.peek.utf8Size, c.line, c.column + 1⟩

/-- Steps over `n` characters of the line. -/
def skipMany (c : Cursor) (n : Nat) : Cursor :=
  let size := (c.rest.take n).foldl (fun size d => size + d.utf8Size) 0
  ⟨c.rest.drop n, c.index + size, c.line, c.column + n⟩

/-- Steps over the line break here, if there is one, and gives it as it counts inside a scalar: all
breaks are line feeds there, except the two separators of Unicode. -/
def takeBreak (c : Cursor) : List Char × Cursor :=
  match c.rest with
  | '\r' :: '\n' :: rest => (['\n'], ⟨rest, c.index + 2, c.line + 1, 0⟩)
  | b :: rest =>
    if isBreak b then
      ([if b == '\u2028' || b == '\u2029' then b else '\n'],
        ⟨rest, c.index + b.utf8Size, c.line + 1, 0⟩)
    else ([], c)
  | [] => ([], c)

/-- Steps over the line break here, if there is one. -/
def skipBreak (c : Cursor) : Cursor := c.takeBreak.2

/-- The longest run of characters of the line that are in a class, and the place after it. -/
def takeWhile (c : Cursor) (isMember : Char → Bool) : List Char × Cursor :=
  let run := c.rest.takeWhile isMember
  (run, c.skipMany run.length)

/-- The place after the characters of the line that are in a class. -/
def skipWhile (c : Cursor) (isMember : Char → Bool) : Cursor := (c.takeWhile isMember).2

/-- The place at the end of the line. -/
def skipLine (c : Cursor) : Cursor := c.skipWhile (!isBreakOrEnd ·)

/-- Whether the line starts here with `mark` three times and white space after it: the marks that
start and end documents. -/
def atMark (c : Cursor) (mark : Char) : Bool :=
  c.column == 0 && c.peek == mark && c.peekAt 1 == mark && c.peekAt 2 == mark &&
  isGapOrEnd (c.peekAt 3)

/-- Whether a document starts or ends here. -/
def atDocumentMark (c : Cursor) : Bool := c.atMark '-' || c.atMark '.'

end Cursor

end StaticSite.Yaml
