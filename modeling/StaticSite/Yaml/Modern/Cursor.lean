import StaticSite.Yaml.Cursor
/-!
# StaticSite.Yaml.Modern.Cursor

The later form of the language, YAML 1.2, in which settings are written. It differs from the form
of front matter in its characters, in where indentation and tabs matter, and in what may be a key.

Here are the classes of its characters and the steps over white space. Any character may occur; the
character NUL ends the text (`readable`).
-/

set_option autoImplicit false

namespace StaticSite.Yaml.Modern

/-- The characters that end a line. -/
def isBreak (c : Char) : Bool := c == '\n' || c == '\r'

/-- A line break or the end of the text. -/
def isBreakOrEnd (c : Char) : Bool := isBreak c || c == endMark

/-- What may follow an indicator: white space or the end of the text. -/
def isGapOrEnd (c : Char) : Bool := isSpace c || isBreakOrEnd c

/-- The part of a text that is read. -/
def readable (s : List Char) : List Char := s.takeWhile (· != endMark)

/-- Whether the line starts here with `mark` three times and white space after it. -/
def atMark (c : Cursor) (mark : Char) : Bool :=
  c.column == 0 && c.peek == mark && c.peekAt 1 == mark && c.peekAt 2 == mark &&
  isGapOrEnd (c.peekAt 3)

/-- Whether a document starts or ends here. -/
def atDocumentMark (c : Cursor) : Bool := atMark c '-' || atMark c '.'

/-- The place at the end of the line. -/
def skipLine (c : Cursor) : Cursor := c.skipWhile (!isBreakOrEnd ·)

/-- Steps over the white space of the line and a comment after it, and gives the white space. A
comment without white space before it is an error. -/
def lineGap? (c : Cursor) : Option (List Char × Cursor) :=
  let (run, next) := c.takeWhile isSpace
  if next.peek != '#' then some (run, next)
  else if run.isEmpty then none
  else some (run, skipLine next)

/-- Steps over the rest of a line, on which nothing but white space and a comment may stand. -/
def emptyLine? (c : Cursor) : Option Cursor :=
  (lineGap? c).bind fun (_, next) => if isBreakOrEnd next.peek then some next else none

/-- Steps over a tab of a plain scalar, on a later line than its first. Left of column `indent`
the rest of the line has to be empty. -/
def overTab? (indent : Int) (c : Cursor) : Option Cursor :=
  if c.column < indent then emptyLine? c else some c.skip

end StaticSite.Yaml.Modern
