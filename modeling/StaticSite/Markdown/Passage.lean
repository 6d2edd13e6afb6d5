import StaticSite.Markdown.Container
/-!
# StaticSite.Markdown.Passage

Passages: the texts of paragraphs, headings and cells as they are written, each character with the
role it has there. A reader of links and tags needs all characters, also those that are not shown,
such as the marks of containers at the start of a line or the backslash of an escape.
-/

set_option autoImplicit false

namespace StaticSite.Markdown

/-- How a line ends inside of a passage. -/
inductive LineBreak where
  | soft
  | hard
  /-- A hard break that a backslash makes. -/
  | escaped
deriving DecidableEq, Repr, Inhabited

/-- What a character of a passage is to its reader. -/
inductive Role where
  /-- It is shown, if it has no other meaning. -/
  | plain
  /-- It is shown and has no other meaning. -/
  | literal
  /-- It is not shown: it escapes a character, or stands at an end of its line. -/
  | hidden
  /-- It belongs to the marks of the containers at the start of its line. -/
  | margin
  /-- It ends its line. -/
  | lineBreak (kind : LineBreak)
  /-- It is shown with the last character of a heading, and only as long as that is text. -/
  | trail
  /-- It stands behind all that is shown. -/
  | beyond
deriving DecidableEq, Repr, Inhabited

/-- A character and its role. -/
structure Glyph where
  char : Char
  role : Role
deriving DecidableEq, Repr, Inhabited

/-- A text with the box of a task in front of it, if it has one. -/
structure Passage where
  task : Option Bool
  /-- The containers around it, the outermost first. -/
  containers : List Container
  inTable : Bool
  glyphs : List Glyph
deriving Repr, Inhabited

namespace Glyph

/-- Characters that all have one role. -/
def all (role : Role) (s : List Char) : List Glyph := s.map (⟨·, role⟩)

/-- Whether this stands for itself, or ends a line. -/
def isShown (g : Glyph) : Bool :=
  match g.role with
  | .plain | .literal | .lineBreak _ => true
  | _ => false

/-- Whether this stands before what is shown next. -/
def isHidden (g : Glyph) : Bool := g.role == .hidden || g.role == .margin

/-- Gives the characters at the end of a line another role, as long as `isEnd` holds. -/
def markEnd (role : Role) (isEnd : Char → Bool) (glyphs : List Glyph) : List Glyph :=
  let (ending, body) := glyphs.reverse.span (isEnd ·.char)
  body.reverse ++ ending.reverse.map ({ · with role := role })

/-- The roles that a backslash gives to the characters after it: none if it escapes nothing. In a
table the bar decides where cells end before it is read, so its escape is no escape in a cell. -/
def escapedRoles (inTable : Bool) : List Char → List Role
  | '\\' :: '|' :: _ => if inTable then [.hidden, .literal] else [.literal]
  | '|' :: _ => if inTable then [.plain] else [.literal]
  | c :: _ => if isAsciiPunctuation c then [.literal] else []
  | [] => []

/-- The characters of a line, of which the first have the given roles. -/
def ofLineWith (inTable : Bool) : List Role → List Char → List Glyph
  | _, [] => []
  | role :: roles, c :: rest => ⟨c, role⟩ :: ofLineWith inTable roles rest
  | [], c :: rest =>
    let roles := if c == '\\' then escapedRoles inTable rest else []
    ⟨c, if roles.isEmpty then .plain else .hidden⟩ :: ofLineWith inTable roles rest

/-- The characters of a line. -/
def ofLine (inTable : Bool) (s : List Char) : List Glyph := ofLineWith inTable [] s

end Glyph

/-- How many backslashes end a text. -/
def endingBackslashes (s : List Char) : Nat := (s.reverse.takeWhile (· == '\\')).length

/-- How a line ends if a passage goes on after it. -/
def Line.breakKind (line : Line) : LineBreak :=
  if endingBackslashes line.text % 2 == 1 then .escaped
  else if (line.text.reverse.takeWhile isInlineSpace).length ≥ 2 then .hard
  else .soft

namespace Passage

/-- A line from the place where a passage goes on. -/
def glyphsFrom (line : Line) (m : Margin) : List Glyph :=
  let content := m.content
  Glyph.all .margin (line.text.take (line.text.length - m.rest.length)) ++
    Glyph.all .hidden (m.rest.take (m.rest.length - content.length)) ++ Glyph.ofLine false content

/-- A line of a passage with its ending. Of the two characters of an ending the second counts. -/
def endLine (line : Line) (glyphs : List Glyph) : List Glyph :=
  let body := match line.breakKind with
    | .escaped => glyphs.dropLast ++ Glyph.all .hidden (glyphs.getLast?.map (·.char)).toList
    | _ => Glyph.markEnd .hidden isInlineSpace glyphs
  body ++ Glyph.all .hidden line.ending.dropLast ++
    Glyph.all (.lineBreak line.breakKind) line.ending.getLast?.toList

/-- The lines of a passage. -/
def joinLines : List (Line × List Glyph) → List Glyph
  | [] => []
  | [(_, glyphs)] => Glyph.markEnd .hidden isInlineSpace glyphs
  | (line, glyphs) :: rest => endLine line glyphs ++ joinLines rest

end Passage

end StaticSite.Markdown
