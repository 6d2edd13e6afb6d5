import StaticSite.Markdown.Extension
import StaticSite.Markdown.Passage
/-!
# StaticSite.Markdown.Block

The blocks of a document. Text in them is kept as it is written until all definitions are known.
-/

set_option autoImplicit false

namespace StaticSite.Markdown

/-- What stands in braces behind a heading. -/
structure HeadingAttributes where
  id : Option (List Char)
  classes : List (List Char)
  /-- All other attributes, with their values if they have any. -/
  others : List (List Char × Option (List Char))
deriving DecidableEq, Repr, Inhabited

/-- How a column of a table is aligned. -/
inductive Alignment where
  | none
  | left
  | center
  | right
deriving DecidableEq, Repr, Inhabited

/-- A block. -/
inductive Block where
  | paragraph (text : Passage)
  | heading (level : Nat) (attributes : Option HeadingAttributes) (text : Passage)
  /-- Code; a fence may say what it is. -/
  | code (info : Option (List Char)) (text : List Char)
  | html (text : List Char)
  | thematicBreak
  | table (columns : List Alignment) (head : List Passage) (rows : List (List Passage))
  /-- The box of a task without text. -/
  | task (checked : Bool)
  | quote (alert : Option Alert) (content : List Block)
  /-- A list; it is `tight` if its paragraphs are not set off. `start` is the first number. -/
  | list (tight : Bool) (start : Option Nat) (items : List Block)
  | item (content : List Block)
  | footnote (label : List Char) (content : List Block)
  /-- Terms and their definitions. -/
  | definitions (tight : Bool) (entries : List Block)
  | term (text : Passage)
  | definition (content : List Block)
deriving Inhabited, Repr

/-! ### Headings -/

/-- One attribute of a heading. A single byte is none. -/
def HeadingAttributes.add (attributes : HeadingAttributes) (s : List Char) : HeadingAttributes :=
  match s with
  | [] => attributes
  | '#' :: c :: id => { attributes with id := some (c :: id) }
  | '.' :: c :: name => { attributes with classes := attributes.classes ++ [c :: name] }
  | s =>
    if (String.ofList s).utf8ByteSize ≤ 1 then attributes
    else
      let other := match Text.cutAt? ['='] s with
        | some (name, value) => (name, some value)
        | none => (s, none)
      { attributes with others := attributes.others ++ [other] }

/-- The text of a heading and the attributes in braces at its end, if there are any. The braces may
not hold further braces, angle brackets, backslashes or the end of a line. -/
def cutAttributes (s : List Char) : List Char × Option HeadingAttributes :=
  match s.reverse.dropWhile fun c => c == ' ' || c == '\t' || isLineEnd c with
  | '\x7d' :: reversed =>
    let isInside := fun c =>
      !(c == '\x7b' || c == '\x7d' || c == '<' || c == '>' || c == '\\' || isLineEnd c)
    match reversed.dropWhile isInside with
    | '\x7b' :: before =>
      let inside := (reversed.takeWhile isInside).reverse
      let isSpace := fun c => c == ' ' || c == '\t' || c == '\x0c'
      let words := (Text.splitAtEach isSpace inside).filter (!·.isEmpty)
      (before.reverse, some (words.foldl HeadingAttributes.add ⟨none, [], []⟩))
    | _ => (s, none)
  | _ => (s, none)

/-- The length of the text of a heading without the number signs that close it, and without spaces
and the ends of lines around them. -/
def headingLength (s : List Char) : Nat :=
  let reversed := s.reverse.dropWhile fun c => c == ' ' || isLineEnd c
  let before := reversed.dropWhile (· == '#')
  match before with
  | [] => 0
  | ' ' :: _ => (before.dropWhile (· == ' ')).length
  | _ => reversed.length

/-- The text of a heading that starts with number signs, from `written`, which is all that is
written after them, and from `s`, which is that without its attributes. Only the first line is read
as text; what is left of `s` after it goes with its last character. -/
def headingGlyphs (written s : List Char) : List Glyph :=
  let line := s.takeWhile (!isLineEnd ·)
  let goesOn := ((afterLineEnd? (s.drop line.length)).getD []).length > 0
  let line := if goesOn && endingBackslashes line % 2 == 1 then line.dropLast
    else (line.reverse.dropWhile isInlineSpace).reverse
  if line.isEmpty then []
  else
    let length := headingLength s
    (Glyph.ofLine false line).take length ++
      Glyph.all .trail ((s.take length).drop line.length) ++
      Glyph.all .beyond (written.drop length)

/-- The text of a heading that is underlined, from the text of its lines, and its attributes. They
stand before the backslash that ends the text, if one does: `escaped` tells so. -/
def underlinedGlyphs (extensions : Extensions) (escaped : Bool) (glyphs : List Glyph) :
    List Glyph × Option HeadingAttributes :=
  let last := if escaped then [Glyph.mk '\\' .literal] else []
  let glyphs := if escaped then glyphs.dropLast else glyphs
  let s := ((glyphs.map (·.char)).reverse.dropWhile isInlineSpace).reverse
  match if extensions.headingAttributes then cutAttributes s else (s, none) with
  | (_, none) => (glyphs ++ last, none)
  | (text, some attributes) =>
    let text := if escaped then text else (text.reverse.dropWhile isInlineSpace).reverse
    let (kept, cut) := glyphs.splitAt text.length
    let kept := match kept.getLast? with
      | some ⟨'\\', .hidden⟩ => kept.dropLast ++ [⟨'\\', .literal⟩]
      | _ => kept
    (kept ++ last ++ Glyph.all .beyond (cut.map (·.char)), some attributes)

/-! ### Tables

A row is cut at its bars, but for those that come right after a backslash, even if that is itself
escaped. -/

/-- Cuts a row at its first bar that is not escaped. -/
def cutAtBar : List Char → List Char × Option (List Char)
  | [] => ([], none)
  | '\\' :: '\\' :: '|' :: rest =>
    let (cell, after) := cutAtBar rest
    ('\\' :: '\\' :: '|' :: cell, after)
  | '\\' :: c :: rest =>
    let (cell, after) := cutAtBar rest
    ('\\' :: c :: cell, after)
  | '|' :: rest => ([], some rest)
  | c :: rest =>
    let (cell, after) := cutAtBar rest
    (c :: cell, after)

/-- The text of a cell. -/
def cellPassage (s : List Char) : Passage :=
  ⟨none, [], true, Glyph.markEnd .hidden isInlineSpace (Glyph.ofLine true s)⟩

/-- The cells of a row. A bar at its end starts no cell. -/
def cellsWith : Nat → List Char → List Passage
  | 0, _ => []
  | fuel + 1, s =>
    let s := skipSpaces s
    if s.isEmpty then []
    else
      match cutAtBar s with
      | (cell, some rest) => cellPassage cell :: cellsWith fuel rest
      | (cell, none) => [cellPassage cell]

/-- The cells of a row. A bar at its start starts no cell. -/
def rowCells (s : List Char) : List Passage :=
  match s with
  | '|' :: rest => cellsWith (rest.length + 1) rest
  | _ => cellsWith (s.length + 1) s

/-- Exactly `count` cells: empty ones are added, and those beyond are left out. -/
def fitCells (count : Nat) (cells : List Passage) : List Passage :=
  cells.take count ++ List.replicate (count - cells.length) (cellPassage [])

/-- What is known of the column that is being read. -/
structure ColumnMark where
  /-- Whether nothing of the column has been read. -/
  fresh : Bool
  /-- Whether a hyphen has been read. -/
  ruled : Bool
  alignment : Alignment

/-- The columns that a line of hyphens, colons and bars describes. Each has a hyphen. -/
def columnsFrom (mark : ColumnMark) : List Char → Option (List Alignment)
  | [] => some (if mark.fresh then [] else [mark.alignment])
  | c :: rest =>
    if c == ' ' then columnsFrom mark rest
    else if c == ':' then
      let alignment := match mark.fresh, mark.alignment with
        | true, .none => .left
        | false, .left => .center
        | false, .none => .right
        | _, alignment => alignment
      columnsFrom { mark with fresh := false, alignment := alignment } rest
    else if c == '-' then columnsFrom { mark with fresh := false, ruled := true } rest
    else if c == '|' then
      if mark.ruled then (columnsFrom ⟨true, false, .none⟩ rest).map (mark.alignment :: ·)
      else none
    else none

/-- The columns that the line below the head of a table describes. It has a bar and a hyphen. -/
def columns? (s : List Char) : Option (List Alignment) :=
  let indent := (s.takeWhile (· == ' ')).length
  let s := s.drop indent
  if indent > 3 || !s.contains '|' || !s.contains '-' then none
  else
    match s with
    | '|' :: rest => columnsFrom ⟨true, false, .none⟩ rest
    | _ => columnsFrom ⟨true, false, .none⟩ s

/-- What stands behind each bar of a row that is not escaped. If `paired` holds, a backslash may be
escaped itself; otherwise each one escapes what comes after it. -/
def behindBars (paired escaped : Bool) : List Char → List (List Char)
  | [] => []
  | c :: rest =>
    if c == '|' && !escaped then rest :: behindBars paired false rest
    else behindBars paired (c == '\\' && !(paired && escaped)) rest

/-- The number of columns that the head of a table has, if it has a bar. -/
def headColumns? (paired : Bool) (s : List Char) : Option Nat :=
  let behind := behindBars paired false s
  behind.getLast?.map fun last =>
    let inner := if (skipSpaces s).head? == some '|' then behind.length - 1 else behind.length
    if last.all isInlineSpace then inner else inner + 1

end StaticSite.Markdown
