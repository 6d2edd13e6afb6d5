import StaticSite.Markdown.Document
/-!
# StaticSite.Markdown.Html

Writing a document as HTML. A block starts a line of its own, so a `Sheet` knows whether what is
written ends a line; it also knows the footnotes in the order in which they were first named, which
gives them their numbers, and how much room is left for the targets of references. Text is escaped
where it is written.
-/

set_option autoImplicit false

namespace StaticSite.Markdown

/-! ### Escapes -/

/-- A character of running text. -/
def escapeChar (c : Char) : List Char :=
  if c == '&' then "&amp;".toList
  else if c == '<' then "&lt;".toList
  else if c == '>' then "&gt;".toList
  else [c]

/-- A character of the value of an attribute, which stands in quotes. -/
def escapeQuotedChar (c : Char) : List Char :=
  if c == '"' then "&quot;".toList
  else if c == '\'' then "&#39;".toList
  else escapeChar c

/-- Whether a character of an address is written as it is. -/
def isAddressChar (c : Char) : Bool :=
  c.isAlphanum || "!#$%()*+,-./:;=?@^_~".toList.contains c

/-- Two hexadecimal digits for a byte. -/
def hexDigits (b : UInt8) : List Char :=
  let digit := fun (n : Nat) => if n < 10 then Char.ofNat (48 + n) else Char.ofNat (55 + n)
  [digit (b.toNat / 16), digit (b.toNat % 16)]

/-- A character of an address. Bytes that an address may not hold follow a percent sign. -/
def escapeAddressChar (c : Char) : List Char :=
  if isAddressChar c then [c]
  else if c == '&' then "&amp;".toList
  else if c == '\'' then "&#x27;".toList
  else (String.singleton c).toUTF8.toList.flatMap fun b => '%' :: hexDigits b

/-- Running text. -/
def escape (s : List Char) : List Char := s.flatMap escapeChar

/-- The value of an attribute. -/
def escapeQuoted (s : List Char) : List Char := s.flatMap escapeQuotedChar

/-- An address. -/
def escapeAddress (s : List Char) : List Char := s.flatMap escapeAddressChar

/-! ### Sheets

What has to be written may depend on what has been written: a block starts on a line of its own, and
a footnote that has been named keeps its number. So the sheet is handed on from part to part. -/

/-- What has been written so far. -/
structure Sheet where
  /-- The pieces, the last first. -/
  pieces : List (List Char)
  /-- Whether a line starts here. -/
  lineStart : Bool
  /-- The labels of the footnotes, in the order in which they were first named. -/
  footnotes : List (List Char)
  /-- How many bytes the targets of references may still take. -/
  allowance : Nat

/-- What reads passages: it gets the allowance and says what is left of it. -/
abbrev Reader := Nat → Passage → List Inline × Nat

namespace Sheet

/-- The empty sheet. -/
def empty (allowance : Nat) : Sheet := ⟨[], true, [], allowance⟩

/-- What is on the sheet. -/
def text (sheet : Sheet) : List Char := sheet.pieces.reverse.flatten

/-- Writes characters. -/
def put (sheet : Sheet) (s : List Char) : Sheet :=
  if s.isEmpty then sheet
  else { sheet with pieces := s :: sheet.pieces, lineStart := s.getLast? == some '\n' }

/-- Writes markup. -/
def write (sheet : Sheet) (s : String) : Sheet := sheet.put s.toList

/-- Goes to the start of a line. -/
def freshLine (sheet : Sheet) : Sheet := if sheet.lineStart then sheet else sheet.write "\n"

/-- Writes the start of a block. -/
def writeBlock (sheet : Sheet) (s : String) : Sheet := sheet.freshLine.write s

/-- The number of a footnote. A label that has not been named yet gets the next number. -/
def number (sheet : Sheet) (label : List Char) : List Char × Sheet :=
  match sheet.footnotes.idxOf? label with
  | some index => (Nat.toDigits 10 (index + 1), sheet)
  | none => (Nat.toDigits 10 (sheet.footnotes.length + 1),
      { sheet with footnotes := sheet.footnotes ++ [label] })

/-! ### Running text -/

/-- The box of a task. -/
def putCheckbox (sheet : Sheet) (checked : Bool) : Sheet :=
  sheet.write (if checked then "<input disabled=\"\" type=\"checkbox\" checked=\"\"/>\n"
    else "<input disabled=\"\" type=\"checkbox\"/>\n")

/-- The title of a link or an image, if it has one. -/
def putTitle (sheet : Sheet) (title : List Char) : Sheet :=
  if title.isEmpty then sheet else (sheet.write "\" title=\"").put (escapeQuoted title)

mutual

/-- Writes a part of a text in place of an image: markup is left out. -/
def putPlain (sheet : Sheet) : Inline → Sheet
  | .text s | .code s | .html s => sheet.put (escapeQuoted s)
  | .softBreak | .hardBreak => sheet.write " "
  | .emphasis content | .strong content | .strikethrough content | .link _ content
  | .image _ content => sheet.putAllPlain content
  | .footnoteReference label =>
    let (number, sheet) := sheet.number label
    ((sheet.write "[").put number).write "]"
  | .checkbox checked => sheet.write (if checked then "[x]" else "[ ]")

/-- Writes a text in place of an image. -/
def putAllPlain (sheet : Sheet) : List Inline → Sheet
  | [] => sheet
  | inline :: rest => (sheet.putPlain inline).putAllPlain rest

end

mutual

/-- Writes a part of a running text. -/
def putInline (sheet : Sheet) : Inline → Sheet
  | .text s => sheet.put (escape s)
  | .code s => ((sheet.write "<code>").put (escape s)).write "</code>"
  | .html s => sheet.put s
  | .softBreak => sheet.write "\n"
  | .hardBreak => sheet.write "<br />\n"
  | .emphasis content => ((sheet.write "<em>").putInlines content).write "</em>"
  | .strong content => ((sheet.write "<strong>").putInlines content).write "</strong>"
  | .strikethrough content => ((sheet.write "<del>").putInlines content).write "</del>"
  | .link target content =>
    let sheet := (sheet.write "<a href=\"").put (escapeAddress target.destination)
    (((sheet.putTitle target.title).write "\">").putInlines content).write "</a>"
  | .image target content =>
    let sheet := (sheet.write "<img src=\"").put (escapeAddress target.destination)
    (((sheet.write "\" alt=\"").putAllPlain content).putTitle target.title).write "\" />"
  | .footnoteReference label =>
    let sheet := (sheet.write "<sup class=\"footnote-reference\"><a href=\"#").put
      (escapeQuoted label)
    let (number, sheet) := (sheet.write "\">").number label
    (sheet.put number).write "</a></sup>"
  | .checkbox checked => sheet.putCheckbox checked

/-- Writes a running text. -/
def putInlines (sheet : Sheet) : List Inline → Sheet
  | [] => sheet
  | inline :: rest => (sheet.putInline inline).putInlines rest

end

/-- Reads a passage and writes it. -/
def putPassage (read : Reader) (passage : Passage) (sheet : Sheet) : Sheet :=
  let (inlines, left) := read sheet.allowance passage
  { sheet with allowance := left }.putInlines inlines

/-! ### Blocks -/

/-- Writes an attribute after a space. -/
def putAttribute (sheet : Sheet) (name value : List Char) : Sheet :=
  ((((sheet.write " ").put (escapeQuoted name)).write "=\"").put (escapeQuoted value)).write "\""

/-- Writes the attributes of a heading. -/
def putAttributes (sheet : Sheet) (attributes : HeadingAttributes) : Sheet :=
  let sheet := match attributes.id with
    | some id => sheet.putAttribute "id".toList id
    | none => sheet
  let sheet := if attributes.classes.isEmpty then sheet
    else sheet.putAttribute "class".toList (Text.join [' '] attributes.classes)
  attributes.others.foldl (fun sheet (name, value) => sheet.putAttribute name (value.getD [])) sheet

/-- What starts a cell called `name` in a column. -/
def cellStart (name : String) : Alignment → String
  | .none => "<" ++ name ++ ">"
  | .left => "<" ++ name ++ " style=\"text-align: left\">"
  | .center => "<" ++ name ++ " style=\"text-align: center\">"
  | .right => "<" ++ name ++ " style=\"text-align: right\">"

/-- Writes the cells of a row, each called `name`. -/
def putCells (read : Reader) (name : String) (columns : List Alignment)
    (cells : List Passage) (sheet : Sheet) : Sheet :=
  (columns.zip cells).foldl (fun sheet (alignment, cell) =>
    (putPassage read cell (sheet.write (cellStart name alignment))).write
      ("</" ++ name ++ ">")) sheet

/-- Writes a table. -/
def putTable (read : Reader) (columns : List Alignment) (head : List Passage)
    (rows : List (List Passage)) (sheet : Sheet) : Sheet :=
  let sheet := putCells read "th" columns head (sheet.write "<table><thead><tr>")
  let sheet := rows.foldl (fun sheet row =>
      (putCells read "td" columns row (sheet.write "<tr>")).write "</tr>\n")
    (sheet.write "</tr></thead><tbody>\n")
  sheet.write "</tbody></table>\n"

/-- What starts a list. A list that counts from one does not say so. -/
def listStart : Option Nat → String
  | none => "<ul>\n"
  | some 1 => "<ol>\n"
  | some n => "<ol start=\"" ++ toString n ++ "\">\n"

/-- What starts a quote. -/
def quoteStart : Option Alert → String
  | none => "<blockquote>\n"
  | some alert => "<blockquote class=\"markdown-alert-" ++ alert.name ++ "\">\n"

/-- Writes the start of a block of code. Its language is the first word of what its fence says. -/
def putCodeStart (info : Option (List Char)) (sheet : Sheet) : Sheet :=
  let language := (info.getD []).takeWhile (· != ' ')
  if language.isEmpty then sheet.writeBlock "<pre><code>"
  else ((sheet.writeBlock "<pre><code class=\"language-").put (escapeQuoted language)).write "\">"

mutual

/-- Writes a block. `bare` tells whether a paragraph here has no tags. -/
def putBlock (read : Reader) (bare : Bool) (sheet : Sheet) : Block → Sheet
  | .paragraph text =>
    if bare then putPassage read text sheet
    else (putPassage read text (sheet.writeBlock "<p>")).write "</p>\n"
  | .heading level attributes text =>
    let tag := "h" ++ toString level
    let sheet := sheet.writeBlock ("<" ++ tag)
    let sheet := match attributes with
      | some attributes => sheet.putAttributes attributes
      | none => sheet
    (putPassage read text (sheet.write ">")).write ("</" ++ tag ++ ">\n")
  | .code info text => ((putCodeStart info sheet).put (escape text)).write "</code></pre>\n"
  | .html text => sheet.put text
  | .thematicBreak => sheet.writeBlock "<hr />\n"
  | .table columns head rows => putTable read columns head rows sheet
  | .task checked => sheet.putCheckbox checked
  | .quote alert content =>
    (putBlocks read false (sheet.writeBlock (quoteStart alert)) content).write "</blockquote>\n"
  | .list tight start items =>
    (putBlocks read tight (sheet.writeBlock (listStart start)) items).write
      (if start.isSome then "</ol>\n" else "</ul>\n")
  | .item content => (putBlocks read bare (sheet.writeBlock "<li>") content).write "</li>\n"
  | .footnote label content =>
    let sheet := ((sheet.writeBlock "<div class=\"footnote-definition\" id=\"").put
      (escapeQuoted label)).write "\"><sup class=\"footnote-definition-label\">"
    let (number, sheet) := sheet.number label
    (putBlocks read false ((sheet.put number).write "</sup>") content).write "</div>\n"
  | .definitions tight entries =>
    (putBlocks read tight (sheet.writeBlock "<dl>\n") entries).write "</dl>\n"
  | .term text => (putPassage read text (sheet.writeBlock "<dt>")).write "</dt>\n"
  | .definition content => (putBlocks read bare (sheet.writeBlock "<dd>") content).write "</dd>\n"

/-- Writes blocks. -/
def putBlocks (read : Reader) (bare : Bool) (sheet : Sheet) : List Block → Sheet
  | [] => sheet
  | block :: rest => putBlocks read bare (putBlock read bare sheet block) rest

end

end Sheet

/-- The HTML of a document. -/
def toHtml (extensions : Extensions) (s : List Char) : List Char :=
  let (blocks, definitions) := readDocument extensions s
  (Sheet.putBlocks (runningText extensions definitions) false (.empty (initialAllowance s))
    blocks).text

/-- The extensions that a site uses if it names none. -/
def Extensions.all : Extensions := ⟨true, true, true, true, true, true, true⟩

end StaticSite.Markdown
