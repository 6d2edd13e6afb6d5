import StaticSite.Markdown.Tag
/-!
# StaticSite.Markdown.Line

Lines, and the marks at their start that open blocks. `Margin` is the place up to which a line is
read: indentation is counted in columns, and a tab reaches to the next multiple of four, so a part
of a tab may be left over.
-/

set_option autoImplicit false

namespace StaticSite.Markdown

/-- A line of a text. -/
structure Line where
  text : List Char
  /-- What ends the line: a line feed, a carriage return or both; nothing at the end of the text. -/
  ending : List Char
deriving DecidableEq, Repr, Inhabited

/-- The lines of a text. -/
def linesOf : List Char → List Line
  | [] => []
  | '\r' :: '\n' :: rest => ⟨[], ['\r', '\n']⟩ :: linesOf rest
  | c :: rest =>
    if isLineEnd c then ⟨[], [c]⟩ :: linesOf rest
    else
      match rest, linesOf rest with
      | [], _ | _, [] => [⟨[c], []⟩]
      | _, line :: later => { line with text := c :: line.text } :: later

/-- The text through the next line feed, and the lines after it, from a text at the end of a line.
Matter that is kept as it is written goes on over a carriage return alone. -/
def throughLineFeed (text ending : List Char) : List Line → List Char × List Line
  | [] => (text ++ ending, [])
  | line :: later =>
    if ending == ['\r'] then
      let (more, rest) := throughLineFeed line.text line.ending later
      (text ++ ending ++ more, rest)
    else (text ++ ending, line :: later)

/-- No more lines come after a line feed than after a line. -/
theorem length_throughLineFeed_le (text ending : List Char) (later : List Line) :
    (throughLineFeed text ending later).2.length ≤ later.length := by
  induction later generalizing text ending with
  | nil => simp [throughLineFeed]
  | cons line later ih =>
    simp only [throughLineFeed]
    split
    · exact Nat.le_succ_of_le (ih line.text line.ending)
    · exact Nat.le_refl _

/-- The text with a carriage return before its last character left out. -/
def withoutReturn (s : List Char) : List Char :=
  match s.reverse with
  | c :: '\r' :: before => if c.toNat < 0x80 then (c :: before).reverse else s
  | _ => s

/-- A place at the start of a line. -/
structure Margin where
  /-- The line from here on. -/
  rest : List Char
  /-- The column, counted from the last tab. -/
  column : Nat
  /-- Columns of the last tab that are left over. -/
  left : Nat
deriving Repr, Inhabited

namespace Margin

/-- The start of a line. -/
def start (text : List Char) : Margin := ⟨text, 0, 0⟩

/-- Steps over at most `need` columns of white space: how many are missing, and the place. -/
def spaces : Nat → Nat → List Char → Nat × Margin
  | 0, column, rest => (0, ⟨rest, column, 0⟩)
  | need + 1, column, ' ' :: rest => spaces need (column + 1) rest
  | need + 1, column, '\t' :: rest =>
    let width := 4 - column % 4
    if width ≤ need + 1 then spaces (need + 1 - width) 0 rest
    else (0, ⟨rest, 0, width - (need + 1)⟩)
  | need, column, rest => (need, ⟨rest, column, 0⟩)

/-- Steps over at most `need` columns: how many are missing, and the place. -/
def take (m : Margin) (need : Nat) : Nat × Margin :=
  if need ≤ m.left then (0, { m with left := m.left - need })
  else spaces (need - m.left) m.column m.rest

/-- Steps over at most `most` columns: how many they are, and the place. -/
def takeUpTo (m : Margin) (most : Nat) : Nat × Margin :=
  let (missing, m) := m.take most
  (most - missing, m)

/-- The place after `need` columns, if they are there. -/
def indented? (m : Margin) (need : Nat) : Option Margin :=
  match m.take need with
  | (0, m) => some m
  | _ => none

/-- The text after all spaces and tabs. -/
def content (m : Margin) : List Char := m.rest.dropWhile fun c => c == ' ' || c == '\t'

/-- Whether the line ends here. -/
def atEnd (m : Margin) : Bool := m.rest.isEmpty

/-- Whether nothing but white space follows. -/
def isBlank (m : Margin) : Bool := m.rest.all isInlineSpace

/-- Steps over a number of characters. -/
def skip (m : Margin) (n : Nat) : Margin := ⟨m.rest.drop n, m.column + n, m.left⟩

/-- The place after the mark of a quote. -/
def quote? (m : Margin) : Option Margin :=
  match m.rest with
  | '>' :: _ => some ((m.skip 1).takeUpTo 1).2
  | _ => none

end Margin

/-! ### Marks -/

/-- Whether a line is a break between topics: three or more of one mark. -/
def isThematicBreak (s : List Char) : Bool :=
  match s with
  | c :: _ =>
    (c == '*' || c == '-' || c == '_') && (s.filter (· == c)).length ≥ 3 &&
    s.all fun d => d == c || d == ' ' || d == '\t'
  | [] => false

/-- The level of a heading that starts a line. -/
def headingLevel? (s : List Char) : Option Nat :=
  let level := (s.takeWhile (· == '#')).length
  if 1 ≤ level && level ≤ 6 && (s.drop level).head?.all isInlineSpace then some level else none

/-- The level of the heading that a line underlines. -/
def underlineLevel? (s : List Char) : Option Nat :=
  match s with
  | c :: _ =>
    if (c == '=' || c == '-') && (s.dropWhile (· == c)).all isInlineSpace then
      some (if c == '=' then 1 else 2)
    else none
  | [] => none

/-- The fence of a block of code that starts a text: its character and its length. The text goes
through the next line feed. -/
def fence? (s : List Char) : Option (Char × Nat) :=
  match s with
  | c :: _ =>
    let length := (s.takeWhile (· == c)).length
    if (c == '\x60' || c == '~') && length ≥ 3
        && !(c == '\x60' && (s.drop length).contains c) then
      some (c, length)
    else none
  | [] => none

/-- Whether a line closes a block of code with this fence. -/
def closesFence (char : Char) (length : Nat) (s : List Char) : Bool :=
  (s.takeWhile (· == char)).length ≥ length &&
  (s.dropWhile (· == char)).all (· == ' ')

/-- The mark of an item. -/
structure ItemMark where
  /-- A bullet, or what follows the number. -/
  char : Char
  number : Nat
  /-- The column at which the content of the item starts. -/
  indent : Nat
deriving DecidableEq, Repr, Inhabited

/-- The place after the mark of an item, and the column of its content. An empty item has its
content one column after the mark, and so has one that starts with indented code. -/
def finishMark (m : Margin) (char : Char) (number indent : Nat) : ItemMark × Margin :=
  if m.isBlank then (⟨char, number, indent⟩, m)
  else
    let (width, after) := m.takeUpTo 4
    if width < 4 then (⟨char, number, indent + width⟩, after) else (⟨char, number, indent⟩, m)

/-- The mark of an item at a place that is indented by `indent` columns, and the place after it. -/
def itemMark? (m : Margin) (indent : Nat) : Option (ItemMark × Margin) :=
  let finish := fun (width : Nat) (char : Char) (number : Nat) =>
    let after := m.skip width
    match after.indented? 1 with
    | some after => some (finishMark after char number (indent + width + 1))
    | none => if after.atEnd then some (finishMark after char number (indent + width + 1)) else none
  match m.rest with
  | c :: rest =>
    if c == '-' || c == '+' || c == '*' then
      if isThematicBreak m.rest then none else finish 1 c 0
    else if c.isDigit then
      let digits := (c :: rest).takeWhile Char.isDigit
      if digits.length > 9 then none
      else
        match natural? digits, (c :: rest).drop digits.length with
        | some number, d :: _ =>
          if d == '.' || d == ')' then finish (digits.length + 1) d number else none
        | _, _ => none
    else none
  | [] => none

/-- The column of the content after the mark of a definition at a place that is indented by
`indent` columns, and the place after it. A space behind the mark belongs to it. -/
def definitionMark? (m : Margin) (indent : Nat) : Option (Nat × Margin) :=
  match m.rest with
  | ':' :: _ =>
    let after := m.skip 1
    let (mark, after) := finishMark ((after.indented? 1).getD after) ':' 0 (indent + 2)
    some (mark.indent, after)
  | _ => none

/-- The box of a task, and the place after it, on a line with this ending. White space or the end
of the line has to follow it. -/
def taskMark? (m : Margin) (ending : List Char) : Option (Bool × Margin) :=
  let m := (m.takeUpTo 3).2
  match m.rest with
  | '[' :: c :: ']' :: rest =>
    if !((rest ++ ending).head?.any isSpaceOrBreak) then none
    else if isInlineSpace c then some (false, m.skip 3)
    else if c == 'x' || c == 'X' then some (true, m.skip 3)
    else none
  | _ => none

/-- The label of a footnote whose definition starts a line, and the text after the white space
behind its colon. -/
def footnoteMark? (s : List Char) : Option (List Char × List Char) :=
  match s with
  | '[' :: '^' :: rest =>
    match footnoteLabel? false rest with
    | some (label, ':' :: rest) => some (label, skipSpaces rest)
    | _ => none
  | _ => none

/-- The kinds of quotes that are alerts. -/
inductive Alert where
  | note
  | tip
  | important
  | warning
  | caution
deriving DecidableEq, Repr, Inhabited

/-- The word for an alert. -/
def Alert.name : Alert → String
  | .note => "note"
  | .tip => "tip"
  | .important => "important"
  | .warning => "warning"
  | .caution => "caution"

/-- All alerts. -/
def Alert.all : List Alert := [.note, .tip, .important, .warning, .caution]

/-- The alert that a line names and nothing else. -/
def alertMark? (s : List Char) : Option Alert :=
  Alert.all.find? fun alert =>
    let mark := "[!".toList ++ alert.name.toList ++ [']']
    Text.equalIgnoringCase (s.take mark.length) mark && (s.drop mark.length).all isInlineSpace

end StaticSite.Markdown
