import StaticSite.Markdown.Outline
/-!
# StaticSite.Markdown.Document

Reading the blocks of a document. `readBlock` reads the next block: first the marks that go on with
open containers, then those that open new ones, then the block itself, which may take further
lines.
-/

set_option autoImplicit false

namespace StaticSite.Markdown

/-- What decides how a line goes on with a block. -/
structure Surroundings where
  extensions : Extensions
  /-- The open containers, the outermost first. -/
  containers : List Container

namespace Surroundings

/-- The containers with which a line does not go on, and the place after the marks of those with
which it does. -/
def place (around : Surroundings) (line : Line) : List Container × Margin :=
  continueAll around.containers (Margin.start line.text)

/-- The columns of the table whose head is `head`, and the lines after the line that describes
them. `paired` tells whether a backslash in the head may be escaped itself. -/
def table? (around : Surroundings) (paired : Bool) (head : List Char) :
    List Line → Option (List Alignment × List Line)
  | [] => none
  | line :: later =>
    if !around.extensions.tables then none
    else
      match around.place line with
      | ([], m) =>
        match headColumns? paired head, columns? m.rest with
        | some count, some columns =>
          if columns.length == count then some (columns, later) else none
        | _, _ => none
      | _ => none

/-- Whether a line that starts with `s` ends a paragraph or a table before it. `inside` tells
whether it goes on with all containers. -/
def startsBlock (around : Surroundings) (inside inTable : Bool) (s ending : List Char)
    (later : List Line) : Bool :=
  s.isEmpty || isThematicBreak s || (headingLevel? s).isSome ||
  (fence? (throughLineFeed s ending later).1).isSome || s.head? == some '>' ||
  (match itemMark? (Margin.start s) 0 with
    | some (mark, after) =>
      !inside || inTable ||
        (!(mark.char == '.' || mark.char == ')') || mark.number == 1) && !after.isBlank
    | none => false) ||
  (match s with
    | '<' :: rest => (blockEnd? rest).isSome || startsBlockElement rest
    | _ => false) ||
  (around.extensions.footnotes && (footnoteMark? s).isSome)

/-- Whether a line that starts with `s` ends a paragraph before it; a table does so if it starts
with a bar. -/
def interrupts (around : Surroundings) (inside : Bool) (s ending : List Char)
    (later : List Line) : Bool :=
  around.startsBlock inside false s ending later ||
  (s.head? == some '|' && (around.table? false s later).isSome)

/-- Whether a line that starts with `s` defines the paragraph before it. It goes on with all
containers but those in `outside`. -/
def defines (around : Surroundings) (outside : List Container) (s : List Char) : Bool :=
  around.extensions.definitionLists && s.head? == some ':' &&
    (outside.isEmpty || outside.head?.any Container.isDefinition)

/-- How a line goes on with a paragraph. -/
inductive Continuation where
  /-- Not at all. -/
  | ends
  /-- It makes the paragraph a heading. -/
  | underlines (level : Nat)
  /-- With the text from this place on. -/
  | text (m : Margin)

/-- How a line goes on with a paragraph. It need not go on with the containers around it. -/
def continuation (around : Surroundings) (line : Line) (later : List Line) : Continuation :=
  let (outside, m) := around.place line
  match m.take 4 with
  | (0, after) => if after.content.isEmpty then .ends else .text m
  | (_, after) =>
    match if outside.isEmpty then underlineLevel? after.rest else none with
    | some level => .underlines level
    | none =>
      if around.interrupts outside.isEmpty after.rest line.ending later ||
          around.defines outside after.rest then .ends
      else .text m

/-- The lines that go on with a paragraph, the level of a heading that it becomes, and the lines
after it. -/
def paragraph (around : Surroundings) :
    List Line → List (Line × List Glyph) × Option Nat × List Line
  | [] => ([], none, [])
  | line :: later =>
    match around.continuation line later with
    | .ends => ([], none, line :: later)
    | .underlines level => ([], some level, later)
    | .text m =>
      let (texts, level, rest) := around.paragraph later
      ((line, Passage.glyphsFrom line m) :: texts, level, rest)

/-- The rows of a table, and the lines after it. A row has a cell. -/
def rows (around : Surroundings) : List Line → List (List Passage) × List Line
  | [] => ([], [])
  | line :: later =>
    let (outside, m) := around.place line
    let cells := rowCells m.content
    if !outside.isEmpty || around.startsBlock true true m.content line.ending later ||
        cells.isEmpty then ([], line :: later)
    else
      let (more, rest) := around.rows later
      (cells :: more, rest)

/-! ### Text that is kept as it is written -/

/-- The content of a block of code with a fence that is indented by `indent` columns, and the lines
after it. Where the text ends, the block does. -/
def fenced (around : Surroundings) (indent : Nat) (char : Char) (length : Nat) :
    List Line → List Char × List Line
  | [] => ([], [])
  | line :: later =>
    let (outside, m) := around.place line
    if !outside.isEmpty then ([], line :: later)
    else
      let m := (m.take indent).2
      let (missing, after) := m.take (4 - indent)
      if missing != 0 && (closesFence char length after.rest ||
          (after.atEnd && line.ending.isEmpty)) then ([], later)
      else
        let here := throughLineFeed m.rest line.ending later
        let (text, rest) := around.fenced indent char length here.2
        (List.replicate m.left ' ' ++ withoutReturn here.1 ++ text, rest)
termination_by lines => lines.length
decreasing_by exact Nat.lt_succ_of_le (length_throughLineFeed_le ..)

/-- The lines of indented code with whether they are empty, and the lines after it. -/
def indented (around : Surroundings) : List Line → List (List Char × Bool) × List Line
  | [] => ([], [])
  | line :: later =>
    let (outside, m) := around.place line
    let (missing, m) := m.take 4
    if !outside.isEmpty || (missing != 0 && !m.atEnd) then ([], line :: later)
    else
      let here := throughLineFeed m.rest line.ending later
      let (texts, rest) := around.indented here.2
      ((List.replicate m.left ' ' ++ withoutReturn here.1, m.isBlank) :: texts, rest)
termination_by lines => lines.length
decreasing_by exact Nat.lt_succ_of_le (length_throughLineFeed_le ..)

/-- The further lines of a block of HTML that ends after the line with `mark`, of which `text` is
the last so far, and the lines after it. -/
def htmlUntil (around : Surroundings) (mark : String) (text : List Char) :
    List Line → List Char × List Line
  | [] => ([], [])
  | line :: later =>
    let (outside, m) := around.place line
    if !outside.isEmpty || (afterFirst? mark text).isSome || (m.atEnd && line.ending.isEmpty) then
      ([], line :: later)
    else
      let here := throughLineFeed m.rest line.ending later
      let (more, rest) := around.htmlUntil mark here.1 here.2
      (List.replicate m.left ' ' ++ withoutReturn here.1 ++ more, rest)
termination_by lines => lines.length
decreasing_by exact Nat.lt_succ_of_le (length_throughLineFeed_le ..)

/-- The further lines of a block of HTML that ends before an empty line, and the lines after it. -/
def htmlBeforeBlank (around : Surroundings) : List Line → List Char × List Line
  | [] => ([], [])
  | line :: later =>
    let (outside, m) := around.place line
    if !outside.isEmpty || m.isBlank then ([], line :: later)
    else
      let here := throughLineFeed m.rest line.ending later
      let (more, rest) := around.htmlBeforeBlank here.2
      (List.replicate m.left ' ' ++ withoutReturn here.1 ++ more, rest)
termination_by lines => lines.length
decreasing_by exact Nat.lt_succ_of_le (length_throughLineFeed_le ..)

/-! ### Definitions of links

A definition may go on over several lines, but not over the start of another block. The lines that
it may take are put together first, and the definition is read from their text. -/

/-- The texts of the lines over which a label may go on. -/
def labelLines (around : Surroundings) : List Line → List (List Char)
  | [] => []
  | line :: later =>
    let (outside, m) := around.place line
    if around.interrupts outside.isEmpty m.rest line.ending later ||
        (outside.isEmpty && (underlineLevel? m.rest).isSome) then []
    else m.rest :: around.labelLines later

/-- The texts of the lines over which the rest of a definition may go on. -/
def targetLines (around : Surroundings) : List Line → List (List Char)
  | [] => []
  | line :: later =>
    let (outside, m) := around.place line
    let (missing, after) := m.take 4
    if missing != 0 && (around.interrupts outside.isEmpty after.rest line.ending later ||
        (underlineLevel? after.rest).isSome) then []
    else m.rest :: around.targetLines later

/-- The lines after a part of a text, of which `rest` is left; `later` are the lines after its
first. -/
def linesAfter (text rest : List Char) (later : List Line) : List Line :=
  later.drop ((text.take (text.length - rest.length)).filter (· == '\n')).length

/-- The definition of a link that starts a line: its label, its target, and the lines after it. -/
def definition? (around : Surroundings) (first : List Char) (later : List Line) :
    Option (List Char × LinkTarget × List Line) :=
  match first with
  | '[' :: first =>
    let text := Text.join ['\n'] (first :: around.labelLines later)
    match label? false text with
    | some (label, ':' :: rest) =>
      let later := linesAfter text rest later
      let text := Text.join ['\n'] (rest.takeWhile (· != '\n') :: around.targetLines later)
      (definitionTarget? text).map fun (target, rest) =>
        (label, target, linesAfter text rest later)
    | _ => none
  | _ => none

end Surroundings

namespace Outline

/-- What surrounds the next block. -/
def surroundings (o : Outline) (extensions : Extensions) : Surroundings :=
  ⟨extensions, o.containers⟩

/-- A passage in the open containers. -/
def passage (o : Outline) (task : Option Bool) (glyphs : List Glyph) : Passage :=
  ⟨task, o.containers, false, glyphs⟩

/-! ### New containers

One line may open several containers, each in the one before. The marks of footnotes, items,
definitions and quotes are tried in this order, until none of them follows. -/

/-- What follows the marks that open containers. -/
inductive Opened where
  /-- Nothing: the line is read. -/
  | nothing
  /-- An alert: the line is read, and the next may go on with it. -/
  | alert
  /-- The box of a task, and text that starts a paragraph. -/
  | task (checked : Bool) (text : List Char)
  /-- The rest of the line. -/
  | rest (m : Margin)

/-- Opens the containers whose marks stand here, on a line with this ending. `fuel` is more than
the length of the line. -/
def openContainers (extensions : Extensions) (ending : List Char) :
    Nat → Margin → Outline → Outline × Opened
  | 0, m, o => (o, .rest m)
  | fuel + 1, m, o =>
    let (indent, here) := m.takeUpTo 4
    if indent = 4 then (o, .rest m)
    else
      match if extensions.footnotes then footnoteMark? here.rest else none with
      | some (label, rest) =>
        openContainers extensions ending fuel (Margin.start rest) (o.openFootnote label)
      | none =>
        match itemMark? here indent with
        | some (mark, after) =>
          let o := (o.continueList mark).openFrame (.item mark.indent)
          if after.isBlank then ({ o with emptyItem := true }, .nothing)
          else
            match if extensions.taskLists then taskMark? after ending else none with
            | some (checked, after) =>
              if after.isBlank then
                ({ o.append [.task checked] with emptyItem := true }, .nothing)
              else (o, .task checked after.content)
            | none => openContainers extensions ending fuel after o
        | none =>
          match if extensions.definitionLists && o.allowsDefinition then definitionMark? here indent
              else none with
          | some (column, after) =>
            let o := o.openDefinition column
            if after.isBlank then ({ o with emptyItem := true }, .nothing)
            else openContainers extensions ending fuel after o
          | none =>
            match here.quote? with
            | some after =>
              match if extensions.alerts then alertMark? after.rest else none with
              | some alert => (o.finishList.openFrame (.quote (some alert)), .alert)
              | none =>
                openContainers extensions ending fuel after (o.finishList.openFrame (.quote none))
            | none => (o, .rest m)

/-! ### Blocks -/

/-- A heading that starts with number signs, from the text after them. -/
def readHeading (extensions : Extensions) (o : Outline) (level : Nat) (s : List Char) (line : Line)
    (later : List Line) : Outline × List Line :=
  let heading := fun (attributes : Option HeadingAttributes) (glyphs : List Glyph) =>
    o.append [.heading level attributes (o.passage none glyphs)]
  let text := skipSpaces s
  if s.isEmpty || !extensions.headingAttributes then (heading none (headingGlyphs text text), later)
  else
    let (whole, rest) := throughLineFeed text line.ending later
    let (text, attributes) := cutAttributes whole
    (heading attributes (headingGlyphs whole text), rest)

/-- A block of indented code, from the text of its first line. -/
def readIndented (extensions : Extensions) (o : Outline) (text : List Char) (later : List Line) :
    Outline × List Line :=
  let o := o.finishList
  let (texts, rest) := (o.surroundings extensions).indented later
  let kept := (texts.reverse.dropWhile (·.2)).reverse
  let code := text ++ (kept.map Prod.fst).flatten
  ({ o.append [.code none code] with afterBlank := (texts.getLast?.map Prod.snd).getD false }, rest)

/-- A paragraph, a table or an underlined heading, from the text of its first line. -/
def readParagraph (extensions : Extensions) (o : Outline) (task : Option Bool)
    (first : List Char) (line : Line) (later : List Line) : Outline × List Line :=
  let mayBeTerm := match o.top?, o.last? with
    | some (.definitions _), some (.definition _) => true
    | some (.definitions _), none => true
    | _, _ => false
  let o := if mayBeTerm then { o with afterBlank := false } else o.finishList
  let around := o.surroundings extensions
  let goesOn := endingBackslashes line.text % 2 == 1
  match if goesOn then none else around.table? true first later with
  | some (columns, later) =>
    let (rows, rest) := around.rows later
    let fit := fitCells columns.length
    (o.append [.table columns (fit (rowCells first)) (rows.map fit)], rest)
  | none =>
    let (more, level, rest) := around.paragraph later
    let lines := (line, Glyph.ofLine false first) :: more
    let glyphs := Passage.joinLines lines
    match level with
    | some level =>
      let escaped := lines.getLast?.any fun (line, _) => endingBackslashes line.text % 2 == 1
      let (glyphs, attributes) := underlinedGlyphs extensions escaped glyphs
      let o := o.append [.heading level attributes (o.passage task glyphs)]
      (if mayBeTerm then o.finishList else o, rest)
    | none => (o.append [.paragraph (o.passage task glyphs)], rest)

/-- Definitions of links, and the paragraph after them. `fuel` is more than the number of lines. -/
def readDefinitions (extensions : Extensions) :
    Nat → Outline → List Char → Line → List Line → Outline × List Line
  | 0, o, _, _, later => (o, later)
  | fuel + 1, o, first, line, later =>
    let around := o.surroundings extensions
    match around.definition? first later with
    | none => readParagraph extensions o none first line later
    | some (label, target, later) =>
      let o := o.define label target
      match later with
      | [] => (o.finishList, [])
      | line :: later =>
        let (outside, m) := around.place line
        let (missing, after) := m.take 4
        if missing != 0 && around.interrupts outside.isEmpty after.rest line.ending later then
          (o.finishList, line :: later)
        else readDefinitions extensions fuel o m.content line later

/-- The block that starts here, and the lines after it. `line` is the line, `later` are the lines
after it. -/
def readContent (extensions : Extensions) (o : Outline) (m : Margin) (line : Line)
    (later : List Line) : Outline × List Line :=
  if m.isBlank then (o.blankLine, later)
  else
    let (indent, here) := m.takeUpTo 4
    let (whole, afterWhole) := throughLineFeed here.rest line.ending later
    if indent = 4 then
      readIndented extensions o (List.replicate here.left ' ' ++ withoutReturn whole) afterWhole
    else
      let s := here.rest
      let finished := o.finishList
      let around := finished.surroundings extensions
      let html := fun (more : List Char × List Line) =>
        let first := List.replicate (max m.left indent) ' ' ++ withoutReturn whole
        (finished.append [.html (first ++ more.1)], more.2)
      let htmlMark := match s with
        | '<' :: rest => blockEnd? rest
        | _ => none
      let startsHtml := match s with
        | '<' :: rest => startsBlockElement rest || isLoneTag rest
        | _ => false
      match htmlMark with
      | some mark => html (around.htmlUntil mark whole afterWhole)
      | none =>
        if startsHtml then html (around.htmlBeforeBlank afterWhole)
        else if isThematicBreak s then (finished.append [.thematicBreak], later)
        else
          match headingLevel? s with
          | some level => readHeading extensions finished level (s.drop level) line later
          | none =>
            match fence? whole with
            | some (char, length) =>
              let info := skipSpaces (whole.drop length)
              let info := (info.reverse.dropWhile isSpaceOrBreak).reverse
              let (code, rest) := around.fenced indent char length afterWhole
              (finished.append [.code (some (unescape info)) code], rest)
            | none => readDefinitions extensions (later.length + 1) o s line later

/-- Reads the next block, and returns the lines after it. -/
def readBlock (extensions : Extensions) (o : Outline) (line : Line) (later : List Line) :
    Outline × List Line :=
  let (outside, m) := continueAll o.containers (Margin.start line.text)
  let o := o.closeTo (o.frames.length - outside.length)
  match openContainers extensions line.ending (line.text.length + 1) m o with
  | (o, .nothing) => (o, later)
  | (o, .rest m) => readContent extensions o m line later
  | (o, .task checked text) => readParagraph extensions o (some checked) text line later
  | (o, .alert) =>
    match later with
    | [] => (o, [])
    | next :: later =>
      let around := o.surroundings extensions
      let (outside, m) := around.place next
      let (missing, after) := m.take 4
      if missing != 0 && around.interrupts outside.isEmpty after.rest next.ending later then
        (o, next :: later)
      else readContent extensions o (Margin.start m.content) next later

/-- Reads all lines. `fuel` is at least their number. -/
def readAll (extensions : Extensions) : Nat → Outline → List Line → Outline
  | 0, o, _ => o
  | _, o, [] => o
  | fuel + 1, o, line :: later =>
    let (o, rest) := readBlock extensions o line later
    readAll extensions fuel o rest

end Outline

/-- The blocks of a document and its definitions. -/
def readDocument (extensions : Extensions) (s : List Char) : List Block × Definitions :=
  let lines := linesOf s
  let o := (Outline.readAll extensions lines.length .empty lines).closeTo 0
  (o.content.reverse, o.definitions)

end StaticSite.Markdown
