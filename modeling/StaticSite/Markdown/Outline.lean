import StaticSite.Markdown.Block
import StaticSite.Markdown.RunningText
/-!
# StaticSite.Markdown.Outline

The containers that are open while the lines of a document are read. A line that does not go on
with one closes it, unless the line goes on with a paragraph inside.

A list is tight until an empty line stands between two of its items, or between two blocks in one
of them.
-/

set_option autoImplicit false

namespace StaticSite.Markdown

/-- A container and the blocks in it, the last first. -/
structure Frame where
  container : Container
  content : List Block
deriving Inhabited

namespace Frame

/-- Whether a block is an entry of a list of definitions. -/
def isEntry : Block → Bool
  | .term _ | .definition _ => true
  | _ => false

/-- The blocks that a frame is when it is closed, the last first. What follows the last entry of a
list of definitions stands after the list. -/
def blocks (frame : Frame) : List Block :=
  match frame.container with
  | .quote alert => [.quote alert frame.content.reverse]
  | .list tight char start =>
    [.list tight (if char == '.' || char == ')' then some start else none) frame.content.reverse]
  | .item _ => [.item frame.content.reverse]
  | .footnote label => [.footnote label frame.content.reverse]
  | .definitions tight =>
    frame.content.takeWhile (!isEntry ·) ++
      [.definitions tight (frame.content.dropWhile (!isEntry ·)).reverse]
  | .definition _ => [.definition frame.content.reverse]

end Frame

/-- A document while its lines are read. -/
structure Outline where
  /-- The open containers, the innermost first. -/
  frames : List Frame
  /-- The blocks outside of them, the last first. -/
  content : List Block
  /-- Whether the line before was empty. -/
  afterBlank : Bool
  /-- Whether the line before was an item without content. -/
  emptyItem : Bool
  /-- The definitions so far. -/
  definitions : Definitions
deriving Inhabited

namespace Outline

/-- No lines. -/
def empty : Outline := ⟨[], [], false, false, ⟨[], []⟩⟩

/-- The open containers, the outermost first. -/
def containers (o : Outline) : List Container := (o.frames.map (·.container)).reverse

/-- Appends blocks, given with the last first. -/
def append (o : Outline) (blocks : List Block) : Outline :=
  match o.frames with
  | [] => { o with content := blocks ++ o.content }
  | frame :: outer =>
    { o with frames := { frame with content := blocks ++ frame.content } :: outer }

/-- The last block at the place where the next will stand. -/
def last? (o : Outline) : Option Block :=
  match o.frames with
  | [] => o.content.head?
  | frame :: _ => frame.content.head?

/-- Replaces the last block. -/
def dropLast (o : Outline) : Outline :=
  match o.frames with
  | [] => { o with content := o.content.tail }
  | frame :: outer => { o with frames := { frame with content := frame.content.tail } :: outer }

/-- Opens a container. -/
def openFrame (o : Outline) (container : Container) : Outline :=
  { o with frames := ⟨container, []⟩ :: o.frames }

/-- Closes the innermost container. -/
def closeFrame (o : Outline) : Outline :=
  match o.frames with
  | [] => o
  | frame :: outer =>
    let o := { o with frames := outer }.append frame.blocks
    match frame.container with
    | .list true .. | .definitions _ => { o with emptyItem := false }
    | _ => o

/-- Closes the innermost containers until `count` are left. -/
def closeTo (o : Outline) (count : Nat) : Outline :=
  (List.range (o.frames.length - count)).foldl (fun o _ => o.closeFrame) o

/-- Changes the innermost container. -/
def changeTop (o : Outline) (change : Container → Container) : Outline :=
  match o.frames with
  | [] => o
  | frame :: outer =>
    { o with frames := { frame with container := change frame.container } :: outer }

/-- Changes the container around the innermost. -/
def changeSecond (o : Outline) (change : Container → Container) : Outline :=
  match o.frames with
  | top :: frame :: outer =>
    { o with frames := top :: { frame with container := change frame.container } :: outer }
  | _ => o

/-- The innermost container. -/
def top? (o : Outline) : Option Container := o.frames.head?.map (·.container)

/-- Closes an item that has no content and has an empty line after it. -/
def finishEmptyItem (o : Outline) : Outline :=
  let o' := if o.emptyItem && o.afterBlank && o.top?.any Container.isItem then o.closeFrame else o
  { o' with emptyItem := false }

/-- Closes a list between whose items the next block would stand. A block after an empty line makes
the list around it loose. -/
def finishList (o : Outline) : Outline :=
  let o := o.finishEmptyItem
  let o := if o.top?.any Container.isList then o.closeFrame else o
  if o.afterBlank then { o.changeSecond Container.loosened with afterBlank := false } else o

/-- Goes on with the list to which an item belongs, or opens it. -/
def continueList (o : Outline) (mark : ItemMark) : Outline :=
  let o := o.finishEmptyItem
  let isSame := match o.top? with
    | some (.list _ char _) => char == mark.char
    | _ => false
  if isSame then
    if o.afterBlank then { o.changeTop Container.loosened with afterBlank := false } else o
  else
    let o := if o.frames.isEmpty then o else o.finishList
    { o.openFrame (.list true mark.char mark.number) with afterBlank := false }

/-- Opens a definition after its term. The paragraph before becomes the term. -/
def openDefinition (o : Outline) (indent : Nat) : Outline :=
  let isListed := match o.top? with
    | some (.definitions _) => true
    | _ => false
  let o := match o.last? with
    | some (.paragraph text) =>
      let o := o.dropLast
      (if isListed then o else o.openFrame (.definitions true)).append [.term text]
    | _ => o
  let o := if o.afterBlank then { o.changeTop Container.loosened with afterBlank := false } else o
  o.openFrame (.definition indent)

/-- Whether a definition may follow: after a paragraph, or after a definition. -/
def allowsDefinition (o : Outline) : Bool :=
  match o.last? with
  | some (.paragraph ..) | some (.definition _) => true
  | _ => false

/-- Opens a footnote. -/
def openFootnote (o : Outline) (label : List Char) : Outline :=
  let o := o.finishList
  let o := match o.top? with
    | some (.footnote _) => o.closeFrame
    | _ => o
  let definitions :=
    { o.definitions with footnotes := fold label :: o.definitions.footnotes }
  { o with definitions := definitions }.openFrame (.footnote label)

/-- Remembers a definition of a link. -/
def define (o : Outline) (label : List Char) (target : LinkTarget) : Outline :=
  let links := o.definitions.links ++ [(fold label, target)]
  { o with definitions := { o.definitions with links := links } }

/-- An empty line. -/
def blankLine (o : Outline) : Outline :=
  match o.top? with
  | some (.quote _) => o
  | some (.item indent) =>
    { o.changeTop fun _ => .item (if o.emptyItem then 0 else indent) with afterBlank := true }
  | some (.definition indent) =>
    { o.changeTop fun _ => .definition (if o.emptyItem then 0 else indent) with afterBlank := true }
  | _ => { o with afterBlank := true }

end Outline

end StaticSite.Markdown
