import StaticSite.Markdown.Line
/-!
# StaticSite.Markdown.Container

Containers of blocks: quotes, lists and their items, footnotes, and definitions. A line goes on
with a container if it has its mark or its indentation.
-/

set_option autoImplicit false

namespace StaticSite.Markdown

/-- A container that is open. -/
inductive Container where
  | quote (alert : Option Alert)
  /-- `char` is the bullet, or what follows the numbers. -/
  | list (tight : Bool) (char : Char) (start : Nat)
  /-- `indent` is the column of the content. -/
  | item (indent : Nat)
  | footnote (label : List Char)
  | definitions (tight : Bool)
  | definition (indent : Nat)
deriving DecidableEq, Repr, Inhabited

namespace Container

/-- Whether this is a list, or a list of definitions. -/
def isList : Container → Bool
  | .list .. | .definitions _ => true
  | _ => false

/-- Whether this is an item of a list, or a definition. -/
def isItem : Container → Bool
  | .item _ | .definition _ => true
  | _ => false

/-- Whether this is a definition. -/
def isDefinition : Container → Bool
  | .definition _ => true
  | _ => false

/-- A list that is not tight. -/
def loosened : Container → Container
  | .list _ char start => .list false char start
  | .definitions _ => .definitions false
  | container => container

/-- Goes on with a container at the start of a line. -/
def continue? (m : Margin) : Container → Option Margin
  | .quote _ => (m.takeUpTo 3).2.quote?
  | .item indent | .definition indent => indentedOrEnd? m indent
  | .footnote _ => indentedOrEnd? m 4
  | .list .. | .definitions _ => some m
where
  /-- The place after the indentation; at the end of the line less will do. -/
  indentedOrEnd? (m : Margin) (indent : Nat) : Option Margin :=
    match m.take indent with
    | (0, m) => some m
    | (_, m) => if m.atEnd then some m else none

end Container

/-- Goes on with containers, from the outermost on: those that do not go on, and the place after
the marks of those that do. -/
def continueAll : List Container → Margin → List Container × Margin
  | [], m => ([], m)
  | container :: inner, m =>
    match container.continue? m with
    | none => (container :: inner, m)
    | some m => continueAll inner m

end StaticSite.Markdown
