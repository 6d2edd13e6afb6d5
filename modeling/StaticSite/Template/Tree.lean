import StaticSite.Template.Token
/-!
# StaticSite.Template.Tree

A template as a tree. Loops nest. Conditionals do not: a conditional ends at the first closing
marker after it, and an opening marker inside its body is kept as text, for the next pass to pick
up. The one exception is a conditional on the element of a loop (a path that starts with `item.`),
which forms a block of its own even within an outer conditional.

A closing marker with nothing to close is kept as text. So is the opening marker of a block that is
still open when its enclosing loop closes or the template ends. Every marker that is kept as text in
one of these two ways is reported (`Lint`).
-/

set_option autoImplicit false

namespace StaticSite

/-- A node of a template. -/
inductive Node where
  | text (text : List Char)
  | interpolation (path : String) (fallback : Option Fallback)
  | conditional (path : String) (body : List Node)
  | loop (path : String) (body : List Node)
deriving Inhabited

/-- What paths start with that refer to the element of a loop. -/
def elementStart : List Char := "item.".toList

/-- The rest of a path that refers to the element of a loop. -/
def elementPath? (path : String) : Option String :=
  (Text.dropStart? elementStart path.toList).map String.ofList

/-- The kinds of block. -/
inductive BlockKind where
  /-- A conditional on the page. -/
  | condition
  /-- A conditional on the element of a loop, inside the loop. -/
  | elementCondition
  | loop
deriving DecidableEq, Inhabited, Repr

/-- The keyword that opens a block. -/
def BlockKind.keyword : BlockKind → String
  | condition | elementCondition => "#if"
  | loop => "#each"

/-- A report about a marker that is kept as text. -/
inductive Lint where
  /-- A closing marker with nothing to close. -/
  | strayCloser (raw : List Char)
  /-- The opening marker of a block that is never closed. -/
  | unterminated (kind : BlockKind) (raw : List Char)
deriving DecidableEq, Inhabited, Repr

/-- A block whose closing marker has not been seen yet. -/
structure OpenBlock where
  kind : BlockKind
  path : String
  /-- The opening marker as it is written. -/
  opener : List Char
  /-- The nodes after the opening marker, as far as they have been read. -/
  body : List Node
deriving Inhabited

/-- A template that has been read in part. -/
structure PartialTree where
  /-- The nodes outside of all open blocks. -/
  root : List Node
  /-- The open blocks, the innermost first. -/
  blocks : List OpenBlock
  /-- The reports so far. -/
  lint : List Lint
deriving Inhabited

namespace PartialTree

/-- Nothing read yet. -/
def empty : PartialTree := ⟨[], [], []⟩

/-- Adds nodes to the innermost open block. -/
def add (tree : PartialTree) (nodes : List Node) : PartialTree :=
  match tree.blocks with
  | [] => { tree with root := tree.root ++ nodes }
  | block :: outer => { tree with blocks := { block with body := block.body ++ nodes } :: outer }

/-- Opens a block. -/
def openBlock (tree : PartialTree) (kind : BlockKind) (path : String) (opener : List Char) :
    PartialTree :=
  { tree with blocks := ⟨kind, path, opener, []⟩ :: tree.blocks }

/-- Adds a report. -/
def report (tree : PartialTree) (lint : Lint) : PartialTree :=
  { tree with lint := tree.lint ++ [lint] }

/-- Turns the innermost open block, which is `block`, back into text and the nodes of its body. -/
def abandon (tree : PartialTree) (block : OpenBlock) (outer : List OpenBlock) : PartialTree :=
  ({ tree with blocks := outer }.report (.unterminated block.kind block.opener)).add
    (Node.text block.opener :: block.body)

/-- The open blocks inside of the innermost open loop; all of them outside of loops. -/
def conditionals (tree : PartialTree) : List OpenBlock :=
  tree.blocks.takeWhile (·.kind ≠ .loop)

/-- Reads the opening marker of a conditional. -/
def openCondition (tree : PartialTree) (path : String) (opener : List Char) : PartialTree :=
  let inLoop := tree.blocks.any (·.kind = .loop)
  let kind : BlockKind :=
    if inLoop && (elementPath? path).isSome then .elementCondition else .condition
  let keptAsText := tree.conditionals.any fun block =>
    block.kind = .elementCondition || (kind = .condition && block.kind = .condition)
  if keptAsText then tree.add [.text opener] else tree.openBlock kind path opener

/-- Reads the closing marker of a conditional. -/
def closeCondition (tree : PartialTree) (raw : List Char) : PartialTree :=
  match tree.blocks with
  | block :: outer =>
    if block.kind = .loop then (tree.report (.strayCloser raw)).add [.text raw]
    else { tree with blocks := outer }.add [.conditional block.path block.body]
  | [] => (tree.report (.strayCloser raw)).add [.text raw]

/-- Closes the innermost open loop: blocks inside of it that are still open are abandoned. `count`
is the number of open blocks. -/
def closeInnermostLoop : Nat → PartialTree → PartialTree
  | 0, tree => tree
  | count + 1, tree =>
    match tree.blocks with
    | [] => tree
    | block :: outer =>
      if block.kind = .loop then { tree with blocks := outer }.add [.loop block.path block.body]
      else closeInnermostLoop count (tree.abandon block outer)

/-- Reads the closing marker of a loop. -/
def closeLoop (tree : PartialTree) (raw : List Char) : PartialTree :=
  if tree.blocks.any (·.kind = .loop) then closeInnermostLoop tree.blocks.length tree
  else (tree.report (.strayCloser raw)).add [.text raw]

/-- Reads one token. Inclusions are expanded before a template is parsed, so one that is left is
text. -/
def step (tree : PartialTree) : Token → PartialTree
  | .text raw => tree.add [.text raw]
  | .marker (.interpolation path fallback) _ => tree.add [.interpolation path fallback]
  | .marker (.inclusion _) raw => tree.add [.text raw]
  | .marker (.loopOpen path) raw => tree.openBlock .loop path raw
  | .marker .loopClose raw => tree.closeLoop raw
  | .marker (.conditionOpen path) raw => tree.openCondition path raw
  | .marker .conditionClose raw => tree.closeCondition raw

/-- Abandons all open blocks, the innermost first; `count` is their number. -/
def finish : Nat → PartialTree → PartialTree
  | 0, tree => tree
  | count + 1, tree =>
    match tree.blocks with
    | [] => tree
    | block :: outer => finish count (tree.abandon block outer)

/-- Reads all tokens to the end. -/
def ofTokens (tokens : List Token) : PartialTree :=
  let tree := tokens.foldl step empty
  finish tree.blocks.length tree

end PartialTree

/-- The tree of a sequence of tokens. -/
def treeOfTokens (tokens : List Token) : List Node := (PartialTree.ofTokens tokens).root

/-- The tree of a template. -/
def parseTemplate (source : List Char) : List Node := treeOfTokens (tokenize source)

/-- The reports about a template, in the order in which they arise. -/
def lintTemplate (source : List Char) : List Lint := (PartialTree.ofTokens (tokenize source)).lint

end StaticSite
