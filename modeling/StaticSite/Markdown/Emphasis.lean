import StaticSite.Text.Blank
import StaticSite.Markdown.Link
/-!
# StaticSite.Markdown.Emphasis

The parts of running text, and how runs of stars, underscores and tildes pair up around them.

Runs are taken from left to right. One that may close looks for the nearest run before it that may
open and fits it; runs in between become text. A pair takes as many characters as both runs have,
in twos as far as possible. If one of the two runs may both open and close, the lengths of the runs
may not add up to a multiple of three, unless both are multiples.
-/

set_option autoImplicit false

namespace StaticSite.Markdown

/-- A part of running text. -/
inductive Inline where
  | text (s : List Char)
  | code (s : List Char)
  /-- HTML that is kept as it is written. -/
  | html (s : List Char)
  | softBreak
  | hardBreak
  | emphasis (content : List Inline)
  | strong (content : List Inline)
  | strikethrough (content : List Inline)
  | link (target : LinkTarget) (content : List Inline)
  | image (target : LinkTarget) (content : List Inline)
  | footnoteReference (label : List Char)
  /-- The box of a task. -/
  | checkbox (checked : Bool)
deriving Inhabited, Repr

/-- A run of one character that may be a mark of emphasis. -/
structure Run where
  char : Char
  length : Nat
  canOpen : Bool
  canClose : Bool
deriving DecidableEq, Repr, Inhabited

namespace Run

/-- Whether the run may both open and close. -/
def isBoth (run : Run) : Bool := run.canOpen && run.canClose

/-- Whether the character after a run allows it to open, given the one before. -/
def mayOpen (char : Char) (length : Nat) (before after : Option Char) : Bool :=
  match after with
  | none => false
  | some next =>
    if Text.isBlank next then false
    else
      match before with
      | none => true
      | some previous =>
        (char == '*' && !isPunctuation next) || (char == '~' && length > 1) ||
        (char == '~' && previous == '~' && !isPunctuation next) ||
        Text.isBlank previous || isPunctuation previous

/-- Whether the characters around a run allow it to close. -/
def mayClose (char : Char) (length : Nat) (before after : Option Char) : Bool :=
  match before with
  | none => false
  | some previous =>
    if Text.isBlank previous then false
    else
      match after with
      | none => true
      | some next =>
        ((char == '*' || (char == '~' && length > 1)) && !isPunctuation previous) ||
        (char == '~' && previous == '~') || Text.isBlank next || isPunctuation next

/-- The run with these characters around it. -/
def ofContext (char : Char) (length : Nat) (before after : Option Char) : Run :=
  ⟨char, length, mayOpen char length before after, mayClose char length before after⟩

end Run

/-- A piece of running text before marks are paired up. -/
inductive Piece where
  | done (inline : Inline)
  | run (run : Run)
  /-- A hard break that a backslash makes. -/
  | escapedBreak
  /-- Text behind a run, which is shown if a character of the run is. -/
  | trail (s : List Char)
deriving Inhabited, Repr

/-- A run that may open, with what is left of it. -/
structure Opener where
  run : Run
  /-- How many of its characters are not paired yet. -/
  left : Nat
  /-- What stands before it, back to the opener before; the last part first. -/
  before : List Inline
deriving Inhabited, Repr

/-- The marks that are open, the innermost first, and what stands after the innermost, the last
part first. -/
structure Pairing where
  openers : List Opener
  after : List Inline
  /-- How many of the outermost openers are out of reach for tildes. -/
  tildeFloor : Nat
deriving Inhabited

namespace Pairing

/-- A run as text. -/
def literal (char : Char) (length : Nat) : Inline := .text (List.replicate length char)

/-- Whether a run that may close fits an opener. -/
def fits (closer : Run) (opener : Opener) : Bool :=
  let lengths := closer.length + opener.run.length
  opener.run.char == closer.char &&
  (closer.char != '~' || closer.length == opener.run.length) &&
  ((!closer.isBoth && !opener.run.isBoth) || lengths % 3 != 0 || closer.length % 3 == 0)

/-- The content inside `count` pairs of a mark. -/
def wrap (char : Char) : Nat → List Inline → List Inline
  | 0, content => content
  | 1, content => [if char == '~' then .strikethrough content else .emphasis content]
  | count + 2, content =>
    wrap char count [if char == '~' then .strikethrough content else .strong content]

/-- Makes the innermost opener text. -/
def dropOpener (pairing : Pairing) : Pairing :=
  match pairing.openers with
  | [] => pairing
  | opener :: outer =>
    { pairing with
      openers := outer
      after := pairing.after ++ literal opener.run.char opener.left :: opener.before
      tildeFloor := min pairing.tildeFloor outer.length }

/-- Makes the `count` innermost openers text. -/
def dropOpeners : Nat → Pairing → Pairing
  | 0, pairing => pairing
  | count + 1, pairing => dropOpeners count pairing.dropOpener

/-- Pairs a closer, of which `left` characters are left, with openers as long as one fits. Returns
what is left of it. -/
def close (closer : Run) : Nat → Nat → Pairing → Nat × Pairing
  | 0, left, pairing => (left, pairing)
  | fuel + 1, left, pairing =>
    let floor := if closer.char == '~' then pairing.tildeFloor else 0
    let reachable := pairing.openers.take (pairing.openers.length - floor)
    match reachable.findIdx? (fits closer) with
    | none =>
      (left, if closer.char == '~' then { pairing with tildeFloor := pairing.openers.length }
        else pairing)
    | some index =>
      let pairing := dropOpeners index pairing
      match pairing.openers with
      | [] => (left, pairing)
      | opener :: outer =>
        let count := min left opener.left
        let content := wrap closer.char count pairing.after.reverse
        let floor := min pairing.tildeFloor outer.length
        let pairing :=
          if opener.left > count then
            { openers := { opener with left := opener.left - count } :: outer
              after := content, tildeFloor := floor }
          else { openers := outer, after := content ++ opener.before, tildeFloor := floor }
        if left > count then close closer fuel (left - count) pairing else (0, pairing)

/-- Takes the next piece. -/
def step (pairing : Pairing) : Piece → Pairing
  | .done inline => { pairing with after := inline :: pairing.after }
  | .escapedBreak => { pairing with after := .hardBreak :: pairing.after }
  | .trail s =>
    match pairing.after with
    | .emphasis _ :: _ | .strong _ :: _ | .strikethrough _ :: _ => pairing
    | _ => { pairing with after := .text s :: pairing.after }
  | .run run =>
    let (left, pairing) := if run.canClose then close run run.length run.length pairing
      else (run.length, pairing)
    if left = 0 then pairing
    else if run.canOpen then
      let floor := if run.char == '~' then min pairing.tildeFloor pairing.openers.length
        else pairing.tildeFloor
      { openers := ⟨run, left, pairing.after⟩ :: pairing.openers, after := [], tildeFloor := floor }
    else { pairing with after := literal run.char left :: pairing.after }

end Pairing

/-- The parts of running text that pieces stand for. -/
def pairMarks (pieces : List Piece) : List Inline :=
  let pairing := pieces.foldl Pairing.step ⟨[], [], 0⟩
  (Pairing.dropOpeners pairing.openers.length pairing).after.reverse

end StaticSite.Markdown
