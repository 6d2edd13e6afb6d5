import StaticSite.Yaml.Cursor
import StaticSite.Json.Parser
/-!
# StaticSite.Yaml.FlowScalar

Scalars written without an indicator line: plain ones and those in quotes. Both may span lines;
the white space between two of their words, a `Gap`, is kept if it lies on one line. A single line
break becomes a space, and of several the first is dropped.
-/

set_option autoImplicit false

namespace StaticSite.Yaml

/-- The white space between two words of a scalar. -/
inductive Gap where
  /-- White space on one line. -/
  | blanks (taken : List Char)
  /-- Line breaks: the first, and all others. -/
  | breaks (first more : List Char)
deriving Repr, Inhabited

namespace Gap

/-- No white space. -/
def empty : Gap := .blanks []

/-- Whether the gap reaches another line. -/
def isMultiline : Gap → Bool
  | .blanks _ => false
  | .breaks _ _ => true

/-- What the gap is in the content of the scalar. -/
def text : Gap → List Char
  | .blanks taken => taken
  | .breaks ['\n'] [] => [' ']
  | .breaks ['\n'] more => more
  | .breaks first more => first ++ more

/-- Extends a gap by the white space here. `isBreak` tells what ends a line and `overTab?` steps
over a tab on a later line, if it may stand there. `fuel` bounds the steps. -/
def extend? (isBreak : Char → Bool) (overTab? : Cursor → Option Cursor) :
    Nat → Gap → Cursor → Option (Gap × Cursor)
  | 0, gap, c => some (gap, c)
  | fuel + 1, gap, c =>
    if isSpace c.peek then
      match gap with
      | .blanks taken => extend? isBreak overTab? fuel (.blanks (taken ++ [c.peek])) c.skip
      | .breaks _ _ =>
        match if c.peek == '\t' then overTab? c else some c.skip with
        | none => none
        | some c => extend? isBreak overTab? fuel gap c
    else if isBreak c.peek then
      let (lineBreak, next) := c.takeBreak
      match gap with
      | .blanks _ => extend? isBreak overTab? fuel (.breaks lineBreak []) next
      | .breaks first more =>
        extend? isBreak overTab? fuel (.breaks first (more ++ lineBreak)) next
    else some (gap, c)

/-- Steps over a tab that does not stand left of column `indent`. -/
def tabFrom? (indent : Int) (c : Cursor) : Option Cursor :=
  if c.column < indent then none else some c.skip

end Gap

/-! ### Plain scalars -/

/-- Whether a plain scalar ends before the next character: at a colon with white space after it
and, inside a flow collection, at an indicator of it. -/
def endsPlain (inFlow : Bool) (c : Cursor) : Bool :=
  (c.peek == ':' && isGapOrEnd (c.peekAt 1)) || (inFlow && isFlowIndicator c.peek)

/-- The longest word of a plain scalar that starts here. Inside a flow collection, no colon may
stand before an indicator. -/
def plainWord? (inFlow : Bool) : Nat → Cursor → Option (List Char × Cursor)
  | 0, c => some ([], c)
  | fuel + 1, c =>
    if isGapOrEnd c.peek then some ([], c)
    else if inFlow && c.peek == ':' && (isFlowIndicator (c.peekAt 1) || c.peekAt 1 == '?') then none
    else if endsPlain inFlow c then some ([], c)
    else (plainWord? inFlow fuel c.skip).map fun (word, next) => (c.peek :: word, next)

/-- The rest of a plain scalar after the white space `gap`. Gives its content, whether white space
that reaches another line follows it, and the place after that. `fuel` is at least the length of
the text. -/
def plainWords? (inFlow : Bool) (indent : Nat) :
    Nat → Gap → Cursor → Option (List Char × Bool × Cursor)
  | 0, gap, c => some ([], gap.isMultiline, c)
  | fuel + 1, gap, c =>
    if c.atDocumentMark || c.peek == '#' then some ([], gap.isMultiline, c)
    else
      match plainWord? inFlow fuel c with
      | none => none
      | some (word, c) =>
        let (piece, gap) := if word.isEmpty then ([], gap) else (gap.text ++ word, .empty)
        if !(isSpace c.peek || isBreak c.peek) then some (piece, gap.isMultiline, c)
        else
          match gap.extend? isBreak (Gap.tabFrom? indent) fuel c with
          | none => none
          | some (gap, c) =>
            if !inFlow && c.column < indent then some (piece, gap.isMultiline, c)
            else
              (plainWords? inFlow indent fuel gap c).map fun (more, multiline, c) =>
                (piece ++ more, multiline, c)

/-- The plain scalar that starts here, in a block whose content starts at column `indent`. -/
def plainScalar? (inFlow : Bool) (indent : Nat) (c : Cursor) :
    Option (List Char × Bool × Cursor) :=
  plainWords? inFlow indent (c.rest.length + 1) .empty c

/-! ### Scalars in quotes -/

/-- The character that a backslash and `c` stand for. -/
def simpleEscape? (c : Char) : Option Char :=
  match c with
  | '0' => some '\x00'
  | 'a' => some '\x07'
  | 'b' => some '\x08'
  | 't' | '\t' => some '\t'
  | 'n' => some '\n'
  | 'v' => some '\x0b'
  | 'f' => some '\x0c'
  | 'r' => some '\r'
  | 'e' => some '\x1b'
  | ' ' | '"' | '/' | '\\' => some c
  | 'N' => some '\u0085'
  | '_' => some '\u00a0'
  | 'L' => some '\u2028'
  | 'P' => some '\u2029'
  | _ => none

/-- How many hexadecimal digits follow a backslash and `c`. -/
def escapeDigits? (c : Char) : Option Nat :=
  match c with
  | 'x' => some 2
  | 'u' => some 4
  | 'U' => some 8
  | _ => none

/-- The value of a run of hexadecimal digits. -/
def hexNumber? (digits : List Char) : Option Nat :=
  digits.foldlM (fun n c => (Json.hexValue? c).map (n * 16 + ·)) 0

/-- The character with code `n`, if there is one. -/
def charOf? (n : Nat) : Option Char := if n.isValidChar then some (Char.ofNat n) else none

/-- The character of the escape whose backslash stands here, and the place after it. -/
def escape? (c : Cursor) : Option (Char × Cursor) :=
  match escapeDigits? (c.peekAt 1) with
  | some count =>
    let digits := (c.rest.drop 2).take count
    if digits.length < count then none
    else ((hexNumber? digits).bind charOf?).map fun char => (char, c.skipMany (2 + count))
  | none => (simpleEscape? (c.peekAt 1)).map fun char => (char, c.skipMany 2)

/-- The longest word inside quotes that starts here, and the gap after it: an empty one or, where a
line break is escaped, the start of a gap without a break. `isBreak` tells what ends a line. -/
def quotedWord? (isBreak : Char → Bool) (single : Bool) :
    Nat → Cursor → Option (List Char × Gap × Cursor)
  | 0, c => some ([], .empty, c)
  | fuel + 1, c =>
    if isSpace c.peek || isBreak c.peek || c.atEnd then some ([], .empty, c)
    else if single then
      if c.peek == '\'' then
        if c.peekAt 1 == '\'' then
          (quotedWord? isBreak single fuel (c.skipMany 2)).map fun (word, next) =>
            ('\'' :: word, next)
        else some ([], .empty, c)
      else (quotedWord? isBreak single fuel c.skip).map fun (word, next) => (c.peek :: word, next)
    else if c.peek == '"' then some ([], .empty, c)
    else if c.peek == '\\' then
      if isBreak (c.peekAt 1) then some ([], .breaks [] [], c.skip.skipBreak)
      else
        match escape? c with
        | none => none
        | some (char, next) =>
          (quotedWord? isBreak single fuel next).map fun (word, next) => (char :: word, next)
    else (quotedWord? isBreak single fuel c.skip).map fun (word, next) => (c.peek :: word, next)

/-- The rest of a scalar in quotes, up to its closing quote. No document may start or end inside.
`fuel` is at least the length of the text. -/
def quotedWords? (single : Bool) : Nat → Cursor → Option (List Char × Cursor)
  | 0, _ => none
  | fuel + 1, c =>
    if c.atDocumentMark || c.atEnd then none
    else
      match quotedWord? isBreak single fuel c with
      | none => none
      | some (word, gap, c) =>
        if c.peek == (if single then '\'' else '"') then some (word, c.skip)
        else
          match gap.extend? isBreak (Gap.tabFrom? 0) fuel c with
          | none => none
          | some (gap, c) =>
            (quotedWords? single fuel c).map fun (more, c) => (word ++ gap.text ++ more, c)

/-- The scalar whose opening quote stands here. -/
def quotedScalar? (c : Cursor) : Option (List Char × Cursor) :=
  quotedWords? (c.peek == '\'') (c.rest.length + 1) c.skip

end StaticSite.Yaml
