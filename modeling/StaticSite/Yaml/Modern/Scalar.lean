import StaticSite.Yaml.BlockScalar
import StaticSite.Yaml.FlowScalar
import StaticSite.Yaml.Modern.Cursor
/-!
# StaticSite.Yaml.Modern.Scalar

The three ways to write a scalar, each inside a block at column `indent`. White space between words
is folded as in the earlier form of the language.
-/

set_option autoImplicit false

namespace StaticSite.Yaml.Modern

/-! ### Plain scalars -/

/-- Whether a plain scalar ends before the next character: at a colon with white space after it
and, inside a flow collection, at an indicator of it or a colon before one. -/
def endsPlain (inFlow : Bool) (c : Cursor) : Bool :=
  (c.peek == ':' && (isGapOrEnd (c.peekAt 1) || (inFlow && isFlowIndicator (c.peekAt 1)))) ||
  (inFlow && isFlowIndicator c.peek)

/-- The longest word of a plain scalar that starts here. -/
def plainWord (inFlow : Bool) : Nat → Cursor → List Char × Cursor
  | 0, c => ([], c)
  | fuel + 1, c =>
    if isGapOrEnd c.peek || endsPlain inFlow c then ([], c)
    else
      let (word, next) := plainWord inFlow fuel c.skip
      (c.peek :: word, next)

/-- The rest of a plain scalar after the white space `gap`. Gives its content, whether white space
that reaches another line follows it, and the place after that. No word may start with a hyphen
before an indicator of a flow collection. -/
def plainWords? (inFlow : Bool) (indent : Int) :
    Nat → Gap → Cursor → Option (List Char × Bool × Cursor)
  | 0, gap, c => some ([], gap.isMultiline, c)
  | fuel + 1, gap, c =>
    if atDocumentMark c || c.peek == '#' then some ([], gap.isMultiline, c)
    else if inFlow && c.peek == '-' && isFlowIndicator (c.peekAt 1) then none
    else
      let (word, c) := plainWord inFlow fuel c
      let (piece, gap) := if word.isEmpty then ([], gap) else (gap.text ++ word, .empty)
      if !(isSpace c.peek || isBreak c.peek) then some (piece, gap.isMultiline, c)
      else
        match gap.extend? isBreak (overTab? indent) fuel c with
        | none => none
        | some (gap, c) =>
          if !inFlow && c.column < indent then some (piece, gap.isMultiline, c)
          else
            (plainWords? inFlow indent fuel gap c).map fun (more, multiline, c) =>
              (piece ++ more, multiline, c)

/-- The plain scalar that starts here. Its lines have to stand right of the block; inside a flow
collection only the first has to. A scalar without a character is an error. -/
def plainScalar? (inFlow : Bool) (indent : Int) (c : Cursor) :
    Option (List Char × Bool × Cursor) :=
  if inFlow && c.column < indent + 1 then none
  else
    (plainWords? inFlow (indent + 1) (c.rest.length + 1) .empty c).bind fun scalar =>
      if scalar.1.isEmpty then none else some scalar

/-! ### Scalars in quotes -/

/-- The rest of a scalar in quotes, up to its closing quote. No line of it may start left of column
`indent`, and no document may start or end inside. -/
def quotedWords? (single : Bool) (indent : Int) : Nat → Cursor → Option (List Char × Cursor)
  | 0, _ => none
  | fuel + 1, c =>
    if atDocumentMark c || c.atEnd || c.column < indent then none
    else
      match quotedWord? isBreak single fuel c with
      | none => none
      | some (word, gap, c) =>
        if c.peek == (if single then '\'' else '"') then some (word, c.skip)
        else
          match gap.extend? isBreak (Gap.tabFrom? indent) fuel c with
          | none => none
          | some (gap, c) =>
            (quotedWords? single indent fuel c).map fun (more, c) => (word ++ gap.text ++ more, c)

/-- Whether the next character may follow a scalar in quotes, apart from white space: what ends the
line, a colon if the scalar may be a key, or an indicator of the collection around it. -/
def followsQuoted (inFlow multiline : Bool) (c : Cursor) : Bool :=
  isBreakOrEnd c.peek || (c.peek == ':' && (inFlow || !multiline)) ||
  (inFlow && (c.peek == ',' || c.peek == ']' || c.peek == '\x7d'))

/-- The scalar whose opening quote stands here, and the place after the white space behind it. -/
def quotedScalar? (inFlow : Bool) (indent : Int) (c : Cursor) : Option (List Char × Cursor) := do
  let (content, next) ← quotedWords? (c.peek == '\'') indent (c.rest.length + 1) c.skip
  let (_, next) ← lineGap? next
  if followsQuoted inFlow (c.line < next.line) next then some (content, next) else none

/-! ### Block scalars -/

/-- Steps over indentation and empty lines. `indent` is the indentation, if it is known, `widest`
the widest one met. Gives the breaks, the widest indentation and the place after them. -/
def blockBreaks (indent : Option Nat) :
    Nat → Nat → List Char → Cursor → List Char × Nat × Cursor
  | 0, widest, taken, c => (taken, widest, c)
  | fuel + 1, widest, taken, c =>
    let spaces := (c.rest.takeWhile (· == ' ')).length
    let c := c.skipMany (indent.elim spaces fun n => min spaces (n - c.column))
    let widest := max widest c.column
    if isBreak c.peek then
      let (lineBreak, next) := c.takeBreak
      blockBreaks indent fuel widest (taken ++ lineBreak) next
    else (taken, widest, c)

/-- The lines that stand at column `indent`. `lineBreak` is the break after the line before,
`breaks` are those after it, and `spaced` tells that it started with white space. Gives the content
of the lines, the two kinds of breaks after the last of them and the place. -/
def blockLines (literal : Bool) (indent : Nat) :
    Nat → List Char → List Char → Bool → Cursor → List Char × List Char × List Char × Cursor
  | 0, lineBreak, breaks, _, c => ([], lineBreak, breaks, c)
  | fuel + 1, lineBreak, breaks, spaced, c =>
    if c.column != indent || c.atEnd then ([], lineBreak, breaks, c)
    else
      let startsSpaced := isSpace c.peek
      let joint :=
        if !literal && !lineBreak.isEmpty && !spaced && !startsSpaced then
          if breaks.isEmpty then [' '] else breaks
        else lineBreak ++ breaks
      let (line, c) := c.takeWhile (!isBreakOrEnd ·)
      if c.atEnd then (joint ++ line, [], [], c)
      else
        let (lineBreak, c) := c.takeBreak
        let (breaks, _, c) := blockBreaks (some indent) (fuel + 1) 0 [] c
        let (more, ending) := blockLines literal indent fuel lineBreak breaks startsSpaced c
        (joint ++ line ++ more, ending)

/-- What is left of a block scalar of which the text holds only the line of its indicator, the break
after that and `breaks`. -/
def emptyBlock (chomping : Chomping) (lineBreak breaks : List Char) : List Char :=
  match chomping with
  | .strip => []
  | .clip => lineBreak
  | .keep => if breaks.isEmpty then lineBreak else breaks

/-- The end of a block scalar. A text that ends right of the block counts as if a break followed. -/
def blockEnding (chomping : Chomping) (outer : Int) (lineBreak breaks : List Char) (c : Cursor) :
    List Char :=
  let missing := if c.atEnd && max outer 1 ≤ c.column then ['\n'] else []
  match chomping with
  | .strip => []
  | .clip => lineBreak ++ missing
  | .keep => lineBreak ++ missing ++ breaks

/-- The block scalar whose indicator stands here, inside a block at column `outer` (-1 for none).
A first line that stands between the two columns, left of an empty line's end, is an error. -/
def blockScalar? (outer : Int) (c : Cursor) : Option (List Char × Cursor) := do
  let literal := c.peek == '|'
  let (increment, chomping, c) ← blockHeader? c.skip
  let c ← emptyLine? c
  let (lineBreak, c) := c.takeBreak
  if c.peek == '\t' then none
  else
    let fixed := increment.map fun n => (max outer 0).toNat + n
    let (breaks, widest, c) := blockBreaks fixed (c.rest.length + 1) 0 [] c
    let indent := fixed.getD (max widest (outer + 1).toNat)
    if c.atEnd then some (emptyBlock chomping lineBreak breaks, c)
    else if c.column < indent && outer < c.column then none
    else
      let (content, lineBreak, breaks, c) :=
        blockLines literal indent (c.rest.length + 1) [] breaks false c
      some (content ++ blockEnding chomping outer lineBreak breaks c, c)

end StaticSite.Yaml.Modern
