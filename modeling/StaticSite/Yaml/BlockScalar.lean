import StaticSite.Yaml.Cursor
/-!
# StaticSite.Yaml.BlockScalar

Scalars on lines of their own below an indicator: `|` keeps line breaks, `>` folds them. The header
may fix the indentation with a digit, and says with `-` or `+` what becomes of the breaks at the
end: without a sign one is kept, with a minus none and with a plus all.
-/

set_option autoImplicit false

namespace StaticSite.Yaml

/-- What becomes of the line breaks at the end of a block scalar. -/
inductive Chomping where
  | strip
  | clip
  | keep
deriving DecidableEq, Repr, Inhabited

/-- The chomping sign `c` stands for. -/
def Chomping.ofSign? (c : Char) : Option Chomping :=
  if c == '-' then some .strip else if c == '+' then some .keep else none

/-- Reads the header after the indicator: the indentation it fixes and the chomping, in either
order. Zero is no indentation. -/
def blockHeader? (c : Cursor) : Option (Option Nat × Chomping × Cursor) :=
  let digit? := fun (c : Cursor) =>
    if c.peek.isDigit then some (c.peek.toNat - '0'.toNat) else none
  match Chomping.ofSign? c.peek with
  | some chomping =>
    let c := c.skip
    match digit? c with
    | some 0 => none
    | some n => some (some n, chomping, c.skip)
    | none => some (none, chomping, c)
  | none =>
    match digit? c with
    | some 0 => none
    | some n =>
      let c := c.skip
      match Chomping.ofSign? c.peek with
      | some chomping => some (some n, chomping, c.skip)
      | none => some (some n, .clip, c)
    | none => some (none, .clip, c)

/-- Steps over indentation and empty lines. `indent` is the indentation, if it is known, `widest`
the widest one met. Gives the breaks, the widest indentation and the place after them; a tab in
the indentation is an error. -/
def blockBreaks? (indent : Option Nat) :
    Nat → Nat → List Char → Cursor → Option (List Char × Nat × Cursor)
  | 0, widest, taken, c => some (taken, widest, c)
  | fuel + 1, widest, taken, c =>
    let isInside := fun (c : Cursor) => indent.all (c.column < ·)
    let spaces := match indent with
      | none => (c.rest.takeWhile (· == ' ')).length
      | some n => min (c.rest.takeWhile (· == ' ')).length (n - c.column)
    let c := c.skipMany spaces
    let widest := max widest c.column
    if isInside c && c.peek == '\t' then none
    else if isBreak c.peek then
      let (lineBreak, next) := c.takeBreak
      blockBreaks? indent fuel widest (taken ++ lineBreak) next
    else some (taken, widest, c)

/-- The lines that stand at column `indent`. `lineBreak` is the break after the line before,
`breaks` are those after it, and `spaced` tells that it started with white space. Gives the content
of the lines, the two kinds of breaks after the last of them and the place. -/
def blockLines? (literal : Bool) (indent : Nat) :
    Nat → List Char → List Char → Bool → Cursor →
      Option (List Char × List Char × List Char × Cursor)
  | 0, lineBreak, breaks, _, c => some ([], lineBreak, breaks, c)
  | fuel + 1, lineBreak, breaks, spaced, c =>
    if c.column != indent || c.atEnd then some ([], lineBreak, breaks, c)
    else
      let startsSpaced := isSpace c.peek
      let joint :=
        if !literal && lineBreak == ['\n'] && !spaced && !startsSpaced then
          if breaks.isEmpty then [' '] else breaks
        else lineBreak ++ breaks
      let (line, c) := c.takeWhile (!isBreakOrEnd ·)
      let (lineBreak, c) := c.takeBreak
      match blockBreaks? (some indent) (fuel + 1) 0 [] c with
      | none => none
      | some (breaks, _, c) =>
        (blockLines? literal indent fuel lineBreak breaks startsSpaced c).map
          fun (more, ending) => (joint ++ line ++ more, ending)

/-- The block scalar whose indicator stands here, inside a block at column `outer` (-1 for none). -/
def blockScalar? (outer : Int) (c : Cursor) : Option (List Char × Cursor) := do
  let literal := c.peek == '|'
  let (increment, chomping, c) ← blockHeader? c.skip
  let c := c.skipWhile isSpace
  let c := if c.peek == '#' then c.skipLine else c
  let c ← if isBreakOrEnd c.peek then some c.skipBreak else none
  let fixed := increment.map fun n => (max outer 0).toNat + n
  let (breaks, widest, c) ← blockBreaks? fixed (c.rest.length + 1) 0 [] c
  let indent := fixed.getD (max widest (max (outer + 1).toNat 1))
  let (content, lineBreak, breaks, c) ←
    blockLines? literal indent (c.rest.length + 1) [] breaks false c
  let ending := match chomping with
    | .strip => []
    | .clip => lineBreak
    | .keep => lineBreak ++ breaks
  pure (content ++ ending, c)

end StaticSite.Yaml
