import StaticSite.Markdown.CaseFolding
import StaticSite.Markdown.Entity
/-!
# StaticSite.Markdown.Link

The parts of links: labels in brackets, destinations, titles, and definitions that give a label a
destination. Texts may span lines here; of a line that goes on with one, the marks of the
containers around it are no part.
-/

set_option autoImplicit false

namespace StaticSite.Markdown

/-- White space within a line. -/
def isInlineSpace (c : Char) : Bool := c == ' ' || c == '\t' || c == '\x0b' || c == '\x0c'

/-- The characters that end a line. -/
def isLineEnd (c : Char) : Bool := c == '\n' || c == '\r'

/-- White space, line ends included. -/
def isSpaceOrBreak (c : Char) : Bool := isInlineSpace c || isLineEnd c

/-- The text after white space within the line. -/
def skipSpaces (s : List Char) : List Char := s.dropWhile isInlineSpace

/-- The text after the end of a line, if the text starts with one. -/
def afterLineEnd? : List Char → Option (List Char)
  | '\r' :: '\n' :: rest | '\n' :: rest | '\r' :: rest => some rest
  | _ => none

/-- Where a link leads, and its title, which may be empty. -/
structure LinkTarget where
  destination : List Char
  title : List Char
deriving DecidableEq, Repr, Inhabited

/-! ### Labels -/

/-- The number of bytes that a label may not reach. -/
def labelBound : Nat := 1000

/-- The characters up to the bracket that closes a label, and the text after it. Brackets inside
have to be escaped, and no empty line may stand in a label: `broken` tells that the line has been
empty so far. In a table the escape of a bar is left out. -/
def labelText? (inTable broken : Bool) : List Char → Option (List Char × List Char)
  | [] => none
  | '[' :: _ => none
  | ']' :: rest => some ([], rest)
  | '\\' :: c :: rest =>
    (labelText? inTable false rest).map fun (label, after) =>
      (if inTable && c == '|' then c :: label else '\\' :: c :: label, after)
  | '\r' :: '\n' :: rest =>
    if broken then none
    else (labelText? inTable true rest).map fun (label, after) => ('\r' :: '\n' :: label, after)
  | c :: rest =>
    if broken && isLineEnd c then none
    else
      (labelText? inTable (isLineEnd c || (broken && isInlineSpace c)) rest).map
        fun (label, after) => (c :: label, after)

/-- A label with each run of white space in it made one space, and none at its ends. -/
def collapseSpace (label : List Char) : List Char :=
  Text.join [' '] ((Text.splitAtEach isSpaceOrBreak label).filter (!·.isEmpty))

/-- The label whose opening bracket stands before the text, and the text after its closing
bracket. -/
def label? (inTable : Bool) (s : List Char) : Option (List Char × List Char) :=
  match labelText? inTable false s with
  | some (label, rest) =>
    if (String.ofList label).utf8ByteSize ≥ labelBound || label.all isSpaceOrBreak then none
    else some (collapseSpace label, rest)
  | none => none

/-- The label of a footnote, whose bracket and circumflex stand before the text. It may not span
lines. -/
def footnoteLabel? (inTable : Bool) (s : List Char) : Option (List Char × List Char) :=
  match labelText? inTable false s with
  | some (label, _) => if label.any isLineEnd then none else label? inTable s
  | none => none

/-! ### Destinations -/

/-- In how many parentheses one more may be opened in the destination of a link. -/
def deepestInLink : Nat := 32

/-- In how many parentheses one more may be opened in the destination of a definition. -/
def deepestInDefinition : Nat := 1

/-- A destination in angle brackets, from after the first. -/
def pointyDestination? : List Char → Option (List Char × List Char)
  | [] => none
  | '>' :: rest => some ([], rest)
  | '\\' :: c :: rest =>
    if isLineEnd c then none
    else (pointyDestination? rest).map fun (dest, after) => ('\\' :: c :: dest, after)
  | c :: rest =>
    if isLineEnd c || c == '<' then none
    else (pointyDestination? rest).map fun (dest, after) => (c :: dest, after)

/-- A destination without brackets, inside of `nest` parentheses. It ends at white space or at a
parenthesis that was not opened in it. No parenthesis may open in more than `deepest` others. -/
def bareDestination? (deepest nest : Nat) : List Char → Option (List Char × List Char)
  | [] => if nest = 0 then some ([], []) else none
  | '\\' :: c :: rest =>
    if isAsciiPunctuation c then
      (bareDestination? deepest nest rest).map fun (dest, after) => ('\\' :: c :: dest, after)
    else if c.toNat ≤ 0x20 then if nest = 0 then some (['\\'], c :: rest) else none
    else (bareDestination? deepest nest rest).map fun (dest, after) => ('\\' :: c :: dest, after)
  | '(' :: rest =>
    if nest > deepest then none
    else (bareDestination? deepest (nest + 1) rest).map fun (dest, after) => ('(' :: dest, after)
  | ')' :: rest =>
    if nest = 0 then some ([], ')' :: rest)
    else (bareDestination? deepest (nest - 1) rest).map fun (dest, after) => (')' :: dest, after)
  | c :: rest =>
    if c.toNat ≤ 0x20 then if nest = 0 then some ([], c :: rest) else none
    else (bareDestination? deepest nest rest).map fun (dest, after) => (c :: dest, after)

/-- A destination as it is written, and the text after it. -/
def destination? (deepest : Nat) (s : List Char) : Option (List Char × List Char) :=
  match s with
  | '<' :: rest => pointyDestination? rest
  | _ => bareDestination? deepest 0 s

/-- The marks between which a title may stand: with the mark that opens it, the one that closes
it. -/
def titleEnd? (opening : Char) : Option Char :=
  if opening == '"' || opening == '\'' then some opening
  else if opening == '(' then some ')'
  else none

/-! ### Definitions

In these texts each line ends with a line feed. -/

/-- The characters of a title up to its closing mark, as they are written, and the text after it.
White space at the start of a line is left out. -/
def titleText? (opening closing : Char) : Nat → List Char → Option (List Char × List Char)
  | 0, _ => none
  | _, [] => none
  | fuel + 1, c :: rest =>
    if c == closing then some ([], rest)
    else if c == opening then none
    else if c == '\n' then
      (titleText? opening closing fuel (skipSpaces rest)).map fun (title, after) =>
        (c :: title, after)
    else if c == '\\' then
      match rest with
      | d :: more =>
        if isAsciiPunctuation d then
          (titleText? opening closing fuel more).map fun (title, after) =>
            (c :: d :: title, after)
        else (titleText? opening closing fuel rest).map fun (title, after) => (c :: title, after)
      | [] => none
    else (titleText? opening closing fuel rest).map fun (title, after) => (c :: title, after)

/-- A title in quotes or parentheses, and the text after it. -/
def title? (s : List Char) : Option (List Char × List Char) :=
  match s with
  | [] => none
  | opening :: rest =>
    (titleEnd? opening).bind fun closing =>
      (titleText? opening closing rest.length rest).map fun (title, after) =>
        (unescape title, after)

/-- White space before a part of a definition, which has to be there: whether a line ends in it,
and the text after it. -/
def definitionSpace? (s : List Char) : Option (Bool × List Char) :=
  match skipSpaces s with
  | [] => none
  | '\n' :: rest =>
    match skipSpaces rest with
    | [] | '\n' :: _ => none
    | rest => some (true, rest)
  | rest => some (false, rest)

/-- Whether nothing but white space stands on the rest of the line. -/
def endsLine (s : List Char) : Bool := (skipSpaces s).head?.all (· == '\n')

/-- The target that a definition gives its label, from after the colon, and the text after it on
its last line. A title that does not end its line is no part of the definition, and then has to
stand on a line of its own. -/
def definitionTarget? (s : List Char) : Option (LinkTarget × List Char) :=
  match definitionSpace? s with
  | none => none
  | some (_, rest) =>
    match destination? deepestInDefinition rest with
    | none => none
    | some (dest, after) =>
      if after.length == rest.length then none
      else
        let untitled : LinkTarget := ⟨unescape dest, []⟩
        match definitionSpace? after with
        | none => some (untitled, after)
        | some (broken, rest) =>
          if !broken && rest.length == after.length then none
          else
            match title? rest with
            | some (title, rest) =>
              if endsLine rest then some ({ untitled with title := title }, rest)
              else if broken then some (untitled, after)
              else none
            | none => if broken then some (untitled, after) else none

end StaticSite.Markdown
