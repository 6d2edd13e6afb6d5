import StaticSite.Yaml.Modern.Cursor
import StaticSite.Yaml.Token
/-!
# StaticSite.Yaml.Modern.Token

Anchors, tags and directives. An unknown directive is no error; it stands for a shorthand without a
name.
-/

set_option autoImplicit false

namespace StaticSite.Yaml.Modern

/-- The characters of anchors: all but white space and the indicators of flow collections. -/
def isAnchorChar (c : Char) : Bool :=
  !(isGapOrEnd c || isFlowIndicator c || c == '\ufeff')

/-- The name after the `&` or `*` that stands here. -/
def anchorName? (c : Cursor) : Option (String × Cursor) :=
  let (name, next) := c.skip.takeWhile isAnchorChar
  if name.isEmpty then none else some (String.ofList name, next)

/-! ### Tags -/

/-- The characters of complete tags and of what shorthands stand for. -/
def isUriChar (c : Char) : Bool := isWordChar c || "#;/?:@&=+$,_.!~*'()[]%".toList.contains c

/-- The characters of tags after their shorthand. -/
def isTagChar (c : Char) : Bool := isUriChar c && !isFlowIndicator c && c != '!'

/-- Replaces percent signs and two hexadecimal digits by the characters with these codes. A code
from C0 to DF is only the high half of a character, whose low half is the code after it, from 80 to
BF. -/
def unescape? : Option Nat → List Char → Option (List Char)
  | none, [] => some []
  | high?, '%' :: a :: b :: rest => do
    let code := (← Json.hexValue? a) * 16 + (← Json.hexValue? b)
    match high? with
    | some high =>
      if code < 0x80 || 0xC0 ≤ code then none
      else
        let char ← charOf? (high * 256 + code)
        (unescape? none rest).map (char :: ·)
    | none =>
      if code < 0x80 then (unescape? none rest).map (Char.ofNat code :: ·)
      else if 0xC0 ≤ code && code < 0xE0 then unescape? (some code) rest
      else none
  | none, c :: rest => if c == '%' then none else (unescape? none rest).map (c :: ·)
  | some _, _ => none

/-- The text of a run of tag characters, as bytes. -/
def tagText? (run : List Char) : Option (List UInt8) :=
  (unescape? none run).map fun text => bytesOf (String.ofList text)

/-- A tag at this place. It is complete in angle brackets, or a shorthand and a suffix; the mark
alone is a suffix without a shorthand. White space or, inside a flow collection, an indicator has
to follow. -/
def tag? (inFlow : Bool) (c : Cursor) : Option (Token × Cursor) := do
  let (token, next) ←
    if c.peekAt 1 == '<' then
      let (run, next) := (c.skipMany 2).takeWhile isUriChar
      if next.peek != '>' then none
      else (tagText? run).map fun text => (Token.tag "" text, next.skip)
    else
      match takeHandle? c with
      | none => none
      | some (handle, next) =>
        let (run, next) := next.takeWhile isTagChar
        if handle.length > 1 && handle.getLast? == some '!' then
          if run.isEmpty then none
          else (tagText? run).map fun text => (Token.tag (String.ofList handle) text, next)
        else
          (tagText? run).map fun text =>
            let suffix := bytesOf (String.ofList handle.tail) ++ text
            (if suffix.isEmpty then Token.tag "" (bytesOf "!") else Token.tag "!" suffix, next)
  if isGapOrEnd next.peek || (inFlow && isFlowIndicator next.peek) then some (token, next)
  else none

/-! ### Directives -/

/-- The value of a tag directive: a shorthand, and after it what it stands for. -/
def tagDirective? (c : Cursor) : Option (Token × Cursor) := do
  let (handle, c) ← takeHandle? (c.skipWhile isSpace)
  let c := c.skipWhile isSpace
  let (run, c) := c.takeWhile isUriChar
  let starts := run.head?.any fun first => first == '!' || isTagChar first
  if handle.getLast? != some '!' || !starts || !isGapOrEnd c.peek then none
  else (tagText? run).map fun text => (.tagHandle (String.ofList handle) text, c)

/-- The directive whose percent sign stands here, and the place after its line. -/
def directive? (c : Cursor) : Option (Token × Cursor) := do
  let (name, c) := c.skip.takeWhile isWordChar
  if name.isEmpty || !isGapOrEnd c.peek then none
  else
    let (token, c) ←
      if name == "YAML".toList then versionDirective? c
      else if name == "TAG".toList then tagDirective? c
      else some (.tagHandle "" [], skipLine c)
    let c ← emptyLine? c
    some (token, if isBreak c.peek then c.skipBreak else c)

end StaticSite.Yaml.Modern
