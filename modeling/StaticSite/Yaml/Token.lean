import StaticSite.Yaml.FlowScalar
/-!
# StaticSite.Yaml.Token

The tokens of a YAML text, and the reading of those that stand for themselves: anchors, aliases,
tags and directives.
-/

set_option autoImplicit false

namespace StaticSite.Yaml

/-- A token. Blocks have a start and an end although no character stands for these. -/
inductive Token where
  /-- The version of the language that a document declares. -/
  | version (major minor : Nat)
  /-- A shorthand for the start of tags. -/
  | tagHandle (handle : String) (full : List UInt8)
  | documentStart
  | documentEnd
  | blockSequenceStart
  | blockMappingStart
  | blockEnd
  | flowSequenceStart
  | flowSequenceEnd
  | flowMappingStart
  | flowMappingEnd
  | blockEntry
  | flowEntry
  | key
  | value
  | alias (name : String)
  | anchor (name : String)
  | tag (handle : String) (suffix : List UInt8)
  /-- A scalar, and whether it is written plainly. -/
  | scalar (content : String) (plain : Bool)
deriving DecidableEq, Repr, Inhabited

/-! ### Anchors -/

/-- The name after the `&` or `*` that stands here. -/
def anchorName? (c : Cursor) : Option (String × Cursor) :=
  let (name, next) := c.skip.takeWhile isWordChar
  let ends := isGapOrEnd next.peek || "?:,]\x7d%@\x60".toList.contains next.peek
  if name.isEmpty || !ends then none else some (String.ofList name, next)

/-! ### Tags -/

/-- The characters of tags beside `isWordChar`; a percent sign introduces a byte. -/
def isTagChar (c : Char) : Bool := isWordChar c || ";/?:@&=+$.!~*'()%".toList.contains c

/-- The characters of complete tags and of what shorthands stand for. -/
def isUriChar (c : Char) : Bool := isTagChar c || c == ',' || c == '[' || c == ']'

/-- The bytes of a text. -/
def bytesOf (s : String) : List UInt8 := s.toUTF8.data.toList

/-- How many bytes follow the first one of an encoded character. -/
def bytesAfter? (first : UInt8) : Option Nat :=
  if first < 0x80 then some 0
  else if first < 0xC0 then none
  else if first < 0xE0 then some 1
  else if first < 0xF0 then some 2
  else if first < 0xF8 then some 3
  else none

/-- Replaces percent signs and two hexadecimal digits by bytes. `due` tells how many bytes of the
character before are still to come; which character they encode, if one at all, does not matter. -/
def unescapeBytes? : Nat → List Char → Option (List UInt8)
  | 0, [] => some []
  | due, '%' :: a :: b :: rest => do
    let byte := UInt8.ofNat ((← Json.hexValue? a) * 16 + (← Json.hexValue? b))
    let due ← match due with
      | 0 => bytesAfter? byte
      | due + 1 => if 0x80 ≤ byte && byte < 0xC0 then some due else none
    (unescapeBytes? due rest).map (byte :: ·)
  | 0, c :: rest =>
    if c == '%' then none else (unescapeBytes? 0 rest).map (UInt8.ofNat c.toNat :: ·)
  | _ + 1, _ => none

/-- The text of a run of tag characters, as bytes. A zero byte ends it. -/
def tagText? (run : List Char) : Option (List UInt8) :=
  (unescapeBytes? 0 run).map fun bytes => bytes.takeWhile (· != 0)

/-- A shorthand at this place: an exclamation mark, perhaps with word characters and a second one
after it. -/
def takeHandle? (c : Cursor) : Option (List Char × Cursor) :=
  if c.peek != '!' then none
  else
    let (name, next) := c.skip.takeWhile isWordChar
    if next.peek == '!' then some ('!' :: name ++ ['!'], next.skip) else some ('!' :: name, next)

/-- A tag at this place. It is complete in angle brackets, or a shorthand and a suffix; the mark
alone is a suffix without a shorthand. -/
def tag? (c : Cursor) : Option (Token × Cursor) := do
  let (token, next) ←
    if c.peekAt 1 == '<' then
      let (run, next) := (c.skipMany 2).takeWhile isUriChar
      if run.isEmpty || next.peek != '>' then none
      else (tagText? run).map fun text => (Token.tag "" text, next.skip)
    else
      match takeHandle? c with
      | none => none
      | some (handle, next) =>
        let (run, next) := next.takeWhile isTagChar
        if handle.length > 1 && handle.getLast? == some '!' then
          if run.isEmpty then none
          else (tagText? run).map fun text => (Token.tag (String.ofList handle) text, next)
        else
          (tagText? run).map fun text =>
            let suffix := bytesOf (String.ofList handle.tail) ++ text
            (if suffix.isEmpty then Token.tag "" (bytesOf "!") else Token.tag "!" suffix, next)
  pure (token, next)

/-! ### Directives -/

/-- A number of at most nine digits. -/
def versionNumber? (c : Cursor) : Option (Nat × Cursor) :=
  let (digits, next) := c.takeWhile Char.isDigit
  if digits.isEmpty || digits.length > 9 then none else some (Json.digitsValue digits, next)

/-- The value of a version directive. -/
def versionDirective? (c : Cursor) : Option (Token × Cursor) := do
  let (major, c) ← versionNumber? (c.skipWhile isSpace)
  if c.peek != '.' then none
  else
    let (minor, c) ← versionNumber? c.skip
    pure (.version major minor, c)

/-- The value of a tag directive: a shorthand and what it stands for. -/
def tagDirective? (c : Cursor) : Option (Token × Cursor) := do
  let (handle, c) ← takeHandle? (c.skipWhile isSpace)
  if handle.getLast? != some '!' || !isSpace c.peek then none
  else
    let (run, c) := (c.skipWhile isSpace).takeWhile isUriChar
    if run.isEmpty || !isGapOrEnd c.peek then none
    else (tagText? run).map fun text => (.tagHandle (String.ofList handle) text, c)

/-- The directive whose percent sign stands here, and the place after its line. -/
def directive? (c : Cursor) : Option (Token × Cursor) := do
  let (name, c) := c.skip.takeWhile isWordChar
  if !isGapOrEnd c.peek then none
  else
    let (token, c) ←
      if name == "YAML".toList then versionDirective? c
      else if name == "TAG".toList then tagDirective? c
      else none
    let c := c.skipWhile isSpace
    let c := if c.peek == '#' then c.skipLine else c
    if isBreakOrEnd c.peek then some (token, c.skipBreak) else none

end StaticSite.Yaml
