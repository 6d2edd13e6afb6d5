import StaticSite.Markdown.Emphasis
import StaticSite.Markdown.Extension
import StaticSite.Markdown.Passage
import StaticSite.Markdown.Tag
/-!
# StaticSite.Markdown.RunningText

From a passage to its parts. The passage is cut into pieces from left to right; a closing bracket
makes a link or an image of the pieces since the last opening one if a target follows it, or if a
definition knows its label. No link lies in a link.
-/

set_option autoImplicit false

namespace StaticSite.Markdown

/-- What the definitions of a document say, by folded labels. -/
structure Definitions where
  links : List (List Char × LinkTarget)
  /-- The labels of the footnotes. -/
  footnotes : List (List Char)
deriving Inhabited

namespace Definitions

/-- The target of a label. Of two definitions the first counts. -/
def target? (definitions : Definitions) (label : List Char) : Option LinkTarget :=
  definitions.links.lookup (fold label)

/-- Whether there is a footnote with a label. -/
def hasFootnote (definitions : Definitions) (label : List Char) : Bool :=
  definitions.footnotes.contains (fold label)

end Definitions

/-! ### Glyphs ahead -/

/-- The characters as they are written. -/
def written (glyphs : List Glyph) : List Char := glyphs.map (·.char)

/-- The characters as they are written, without the marks of containers. -/
def unmarked (glyphs : List Glyph) : List Char :=
  written (glyphs.filter (·.role != .margin))

/-- The glyphs from where the text `rest` starts, which ends what is written. -/
def atRest (glyphs : List Glyph) (rest : List Char) : List Glyph :=
  glyphs.drop (glyphs.length - rest.length)

/-- The glyphs after a number of characters, the marks of containers not counted. -/
def afterUnmarked : Nat → List Glyph → List Glyph
  | 0, glyphs => glyphs
  | _, [] => []
  | count + 1, g :: rest =>
    if g.role == .margin then afterUnmarked (count + 1) rest else afterUnmarked count rest

/-- The glyphs from the next that is shown on. -/
def skipHidden (glyphs : List Glyph) : List Glyph := glyphs.dropWhile Glyph.isHidden

/-- The glyphs without the text that goes with the last character of a heading. -/
def skipTrail (glyphs : List Glyph) : List Glyph := glyphs.dropWhile (·.role == .trail)

/-- The character before the next one on its line, after some glyphs. -/
def lastOnLine (before : Option Char) (glyphs : List Glyph) : Option Char :=
  glyphs.foldl (fun before g =>
    match g.role with
    | .hidden | .margin => before
    | .lineBreak _ => none
    | _ => some g.char) before

/-- The glyphs after the end of a line, if they start with one. -/
def afterBreak? : List Glyph → Option (List Glyph)
  | ⟨'\r', _⟩ :: ⟨'\n', _⟩ :: rest | ⟨'\n', _⟩ :: rest | ⟨'\r', _⟩ :: rest => some rest
  | _ => none

/-- The glyphs after white space with at most one line break in it. -/
def skipSeparator (glyphs : List Glyph) : List Glyph :=
  let skip := fun (glyphs : List Glyph) => glyphs.dropWhile (isInlineSpace ·.char)
  let glyphs := skip glyphs
  match afterBreak? glyphs with
  | some rest => skip (rest.dropWhile (·.role == .margin))
  | none => glyphs

/-! ### Targets -/

/-- The characters of a title up to its closing mark, and the glyphs after it. At the end of a line
it goes on with the next character that is shown. -/
def titleAhead? (opening closing : Char) : Nat → List Glyph → Option (List Char × List Glyph)
  | 0, _ => none
  | _, [] => none
  | fuel + 1, g :: rest =>
    let go := fun (s : List Char) (rest : List Glyph) =>
      (titleAhead? opening closing fuel rest).map fun (title, after) => (s ++ title, after)
    match g.role with
    | .lineBreak _ => go ['\n'] (skipHidden rest)
    | _ =>
      if g.char == closing then some ([], rest)
      else if g.char == opening then none
      else if g.char == '&' then
        match entity? (written (g :: rest)) with
        | some (value, after) => go value (atRest rest after)
        | none => go [g.char] rest
      else if g.char == '\\' then
        match rest with
        | d :: more =>
          if isAsciiPunctuation d.char then go [d.char] more else go [g.char] rest
        | [] => none
      else go [g.char] rest

/-- A destination or a label in a table, where the escapes of bars are gone. -/
def withoutBarEscapes : List Char → List Char
  | '\\' :: '|' :: rest => '|' :: withoutBarEscapes rest
  | c :: rest => c :: withoutBarEscapes rest
  | [] => []

/-- The target in parentheses that comes next, and the glyphs after it. -/
def inlineTarget? (inTable : Bool) (glyphs : List Glyph) : Option (LinkTarget × List Glyph) :=
  match glyphs with
  | ⟨'(', _⟩ :: rest =>
    let rest := skipSeparator rest
    match destination? deepestInLink (written rest) with
    | none => none
    | some (dest, after) =>
      let rest := skipSeparator (atRest rest after)
      let titled := match rest with
        | [] => none
        | g :: more =>
          (titleEnd? g.char).bind fun closing => titleAhead? g.char closing more.length more
      let (title, rest) := match titled with
        | some (title, rest) => (title, skipSeparator rest)
        | none => ([], rest)
      match rest with
      | ⟨')', _⟩ :: rest =>
        some (⟨unescape (if inTable then withoutBarEscapes dest else dest), title⟩, rest)
      | _ => none
  | _ => none

/-! ### Fragments -/

/-- A piece of running text, or a bracket that may open a link or an image. -/
inductive Fragment where
  | piece (piece : Piece)
  /-- `after` is what follows the bracket; a bracket that is not `active` opens nothing. -/
  | bracket (image : Bool) (active : Bool) (after : List Glyph)
deriving Inhabited

namespace Fragment

/-- A part of the text. -/
def ofInline (inline : Inline) : Fragment := .piece (.done inline)

/-- Characters that stand for themselves. -/
def ofText (s : List Char) : Fragment := ofInline (.text s)

/-- The end of a line. -/
def ofBreak : LineBreak → Fragment
  | .soft => ofInline .softBreak
  | .hard => ofInline .hardBreak
  | .escaped => .piece .escapedBreak

/-- The bracket as text. -/
def literalBracket (image : Bool) : Fragment := ofText (if image then ['!', '['] else ['['])

/-- The fragment with a bracket made text. -/
def withoutBracket : Fragment → Fragment
  | .bracket image _ _ => literalBracket image
  | fragment => fragment

/-- The fragment with a bracket for a link made unable to open one. -/
def withoutLink : Fragment → Fragment
  | .bracket false _ after => .bracket false false after
  | fragment => fragment

/-- The piece that the fragment is at last. -/
def toPiece : Fragment → Piece
  | .piece p => p
  | .bracket image _ _ => .done (.text (if image then ['!', '['] else ['[']))

end Fragment

/-- The nearest bracket, given the fragments in reverse order: the fragments after it, in order,
the bracket, and the fragments before it, in reverse order. -/
def lastBracket? (later : List Fragment) :
    List Fragment → Option (List Fragment × (Bool × Bool × List Glyph) × List Fragment)
  | [] => none
  | .bracket image active after :: rest => some (later, (image, active, after), rest)
  | fragment :: rest => lastBracket? (fragment :: later) rest

/-- The parts that fragments stand for. Where marks are looked for, which `marked` tells, a
backslash at the end makes no break. -/
def partsOf (marked : Bool) (fragments : List Fragment) : List Inline :=
  let pieces := fragments.map Fragment.toPiece
  match pieces.getLast? with
  | some .escapedBreak =>
    pairMarks (if marked then pieces.dropLast ++ [.done (.text ['\\'])] else pieces)
  | _ => pairMarks pieces

/-- Whether a fragment is a run that may open or close emphasis. -/
def Fragment.isRun : Fragment → Bool
  | .piece (.run _) => true
  | _ => false

/-! ### Code -/

/-- The text up to a run of exactly `length` backticks, and the text after the run. -/
def codeUntil? (length : Nat) : Nat → List Char → Option (List Char × List Char)
  | 0, _ => none
  | _, [] => none
  | fuel + 1, c :: rest =>
    if c == '\x60' then
      let run := (c :: rest).takeWhile (· == '\x60')
      let after := (c :: rest).dropWhile (· == '\x60')
      if run.length == length then some ([], after)
      else (codeUntil? length fuel after).map fun (code, after) => (run ++ code, after)
    else (codeUntil? length fuel rest).map fun (code, after) => (c :: code, after)

/-- The characters of a code span. Each character that ends a line is a space, and the marks of
containers after it are left out, as are the escapes of bars in a table. -/
def codeText (containers : List Container) (inTable : Bool) : Nat → List Char → List Char
  | 0, _ => []
  | _, [] => []
  | fuel + 1, '\\' :: '|' :: rest =>
    if inTable then '|' :: codeText containers inTable fuel rest
    else '\\' :: codeText containers inTable fuel ('|' :: rest)
  | fuel + 1, c :: rest =>
    if isLineEnd c then
      let line := rest.takeWhile (!isLineEnd ·)
      let (_, m) := continueAll containers (Margin.start line)
      ' ' :: codeText containers inTable fuel (rest.drop (line.length - m.rest.length))
    else c :: codeText containers inTable fuel rest

/-- The content of a code span: a space at each end is left out unless there is nothing else. -/
def codeContent (containers : List Container) (inTable : Bool) (s : List Char) : List Char :=
  let s := codeText containers inTable (s.length + 1) s
  if s.head? == some ' ' && s.getLast? == some ' ' && !s.all (· == ' ') then s.tail.dropLast else s

/-! ### Brackets

A closing bracket goes back to the last opening one. It makes a link or an image of what is in
between if a target in parentheses follows, or if a label with a definition does; if no label
follows, what is in between is the label. -/

/-- What follows a closing bracket: a label of its own, an empty one, or neither. -/
inductive Reference where
  | full (label : List Char) (after : List Glyph)
  | collapsed (after : List Glyph)
  | shortcut

/-- The label of a footnote that starts the text after an opening bracket. -/
def footnoteAhead? (footnotes inTable : Bool) (s : List Char) : Option (List Char × List Char) :=
  match s with
  | '^' :: c :: rest =>
    if footnotes && c != ']' then footnoteLabel? inTable (c :: rest) else none
  | _ => none

/-- The label in the text between the brackets at its ends, if it is one, and whether it is the
label of a footnote. -/
def wholeLabel? (footnotes inTable : Bool) (s : List Char) : Option (Bool × List Char) :=
  match footnoteAhead? footnotes inTable s with
  | some (label, rest) => if rest.isEmpty then some (true, label) else none
  | none =>
    match label? inTable s with
    | some (label, []) => some (false, label)
    | _ => none

/-- What follows a closing bracket. It starts with the next character that is shown. -/
def reference (footnotes inTable : Bool) (glyphs : List Glyph) : Reference :=
  let glyphs := skipHidden glyphs
  if !(glyphs.head?.any Glyph.isShown) then .shortcut
  else
    match unmarked glyphs with
    | '[' :: ']' :: _ => .collapsed (afterUnmarked 2 glyphs)
    | '[' :: rest =>
      if (footnoteAhead? footnotes inTable rest).isSome then .shortcut
      else
        match label? inTable rest with
        | some (label, after) =>
          .full label (afterUnmarked (rest.length + 1 - after.length) glyphs)
        | none => .shortcut
    | _ => .shortcut

/-- What the brackets so far leave for later ones. -/
structure Outlook where
  /-- Where a closing bracket stands that ends no reference, by the number of glyphs after it. -/
  blocked : Option Nat
  /-- How many bytes the targets of references may still take. -/
  allowance : Nat

/-- How many bytes the targets of references may take in a document. A target that starts within
the bound counts, however long it is. -/
def initialAllowance (s : List Char) : Nat := max (String.ofList s).utf8ByteSize 100000

/-- The number of bytes of a target. -/
def LinkTarget.size (target : LinkTarget) : Nat :=
  (String.ofList target.destination).utf8ByteSize + (String.ofList target.title).utf8ByteSize

namespace Outlook

/-- The target of a label, and what it leaves. Nothing is found once the allowance is used up. -/
def target? (outlook : Outlook) (definitions : Definitions) (label : List Char) :
    Option (LinkTarget × Outlook) :=
  if outlook.allowance = 0 then none
  else (definitions.target? label).map fun target =>
    (target, { outlook with allowance := outlook.allowance - target.size })

end Outlook

/-- What a closing bracket makes of the fragments before it, in reverse order, and the glyphs after
what it makes. -/
def closeBracket (extensions : Extensions) (definitions : Definitions) (inTable : Bool)
    (outlook : Outlook) (fragments : List Fragment) (rest : List Glyph) :
    List Fragment × List Glyph × Outlook :=
  let plain := (Fragment.ofText [']'] :: fragments, rest, outlook)
  match lastBracket? [] fragments with
  | none => plain
  | some (inside, (image, active, after), before) =>
    let failed := fun (outlook : Outlook) =>
      (Fragment.ofText [']'] :: inside.reverse ++ Fragment.literalBracket image :: before, rest,
        outlook)
    if !active || rest.head?.any (·.role == .trail) then failed outlook
    else
      let make := fun (target : LinkTarget) (outlook : Outlook) (rest : List Glyph) =>
        let content := partsOf (inside.any Fragment.isRun) inside
        if image then (Fragment.ofInline (.image target content) :: before, rest, outlook)
        else
          (Fragment.ofInline (.link target content) :: before.map Fragment.withoutLink, rest,
            outlook)
      match inlineTarget? inTable rest with
      | some (target, rest) => make target outlook rest
      | none =>
        let isBlocked := outlook.blocked == some rest.length
        let byContent := fun (linkRest : List Glyph) =>
          if isBlocked then failed outlook
          else
            let inner := unmarked (after.take (after.length - rest.length))
            match wholeLabel? extensions.footnotes inTable inner with
            | some (true, label) =>
              if definitions.hasFootnote label then
                let mark := if image then [Fragment.ofText ['!']] else []
                (Fragment.ofInline (.footnoteReference label) ::
                  mark ++ before.map Fragment.withoutBracket, rest, outlook)
              else failed outlook
            | some (false, label) =>
              match outlook.target? definitions label with
              | some (target, outlook) => make target outlook (skipTrail linkRest)
              | none => failed outlook
            | none => failed outlook
        match reference extensions.footnotes inTable rest with
        | .full label after =>
          match outlook.target? definitions label with
          | some (target, outlook) => make target outlook (skipTrail after)
          | none => failed { outlook with blocked := some after.length }
        | .collapsed after => byContent after
        | .shortcut => byContent rest

/-! ### Scanning

The glyphs are gone through from left to right. What is found is put in front of the fragments so
far, and a closing bracket may take some of these away again. -/

/-- Whether a character may mean more than itself. -/
def isSpecial (strikethrough : Bool) (c : Char) : Bool :=
  c == '*' || c == '_' || c == '\x60' || c == '<' || c == '!' || c == '[' || c == ']' ||
  c == '&' || (strikethrough && c == '~')

/-- What an angle bracket starts, and the glyphs after it: an address or HTML. -/
def angleBracket? (glyphs : List Glyph) : Option (Inline × List Glyph) :=
  if !(glyphs.head?.any Glyph.isShown) then none
  else
    let s := written glyphs
    let link := fun (scheme address : List Char) =>
      Inline.link ⟨scheme ++ address, []⟩ [.text address]
    match address? s with
    | some (address, after) => some (link [] address, atRest glyphs after)
    | none =>
      match mailAddress? s with
      | some (address, after) => some (link "mailto:".toList address, atRest glyphs after)
      | none =>
        match markup? s with
        | some after =>
          some (.html ('<' :: s.take (s.length - after.length)), atRest glyphs after)
        | none =>
          let s := unmarked glyphs
          (tag? true s).map fun after =>
            let length := s.length - after.length
            (.html ('<' :: s.take length), afterUnmarked length glyphs)

/-- Cuts glyphs into fragments, in reverse order in front of `fragments`, and tells how much of the
allowance is left. `before` is the character before them on their line. -/
def scanText (extensions : Extensions) (definitions : Definitions) (passage : Passage) :
    Nat → Outlook → Option Char → List Fragment → List Glyph → List Fragment × Nat
  | 0, outlook, _, fragments, _ => (fragments, outlook.allowance)
  | _, outlook, _, fragments, [] => (fragments, outlook.allowance)
  | fuel + 1, outlook, before, fragments, ⟨c, role⟩ :: rest =>
    let scan := scanText extensions definitions passage fuel
    let literal := fun (_ : Unit) => scan outlook (some c) (Fragment.ofText [c] :: fragments) rest
    let jump := fun (outlook : Outlook) (fragments : List Fragment) (after : List Glyph) =>
      scan outlook (lastOnLine (some c) (rest.take (rest.length - after.length))) fragments after
    match role with
    | .hidden | .margin => scan outlook before fragments rest
    | .beyond => (fragments, outlook.allowance)
    | .lineBreak kind => scan outlook none (Fragment.ofBreak kind :: fragments) rest
    | .literal | .trail => literal ()
    | .plain =>
      if !isSpecial extensions.strikethrough c then
        let isText := fun (g : Glyph) =>
          g.role == .plain && !isSpecial extensions.strikethrough g.char
        let run := c :: written (rest.takeWhile isText)
        scan outlook run.getLast? (Fragment.ofText run :: fragments) (rest.dropWhile isText)
      else if c == '*' || c == '_' || c == '~' then
        let isSame := fun (g : Glyph) => g.role == .plain && g.char == c
        let length := 1 + (rest.takeWhile isSame).length
        let after := rest.dropWhile isSame
        let run := Run.ofContext c length before (after.head?.map (·.char))
        if (run.canOpen || run.canClose) && (c != '~' || length ≤ 2) then
          let trail := written (after.takeWhile (·.role == .trail))
          let fragments := .piece (.run run) :: fragments
          scan outlook (some c)
            (if trail.isEmpty then fragments else .piece (.trail trail) :: fragments)
            (skipTrail after)
        else scan outlook (some c) (Fragment.ofInline (Pairing.literal c length) :: fragments) after
      else if c == '\x60' then
        let length := 1 + (rest.takeWhile (·.char == c)).length
        let after := rest.dropWhile (·.char == c)
        let isRead := fun (g : Glyph) => g.role != .trail && g.role != .beyond
        let s := written (after.takeWhile isRead)
        match codeUntil? length (s.length + 1) s with
        | some (code, more) =>
          let code := codeContent passage.containers passage.inTable code
          jump outlook (Fragment.ofInline (.code code) :: fragments)
            (skipTrail (after.drop (s.length - more.length)))
        | none =>
          scan outlook (some c) (Fragment.ofText (List.replicate length c) :: fragments) after
      else if c == '<' then
        match angleBracket? rest with
        | some (inline, after) => jump outlook (Fragment.ofInline inline :: fragments) after
        | none => literal ()
      else if c == '&' then
        match entity? (c :: written rest) with
        | some (value, after) =>
          jump outlook (Fragment.ofText value :: fragments) (skipTrail (atRest rest after))
        | none => literal ()
      else if c == '!' then
        match rest with
        | ⟨'[', .plain⟩ :: after =>
          scan outlook (some '[') (.bracket true true after :: fragments) after
        | _ => literal ()
      else if c == '[' then scan outlook (some c) (.bracket false true rest :: fragments) rest
      else
        let (fragments, after, outlook) :=
          closeBracket extensions definitions passage.inTable outlook fragments rest
        jump outlook fragments after

/-- Whether a mark other than one of emphasis stands among these glyphs. -/
def hasMark : List Glyph → Bool
  | [] => false
  | ⟨c, role⟩ :: rest =>
    (match role with
      | .plain =>
        c == '[' || c == ']' || c == '\x60' || (c == '<' && !(rest.head?.any (·.char == '\\')))
      | .literal => c == '\x60'
      | _ => false) || hasMark rest

/-- The parts of a passage, and how much it leaves of the allowance for the targets of
references. -/
def runningText (extensions : Extensions) (definitions : Definitions) (allowance : Nat)
    (passage : Passage) : List Inline × Nat :=
  let glyphs := passage.glyphs
  let (fragments, left) :=
    scanText extensions definitions passage (glyphs.length + 1) ⟨none, allowance⟩ none [] glyphs
  let fragments := fragments.reverse
  let marked := fragments.any Fragment.isRun || hasMark glyphs
  ((passage.task.map Inline.checkbox).toList ++ partsOf marked fragments, left)

end StaticSite.Markdown
