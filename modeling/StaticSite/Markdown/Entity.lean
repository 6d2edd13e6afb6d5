import StaticSite.Markdown.EntityTable
import StaticSite.Markdown.Punctuation
import StaticSite.Number.Numeral
import StaticSite.Text.Split
/-!
# StaticSite.Markdown.Entity

Character references, by number or by name, and backslash escapes: the ways to write a character
so that it has no other meaning.
-/

set_option autoImplicit false

namespace StaticSite.Markdown

/-- The names in the table and what they stand for. -/
def pairUp : List (List Char) → List (String × List Char)
  | name :: codes :: rest =>
    let value := (Text.splitAtEach (· == '+') codes).filterMap fun code =>
      (naturalIn? 16 code).map Char.ofNat
    (String.ofList name, value) :: pairUp rest
  | _ => []

/-- The named character references. -/
def namedEntities : List (String × List Char) :=
  pairUp ((Text.splitAtEach (fun c => c == ' ' || c == '\n') entityTable.toList).filter
    (!·.isEmpty))

/-- The character with a code point. What is no character, and NUL, is replaced. -/
def charOfCode (n : Nat) : Char :=
  if n = 0 ∨ !n.isValidChar then '\ufffd' else Char.ofNat n

/-- A number of at most `most` digits with a semicolon after it. -/
def numericEntity? (base most : Nat) (s : List Char) : Option (List Char × List Char) :=
  let digits := (s.take most).takeWhile fun c => (digitValue? base c).isSome
  match naturalIn? base digits, s.drop digits.length with
  | some n, ';' :: rest => some ([charOfCode n], rest)
  | _, _ => none

/-- ASCII letters and digits. -/
def isAlphanumeric (c : Char) : Bool :=
  ('a' ≤ c && c ≤ 'z') || ('A' ≤ c && c ≤ 'Z') || ('0' ≤ c && c ≤ '9')

/-- The reference whose ampersand starts the text: the characters it stands for, and the text after
it. -/
def entity? (s : List Char) : Option (List Char × List Char) :=
  match s with
  | '&' :: '#' :: 'x' :: rest | '&' :: '#' :: 'X' :: rest => numericEntity? 16 6 rest
  | '&' :: '#' :: rest => numericEntity? 10 7 rest
  | '&' :: rest =>
    match rest.dropWhile isAlphanumeric with
    | ';' :: after =>
      (namedEntities.lookup (String.ofList (rest.takeWhile isAlphanumeric))).map fun value =>
        (value, after)
    | _ => none
  | _ => none

/-- The text with escapes and references replaced; `fuel` bounds its length. -/
def unescapeWith : Nat → List Char → List Char
  | 0, s => s
  | _, [] => []
  | fuel + 1, '\r' :: rest => unescapeWith fuel rest
  | fuel + 1, '\\' :: c :: rest =>
    if isAsciiPunctuation c then c :: unescapeWith fuel rest
    else '\\' :: unescapeWith fuel (c :: rest)
  | fuel + 1, '&' :: rest =>
    match entity? ('&' :: rest) with
    | some (value, after) => value ++ unescapeWith fuel after
    | none => '&' :: unescapeWith fuel rest
  | fuel + 1, c :: rest => c :: unescapeWith fuel rest

/-- The text with escapes and references replaced, and without carriage returns. -/
def unescape (s : List Char) : List Char := unescapeWith s.length s

end StaticSite.Markdown
