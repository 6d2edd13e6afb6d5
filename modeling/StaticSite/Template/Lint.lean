import StaticSite.Json.Printer
import StaticSite.Template.Tree
/-!
# StaticSite.Template.Lint

The wording of reports about a template. A marker is shown in quotes; the controls and the white
space beyond ASCII, which cannot be seen, are shown by their numbers.
-/

set_option autoImplicit false

namespace StaticSite.Lint

/-- The hexadecimal digits of a number, without leading zeros. -/
def hexDigits (n : Nat) : List Char := Nat.toDigits 16 n

/-- Whether a character is shown by its number: a control, or white space beyond ASCII. -/
def isInvisible (c : Char) : Bool :=
  c.toNat < 0x20 || c.toNat == 0x7F || (0x7F < c.toNat && Text.isBlank c)

/-- One character inside quotes. -/
def showChar (c : Char) : List Char :=
  if c = '"' then ['\\', '"']
  else if c = '\\' then ['\\', '\\']
  else if c = '\n' then ['\\', 'n']
  else if c = '\r' then ['\\', 'r']
  else if c = '\t' then ['\\', 't']
  else if c = '\x00' then ['\\', '0']
  else if isInvisible c then '\\' :: 'u' :: '\x7b' :: hexDigits c.toNat ++ ['\x7d']
  else [c]

/-- A marker in quotes. -/
def showRaw (raw : List Char) : List Char := '"' :: raw.flatMap showChar ++ ['"']

/-- The wording of a report. -/
def message : Lint → String
  | strayCloser raw =>
    String.ofList ("stray closing marker ".toList ++ showRaw raw ++ " left as text".toList)
  | unterminated kind raw =>
    String.ofList ("unterminated ".toList ++ kind.keyword.toList ++ " block ".toList
      ++ showRaw raw ++ " left as text".toList)

end StaticSite.Lint
