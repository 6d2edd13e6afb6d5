/-!
# StaticSite.Text.Blank

White space: the twenty-five characters with the Unicode property `White_Space`.
-/

set_option autoImplicit false

namespace StaticSite.Text

/-- Whether a character is white space. -/
def isBlank (c : Char) : Bool :=
  let n := c.toNat
  (0x9 ≤ n && n ≤ 0xD) || n == 0x20 || n == 0x85 || n == 0xA0 || n == 0x1680
    || (0x2000 ≤ n && n ≤ 0x200A) || n == 0x2028 || n == 0x2029 || n == 0x202F
    || n == 0x205F || n == 0x3000

/-- The text after leading white space. -/
def trimStart (s : List Char) : List Char := s.dropWhile isBlank

/-- The text before trailing white space. -/
def trimEnd (s : List Char) : List Char := (s.reverse.dropWhile isBlank).reverse

/-- The text between leading and trailing white space. -/
def trim (s : List Char) : List Char := trimEnd (trimStart s)

end StaticSite.Text
