/-!
# StaticSite.Text.Case

Letter case, as far as it decides which ASCII letters a text has. Besides the ASCII capitals only
two characters have an ASCII letter in their lower case: the Kelvin sign and the capital I with a
dot. Every other character is left alone, since its lower case holds no ASCII letter.
-/

set_option autoImplicit false

namespace StaticSite.Text

/-- The lower case of a character. -/
def lowerChar (c : Char) : List Char :=
  if 'A' ≤ c ∧ c ≤ 'Z' then [Char.ofNat (c.toNat + 32)]
  else if c = '\u212A' then ['k']
  else if c = '\u0130' then ['i', '\u0307']
  else [c]

/-- The lower case of a text. -/
def lower (s : List Char) : List Char := s.flatMap lowerChar

/-- Equality up to the case of ASCII letters. -/
def equalIgnoringCase (a b : List Char) : Bool := a.map Char.toLower == b.map Char.toLower

end StaticSite.Text
