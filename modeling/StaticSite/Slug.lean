import StaticSite.Text.Case
/-!
# StaticSite.Slug

Slugs: names as they stand in addresses. A slug is written in lower-case ASCII letters and digits;
every run of other characters between two of them becomes one dash, and those at either end
vanish.
-/

set_option autoImplicit false

namespace StaticSite.Slug

/-- The characters that a slug keeps. -/
def isKept (c : Char) : Bool := ('a' ≤ c && c ≤ 'z') || ('0' ≤ c && c ≤ '9')

/-- The slug of text in lower case. `started` says that a character has been kept before, and
`pending` that others have been skipped since. -/
def scan (started pending : Bool) : List Char → List Char
  | [] => []
  | c :: rest =>
    if isKept c then
      if started && pending then '-' :: c :: scan true false rest else c :: scan true false rest
    else scan started true rest

/-- The characters of the slug of a text. -/
def ofChars (s : List Char) : List Char := scan false false (Text.lower s)

end StaticSite.Slug

namespace StaticSite

/-- The slug of a name. -/
def slugify (name : String) : String := String.ofList (Slug.ofChars name.toList)

end StaticSite
