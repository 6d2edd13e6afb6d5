import StaticSite.Text.Blank
import StaticSite.Text.Split
import StaticSite.Yaml.Document
/-!
# StaticSite.Content.FrontMatter

Front matter: a YAML mapping in front of a body, between a line that starts the text with three
dashes and the next line that starts with three.

* `FrontMatter.split` cuts the text into the YAML text and the body. White space before the text
  and empty lines before the body are left out.
* `FrontMatter.ofYaml` reads the YAML text. What is not a mapping with names that JSON can hold
  counts as no front matter.
-/

set_option autoImplicit false

namespace StaticSite.FrontMatter

/-- Whether a character belongs to the end of a line. -/
def isLineEnd (c : Char) : Bool := c == '\r' || c == '\n'

/-- The line that stands before and after front matter. -/
def fence : List Char := "---".toList

/-- Cuts a text into the YAML text of its front matter, if it has front matter, and its body. -/
def split (text : List Char) : Option (List Char) × List Char :=
  let text := Text.trimStart text
  match Text.dropStart? fence text with
  | none => (none, text)
  | some inner =>
    match Text.cutAt? ('\n' :: fence) inner with
    | none => (none, text)
    | some (yaml, rest) =>
      let body := match Text.cutAt? ['\n'] rest with
        | some (_, body) => body.dropWhile isLineEnd
        | none => []
      (some (yaml.dropWhile isLineEnd), body)

/-- The names and values of a YAML text. -/
def ofYaml (yaml : List Char) : Fields Json :=
  match (Yaml.parse? yaml).bind Yaml.toJson? with
  | some (.object fields) => fields
  | _ => []

/-- The front matter of a text and its body. -/
def parse (text : List Char) : Fields Json × List Char :=
  let (yaml, body) := split text
  ((yaml.map ofYaml).getD [], body)

end StaticSite.FrontMatter
