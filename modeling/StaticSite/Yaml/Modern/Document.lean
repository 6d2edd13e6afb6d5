import StaticSite.Yaml.Modern.TokenStream
import StaticSite.Yaml.Node
/-!
# StaticSite.Yaml.Modern.Document

The only document of a text, from its tokens. Nodes are read as in the earlier form of the language;
what differs is what may stand before a document. Of several tag directives only the last counts,
and only if no other directive follows it.
-/

set_option autoImplicit false

namespace StaticSite.Yaml.Modern

/-- Reads the directives before a document, and gives the shorthand that the last one defines. The
version may be given once. -/
def directives? : Bool → Node.Handles → List Token → Option (Node.Handles × List Token)
  | versioned, _, .version _ _ :: rest => if versioned then none else directives? true [] rest
  | versioned, _, .tagHandle handle full :: rest => directives? versioned [(handle, full)] rest
  | _, handles, rest => some (handles, rest)

/-- The only document of a text, if there is one, from the tokens of the text. -/
def ofTokens? (tokens : List Token) : Option (Option (Node String)) := do
  let tokens := tokens.dropWhile (· == .documentEnd)
  if tokens.isEmpty then some none
  else
    let (handles, rest) ← directives? false [] tokens
    let (root, rest) ← Node.root? handles (tokens.length == rest.length) rest
    if rest.all (· == .documentEnd) then some (some root) else none

/-- The only document of a text, if there is one. -/
def document? (s : List Char) : Option (Option (Node String)) := (tokens? s).bind ofTokens?

end StaticSite.Yaml.Modern
