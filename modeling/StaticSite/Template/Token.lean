import StaticSite.Template.Marker
/-!
# StaticSite.Template.Token

A template as a sequence of tokens: markers, and the text between them. The raw texts of the
tokens, one after the other, are the template. A marker starts at the first place where one can be
read; where none can be, the next place is tried, so that a marker may start inside of braces that
are ordinary text.
-/

set_option autoImplicit false

namespace StaticSite

/-- A piece of a template. -/
inductive Token where
  /-- Ordinary text. -/
  | text (raw : List Char)
  /-- A marker, and how it is written. -/
  | marker (marker : Marker) (raw : List Char)
deriving DecidableEq, Inhabited, Repr

namespace Token

/-- The piece as it is written. -/
def raw : Token → List Char
  | text raw => raw
  | marker _ raw => raw

/-- A text token for characters collected in reverse order, in front of `tokens`; no token for no
characters. -/
def flush (collected : List Char) (tokens : List Token) : List Token :=
  match collected with
  | [] => tokens
  | _ :: _ => text collected.reverse :: tokens

/-- The tokens of a text. `skip` characters belong to a marker that has been read already, and
`collected` holds the ordinary text before this place in reverse order. -/
def scan (skip : Nat) (collected : List Char) : List Char → List Token
  | [] => flush collected []
  | c :: rest =>
    match skip with
    | skip + 1 => scan skip collected rest
    | 0 =>
      match Marker.read? (c :: rest) with
      | some (m, after) =>
        let length := (c :: rest).length - after.length
        flush collected (marker m ((c :: rest).take length) :: scan (length - 1) [] rest)
      | none => scan 0 (c :: collected) rest

end Token

/-- The tokens of a template. -/
def tokenize (source : List Char) : List Token := Token.scan 0 [] source

end StaticSite
