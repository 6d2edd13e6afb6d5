import StaticSite.Template.Source
import StaticSite.Template.Token
/-!
# StaticSite.Template.Inclusion

Inclusion of partials. Each inclusion marker is replaced, at its own place, by the body of the
partial, which is expanded first. The chain of partials in expansion guards against cycles and
against nesting without end: an inclusion that would repeat a name of the chain, or lengthen a full
one, is left out with a warning.
-/

set_option autoImplicit false

namespace StaticSite

/-- The text of tokens, with `expandName` in the place of each inclusion marker. -/
def expandTokens (expandName : String → Session → List Char × Session) :
    List Token → Session → List Char × Session
  | [], session => ([], session)
  | .marker (.inclusion name) _ :: rest, session =>
    let (body, session) := expandName name session
    let (more, session) := expandTokens expandName rest session
    (body ++ more, session)
  | token :: rest, session =>
    let (more, session) := expandTokens expandName rest session
    (token.raw ++ more, session)

/-- The text with its partials included, where the partials of `chain` are in expansion and `room`
more may be. -/
def expandWithin (loader : Loader) :
    Nat → List String → List Char → Session → List Char × Session
  | 0, chain, source, session =>
    expandTokens
      (fun name session =>
        ([], session.warn (if name ∈ chain then .cycle name chain else .tooDeep name)))
      (tokenize source) session
  | room + 1, chain, source, session =>
    expandTokens
      (fun name session =>
        if name ∈ chain then ([], session.warn (.cycle name chain))
        else
          let (body, session) := session.loadPart loader name
          expandWithin loader room (chain ++ [name]) body session)
      (tokenize source) session

/-- The text with its partials included. -/
def expand (loader : Loader) (source : List Char) (session : Session) : List Char × Session :=
  expandWithin loader maxDepth [] source session

end StaticSite
