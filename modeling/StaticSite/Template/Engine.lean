import StaticSite.Template.Evaluation
import StaticSite.Template.Inclusion
/-!
# StaticSite.Template.Engine

Rendering a page: its template is expanded and evaluated on its own, the result takes the place of
every plain `content` marker of the layout, and the whole is expanded and evaluated again. Without
a layout the page is what its template shows.
-/

set_option autoImplicit false

namespace StaticSite

/-- The layout of a page that names none. -/
def defaultLayout : String := "default"

/-- The entries of the navigation. -/
def navigationPages : List String := ["about", "articles", "games", "guides", "home"]

/-- The navigation entry of a page: it is known for six templates, and any page about an article
belongs to the articles. -/
def activePage? (template : String) (context : Value) : Option String :=
  if template = "index" then some "home"
  else if template = "article" ∨ template = "news" then some "articles"
  else if template = "guides" then some "guides"
  else if template = "games" then some "games"
  else if template = "about" then some "about"
  else if (context.get? "article").any Value.isTruthy then some "articles"
  else none

/-- For each navigation entry, whether the page belongs to it. -/
def currentPage (template : String) (context : Value) : Fields Value :=
  navigationPages.map fun page => (page, .bool (activePage? template context = some page))

/-- The context of a page, with the navigation flags at `site.currentPage`. -/
def withCurrentPage (template : String) (context : Value) : Value :=
  let fields := context.fields?.getD []
  let site := ((Fields.get? fields "site").bind Value.fields?).getD []
  .mapping <| Fields.set fields "site" <|
    .mapping (Fields.set site "currentPage" (.mapping (currentPage template context)))

/-- Whether a token is a plain `content` marker. -/
def Token.isContent : Token → Bool
  | marker (.interpolation path none) _ => path == "content"
  | _ => false

/-- The layout with a page in the place of every plain `content` marker. -/
def injectContent (layout page : List Char) : List Char :=
  (tokenize layout).flatMap fun token => if token.isContent then page else token.raw

/-- Why a page could not be rendered. -/
structure RenderError where
  template : String
  cause : LoadError
deriving DecidableEq, Inhabited, Repr

/-- The wording of a failure, given the wording of what went wrong with a file. -/
def RenderError.message (wording : IoError → String) (e : RenderError) : String :=
  "cannot render '" ++ e.template ++ "': " ++ e.cause.message wording

/-- Expands and evaluates a text. -/
def showSource (loader : Loader) (source : List Char) (context : Value) (session : Session) :
    List Char × Session :=
  let (expanded, session) := expand loader source session
  (substitute expanded context, session)

/-- Renders a page inside a layout. -/
def render (loader : Loader) (template : String) (context : Value) (layout : String)
    (session : Session) : Except RenderError (List Char) × Session :=
  let context := withCurrentPage template context
  match session.load loader .page template with
  | (.error e, session) => (.error ⟨template, e⟩, session)
  | (.ok source, session) =>
    let (page, session) := showSource loader source context session
    match session.load loader .layout layout with
    | (.error _, session) => (.ok page, session)
    | (.ok layoutSource, session) =>
      let (html, session) := showSource loader (injectContent layoutSource page) context session
      (.ok html, session)

end StaticSite
