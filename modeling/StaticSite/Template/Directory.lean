import StaticSite.Path.Basic
import StaticSite.Template.Source
/-!
# StaticSite.Template.Directory

Where bodies are kept: page templates in the templates directory, layouts and partials in
directories of their own below it.
-/

set_option autoImplicit false

namespace StaticSite

/-- The file of a body. -/
def sourcePath (templates : Path) (kind : SourceKind) (name : String) : Path :=
  let file := Path.ofString (name ++ ".html")
  match kind with
  | .page => templates.join file
  | .layout => (templates.child "layouts").join file
  | .part => (templates.child "partials").join file

end StaticSite
