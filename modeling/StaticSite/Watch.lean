import StaticSite.Path.Basic
/-!
# StaticSite.Watch

What a changed file means for a site. Hidden files mean nothing; nor do files in the templates
directory that are no templates.
-/

set_option autoImplicit false

namespace StaticSite

/-- The places that a site is made from. -/
structure WatchPaths where
  content : Path
  templates : Path
  assets : Path
  config : Path
deriving Inhabited

/-- What has changed. -/
inductive Change where
  /-- An article, an author or a game. -/
  | content (path : Path)
  /-- A template, a layout or a partial. -/
  | template (path : Path)
  /-- A file that is copied as it is. -/
  | asset (path : Path)
  /-- The configuration. -/
  | config
deriving DecidableEq, Inhabited, Repr

namespace WatchPaths

/-- Whether a component starts with a point. -/
def isHidden (component : Component) : Bool := component.text.head? == some '.'

/-- What a change of the file at `path` means, if it means anything. -/
def classify (watched : WatchPaths) (path : Path) : Option Change :=
  if path.components.any isHidden then none
  else if path.components = watched.config.components then some .config
  else if path.startsWith watched.templates then
    if path.extension? = some "html" then some (.template path) else none
  else if path.startsWith watched.content then some (.content path)
  else if path.startsWith watched.assets then some (.asset path)
  else none

end WatchPaths

end StaticSite
