import StaticSite.Config.Validation
import StaticSite.FileTree.Walk
import StaticSite.Text.Decoding
/-!
# StaticSite.Config.File

The file of a configuration. If there is none at its path, the path with an extension added is
tried; if there is none at all, every setting has its default. Paths in it are seen from the
directory that the path names, also if the file is missing.
-/

set_option autoImplicit false

namespace StaticSite

/-- The name of the file, if none is given. -/
def defaultConfigFile : String := "tofu.yaml"

/-- The extensions that are tried. -/
def configExtensions : List String := [".yaml", ".yml"]

/-- The path with something added to the name at its end. -/
def Path.appendToName (p : Path) (suffix : String) : Path :=
  match p.fileName?, p.parent? with
  | some name, some parent => parent.child (name ++ suffix)
  | _, _ => p

/-- The paths at which the file may be, the first of which counts. -/
def configCandidates (p : Path) : List Path := p :: configExtensions.map p.appendToName

/-- The text of a file, without the mark that says in which order its bytes are. -/
def documentText (content : ByteArray) : List Char :=
  match Text.decode content with
  | '\ufeff' :: text => text
  | text => text

/-- The document of a configuration, if there is one. -/
def FileTree.configDocument? (tree : FileTree) (p : Path) : Option (List Char) :=
  (configCandidates p).findSome? fun candidate =>
    match tree.read candidate with
    | .ok content => some (documentText content)
    | .error _ => none

/-- Loads the configuration whose file has an absolute path. -/
def Config.ofFile (tree : FileTree) (p : Path) (environment : Environment) :
    Except ConfigError Config :=
  Config.load p.directory (tree.configDocument? p) environment

end StaticSite
