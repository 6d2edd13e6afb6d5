import StaticSite.Config.Basic
import StaticSite.Config.Document
import StaticSite.Config.Environment
/-!
# StaticSite.Config.Validation

A build removes its output directory first, so this may not hold any of the sources.
`SitePaths.validate` refuses paths for which it would: an output that is, or contains, the directory
of the site or one of the three source directories, by the text of the paths alone.

`Config.load` reads a configuration from its document and the environment, and validates it.
-/

set_option autoImplicit false

namespace StaticSite

/-- A directory that holds sources. -/
inductive SourcePlace where
  /-- The directory of the configuration. -/
  | site
  | content
  | templates
  | assets
deriving DecidableEq, Inhabited, Repr

/-- Why there is no configuration. -/
inductive ConfigError where
  /-- The settings cannot be read, or do not fit what they are for. -/
  | malformed
  /-- The output directory has no path. -/
  | emptyOutput
  /-- The output directory, written as `output`, would take the place of `directory`. -/
  | overwrites (output : Path) (place : SourcePlace) (directory : Path)
deriving DecidableEq, Inhabited, Repr

/-- How a message calls a place. -/
def SourcePlace.name : SourcePlace → String
  | .site => "the site directory"
  | .content => "'paths.content'"
  | .templates => "'paths.templates'"
  | .assets => "'paths.static'"

/-- What is reported. -/
def ConfigError.message (details : String) : ConfigError → String
  | .malformed => "failed to deserialize config: " ++ details
  | .emptyOutput => "invalid config: 'paths.output' must not be empty"
  | .overwrites output place directory =>
    "invalid config: output directory '" ++ output.toString ++ "' would overwrite " ++ place.name
      ++ " (" ++ directory.toString ++ ")"

/-- The places that hold sources and their directories, seen from an absolute path. -/
def SitePaths.sources (paths : SitePaths) (base : Path) : List (SourcePlace × Path) :=
  [(.site, base.normalize), (.content, (base.resolve paths.content).normalize),
    (.templates, (base.resolve paths.templates).normalize),
    (.assets, (base.resolve paths.assets).normalize)]

/-- The error of paths whose output would take the place of sources: the first place that it
would. -/
def SitePaths.conflict? (paths : SitePaths) (base : Path) : Option ConfigError :=
  if paths.output.chars.isEmpty then some .emptyOutput
  else
    let output := (base.resolve paths.output).normalize
    ((paths.sources base).find? fun source => source.2.startsWith output).map fun source =>
      .overwrites paths.output source.1 source.2

/-- Checks paths, seen from an absolute path. -/
def SitePaths.validate (paths : SitePaths) (base : Path) : Except ConfigError Unit :=
  match paths.conflict? base with
  | some error => .error error
  | none => .ok ()

/-- Reads the configuration of a site in the directory `base` from its document, if there is one,
and the environment. -/
def Config.load (base : Path) (document : Option (List Char)) (environment : Environment) :
    Except ConfigError Config :=
  let written := match document with
    | some document => Setting.ofYaml? document
    | none => some []
  match written with
  | none => .error .malformed
  | some written =>
    let settings := ((Setting.table []).layOver written).layOver environment.settings
    match Config.ofSetting? settings with
    | none => .error .malformed
    | some config =>
      match config.paths.validate base with
      | .error error => .error error
      | .ok () => .ok config

end StaticSite
