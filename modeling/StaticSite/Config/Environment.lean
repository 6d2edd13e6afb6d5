import StaticSite.Config.Setting
import StaticSite.Text.Split
/-!
# StaticSite.Config.Environment

Settings from the environment. A variable whose name starts with `TOFU_`, in any case, sets the
path that the rest of its name describes in lower case: two underscores separate the names of it.
-/

set_option autoImplicit false

namespace StaticSite

/-- Variables and their values. -/
abbrev Environment := List (String × String)

namespace Environment

/-- How the names of variables start that are settings. -/
def opening : List Char := "tofu_".toList

/-- The path that a variable sets, if it is a setting. -/
def path? (variableName : String) : Option String :=
  (Text.dropStart? opening (Text.lower variableName.toList)).map fun rest =>
    String.ofList (Text.replaceAll "__".toList ['.'] rest)

/-- The setting that a value is written like. -/
def setting (value : String) : Setting :=
  let s := value.toList
  let word := Text.lower s
  if word == "true".toList then .bool true
  else if word == "false".toList then .bool false
  else
    match (integerNumeral? s).filter (fitsSigned 64) with
    | some i => .integer i
    | none => (Binary64.read? s).elim (.text value) .number

/-- The settings in an environment, by their paths. -/
def settings (environment : Environment) : Fields Setting :=
  Fields.ofList (environment.filterMap fun pair =>
    (path? pair.1).map fun path => (path, setting pair.2))

end Environment

end StaticSite
