import StaticSite.Command.Address
import StaticSite.Command.Basic
import StaticSite.Command.Starter
import StaticSite.Site.Build
/-!
# StaticSite.Command.Run

What the commands do.

* `init` never touches what is there: it refuses to start a site where there is a configuration, and
  leaves out templates that are there.
* `build` and `serve` build the site; `serve` then checks the address at which it is to listen.
* `clean` removes the output directory.

`Command.configFiles` and `Command.directories` are the paths that a command reads or changes; all
else can be left out of the tree that it runs on.
-/

set_option autoImplicit false

namespace StaticSite

/-- Why a command failed. -/
inductive CommandError where
  | config (error : ConfigError)
  | build (error : BuildError)
  | file (error : IoError)
  /-- There is no directory to start a site in. -/
  | noDirectory (path : Path)
  /-- There is a configuration already. -/
  | configExists (path : Path)
  /-- The text is no address to listen at. -/
  | badAddress
deriving DecidableEq, Inhabited, Repr

/-- What is reported, given the wording of what is wrong with the settings. -/
def CommandError.message (details : String) : CommandError → String
  | config e => e.message details
  | build e => e.message IoError.message details
  | file e => e.message
  | noDirectory path => "Directory does not exist: " ++ path.toString
  | configExists path => path.toString ++ " already exists"
  | badAddress => "invalid socket address syntax"

/-- What is left to do after a command. -/
inductive Outcome where
  | finished
  /-- Serving a directory at an address that is shown as `url`. -/
  | serving (directory : Path) (url : String)
deriving DecidableEq, Inhabited, Repr

/-- Where a command runs. -/
structure Workplace where
  /-- The working directory. -/
  directory : Path
  environment : Environment
  now : Instant

namespace Command

/-! ### Starting a site

Starting a site does not overwrite anything: if there is a configuration the command fails, and
templates that are there are left alone. -/

/-- Writes the starter templates that are not there yet and returns their number. -/
def writeTemplates (directory : Path) : List (Path × String) → Task CommandError Nat
  | [] => pure 0
  | (path, body) :: rest => do
    let file := directory.join path
    let there ← Task.look (·.holds file)
    if there then writeTemplates directory rest
    else
      Task.onFiles .file (.writeInside file body.toUTF8)
      let count ← writeTemplates directory rest
      pure (count + 1)

/-- Starts a site in a directory. -/
def startSite (path : Path) (create : Bool) : Task CommandError Unit := do
  if !(← Task.look (·.holds path)) then
    if create then
      Task.onFiles .file (.makeDirectories path)
      Task.print ("Created directory " ++ path.toString)
    else throw (.noDirectory path)
  let config := path.child defaultConfigFile
  if ← Task.look (·.holds config) then throw (.configExists config)
  Task.print ("Initializing project in " ++ path.toString)
  Task.onFiles .file (.write config Starter.configuration.toUTF8)
  Task.print ("Created config file " ++ config.toString)
  let paths : SitePaths := {}
  Task.forEach (fun name =>
    Task.onFiles .file (.makeDirectories ((path.join paths.content).child name)))
    Starter.contentDirectories
  Task.onFiles .file (.makeDirectories (path.join paths.assets))
  let count ← writeTemplates (path.join paths.templates) Starter.templates
  Task.print ("Created " ++ toString count ++ " starter template(s)")

/-! ### The other commands

These load a configuration first, and the paths in it are seen from its directory. -/

/-- Builds a site on behalf of a command. -/
def runBuild (config : Config) (base : Path) (now : Instant) : Task CommandError BuildReport :=
  fun work =>
    match StaticSite.build config base now work with
    | .ok report work => .ok report work
    | .error e work => .error (.build e) work

/-- Builds a site and says what has been built. -/
def buildSite (config : Config) (base : Path) (now : Instant) : Task CommandError Unit := do
  let report ← runBuild config base now
  Task.print "Site generation complete!"
  Task.print ("Built site to " ++ report.output.toString ++ " (" ++ toString report.articles
    ++ " articles, " ++ toString report.authors ++ " authors, " ++ toString report.games
    ++ " games, " ++ toString report.pages ++ " pages)")

/-- Removes the output directory of a site. -/
def cleanSite (config : Config) (base : Path) (dryRun : Bool) : Task CommandError Unit := do
  let output := (config.paths.seenFrom base).output
  match ← Task.look (·.canonical? output) with
  | none => Task.print ("Nothing to clean at " ++ output.toString)
  | some directory =>
    if dryRun then Task.print ("Would delete " ++ directory.toString)
    else
      Task.onFiles .file (.remove directory)
      Task.print ("Deleted " ++ directory.toString)

/-- Builds a site and checks the address at which it is to be served. -/
def serveSite (config : Config) (base : Path) (now : Instant) (bind : String) (port : Nat)
    (watch : Bool) : Task CommandError Outcome := do
  Task.print "Building site..."
  let report ← runBuild config base now
  Task.print ("Built " ++ toString report.pages ++ " pages from " ++ toString report.articles
    ++ " articles")
  if watch then Task.print "Watching for changes..."
  let address := bind ++ ":" ++ toString port
  if !Address.isAddress address.toList then throw .badAddress
  let host := if bind = "0.0.0.0" then "localhost" else bind
  pure (.serving report.output ("http://" ++ host ++ ":" ++ toString port))

/-- The file of a configuration, from the working directory. -/
def configFile (place : Workplace) (path : Path) : Path := place.directory.resolve path

/-- Loads a configuration, and the directory from which its paths are seen. -/
def loadConfig (place : Workplace) (path : Path) : Task CommandError (Config × Path) := do
  let file := configFile place path
  let config ← Task.ask .config (Config.ofFile · file place.environment)
  pure (config, file.directory)

/-- The files that have to be known before it is known what else a command reaches. -/
def configFiles (place : Workplace) : Command → List Path
  | init path _ => [(place.directory.resolve path).child defaultConfigFile]
  | .build path | clean path _ | serve path .. => configCandidates (configFile place path)

/-- The directories that a command reads or changes, given the files that say so. -/
def directories (place : Workplace) (files : FileTree) : Command → List Path
  | init path _ => (SitePaths.seenFrom {} (place.directory.resolve path)).all
  | .build path | clean path _ | serve path .. =>
    match Config.ofFile files (configFile place path) place.environment with
    | .ok config => (config.paths.seenFrom (configFile place path).directory).all
    | .error _ => []

/-- Runs a command. -/
def run (place : Workplace) : Command → Task CommandError Outcome
  | init path create => do
    startSite (place.directory.resolve path) create
    pure .finished
  | .build path => do
    let (config, base) ← loadConfig place path
    buildSite config base place.now
    pure .finished
  | clean path dryRun => do
    let (config, base) ← loadConfig place path
    cleanSite config base dryRun
    pure .finished
  | serve path bind port watch => do
    let (config, base) ← loadConfig place path
    serveSite config base place.now (bind.getD config.serve.bind)
      (port.getD config.serve.port) watch

end Command

end StaticSite
