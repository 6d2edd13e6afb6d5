import StaticSite.Config.Validation
import StaticSite.Content.Loading
import StaticSite.FileTree.Action
import StaticSite.Json.Printer
import StaticSite.Path.Output
import StaticSite.Site.Page
import StaticSite.Template.Directory
import StaticSite.Template.Engine
/-!
# StaticSite.Site.Build

Building a site. The paths are checked first; then all content is loaded, so that the output of an
earlier build is gone only if there is content for a new one; then the pages are made, stage by
stage; last come the files that are copied as they are and the record of the site.

A build goes through works: what a build has done when it fails stays done.
-/

set_option autoImplicit false

namespace StaticSite

/-- What has been done so far. -/
structure Work where
  files : FileTree
  /-- The lines that have been printed. -/
  printed : List String
  /-- The bodies of the templates. -/
  session : Session
  /-- The output files of the pages that have been made, in order. -/
  pages : List Path
deriving Inhabited

/-- Nothing has been done. -/
def Work.start (files : FileTree) : Work := ⟨files, [], .empty, []⟩

/-- Work that may fail. -/
abbrev Task (ε α : Type) := EStateM ε Work α

namespace Task

variable {ε α : Type}

/-- Prints a line. -/
def print (line : String) : Task ε Unit := fun work =>
  .ok () { work with printed := work.printed ++ [line] }

/-- Does a task on files. -/
def onFiles (error : IoError → ε) (task : FileTask α) : Task ε α := fun work =>
  match task work.files with
  | .ok a files => .ok a { work with files := files }
  | .error e files => .error (error e) { work with files := files }

/-- Reads something from the files. -/
def ask {δ : Type} (error : δ → ε) (read : FileTree → Except δ α) : Task ε α := fun work =>
  match read work.files with
  | .ok a => .ok a work
  | .error e => .error (error e) work

/-- Looks at the files. -/
def look (view : FileTree → α) : Task ε α := fun work => .ok (view work.files) work

/-- Does a task, and goes on if it fails. -/
def attempt (task : Task ε Unit) : Task ε Unit := fun work =>
  match task work with
  | .ok () work => .ok () work
  | .error _ work => .ok () work

/-- Does a task for each element of a list. -/
def forEach (act : α → Task ε Unit) : List α → Task ε Unit
  | [] => pure ()
  | a :: rest => do
    act a
    forEach act rest

end Task

/-- Why a build failed. -/
inductive BuildError where
  | config (error : ConfigError)
  | content (error : ContentError)
  /-- A page could not be shown. -/
  | render (error : RenderError)
  /-- A page or the record of the site could not be written. -/
  | page (error : IoError)
  /-- The files of a directory could not be copied. -/
  | assets (source : Path) (error : IoError)
  /-- A directory could not be made or removed. -/
  | directory (error : IoError)
deriving DecidableEq, Inhabited, Repr

/-- What is reported, given the wording of what went wrong with a file, and of what is wrong with
the settings. -/
def BuildError.message (wording : IoError → String) (details : String) : BuildError → String
  | config e => e.message details
  | content e => "content error: " ++ e.message wording
  | render e => "pipeline error: template rendering error: " ++ e.message wording
  | page e => "pipeline error: IO error: " ++ wording e
  | assets source e =>
    "pipeline error: stage '" ++ assetsStage ++ "' failed: failed to copy " ++ source.toString
      ++ ": " ++ wording e
  | directory e => "IO error: " ++ wording e

/-- What a build has made. -/
structure BuildReport where
  output : Path
  articles : Nat
  authors : Nat
  games : Nat
  pages : Nat
deriving DecidableEq, Inhabited, Repr

/-- The paths, seen from a directory. -/
def SitePaths.seenFrom (paths : SitePaths) (base : Path) : SitePaths :=
  ⟨base.resolve paths.content, base.resolve paths.templates, base.resolve paths.assets,
    base.resolve paths.output⟩

/-- All paths. -/
def SitePaths.all (paths : SitePaths) : List Path :=
  [paths.content, paths.templates, paths.assets, paths.output]

/-- The templates in a directory. -/
def FileTree.loader (tree : FileTree) (templates : Path) : Loader := fun kind name =>
  let path := sourcePath templates kind name
  match tree.readText path with
  | .ok body => .ok body
  | .error .notFound => .error (.notFound kind name)
  | .error e => .error (.unreadable kind path.toString e)

namespace Build

/-- The directory of the articles. -/
def articlesDirectory (paths : SitePaths) : Path := paths.content.child "articles"

/-- The directory of the authors. -/
def authorsDirectory (paths : SitePaths) : Path := paths.content.child "authors"

/-- The directory of the games. -/
def gamesDirectory (paths : SitePaths) : Path := paths.content.child "games"

/-- The file with the record of the site. -/
def dataFile (paths : SitePaths) : Path := paths.output.child "data.json"

/-- The bytes of a text. -/
def bytes (text : List Char) : ByteArray := (String.ofList text).toUTF8

/-- Loads the content of a site. -/
def load (config : Config) (paths : SitePaths) (now : Instant) : Task BuildError Site := do
  Task.onFiles .directory (.makeDirectories (articlesDirectory paths))
  Task.onFiles .directory (.makeDirectories (authorsDirectory paths))
  Task.print "Parsing articles..."
  let articles ← Task.ask .content (loadArticles · config.extensions now (articlesDirectory paths))
  Task.print ("Found " ++ toString articles.length ++ " article(s)")
  Task.print "Loading authors..."
  let authors ← Task.ask .content (loadAuthors · (authorsDirectory paths))
  Task.print ("Found " ++ toString authors.length ++ " author(s)")
  let games ← Task.look (loadGames · (gamesDirectory paths))
  pure ⟨config.site, articles, authors, games⟩

/-- Makes the output directory and leaves nothing in it. -/
def clearOutput (paths : SitePaths) : Task BuildError Unit := do
  if ← Task.look (·.holds paths.output) then
    Task.onFiles .directory (.remove paths.output)
  Task.onFiles .directory (.makeDirectories paths.output)

/-- Renders a page. -/
def renderPage (paths : SitePaths) (site : Site) (page : Page) : Task BuildError (List Char) :=
  fun work =>
    match render (work.files.loader paths.templates) page.template (site.context page)
      defaultLayout work.session with
    | (.ok html, session) => .ok html { work with session := session }
    | (.error e, session) => .error (.render e) { work with session := session }

/-- The output file of a page. -/
def pageFile (paths : SitePaths) (page : Page) : Path := paths.output.output page.address.toList

/-- Renders a page and writes it. -/
def makePage (paths : SitePaths) (site : Site) (page : Page) : Task BuildError Unit := do
  let html ← renderPage paths site page
  Task.onFiles .page (.writeInside (pageFile paths page) (bytes html))
  modify fun work => { work with pages := work.pages ++ [pageFile paths page] }

/-- Makes the pages of a stage. -/
def runStage (paths : SitePaths) (site : Site) (stage : Stage) : Task BuildError Unit :=
  let make := fun (page : Page) =>
    if stage.lenient then Task.attempt (makePage paths site page) else makePage paths site page
  Task.forEach make (stage.pages site)

/-- Copies the files that are not made. -/
def copyAssets (paths : SitePaths) : Task BuildError Unit := do
  if ← Task.look (·.holdsDirectory paths.assets) then
    let count ← Task.onFiles (.assets paths.assets) (.copy paths.assets paths.output)
    Task.print ("Copied " ++ toString count ++ " static file(s)")
  else Task.print "No static directory found, skipping..."

/-- Writes the record of the site. -/
def writeData (paths : SitePaths) (site : Site) : Task BuildError Unit := do
  Task.onFiles .page (.makeDirectories paths.output)
  Task.onFiles .page (.write (dataFile paths) (bytes (Json.pretty site.data)))

end Build

/-- Builds the site of a configuration in the directory `base`. Articles without a date are dated
`now`. -/
def build (config : Config) (base : Path) (now : Instant) : Task BuildError BuildReport := do
  Task.ask .config fun _ => config.paths.validate base
  let paths := config.paths.seenFrom base
  let site ← Build.load config paths now
  Build.clearOutput paths
  Task.forEach (Build.runStage paths site) pageStages
  Build.copyAssets paths
  Build.writeData paths site
  let count := (← get).pages.length
  let shown ← Task.look fun files => (files.canonical? paths.output).getD paths.output
  Task.print ("Wrote " ++ toString count ++ " page(s) to " ++ shown.toString)
  pure ⟨paths.output, site.articles.length, site.authors.length, site.games.length, count⟩

end StaticSite
