import StaticSite.Config.Setting
import StaticSite.Path.Basic
/-!
# StaticSite.Config.Basic

The configuration of a site: what it says about itself, where its sources are and its output goes,
the extensions of its markdown, and how it is served. Everything has a default.

`Config.ofSetting?` reads a configuration, `Config.toJson` and `SiteSettings.toJson` write it.
-/

set_option autoImplicit false

namespace StaticSite

/-- What a site says about itself. -/
structure SiteSettings where
  title : String := "Tofu's SSG"
  description : String := "Static site generator from markdown files for a blog."
  /-- The address of the site. -/
  baseUrl : String := "https://example.com"
  /-- What else the author says. -/
  extra : Fields Json := []
deriving Inhabited

/-- Where sources and output are, seen from the directory of the configuration. -/
structure SitePaths where
  content : Path := .ofString "content"
  templates : Path := .ofString "templates"
  /-- The files that are copied as they are. -/
  assets : Path := .ofString "static"
  output : Path := .ofString "dist"
deriving DecidableEq, Inhabited, Repr

/-- How a served site watches its sources. -/
structure WatchSettings where
  /-- Whether to look at the files at intervals. -/
  poll : Bool := false
  /-- The interval, in milliseconds. -/
  pollInterval : Nat := 1000
  /-- How long to wait for further changes, in milliseconds. -/
  debounce : Nat := 200
deriving DecidableEq, Inhabited, Repr

/-- How a site is served. -/
structure ServeSettings where
  /-- The address to listen at. -/
  bind : String := "127.0.0.1"
  port : Nat := 1337
  watch : WatchSettings := {}
deriving DecidableEq, Inhabited, Repr

/-- The extensions of markdown that are in use unless the configuration says otherwise. -/
def defaultExtensions : List String :=
  ["definition_lists", "footnotes", "gfm", "heading_attributes", "strikethrough", "tables",
    "tasklists"]

/-- The configuration of a site. -/
structure Config where
  site : SiteSettings := {}
  paths : SitePaths := {}
  /-- The extensions of markdown, by name. -/
  extensions : List String := defaultExtensions
  serve : ServeSettings := {}
deriving Inhabited

/-! ### Reading -/

/-- The names that the address of a site may have. -/
def baseUrlNames : List String := ["base_url", "baseUrl", "baseurl"]

/-- Reads what a site says about itself. The address has at most one of its names. -/
def SiteSettings.ofSetting? (setting : Setting) : Option SiteSettings := do
  let entries ← match setting with
    | .table entries => some entries
    | _ => none
  let default : SiteSettings := {}
  let title ← Setting.part? entries "title" default.title Setting.text?
  let description ← Setting.part? entries "description" default.description Setting.text?
  let baseUrl ← match baseUrlNames.filterMap (Fields.get? entries) with
    | [] => some default.baseUrl
    | [value] => value.text?
    | _ => none
  let extra := entries.filter fun entry =>
    !("title" :: "description" :: baseUrlNames).contains entry.1
  pure ⟨title, description, baseUrl, Setting.entriesToJson extra⟩

/-- The path that a setting stands for. -/
def Path.ofSetting? (setting : Setting) : Option Path := setting.text?.map .ofString

/-- Reads where sources and output are. -/
def SitePaths.ofSetting? (setting : Setting) : Option SitePaths := do
  let parts ← setting.parts? ["content", "templates", "static", "output"]
  let default : SitePaths := {}
  let content ← Setting.part? parts "content" default.content Path.ofSetting?
  let templates ← Setting.part? parts "templates" default.templates Path.ofSetting?
  let assets ← Setting.part? parts "static" default.assets Path.ofSetting?
  let output ← Setting.part? parts "output" default.output Path.ofSetting?
  pure ⟨content, templates, assets, output⟩

/-- Reads how a served site watches its sources. -/
def WatchSettings.ofSetting? (setting : Setting) : Option WatchSettings := do
  let parts ← setting.parts? ["poll", "poll_interval_ms", "debounce_ms"]
  let default : WatchSettings := {}
  let poll ← Setting.part? parts "poll" default.poll Setting.flag?
  let read? := Setting.natural? Setting.naturalLimit
  let interval ← Setting.part? parts "poll_interval_ms" default.pollInterval read?
  let debounce ← Setting.part? parts "debounce_ms" default.debounce read?
  pure ⟨poll, interval, debounce⟩

/-- One more than the largest port. -/
def portLimit : Nat := Nat.pow 2 16

/-- Reads how a site is served. -/
def ServeSettings.ofSetting? (setting : Setting) : Option ServeSettings := do
  let parts ← setting.parts? ["bind", "port", "watch"]
  let default : ServeSettings := {}
  let bind ← Setting.part? parts "bind" default.bind Setting.text?
  let port ← Setting.part? parts "port" default.port (Setting.natural? portLimit)
  let watch ← Setting.part? parts "watch" default.watch WatchSettings.ofSetting?
  pure ⟨bind, port, watch⟩

/-- Reads the extensions of markdown. -/
def extensionsOfSetting? (setting : Setting) : Option (List String) := do
  let parts ← setting.parts? ["extensions"]
  Setting.part? parts "extensions" defaultExtensions Setting.texts?

/-- Reads a configuration. Names that it does not know are left out. -/
def Config.ofSetting? (setting : Setting) : Option Config := do
  let entries := setting.entries
  let site ← Setting.part? entries "site" {} SiteSettings.ofSetting?
  let paths ← Setting.part? entries "paths" {} SitePaths.ofSetting?
  let extensions ← Setting.part? entries "markdown" defaultExtensions extensionsOfSetting?
  let serve ← Setting.part? entries "serve" {} ServeSettings.ofSetting?
  pure ⟨site, paths, extensions, serve⟩

/-! ### Writing -/

/-- What a site says about itself, as templates see it. -/
def SiteSettings.toJson (site : SiteSettings) : Json :=
  .object ((((site.extra.set "title" (.string site.title)).set
    "description" (.string site.description)).set "baseUrl" (.string site.baseUrl)))

/-- Where sources and output are. -/
def SitePaths.toJson (paths : SitePaths) : Json :=
  .object [("content", .string paths.content.toString), ("output", .string paths.output.toString),
    ("static", .string paths.assets.toString), ("templates", .string paths.templates.toString)]

/-- How a site is served. -/
def ServeSettings.toJson (serve : ServeSettings) : Json :=
  .object [("bind", .string serve.bind), ("port", .integer serve.port),
    ("watch", .object [("debounce_ms", .integer serve.watch.debounce),
      ("poll", .bool serve.watch.poll),
      ("poll_interval_ms", .integer serve.watch.pollInterval)])]

/-- The whole configuration. -/
def Config.toJson (config : Config) : Json :=
  .object [("markdown", .object [("extensions", .array (config.extensions.map .string))]),
    ("paths", config.paths.toJson), ("serve", config.serve.toJson), ("site", config.site.toJson)]

end StaticSite
