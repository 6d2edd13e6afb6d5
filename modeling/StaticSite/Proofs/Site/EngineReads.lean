import StaticSite.Proofs.Site.Confinement
import StaticSite.Proofs.Template.Scope
/-!
# StaticSite.Proofs.Site.EngineReads

**What the engine of a build reads.** The pages of a site have eight templates and one layout, and
the partials that rendering asks for have names without points and slashes. So every file that the
engine asks for is a page template, the default layout, or stands directly in the directory of the
partials, whatever the content, the templates and the settings hold
(`build_reads_templates`).
-/

set_option autoImplicit false

namespace StaticSite

/-- The templates of the pages of a site. -/
def pageTemplates : List String :=
  ["index", "article", "author", "news", "guides", "games", "about", "category"]

theorem template_mem_pageTemplates {site : Site} {stage : Stage} (hstage : stage ∈ pageStages)
    {page : Page} (hpage : page ∈ stage.pages site) : page.template ∈ pageTemplates := by
  -- stage by stage, in the order in which they are made
  unfold pageStages at hstage
  simp only [List.mem_cons, List.not_mem_nil, or_false] at hstage
  rcases hstage with rfl | rfl | rfl | rfl | rfl | rfl | rfl | rfl
  · obtain rfl := List.mem_singleton.mp hpage
    exact (by decide : "index" ∈ pageTemplates)
  · obtain ⟨article, -, rfl⟩ := List.mem_map.mp hpage
    exact (by decide : "article" ∈ pageTemplates)
  · obtain ⟨author, -, rfl⟩ := List.mem_map.mp hpage
    exact (by decide : "author" ∈ pageTemplates)
  · obtain rfl := List.mem_singleton.mp hpage
    exact (by decide : "news" ∈ pageTemplates)
  · obtain rfl := List.mem_singleton.mp hpage
    exact (by decide : "guides" ∈ pageTemplates)
  · obtain rfl := List.mem_singleton.mp hpage
    exact (by decide : "games" ∈ pageTemplates)
  · obtain rfl := List.mem_singleton.mp hpage
    exact (by decide : "about" ∈ pageTemplates)
  · obtain ⟨category, -, rfl⟩ := List.mem_map.mp hpage
    exact (by decide : "category" ∈ pageTemplates)

/-- The files that an engine may read which has its templates in a directory. -/
inductive EngineFile (templates : Path) : Path → Prop
  | template {name : String} : name ∈ pageTemplates →
      EngineFile templates (templates.child (name ++ ".html"))
  | layout : EngineFile templates ((templates.child "layouts").child "default.html")
  | part {name : String} : IsRun Marker.isNameChar name.toList →
      EngineFile templates ((templates.child "partials").child (name ++ ".html"))

/-- The keys of these files. -/
def EngineKey (key : SourceKey) : Prop :=
  ∃ template ∈ pageTemplates, InScope template defaultLayout key

theorem EngineKey.file {key : SourceKey} (h : EngineKey key) (templates : Path) :
    EngineFile templates (sourcePath templates key.1 key.2) := by
  obtain ⟨template, htemplate, hkey⟩ := h
  cases hkey with
  | template => exact .template htemplate
  | layout => exact .layout
  | part hname => exact .part hname

/-- The file of a partial is called by a name. -/
theorem isName_part {name : String} (h : IsRun Marker.isNameChar name.toList) :
    IsName (name ++ ".html") := by
  have hchars : (name ++ ".html").toList = name.toList ++ ".html".toList := String.toList_append
  have hlong : ∀ short : String, short.toList.length ≤ 5 → name ++ ".html" ≠ short := by
    rintro short hshort rfl
    have hpos := List.length_pos_iff.mpr h.ne_nil
    rw [hchars, List.length_append, show ".html".toList.length = 5 from rfl] at hshort
    omega
  refine ⟨hlong "" (by decide), hlong "." (by decide), hlong ".." (by decide), fun hslash => ?_⟩
  rw [hchars] at hslash
  rcases List.mem_append.mp hslash with hin | hin
  · exact absurd (h.members '/' hin) (by decide)
  · exact absurd hin (by decide)

/-! ### Rendering

What an engine asks for while it renders one page is known from the theory of templates: keys in the
scope of the template and its layout, whatever the data are. Here the keys become files. -/

/-- What a directory of templates holds for a key is what stands in its file. -/
theorem FileTree.answer_congr {tree other : FileTree} {templates : Path} {key : SourceKey}
    (h : tree.readText (sourcePath templates key.1 key.2) =
      other.readText (sourcePath templates key.1 key.2)) :
    (tree.loader templates).answer key = (other.loader templates).answer key := by
  unfold Loader.answer FileTree.loader
  dsimp only
  rw [h]

/-- Rendering a page of a site depends on no other file. -/
theorem render_congr_engineFiles {tree other : FileTree} {templates : Path} {template : String}
    (htemplate : template ∈ pageTemplates)
    (hsame : ∀ file, EngineFile templates file → tree.readText file = other.readText file)
    (context : Value) (session : Session) :
    render (tree.loader templates) template context defaultLayout session =
      render (other.loader templates) template context defaultLayout session := by
  rw [← Inquiry.run_render, ← Inquiry.run_render]
  refine (Inquiry.asks_render template context defaultLayout).run_congr (fun key hkey => ?_) session
  exact FileTree.answer_congr (hsame _ (EngineKey.file ⟨template, htemplate, hkey⟩ templates))

/-! ### Building

Steps that have no engine leave the session as it is. So the calls of a whole build are those of its
pages, and the discipline only has to be shown for the making of one page. -/

namespace Build

variable {ε α : Type} {paths : SitePaths} {site : Site}

/-- The discipline of tasks whose engine asks for keys of a class alone. -/
def asking (P : SourceKey → Prop) : Discipline Work where
  holds work := ∀ key ∈ work.session.loads, P key
  change _ _ := True
  refl _ := trivial
  trans _ _ := trivial

variable {P : SourceKey → Prop}

/-- A step that has nothing to do with the engine. -/
theorem asking_of_session_eq {task : Task ε α}
    (h : ∀ work, (stateAfter task work).session = work.session) : (asking P).Keeps task :=
  Discipline.keeps_of_allows fun work hwork =>
    ⟨fun key hkey => hwork key (h work ▸ hkey), trivial⟩

theorem asking_print (line : String) : (asking P).Keeps (Task.print line : Task ε Unit) :=
  asking_of_session_eq fun _ => rfl

theorem asking_onFiles (error : IoError → ε) (task : FileTask α) :
    (asking P).Keeps (Task.onFiles error task) := by
  refine asking_of_session_eq fun work => ?_
  unfold stateAfter Task.onFiles
  cases task work.files with
  | ok a files => rfl
  | error e files => rfl

theorem asking_ask {δ : Type} (error : δ → ε) (read : FileTree → Except δ α) :
    (asking P).Keeps (Task.ask error read) :=
  Task.yields_ask fun _ _ _ => trivial

theorem asking_load (config : Config) (paths : SitePaths) (now : Instant) :
    (asking P).Keeps (load config paths now) := by
  unfold load
  refine (asking_onFiles _ _).bind fun _ => (asking_onFiles _ _).bind fun _ => ?_
  refine (asking_print _).bind fun _ => (asking_ask _ _).bind fun articles => ?_
  refine (asking_print _).bind fun _ => (asking_print _).bind fun _ => ?_
  refine (asking_ask _ _).bind fun authors => (asking_print _).bind fun _ => ?_
  exact (Task.keeps_look _).bind fun games => Discipline.keeps_pure _

theorem asking_clearOutput (paths : SitePaths) : (asking P).Keeps (clearOutput paths) := by
  unfold clearOutput
  refine (Task.keeps_look _).bind fun holds => ?_
  cases holds with
  | true => exact (asking_onFiles _ _).bind fun _ => asking_onFiles _ _
  | false => exact asking_onFiles _ _

/-- The engine of a page asks for the files of its template. -/
theorem asking_makePage {page : Page} (hpage : page.template ∈ pageTemplates) :
    (asking EngineKey).Keeps (makePage paths site page) := by
  have hrender : (asking EngineKey).Keeps (renderPage paths site page) := by
    refine Discipline.keeps_of_allows fun work hwork => ⟨fun key hkey => ?_, trivial⟩
    have hloads : (stateAfter (renderPage paths site page) work).session =
        (render (work.files.loader paths.templates) page.template (site.context page)
          defaultLayout work.session).2 := by
      unfold stateAfter renderPage
      rcases render (work.files.loader paths.templates) page.template (site.context page)
        defaultLayout work.session with ⟨html | e, session⟩
      · rfl
      · rfl
    rw [hloads, ← Inquiry.run_render] at hkey
    rcases (Inquiry.asks_render _ _ _).of_mem_loads hkey with hearlier | hscope
    · exact hwork key hearlier
    · exact ⟨page.template, hpage, hscope⟩
  unfold makePage
  refine hrender.bind fun html => (asking_onFiles _ _).bind fun _ => ?_
  exact asking_of_session_eq fun _ => rfl

theorem asking_runStage {stage : Stage} (hstage : stage ∈ pageStages) :
    (asking EngineKey).Keeps (runStage paths site stage) := by
  unfold runStage
  refine Task.keeps_forEach fun page hpage => ?_
  have hmake : (asking EngineKey).Keeps (makePage paths site page) :=
    asking_makePage (template_mem_pageTemplates hstage hpage)
  split
  · exact Task.keeps_attempt hmake
  · exact hmake

theorem asking_copyAssets (paths : SitePaths) : (asking P).Keeps (copyAssets paths) := by
  unfold copyAssets
  refine (Task.keeps_look _).bind fun held => ?_
  cases held with
  | true => exact (asking_onFiles _ _).bind fun _ => asking_print _
  | false => exact asking_print _

end Build

theorem asking_build (config : Config) (base : Path) (now : Instant) :
    (Build.asking EngineKey).Keeps (build config base now) := by
  unfold build
  refine (Build.asking_ask _ _).bind fun _ => (Build.asking_load _ _ _).bind fun site => ?_
  refine (Build.asking_clearOutput _).bind fun _ => ?_
  refine Discipline.Keeps.bind
    (Task.keeps_forEach fun stage hstage => Build.asking_runStage hstage) fun _ => ?_
  refine (Build.asking_copyAssets _).bind fun _ => ?_
  have hdata : (Build.asking EngineKey).Keeps
      (Build.writeData (config.paths.seenFrom base) site) :=
    (Build.asking_onFiles _ _).bind fun _ => Build.asking_onFiles _ _
  refine hdata.bind fun _ => ?_
  refine Discipline.Keeps.bind (Build.asking_of_session_eq fun _ => rfl) fun work => ?_
  refine (Task.keeps_look _).bind fun shown => (Build.asking_print _).bind fun _ => ?_
  exact Discipline.keeps_pure _

/-- **No content makes an engine read elsewhere.** In every build of every site, wherever it stops,
each file that the engine has asked for is the template of a page, the default layout, or the file
of a partial whose name is made of letters, digits, `_` and `-`. No page that is rendered depends on
any other file. Such a partial stands directly in the directory of the partials. -/
theorem build_reads_templates (config : Config) (base : Path) (now : Instant) (files : FileTree) :
    let templates := (config.paths.seenFrom base).templates
    (∀ key ∈ (stateAfter (build config base now) (.start files)).session.loads,
      EngineFile templates (sourcePath templates key.1 key.2)) ∧
    (∀ site, ∀ stage ∈ pageStages, ∀ page ∈ stage.pages site, ∀ tree other : FileTree,
      (∀ file, EngineFile templates file → tree.readText file = other.readText file) →
      ∀ session, render (tree.loader templates) page.template (site.context page) defaultLayout
          session =
        render (other.loader templates) page.template (site.context page) defaultLayout session) ∧
    ∀ name : String, IsRun Marker.isNameChar name.toList →
      (sourcePath templates .part name).location =
        (templates.child "partials").location ++ [name ++ ".html"] := by
  intro templates
  refine ⟨fun key hkey => ?_, fun site stage hstage page hpage tree other hsame session => ?_,
    fun name hname => ?_⟩
  · have hstart : (Build.asking EngineKey).holds (.start files) := by
      intro key hkey
      cases hkey
    exact (((asking_build config base now).allows hstart).1 key hkey).file templates
  · exact render_congr_engineFiles (template_mem_pageTemplates hstage hpage) hsame _ session
  · exact Path.location_child (isName_part hname)

/-- A site in `/site` whose pages show its title in the default layout, and whose title is text that
includes a partial. -/
def titleSite : FileTree :=
  .directory [("site", .directory [("templates", .directory [
    ("index.html", .file "\x7b\x7b site.title \x7d\x7d".toUTF8),
    ("layouts", .directory [("default.html", .file "\x7b\x7b content \x7d\x7d".toUTF8)]),
    ("partials", .directory [("nav.html", .file "menu".toUTF8)])])])]

/-- The title is evaluated again as part of the layout. So the engine asks for the partial, whose
file stands in the directory of the partials. -/
theorem build_reads_partial_of_title :
    let config : Config := { site := { title := "\x7b\x7b> nav\x7d\x7d" } }
    let templates := (config.paths.seenFrom (.ofString "/site")).templates
    let loads := (stateAfter (build config (.ofString "/site") ⟨0, 0⟩)
      (.start titleSite)).session.loads
    (.part, "nav") ∈ loads ∧ EngineFile templates (sourcePath templates .part "nav") ∧
      (sourcePath templates .part "nav").location =
        ["site", "templates", "partials", "nav.html"] := by
  intro config templates loads
  have hnav : (.part, "nav") ∈ loads := by decide +kernel
  obtain ⟨hreads, -, hplace⟩ :=
    build_reads_templates config (.ofString "/site") ⟨0, 0⟩ titleSite
  exact ⟨hnav, hreads _ hnav, hplace "nav" ⟨by decide, List.all_eq_true.mp (by decide)⟩⟩

end StaticSite
