import Mathlib.Data.List.Dedup
import StaticSite.Proofs.FileTree.Growth
import StaticSite.Proofs.Site.Confinement
import StaticSite.Proofs.Site.PagePlaces
/-!
# StaticSite.Proofs.Site.Overwriting

Which pages of a build overwrite each other. The pages that are made are among those that are
planned, and each of them is a file in the end. **They are different files if no two articles go by
one stem and no stem leads out of its section or to its index page; otherwise two planned pages have
one output file** (`build_pages_apart`). Nothing keeps a content from such stems: an article in the
file `...md` takes the place of the home page (`build_overwrites_home_page`).
-/

set_option autoImplicit false

namespace StaticSite

variable {ε α β : Type}

/-! ### Pages that are recorded

A build notes each page that it has made. Which pages these are depends on what succeeds, but they
are always some of the planned ones in their order, so the pages that are noted are described by a
list that they run through. -/

namespace Task

/-- Whether a task records some of the pages with these output files, in this order, wherever it
stops. -/
def Records (task : Task ε α) (files : List Path) : Prop :=
  ∀ work, ∃ made, made.Sublist files ∧ (stateAfter task work).pages = work.pages ++ made

variable {task : Task ε α} {next : α → Task ε β} {files more : List Path}

theorem records_bind (h : Records task files) (hnext : ∀ a, Records (next a) more) :
    Records (task >>= next) (files ++ more) := by
  intro work
  obtain ⟨made, hmade, hpages⟩ := h work
  rw [stateAfter_bind]
  unfold stateAfter at hpages
  cases hrun : task work with
  | ok a after =>
    rw [hrun] at hpages
    obtain ⟨others, hothers, hall⟩ := hnext a after
    refine ⟨made ++ others, hmade.append hothers, ?_⟩
    rw [← List.append_assoc, ← hpages]
    exact hall
  | error e after =>
    rw [hrun] at hpages
    exact ⟨made, hmade.trans (List.sublist_append_left _ _), hpages⟩

/-- A step that makes no page. -/
theorem records_nil (h : ∀ work, (stateAfter task work).pages = work.pages) : Records task [] :=
  fun work => ⟨[], List.Sublist.refl [], by rw [h, List.append_nil]⟩

theorem records_bind_nil (h : Records task []) (hnext : ∀ a, Records (next a) more) :
    Records (task >>= next) more :=
  records_bind h hnext

theorem records_pure (a : α) : Records (pure a : Task ε α) [] := records_nil fun _ => rfl

theorem records_print (line : String) : Records (print line : Task ε Unit) [] :=
  records_nil fun _ => rfl

theorem records_look (view : FileTree → α) : Records (look view : Task ε α) [] :=
  records_nil fun _ => rfl

theorem records_ask {δ : Type} (error : δ → ε) (read : FileTree → Except δ α) :
    Records (ask error read) [] := by
  refine records_nil fun work => ?_
  unfold stateAfter ask
  cases read work.files with
  | ok a => rfl
  | error e => rfl

theorem records_onFiles (error : IoError → ε) (task : FileTask α) :
    Records (onFiles error task) [] := by
  refine records_nil fun work => ?_
  unfold stateAfter onFiles
  cases task work.files with
  | ok a files => rfl
  | error e files => rfl

theorem records_attempt {task : Task ε Unit} (h : Records task files) :
    Records (attempt task) files := by
  intro work
  have hrun := h work
  unfold stateAfter attempt at *
  cases htask : task work with
  | ok a after =>
    rw [htask] at hrun
    exact hrun
  | error e after =>
    rw [htask] at hrun
    exact hrun

theorem records_forEach {act : α → Task ε Unit} {files : α → List Path}
    (h : ∀ a, Records (act a) (files a)) (all : List α) :
    Records (forEach act all) (all.flatMap files) := by
  induction all with
  | nil => exact records_pure ()
  | cons a rest ih => exact records_bind (h a) fun _ => ih

theorem Records.of_ok {work after : Work} {a : α} (h : Records task files)
    (hrun : task work = .ok a after) :
    ∃ made, made.Sublist files ∧ after.pages = work.pages ++ made := by
  have hafter := h work
  unfold stateAfter at hafter
  rw [hrun] at hafter
  exact hafter

theorem Records.pages_eq {work after : Work} {a : α} (h : Records task [])
    (hrun : task work = .ok a after) : after.pages = work.pages := by
  obtain ⟨made, hmade, hpages⟩ := h.of_ok hrun
  rw [hpages, List.sublist_nil.mp hmade, List.append_nil]

end Task

namespace Build

variable {paths : SitePaths} {site : Site}

theorem records_load (config : Config) (paths : SitePaths) (now : Instant) :
    Task.Records (load config paths now) [] := by
  unfold load
  refine Task.records_bind_nil (Task.records_onFiles _ _) fun _ => ?_
  refine Task.records_bind_nil (Task.records_onFiles _ _) fun _ => ?_
  refine Task.records_bind_nil (Task.records_print _) fun _ => ?_
  refine Task.records_bind_nil (Task.records_ask _ _) fun articles => ?_
  refine Task.records_bind_nil (Task.records_print _) fun _ => ?_
  refine Task.records_bind_nil (Task.records_print _) fun _ => ?_
  refine Task.records_bind_nil (Task.records_ask _ _) fun authors => ?_
  refine Task.records_bind_nil (Task.records_print _) fun _ => ?_
  refine Task.records_bind_nil (Task.records_look _) fun games => ?_
  exact Task.records_pure _

theorem records_clearOutput (paths : SitePaths) : Task.Records (clearOutput paths) [] := by
  unfold clearOutput
  refine Task.records_bind_nil (Task.records_look _) fun holds => ?_
  cases holds with
  | true => exact Task.records_bind_nil (Task.records_onFiles _ _) fun _ => Task.records_onFiles _ _
  | false => exact Task.records_onFiles _ _

theorem records_makePage (page : Page) :
    Task.Records (makePage paths site page) [pageFile paths page] := by
  have hrender : Task.Records (renderPage paths site page) [] := by
    refine Task.records_nil fun work => ?_
    obtain ⟨session, hsession⟩ := stateAfter_renderPage paths site page work
    rw [hsession]
  unfold makePage
  refine Task.records_bind_nil hrender fun html => ?_
  refine Task.records_bind_nil (Task.records_onFiles _ _) fun _ => ?_
  exact fun work => ⟨[pageFile paths page], List.Sublist.refl _, rfl⟩

/-- The stages record pages that are planned. -/
theorem records_stages :
    Task.Records (Task.forEach (runStage paths site) pageStages)
      (site.pages.map (pageFile paths)) := by
  unfold Site.pages
  rw [List.map_flatMap]
  refine Task.records_forEach (fun stage => ?_) pageStages
  rw [List.map_eq_flatMap]
  unfold runStage
  refine Task.records_forEach (fun page => ?_) (stage.pages site)
  split
  · exact Task.records_attempt (records_makePage page)
  · exact records_makePage page

/-! ### Pages that are files

That a noted page is still a file later on is an invariant of the whole rest of a build: what is
done from then on takes no file away. -/

/-- The discipline of tasks that leave every recorded page a file. -/
def recorded : Discipline Work where
  holds work := work.files.WellFormed ∧ ∀ page ∈ work.pages, work.files.HasFile page.location
  change _ _ := True
  refl _ := trivial
  trans _ _ := trivial

theorem recorded_print (line : String) : recorded.Keeps (Task.print line : Task ε Unit) :=
  fun _ hwork => ⟨⟨hwork, trivial⟩, trivial⟩

/-- What takes no file away leaves every recorded page a file. -/
theorem recorded_onFiles {error : IoError → ε} {task : FileTask α}
    (h : FileTree.growing.Keeps task) : recorded.Keeps (Task.onFiles error task) := by
  intro work hwork
  have hrun := h work.files hwork.1
  unfold Task.onFiles
  cases htask : task work.files with
  | ok a files =>
    rw [htask] at hrun
    obtain ⟨⟨hformed, hgrown⟩, -⟩ := hrun
    exact ⟨⟨⟨hformed, fun page hpage => hgrown _ (hwork.2 page hpage)⟩, trivial⟩, trivial⟩
  | error e files =>
    rw [htask] at hrun
    obtain ⟨hformed, hgrown⟩ := hrun
    exact ⟨⟨hformed, fun page hpage => hgrown _ (hwork.2 page hpage)⟩, trivial⟩

theorem recorded_makePage (page : Page) (h : paths.output.Inside (pageFile paths page)) :
    recorded.Keeps (makePage paths site page) := by
  have hne : (pageFile paths page).location ≠ [] := by
    intro hroot
    have hbelow := h.below
    rw [hroot] at hbelow
    exact h.ne (hroot.trans (List.prefix_nil.mp hbelow).symm)
  have hrender : recorded.Keeps (renderPage paths site page) := by
    refine Discipline.keeps_of_allows fun work hwork => ⟨?_, trivial⟩
    obtain ⟨session, hsession⟩ := stateAfter_renderPage paths site page work
    rw [hsession]
    exact hwork
  unfold makePage
  refine hrender.bind fun html => ?_
  have hwrite : recorded.Keeps
      (Task.onFiles BuildError.page (.writeInside (pageFile paths page) (bytes html))) :=
    recorded_onFiles (FileTask.grows_writeInside h.absolute hne)
  -- a page is recorded after it has been written, so the record and the file are seen together
  refine Discipline.keeps_of_allows fun work hwork => ?_
  have hrun := hwrite work hwork
  rw [stateAfter_bind]
  cases htask : Task.onFiles BuildError.page
      (.writeInside (pageFile paths page) (bytes html)) work with
  | ok a after =>
    rw [htask] at hrun
    obtain ⟨⟨⟨hformed, hpages⟩, -⟩, -⟩ := hrun
    refine ⟨⟨hformed, fun recordedPage hrecorded => ?_⟩, trivial⟩
    rcases List.mem_append.mp hrecorded with hold | hnew
    · exact hpages recordedPage hold
    · rw [List.mem_singleton.mp hnew]
      exact FileTask.hasFile_writeInside h.absolute hne hwork.1 (Task.onFiles_eq_ok htask).1
  | error e after =>
    rw [htask] at hrun
    exact hrun

theorem recorded_runStage (h : Rooted paths) (hsite : site.Slashless) {stage : Stage}
    (hstage : stage ∈ pageStages) : recorded.Keeps (runStage paths site stage) := by
  unfold runStage
  refine Task.keeps_forEach fun page hpage => ?_
  have hmake : recorded.Keeps (makePage paths site page) :=
    recorded_makePage page (Path.inside_output h.output (inward_of_mem_pages hsite hstage hpage))
  split
  · exact Task.keeps_attempt hmake
  · exact hmake

theorem recorded_copyAssets (h : Rooted paths) : recorded.Keeps (copyAssets paths) := by
  unfold copyAssets
  refine (Task.keeps_look _).bind fun held => ?_
  cases held with
  | true =>
    refine Discipline.Keeps.bind (recorded_onFiles (FileTask.grows_copy h.output)) fun count => ?_
    exact recorded_print _
  | false => exact recorded_print _

theorem recorded_writeData (h : Rooted paths) : recorded.Keeps (writeData paths site) := by
  have hfile : (dataFile paths).location ≠ [] := by
    unfold dataFile
    rw [Path.location_child (by decide)]
    simp
  unfold writeData
  refine Discipline.Keeps.bind (recorded_onFiles (FileTask.grows_makeDirectories h.output))
    fun _ => ?_
  exact recorded_onFiles (FileTask.grows_write hfile)

theorem records_copyAssets (paths : SitePaths) : Task.Records (copyAssets paths) [] := by
  unfold copyAssets
  refine Task.records_bind_nil (Task.records_look _) fun held => ?_
  cases held with
  | true =>
    exact Task.records_bind_nil (Task.records_onFiles _ _) fun _ => Task.records_print _
  | false => exact Task.records_print _

theorem records_writeData : Task.Records (writeData paths site) [] := by
  unfold writeData
  exact Task.records_bind_nil (Task.records_onFiles _ _) fun _ => Task.records_onFiles _ _

end Build

/-- What a build that succeeds has done: it has loaded a site, it reports as many pages as it has
recorded, these are planned pages of the site, and they are files in the end. -/
theorem build_eq_ok {base : Path} (hbase : base.isAbsolute = true) {config : Config}
    {now : Instant} {files : FileTree} (hfiles : files.WellFormed) {report : BuildReport}
    {final : Work} (h : build config base now (.start files) = .ok report final) :
    ∃ site loaded,
      Build.load config (config.paths.seenFrom base) now (.start files) = .ok site loaded ∧
      report.pages = final.pages.length ∧
      final.pages.Sublist (site.pages.map (Build.pageFile (config.paths.seenFrom base))) ∧
      ∀ page ∈ final.pages, final.files.HasFile page.location := by
  have hrooted : Build.Rooted (config.paths.seenFrom base) :=
    Build.rooted_seenFrom hbase config.paths
  unfold build at h
  obtain ⟨_, checked, hcheck, h⟩ := bind_eq_ok_iff.mp h
  obtain rfl := (Task.ask_eq_ok hcheck).2
  obtain ⟨site, loaded, hload, h⟩ := bind_eq_ok_iff.mp h
  obtain ⟨_, cleared, hclear, h⟩ := bind_eq_ok_iff.mp h
  obtain ⟨_, made, hstages, h⟩ := bind_eq_ok_iff.mp h
  obtain ⟨_, copied, hcopy, h⟩ := bind_eq_ok_iff.mp h
  obtain ⟨_, written, hwrite, h⟩ := bind_eq_ok_iff.mp h
  obtain ⟨_, _, hget, h⟩ := bind_eq_ok_iff.mp h
  cases hget
  obtain ⟨shown, _, hlook, h⟩ := bind_eq_ok_iff.mp h
  cases hlook
  obtain ⟨_, _, hprint, h⟩ := bind_eq_ok_iff.mp h
  cases hprint
  cases h
  have hcleared : cleared.pages = [] := by
    rw [(Build.records_clearOutput _).pages_eq hclear,
      (Build.records_load config _ now).pages_eq hload]
    rfl
  refine ⟨site, loaded, hload, rfl, ?_, ?_⟩
  · -- pages are recorded by the stages only
    obtain ⟨pages, hpages, hmade⟩ := Build.records_stages.of_ok hstages
    rw [hcleared, List.nil_append] at hmade
    have hwritten : written.pages = pages := by
      rw [Build.records_writeData.pages_eq hwrite, (Build.records_copyAssets _).pages_eq hcopy,
        hmade]
    exact hwritten ▸ hpages
  · -- there is none before the stages, and then each is a file
    have hloaded := Build.yields_load (Build.permitted_articles hrooted)
      (Build.permitted_authors hrooted) config now
    have hsite : site.Slashless := (Build.stemmed_of_load hrooted hfiles hload).slashless
    have hformed : cleared.files.WellFormed :=
      (Build.keeps_clearOutput hrooted).holds_of_ok hclear (hloaded.holds_of_ok hload hfiles)
    have hstart : Build.recorded.holds cleared := ⟨hformed, by simp [hcleared]⟩
    have hkeeps : Build.recorded.Keeps
        (Task.forEach (Build.runStage (config.paths.seenFrom base) site) pageStages) :=
      Task.keeps_forEach fun stage hstage => Build.recorded_runStage hrooted hsite hstage
    have hmade := hkeeps.holds_of_ok hstages hstart
    have hcopied := (Build.recorded_copyAssets hrooted).holds_of_ok hcopy hmade
    exact ((Build.recorded_writeData hrooted).holds_of_ok hwrite hcopied).2

/-- **When pages overwrite each other.** The pages that a build plans have different output files if
and only if no two articles go by one stem, and no stem of an article or an author leads out of its
section or shares its index page. Then the number of pages that the build reports is the number of
different files among them in the end. -/
theorem build_pages_apart {base : Path} (hbase : base.isAbsolute = true) {config : Config}
    {now : Instant} {files : FileTree} (hfiles : files.WellFormed) {report : BuildReport}
    {final : Work} (h : build config base now (.start files) = .ok report final) :
    let paths := config.paths.seenFrom base
    ∃ site loaded, Build.load config paths now (.start files) = .ok site loaded ∧
      final.pages.Sublist (site.pages.map (Build.pageFile paths)) ∧
      (∀ page ∈ final.pages, final.files.HasFile page.location) ∧
      ((site.pages.map fun page => (Build.pageFile paths page).location).Nodup ↔
        site.articleSlugs.Nodup ∧ ProperSlugs site.articleSlugs ∧
          ProperSlugs site.authors.names) ∧
      (site.articleSlugs.Nodup → ProperSlugs site.articleSlugs → ProperSlugs site.authors.names →
        report.pages = (final.pages.map Path.location).dedup.length) := by
  intro paths
  obtain ⟨site, loaded, hload, hcount, hplanned, hwritten⟩ := build_eq_ok hbase hfiles h
  have hsite := Build.stemmed_of_load (Build.rooted_seenFrom hbase config.paths) hfiles hload
  have hiff : (site.pages.map fun page => (Build.pageFile paths page).location).Nodup ↔
      site.articleSlugs.Nodup ∧ ProperSlugs site.articleSlugs ∧
        ProperSlugs site.authors.names := by
    rw [locations_pages paths hsite.slashless, List.nodup_map_iff (List.append_right_injective _)]
    exact nodup_places_iff hsite
  refine ⟨site, loaded, hload, hplanned, hwritten, hiff, fun hnodup harticles hauthors => ?_⟩
  -- the pages that have been made are some of the planned ones, so their files differ as well
  have hapart := hiff.mpr ⟨hnodup, harticles, hauthors⟩
  have hdifferent : (final.pages.map Path.location).Nodup := by
    refine List.Nodup.sublist (hplanned.map Path.location) ?_
    rwa [List.map_map]
  rw [hdifferent.dedup, List.length_map, hcount]

/-- The templates of a site, each of which shows its own name. -/
def plainTemplates : FileTree :=
  .directory (["about", "article", "author", "category", "games", "guides", "index", "news"].map
    fun name => (name ++ ".html", .file name.toUTF8))

/-- A site in `/site` with one article. -/
def articleSite (name : String) : FileTree :=
  .directory [("site", .directory [
    ("content", .directory [("articles", .directory [(name, .file ⟨#[]⟩)])]),
    ("templates", plainTemplates)])]

/-- An article with an ordinary name has a file of its own. -/
theorem build_pages_apart_hello :
    ∃ report final,
      build {} (.ofString "/site") ⟨0, 0⟩ (.start (articleSite "hello.md")) = .ok report final ∧
        report.pages = (final.pages.map Path.location).dedup.length := by
  have hfiles : (articleSite "hello.md").WellFormed := FileTree.wellFormed_of_allNamed (by decide)
  have hruns : passes (build {} (.ofString "/site") ⟨0, 0⟩) (.start (articleSite "hello.md"))
      (fun _ _ => true) = true := by decide +kernel
  obtain ⟨report, final, hbuild, -⟩ := passes_eq_true_iff.mp hruns
  obtain ⟨site, loaded, hload, -, -, -, hcount⟩ := build_pages_apart (by decide) hfiles hbuild
  have hsite : passes (Build.load {} (SitePaths.seenFrom {} (.ofString "/site")) ⟨0, 0⟩)
      (.start (articleSite "hello.md")) (fun site _ =>
        decide (site.articleSlugs = ["hello"] ∧ site.authors.names = [])) = true := by
    decide +kernel
  obtain ⟨_, _, hsame, hnames⟩ := passes_eq_true_iff.mp hsite
  rw [hload] at hsame
  cases hsame
  obtain ⟨harticles, hauthors⟩ := of_decide_eq_true hnames
  exact ⟨report, final, hbuild, hcount (by rw [harticles]; decide) (by rw [harticles]; decide)
    (by rw [hauthors]; decide)⟩

/-- The stem of the file `...md` is `..`, so the page of this article is written in place of the
home page. The build succeeds, and reports one page more than there are. -/
theorem build_overwrites_home_page :
    ∃ report final,
      build {} (.ofString "/site") ⟨0, 0⟩ (.start (articleSite "...md")) = .ok report final ∧
        (articleSite "...md").WellFormed ∧
        report.pages = 6 ∧ (final.pages.map Path.location).dedup.length = 5 ∧
        final.files.kind? ["site", "dist", "index.html"] = some (some "article".toUTF8) := by
  have hruns : passes (build {} (.ofString "/site") ⟨0, 0⟩) (.start (articleSite "...md"))
      fun report final => decide (report.pages = 6 ∧
        (final.pages.map Path.location).dedup.length = 5 ∧
        final.files.kind? ["site", "dist", "index.html"] = some (some "article".toUTF8)) := by
    decide +kernel
  obtain ⟨report, final, hbuild, hfinal⟩ := passes_eq_true_iff.mp hruns
  exact ⟨report, final, hbuild, FileTree.wellFormed_of_allNamed (by decide),
    of_decide_eq_true hfinal⟩

end StaticSite
