import StaticSite.Proofs.FileTree.Order
import StaticSite.Proofs.FileTree.Reach
import StaticSite.Proofs.Site.Confinement
/-!
# StaticSite.Proofs.Site.Phases

The phases of a build. **A build that succeeds has loaded the content, cleared the output, made the
pages and then come to an end** (`phases_of_build`), and what each of these has done is told by what
it has done to the files. What making directories and writing files keep, wherever they do it, the
loading of content and the making of pages keep (`Build.Respects`).
-/

set_option autoImplicit false

namespace StaticSite

namespace Build

variable {paths : SitePaths} {site : Site} {d : Discipline FileTree}

theorem isAbsolute_pageFile (hout : paths.output.isAbsolute = true) (page : Page) :
    (pageFile paths page).isAbsolute = true := by
  unfold pageFile Path.output
  dsimp only
  split
  · exact Path.isAbsolute_join hout
  · split
    · exact Path.isAbsolute_join hout
    · exact Path.isAbsolute_join (Path.isAbsolute_join hout)

/-! ### What phases keep

A discipline that is kept wherever directories are made and files are written is kept by loading and
by the making of pages, which do nothing else to the files. Clearing and copying remove and
overwrite and have lemmas of their own. -/

/-- Whether a discipline is followed wherever directories are made and files are written. -/
structure Respects (d : Discipline FileTree) : Prop where
  make : ∀ p, p.isAbsolute = true → d.Keeps (FileTask.makeDirectories p)
  write : ∀ p content, d.Keeps (FileTask.write p content)

theorem respects_regular : Respects FileTask.regular :=
  ⟨fun _ => FileTask.regular_makeDirectories, FileTask.regular_write⟩

theorem respects_standing : Respects FileTask.standing :=
  ⟨fun _ => FileTask.stands_makeDirectories, fun _ _ => FileTask.stands_write⟩

theorem Respects.writeInside (hd : Respects d) {p : Path} (hp : p.isAbsolute = true)
    (content : ByteArray) : d.Keeps (FileTask.writeInside p content) := by
  unfold FileTask.writeInside
  split
  · rename_i parent hparent
    exact (hd.make parent (Path.steps_of_parent? hp hparent).1).bind fun _ => hd.write p content
  · exact (Discipline.keeps_pure ()).bind fun _ => hd.write p content

theorem Respects.load (hd : Respects d) (h : Rooted paths) (config : Config) (now : Instant) :
    (d.onPart Work.files).Keeps (load config paths now) := by
  have harticles := hd.make (articlesDirectory paths) h.articles
  have hauthors := hd.make (authorsDirectory paths) h.authors
  unfold Build.load
  refine Discipline.Keeps.bind (Task.yields_onFiles harticles) fun _ => ?_
  refine Discipline.Keeps.bind (Task.yields_onFiles hauthors) fun _ => ?_
  refine (Task.keeps_print _).bind fun _ => ?_
  refine Discipline.Keeps.bind (Task.yields_ask fun _ _ _ => trivial) fun articles => ?_
  refine (Task.keeps_print _).bind fun _ => ?_
  refine (Task.keeps_print _).bind fun _ => ?_
  refine Discipline.Keeps.bind (Task.yields_ask fun _ _ _ => trivial) fun authors => ?_
  refine (Task.keeps_print _).bind fun _ => ?_
  exact (Task.keeps_look _).bind fun games => Discipline.keeps_pure _

theorem Respects.makePage (hd : Respects d) (hout : paths.output.isAbsolute = true)
    (page : Page) : (d.onPart Work.files).Keeps (makePage paths site page) := by
  have hrender : (d.onPart Work.files).Keeps (renderPage paths site page) := by
    refine Task.keeps_of_files_eq fun work => ?_
    obtain ⟨session, hsession⟩ := stateAfter_renderPage paths site page work
    rw [hsession]
  unfold Build.makePage
  refine hrender.bind fun html => ?_
  refine Discipline.Keeps.bind
    (Task.yields_onFiles (hd.writeInside (isAbsolute_pageFile hout page) _)) fun _ => ?_
  exact Task.keeps_of_files_eq fun _ => rfl

theorem Respects.stages (hd : Respects d) (hout : paths.output.isAbsolute = true)
    (stages : List Stage) :
    (d.onPart Work.files).Keeps (Task.forEach (runStage paths site) stages) := by
  refine Task.keeps_forEach fun stage _ => Task.keeps_forEach fun page _ => ?_
  split
  · exact Task.keeps_attempt (hd.makePage hout page)
  · exact hd.makePage hout page

theorem Respects.writeData (hd : Respects d) (hout : paths.output.isAbsolute = true)
    (site : Site) : (d.onPart Work.files).Keeps (writeData paths site) :=
  Discipline.Keeps.bind (Task.yields_onFiles (hd.make paths.output hout)) fun _ =>
    Task.yields_onFiles (hd.write _ _)

theorem regular_clearOutput (hout : paths.output.isAbsolute = true) :
    (FileTask.regular.onPart Work.files).Keeps (clearOutput paths) := by
  have hmake : (FileTask.regular.onPart Work.files).Keeps
      (Task.onFiles BuildError.directory (.makeDirectories paths.output)) :=
    Task.yields_onFiles (FileTask.regular_makeDirectories hout)
  unfold clearOutput
  refine (Task.keeps_look _).bind fun holds => ?_
  cases holds with
  | true =>
    exact Discipline.Keeps.bind (Task.yields_onFiles (FileTask.regular_remove paths.output))
      fun _ => hmake
  | false => exact hmake

theorem regular_copyAssets (hout : paths.output.isAbsolute = true) :
    (FileTask.regular.onPart Work.files).Keeps (copyAssets paths) := by
  unfold copyAssets
  refine (Task.keeps_look _).bind fun held => ?_
  cases held with
  | true =>
    exact Discipline.Keeps.bind (Task.yields_onFiles (FileTask.regular_copyWith _ hout))
      fun count => Task.keeps_print _
  | false => exact Task.keeps_print _

/-! ### What phases have done

Each phase is inverted once: from its success follow the calls that it has made and the work that it
has left. Later proofs start from these facts and do not open the phases again. -/

/-- Loading that succeeds has made two directories and read the content from what is there then. -/
theorem load_eq_ok {config : Config} {now : Instant} {work loaded : Work}
    (h : load config paths now work = .ok site loaded) :
    ∃ made articles authors,
      FileTask.makeDirectories (articlesDirectory paths) work.files = .ok () made ∧
      FileTask.makeDirectories (authorsDirectory paths) made = .ok () loaded.files ∧
      loadArticles loaded.files config.extensions now (articlesDirectory paths) = .ok articles ∧
      loadAuthors loaded.files (authorsDirectory paths) = .ok authors ∧
      site = ⟨config.site, articles, authors, loadGames loaded.files (gamesDirectory paths)⟩ ∧
      loaded = { work with
        files := loaded.files
        printed := work.printed ++ ["Parsing articles...",
          "Found " ++ toString articles.length ++ " article(s)", "Loading authors...",
          "Found " ++ toString authors.length ++ " author(s)"] } := by
  unfold load at h
  obtain ⟨_, first, harticles, h⟩ := bind_eq_ok_iff.mp h
  obtain ⟨_, second, hauthors, h⟩ := bind_eq_ok_iff.mp h
  obtain ⟨_, _, hprint, h⟩ := bind_eq_ok_iff.mp h
  cases hprint
  obtain ⟨articles, _, hask, h⟩ := bind_eq_ok_iff.mp h
  obtain ⟨hread, rfl⟩ := Task.ask_eq_ok hask
  obtain ⟨_, _, hprint, h⟩ := bind_eq_ok_iff.mp h
  cases hprint
  obtain ⟨_, _, hprint, h⟩ := bind_eq_ok_iff.mp h
  cases hprint
  obtain ⟨authors, _, hask, h⟩ := bind_eq_ok_iff.mp h
  obtain ⟨hreadAuthors, rfl⟩ := Task.ask_eq_ok hask
  obtain ⟨_, _, hprint, h⟩ := bind_eq_ok_iff.mp h
  cases hprint
  obtain ⟨games, _, hlook, h⟩ := bind_eq_ok_iff.mp h
  cases hlook
  cases h
  -- questions and printed lines leave the files alone, so only the two directories count
  obtain ⟨hfirst, hworkFirst⟩ := Task.onFiles_eq_ok harticles
  obtain ⟨hsecond, hworkSecond⟩ := Task.onFiles_eq_ok hauthors
  refine ⟨first.files, articles, authors, hfirst, hsecond, hread, hreadAuthors, rfl, ?_⟩
  rw [hworkSecond, hworkFirst]
  simp

/-- Clearing that succeeds has removed the output, if it was there, and made it anew. -/
theorem clearOutput_eq_ok {work cleared : Work} (h : clearOutput paths work = .ok () cleared) :
    ∃ removed, (if work.files.holds paths.output then
        FileTask.remove paths.output work.files = .ok () removed
      else removed = work.files) ∧
      FileTask.makeDirectories paths.output removed = .ok () cleared.files ∧
      cleared = { work with files := cleared.files } := by
  unfold clearOutput at h
  obtain ⟨holds, _, hlook, h⟩ := bind_eq_ok_iff.mp h
  obtain ⟨rfl, rfl⟩ := Task.look_eq_ok hlook
  cases hholds : work.files.holds paths.output with
  | false =>
    rw [hholds] at h
    exact ⟨work.files, by simp, (Task.onFiles_eq_ok h).1, (Task.onFiles_eq_ok h).2⟩
  | true =>
    rw [hholds] at h
    obtain ⟨_, removed, hremove, h⟩ := bind_eq_ok_iff.mp h
    obtain ⟨hremoved, hwork⟩ := Task.onFiles_eq_ok hremove
    obtain ⟨hmade, hcleared⟩ := Task.onFiles_eq_ok h
    refine ⟨removed.files, by simpa using hremoved, hmade, ?_⟩
    rw [hcleared, hwork]

/-- The record of the site is there when it has been written, and no other file has changed. -/
theorem writeData_eq_ok (hout : paths.output.isAbsolute = true) {work written : Work}
    (hfiles : work.files.WellFormed) (h : writeData paths site work = .ok () written) :
    written.files.kind? (dataFile paths).location =
        some (some (bytes (Json.pretty site.data))) ∧
      ∀ place, place ≠ (dataFile paths).location → ∀ content,
        written.files.kind? place = some (some content) ↔
          work.files.kind? place = some (some content) := by
  obtain ⟨_, made, hmake, h⟩ := bind_eq_ok_iff.mp h
  obtain ⟨hmake, -⟩ := Task.onFiles_eq_ok hmake
  obtain ⟨hwrite, -⟩ := Task.onFiles_eq_ok h
  have hspared : ∀ place, (FileTree.sparing place).Allows work.files made.files := by
    intro place
    have hkeeps : (FileTree.sparing place).Keeps (FileTask.makeDirectories paths.output) :=
      FileTask.spares_makeDirectories hout
    exact hkeeps.allows_of_ok hmake hfiles
  have hkind := FileTree.write_ok (hspared []).1.root (FileTask.write_eq_ok_iff.mp hwrite)
  refine ⟨by rw [hkind, if_pos rfl], fun place hplace content => ?_⟩
  rw [hkind, if_neg hplace]
  exact (hspared place).2 content

/-- What is done after the pages have been made. -/
def finish (paths : SitePaths) (site : Site) : Task BuildError BuildReport := do
  copyAssets paths
  writeData paths site
  let count := (← get).pages.length
  let shown ← Task.look fun files => (files.canonical? paths.output).getD paths.output
  Task.print ("Wrote " ++ toString count ++ " page(s) to " ++ shown.toString)
  pure ⟨paths.output, site.articles.length, site.authors.length, site.games.length, count⟩

end Build

namespace Build

variable {paths : SitePaths} {site : Site}

/-- A build that comes to its end has copied files, written its record and printed a line. -/
theorem finish_eq_ok {made final : Work} {report : BuildReport}
    (h : finish paths site made = .ok report final) :
    ∃ copied written, copyAssets paths made = .ok () copied ∧
      writeData paths site copied = .ok () written ∧ final.files = written.files := by
  obtain ⟨_, copied, hcopy, h⟩ := bind_eq_ok_iff.mp h
  obtain ⟨_, written, hwrite, h⟩ := bind_eq_ok_iff.mp h
  obtain ⟨_, _, hget, h⟩ := bind_eq_ok_iff.mp h
  cases hget
  obtain ⟨shown, _, hlook, h⟩ := bind_eq_ok_iff.mp h
  cases hlook
  obtain ⟨_, _, hprint, h⟩ := bind_eq_ok_iff.mp h
  cases hprint
  cases h
  exact ⟨copied, written, hcopy, hwrite, rfl⟩

end Build

/-- The works through which a build comes to the files that are copied as they are. -/
structure Reaches (config : Config) (base : Path) (now : Instant) (start : Work) (site : Site)
    (loaded cleared made : Work) : Prop where
  accepted : config.paths.validate base = .ok ()
  load : Build.load config (config.paths.seenFrom base) now start = .ok site loaded
  clear : Build.clearOutput (config.paths.seenFrom base) loaded = .ok () cleared
  stages : Task.forEach (Build.runStage (config.paths.seenFrom base) site) pageStages cleared =
    .ok () made

/-- What a build does until all pages have been made. -/
def Build.prepare (config : Config) (base : Path) (now : Instant) : Task BuildError Site := do
  Task.ask .config fun _ => config.paths.validate base
  let site ← Build.load config (config.paths.seenFrom base) now
  Build.clearOutput (config.paths.seenFrom base)
  Task.forEach (Build.runStage (config.paths.seenFrom base) site) pageStages
  pure site

theorem reaches_of_prepare {config : Config} {base : Path} {now : Instant} {start made : Work}
    {site : Site} (h : Build.prepare config base now start = .ok site made) :
    ∃ loaded cleared, Reaches config base now start site loaded cleared made := by
  obtain ⟨_, checked, hask, h⟩ := bind_eq_ok_iff.mp h
  obtain ⟨hcheck, rfl⟩ := Task.ask_eq_ok hask
  obtain ⟨loadedSite, loaded, hload, h⟩ := bind_eq_ok_iff.mp h
  obtain ⟨_, cleared, hclear, h⟩ := bind_eq_ok_iff.mp h
  obtain ⟨_, made, hstages, h⟩ := bind_eq_ok_iff.mp h
  cases h
  exact ⟨loaded, cleared, hcheck, hload, hclear, hstages⟩

namespace Reaches

variable {config : Config} {base : Path} {now : Instant} {start loaded cleared made : Work}
  {site : Site}

/-- A build comes to one state only. -/
theorem unique {other : Site} {loaded' cleared' made' : Work}
    (h : Reaches config base now start site loaded cleared made)
    (h' : Reaches config base now start other loaded' cleared' made') :
    site = other ∧ cleared = cleared' ∧ made = made' := by
  have hload := h.load.symm.trans h'.load
  cases hload
  have hclear := h.clear.symm.trans h'.clear
  cases hclear
  have hstages := h.stages.symm.trans h'.stages
  cases hstages
  exact ⟨rfl, rfl, rfl⟩

theorem regular_loaded (hbase : base.isAbsolute = true) (hfiles : start.files.Regular)
    (h : Reaches config base now start site loaded cleared made) : loaded.files.Regular :=
  (Build.respects_regular.load (Build.rooted_seenFrom hbase config.paths) config now).holds_of_ok
    h.load hfiles

theorem regular_cleared (hbase : base.isAbsolute = true) (hfiles : start.files.Regular)
    (h : Reaches config base now start site loaded cleared made) : cleared.files.Regular :=
  (Build.regular_clearOutput (Build.rooted_seenFrom hbase config.paths).output).holds_of_ok
    h.clear (h.regular_loaded hbase hfiles)

theorem regular_made (hbase : base.isAbsolute = true) (hfiles : start.files.Regular)
    (h : Reaches config base now start site loaded cleared made) : made.files.Regular :=
  (Build.respects_regular.stages (Build.rooted_seenFrom hbase config.paths).output
    pageStages).holds_of_ok h.stages (h.regular_cleared hbase hfiles)

/-- Nothing but the output and directories on the way has changed so far. -/
theorem allows (hbase : base.isAbsolute = true) (hfiles : start.files.WellFormed)
    (h : Reaches config base now start site loaded cleared made) :
    (Build.discipline (config.paths.seenFrom base)).Allows start made := by
  have hrooted := Build.rooted_seenFrom hbase config.paths
  have hsite := (Build.stemmed_of_load hrooted hfiles h.load).slashless
  have hload := (Build.yields_load (Build.permitted_articles hrooted)
    (Build.permitted_authors hrooted) config now).allows_of_ok h.load hfiles
  have hclear := (Build.keeps_clearOutput hrooted).allows_of_ok h.clear hload.1
  have hkeeps : (Build.discipline (config.paths.seenFrom base)).Keeps
      (Task.forEach (Build.runStage (config.paths.seenFrom base) site) pageStages) :=
    Task.keeps_forEach fun stage hstage => Build.keeps_runStage hrooted hsite hstage
  exact (hload.trans hclear).trans (hkeeps.allows_of_ok h.stages hclear.1)

/-- A directory that was there before, and that is not found through the output, is there. -/
theorem holdsDirectory (hbase : base.isAbsolute = true)
    (hfiles : start.files.Regular)
    (h : Reaches config base now start site loaded cleared made) {p : Path}
    (hp : ∀ place, p.Passes place → ¬ (config.paths.seenFrom base).output.location <+: place)
    (hheld : start.files.holdsDirectory p = true) : made.files.holdsDirectory p = true := by
  obtain ⟨husable, hpasses⟩ := (FileTree.holdsDirectory_iff hfiles.1.root).mp hheld
  refine (FileTree.holdsDirectory_iff (h.regular_made hbase hfiles).1.root).mpr
    ⟨husable, fun place hplace => ?_⟩
  rcases (h.allows hbase hfiles.1).2 place (.inl (hp place hplace)) with hsame | ⟨-, hnone, -⟩
  · rw [hsame]
    exact hpasses place hplace
  · rw [hpasses place hplace] at hnone
    cases hnone

/-- The output directory is there once it has been cleared. -/
theorem holdsDirectory_output (hbase : base.isAbsolute = true)
    (hfiles : start.files.Regular)
    (h : Reaches config base now start site loaded cleared made) :
    made.files.holdsDirectory (config.paths.seenFrom base).output = true := by
  have hrooted := Build.rooted_seenFrom hbase config.paths
  have hloaded := h.regular_loaded hbase hfiles
  have hcleared := h.regular_cleared hbase hfiles
  obtain ⟨removed, hremoved, hmake, -⟩ := Build.clearOutput_eq_ok h.clear
  have hformed : removed.WellFormed := by
    split at hremoved
    · exact ((FileTask.regular_remove _).holds_of_ok hremoved hloaded).1
    · exact hremoved ▸ hloaded.1
  have hheld := FileTask.holdsDirectory_makeDirectories hrooted.output hformed hmake
  have hkeeps : (FileTask.standing.onPart Work.files).Keeps
      (Task.forEach (Build.runStage (config.paths.seenFrom base) site) pageStages) :=
    Build.respects_standing.stages hrooted.output pageStages
  exact FileTask.holdsDirectory_of_standing hcleared.1 (hkeeps.allows_of_ok h.stages hcleared.1)
    hheld

end Reaches

/-- A build that succeeds has come through all of its phases. -/
theorem phases_of_build {config : Config} {base : Path} {now : Instant} {start final : Work}
    {report : BuildReport} (h : build config base now start = .ok report final) :
    ∃ site loaded cleared made, Reaches config base now start site loaded cleared made ∧
      Build.finish (config.paths.seenFrom base) site made = .ok report final := by
  unfold build at h
  obtain ⟨_, checked, hask, h⟩ := bind_eq_ok_iff.mp h
  obtain ⟨hcheck, rfl⟩ := Task.ask_eq_ok hask
  obtain ⟨site, loaded, hload, h⟩ := bind_eq_ok_iff.mp h
  obtain ⟨_, cleared, hclear, h⟩ := bind_eq_ok_iff.mp h
  obtain ⟨_, made, hstages, h⟩ := bind_eq_ok_iff.mp h
  exact ⟨site, loaded, cleared, made, ⟨hcheck, hload, hclear, hstages⟩, h⟩

/-- A build that succeeds ends with the state that it has reached. -/
theorem Reaches.finish_of_build {config : Config} {base : Path} {now : Instant}
    {start loaded cleared made final : Work} {site : Site} {report : BuildReport}
    (h : Reaches config base now start site loaded cleared made)
    (hbuild : build config base now start = .ok report final) :
    Build.finish (config.paths.seenFrom base) site made = .ok report final := by
  obtain ⟨other, _, _, made', h', hfinish⟩ := phases_of_build hbuild
  obtain ⟨rfl, -, rfl⟩ := h.unique h'
  exact hfinish

end StaticSite
