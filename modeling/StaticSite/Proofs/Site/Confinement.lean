import StaticSite.Proofs.FileTree.Confinement
import StaticSite.Proofs.Path.Output
import StaticSite.Proofs.Site.Addresses
import StaticSite.Site.Build
/-!
# StaticSite.Proofs.Site.Confinement

What a build leaves alone. **A build changes nothing outside of the output directory, but for the
missing directories on the way to it, to the articles and to the authors** (`build_confined`),
whatever the configuration, the templates and the content are and wherever it fails.
-/

set_option autoImplicit false

namespace StaticSite

variable {ε α β : Type} {d : Discipline FileTree} {e : Discipline Work} {made : Place → Prop}

/-! ### Tasks

A build is put together from few combinators: work on the files, questions to them, printed lines,
loops and attempts. One lemma for each says when it keeps a discipline, and a step of a build is
then gone through combinator by combinator. -/

namespace Task

theorem yields_onFiles {error : IoError → ε} {task : FileTask α} {post : α → Prop}
    (h : d.Yields task post) : (d.onPart Work.files).Yields (onFiles error task) post := by
  intro work hwork
  have hrun := h work.files hwork
  unfold onFiles
  cases htask : task work.files with
  | ok a files =>
    rw [htask] at hrun
    exact hrun
  | error e files =>
    rw [htask] at hrun
    exact hrun

theorem onFiles_eq_ok {error : IoError → ε} {task : FileTask α} {work after : Work} {a : α}
    (h : onFiles error task work = .ok a after) :
    task work.files = .ok a after.files ∧ after = { work with files := after.files } := by
  unfold onFiles at h
  cases htask : task work.files with
  | ok b files =>
    rw [htask] at h
    cases h
    exact ⟨rfl, rfl⟩
  | error e files =>
    rw [htask] at h
    cases h

theorem yields_ask {δ : Type} {error : δ → ε} {read : FileTree → Except δ α} {post : α → Prop}
    (h : ∀ tree a, read tree = .ok a → post a) : e.Yields (ask error read) post := by
  intro work hwork
  unfold ask
  cases hread : read work.files with
  | ok a => exact ⟨Discipline.allows_refl hwork, h work.files a hread⟩
  | error e => exact Discipline.allows_refl hwork

theorem ask_eq_ok {δ : Type} {error : δ → ε} {read : FileTree → Except δ α} {work after : Work}
    {a : α} (h : ask error read work = .ok a after) : read work.files = .ok a ∧ work = after := by
  unfold ask at h
  split at h
  · rename_i b hread
    cases h
    exact ⟨hread, rfl⟩
  · cases h

theorem look_eq_ok {view : FileTree → α} {work after : Work} {a : α}
    (h : (look view : Task ε α) work = .ok a after) : a = view work.files ∧ work = after := by
  cases h
  exact ⟨rfl, rfl⟩

theorem keeps_look (view : FileTree → α) : e.Keeps (look view : Task ε α) :=
  fun _ hwork => ⟨Discipline.allows_refl hwork, trivial⟩

/-- A step that keeps the files as they are. -/
theorem keeps_of_files_eq {task : Task ε α}
    (h : ∀ work, (stateAfter task work).files = work.files) :
    (d.onPart Work.files).Keeps task := by
  refine Discipline.keeps_of_allows fun work hwork => ?_
  rw [Discipline.allows_onPart, h work]
  exact Discipline.allows_refl hwork

theorem keeps_print (line : String) : (d.onPart Work.files).Keeps (print line : Task ε Unit) :=
  keeps_of_files_eq fun _ => rfl

theorem keeps_attempt {task : Task ε Unit} (h : e.Keeps task) : e.Keeps (attempt task) := by
  intro work hwork
  have hrun := h work hwork
  unfold attempt
  cases htask : task work with
  | ok a after =>
    rw [htask] at hrun
    exact hrun
  | error e after =>
    rw [htask] at hrun
    exact ⟨hrun, trivial⟩

theorem keeps_forEach {act : α → Task ε Unit} {all : List α}
    (h : ∀ a ∈ all, e.Keeps (act a)) : e.Keeps (forEach act all) := by
  induction all with
  | nil => exact Discipline.keeps_pure ()
  | cons a rest ih =>
    exact (h a List.mem_cons_self).bind fun _ => ih fun b hb => h b (List.mem_cons_of_mem _ hb)

/-- What each round of a loop brings about and the later rounds keep, the loop brings about. -/
theorem forEach_establishes {act : α → Task ε Unit} {all : List α}
    (post : α → Work → Prop) (hkeeps : ∀ a ∈ all, e.Keeps (act a))
    (hpost : ∀ a ∈ all, ∀ before after, e.holds before → act a before = .ok () after →
      post a after)
    (hstays : ∀ a before after, e.holds before → e.Allows before after → post a before →
      post a after)
    {work after : Work} (hwork : e.holds work) (h : forEach act all work = .ok () after) :
    ∀ a ∈ all, post a after := by
  induction all generalizing work with
  | nil => simp
  | cons a rest ih =>
    obtain ⟨_, middle, hfirst, hrest⟩ := bind_eq_ok_iff.mp h
    have hmiddle := (hkeeps a List.mem_cons_self).holds_of_ok hfirst hwork
    have hkeepsRest : ∀ b ∈ rest, e.Keeps (act b) :=
      fun b hb => hkeeps b (List.mem_cons_of_mem _ hb)
    refine List.forall_mem_cons.mpr ⟨?_, ?_⟩
    · exact hstays a middle after hmiddle ((keeps_forEach hkeepsRest).allows_of_ok hrest hmiddle)
        (hpost a List.mem_cons_self work middle hwork hfirst)
    · exact ih hkeepsRest (fun b hb => hpost b (List.mem_cons_of_mem _ hb)) hmiddle hrest

end Task

/-! ### Steps of a build

Three directories are made by their paths, and a path may pass through places that are not below the
output. These are the places that a build may add to outside of it; everything else that it writes
has a path inside of the output. -/

namespace Build

open FileTask (Permitted)
open FileTree (within)

variable {paths : SitePaths}

/-- The places where a build may make directories: those on the way to the directories that it
needs. -/
def OnTheWay (paths : SitePaths) (place : Place) : Prop :=
  (articlesDirectory paths).Passes place ∨ (authorsDirectory paths).Passes place ∨
    paths.output.Passes place

/-- The discipline of a build. -/
def discipline (paths : SitePaths) : Discipline Work :=
  (within paths.output.location (OnTheWay paths)).onPart Work.files

/-- Whether a build has paths that start at the root. -/
structure Rooted (paths : SitePaths) : Prop where
  content : paths.content.isAbsolute = true
  output : paths.output.isAbsolute = true

theorem rooted_seenFrom {base : Path} (hbase : base.isAbsolute = true) (paths : SitePaths) :
    Rooted (paths.seenFrom base) :=
  ⟨Path.isAbsolute_resolve hbase _, Path.isAbsolute_resolve hbase _⟩

theorem Rooted.articles (h : Rooted paths) : (articlesDirectory paths).isAbsolute = true :=
  Path.isAbsolute_join h.content

theorem Rooted.authors (h : Rooted paths) : (authorsDirectory paths).isAbsolute = true :=
  Path.isAbsolute_join h.content

theorem permitted_of_inside {p : Path} (h : paths.output.Inside p) :
    Permitted paths.output.location (OnTheWay paths) p where
  absolute := h.absolute
  way place hpasses := (h.way place hpasses).symm.imp_right fun hway => .inr (.inr hway)

theorem permitted_output (h : Rooted paths) :
    Permitted paths.output.location (OnTheWay paths) paths.output where
  absolute := h.output
  way _ hpasses := .inr (.inr (.inr hpasses))

theorem permitted_articles (h : Rooted paths) :
    Permitted paths.output.location (OnTheWay paths) (articlesDirectory paths) where
  absolute := h.articles
  way _ hpasses := .inr (.inl hpasses)

theorem permitted_authors (h : Rooted paths) :
    Permitted paths.output.location (OnTheWay paths) (authorsDirectory paths) where
  absolute := h.authors
  way _ hpasses := .inr (.inr (.inl hpasses))

/-- Loading makes the directories of the articles and of the authors, and changes nothing else. -/
theorem yields_load {out : Place} (harticles : Permitted out made (articlesDirectory paths))
    (hauthors : Permitted out made (authorsDirectory paths)) (config : Config) (now : Instant) :
    ((within out made).onPart Work.files).Yields (load config paths now) Site.Stemmed := by
  unfold load
  refine (Task.yields_onFiles (FileTask.keeps_makeDirectories harticles)).bind fun _ _ => ?_
  refine (Task.yields_onFiles (FileTask.keeps_makeDirectories hauthors)).bind fun _ _ => ?_
  refine (Task.keeps_print _).bind fun _ => ?_
  refine (Task.yields_ask fun _ _ hread => isStem_slug hread).bind
    fun articles hslugs => ?_
  refine (Task.keeps_print _).bind fun _ => ?_
  refine (Task.keeps_print _).bind fun _ => ?_
  refine (Task.yields_ask fun _ _ hread =>
    And.intro (isStem_author hread) (ascending_loadAuthors hread)).bind fun authors hnames => ?_
  refine (Task.keeps_print _).bind fun _ => ?_
  refine (Task.keeps_look _).bind fun games => ?_
  exact Discipline.yields_pure ⟨hslugs, hnames.1, hnames.2⟩

theorem stemmed_of_load (h : Rooted paths) {config : Config} {now : Instant} {work loaded : Work}
    (hfiles : work.files.WellFormed) {site : Site}
    (hload : load config paths now work = .ok site loaded) : site.Stemmed := by
  have hyields := yields_load (permitted_articles h) (permitted_authors h) config now work hfiles
  rw [hload] at hyields
  exact hyields.2

theorem keeps_removeOutput (paths : SitePaths) : (discipline paths).Keeps
    (Task.onFiles BuildError.directory (.remove paths.output)) :=
  Task.yields_onFiles (FileTask.keeps_remove List.prefix_rfl)

theorem keeps_clearOutput (h : Rooted paths) : (discipline paths).Keeps (clearOutput paths) := by
  have hmake : (discipline paths).Keeps
      (Task.onFiles BuildError.directory (.makeDirectories paths.output)) :=
    Task.yields_onFiles (FileTask.keeps_makeDirectories (permitted_output h))
  unfold clearOutput
  refine (Task.keeps_look _).bind fun holds => ?_
  cases holds with
  | true => exact (keeps_removeOutput paths).bind fun _ => hmake
  | false => exact hmake

/-- Rendering changes nothing but the bodies that are kept. -/
theorem stateAfter_renderPage (paths : SitePaths) (site : Site) (page : Page) (work : Work) :
    ∃ session, stateAfter (renderPage paths site page) work = { work with session := session } := by
  unfold stateAfter renderPage
  split
  · rename_i hrun
    split at hrun
    all_goals cases hrun
    exact ⟨_, rfl⟩
  · rename_i hrun
    split at hrun
    all_goals cases hrun
    exact ⟨_, rfl⟩

theorem keeps_makePage (h : Rooted paths) {site : Site} {page : Page}
    (hpage : Path.Inward (Path.steps ⟨page.address.toList⟩ ++ ["index.html"])) :
    (discipline paths).Keeps (makePage paths site page) := by
  have hfile : paths.output.Inside (pageFile paths page) := Path.inside_output h.output hpage
  have hrender : (discipline paths).Keeps (renderPage paths site page) := by
    refine Task.keeps_of_files_eq fun work => ?_
    obtain ⟨session, hsession⟩ := stateAfter_renderPage paths site page work
    rw [hsession]
  unfold makePage
  refine hrender.bind fun html => ?_
  refine Discipline.Keeps.bind (Task.yields_onFiles
    (FileTask.keeps_writeInside (permitted_of_inside hfile) hfile.below hfile.ne)) fun _ => ?_
  exact Task.keeps_of_files_eq fun _ => rfl

theorem keeps_runStage (h : Rooted paths) {site : Site} (hsite : site.Slashless) {stage : Stage}
    (hstage : stage ∈ pageStages) : (discipline paths).Keeps (runStage paths site stage) := by
  unfold runStage
  refine Task.keeps_forEach fun page hpage => ?_
  have hmake : (discipline paths).Keeps (makePage paths site page) :=
    keeps_makePage h (inward_of_mem_pages hsite hstage hpage)
  split
  · exact Task.keeps_attempt hmake
  · exact hmake

theorem keeps_copyAssets (h : Rooted paths) : (discipline paths).Keeps (copyAssets paths) := by
  unfold copyAssets
  refine (Task.keeps_look _).bind fun held => ?_
  cases held with
  | true =>
    refine Discipline.Keeps.bind (Task.yields_onFiles
      (FileTask.keeps_copy (permitted_output h) List.prefix_rfl)) fun count => ?_
    exact Task.keeps_print _
  | false => exact Task.keeps_print _

theorem keeps_writeData (h : Rooted paths) (site : Site) :
    (discipline paths).Keeps (writeData paths site) := by
  have hfile : paths.output.Inside (dataFile paths) :=
    Path.inside_child h.output (by decide)
  unfold writeData
  refine Discipline.Keeps.bind (Task.yields_onFiles
    (FileTask.keeps_makeDirectories (permitted_output h))) fun _ => ?_
  exact Task.yields_onFiles (FileTask.keeps_write hfile.below hfile.ne)

end Build

open Build (discipline)

theorem keeps_build {base : Path} (hbase : base.isAbsolute = true) (config : Config)
    (now : Instant) : (discipline (config.paths.seenFrom base)).Keeps (build config base now) := by
  have h := Build.rooted_seenFrom hbase config.paths
  unfold build
  refine Discipline.Keeps.bind (Task.yields_ask fun _ _ _ => trivial) fun _ => ?_
  refine (Build.yields_load (Build.permitted_articles h) (Build.permitted_authors h) config
    now).bind fun site hsite => ?_
  refine (Build.keeps_clearOutput h).bind fun _ => ?_
  refine Discipline.Keeps.bind (Task.keeps_forEach fun stage hstage =>
    Build.keeps_runStage h hsite.slashless hstage) fun _ => ?_
  refine (Build.keeps_copyAssets h).bind fun _ => ?_
  refine (Build.keeps_writeData h site).bind fun _ => ?_
  refine Discipline.Keeps.bind (Task.keeps_of_files_eq fun _ => rfl) fun work => ?_
  refine (Task.keeps_look _).bind fun shown => ?_
  refine (Task.keeps_print _).bind fun _ => ?_
  exact Discipline.keeps_pure _

/-- A build changes nothing outside of the output directory, but for directories on its way. -/
theorem build_allows {base : Path} (hbase : base.isAbsolute = true) (config : Config)
    (now : Instant) {work : Work} (hfiles : work.files.WellFormed) :
    (discipline (config.paths.seenFrom base)).Allows work
      (stateAfter (build config base now) work) :=
  (keeps_build hbase config now).allows hfiles

end StaticSite
