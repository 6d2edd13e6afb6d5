import StaticSite.Proofs.Site.Phases
import StaticSite.Proofs.Site.Sources
/-!
# StaticSite.Proofs.Site.Failures

**What a build that fails leaves behind.** The paths are checked before anything is done, and all
content is loaded before anything is taken away. So a build that refuses its settings has done
nothing, and one that cannot load its content has kept every file, those of the earlier build
included (`build_fails_safely`).

Which phase has failed is told by the error: errors about settings come from the check of the paths
alone, and errors about content from loading it (`build_eq_config_error_iff`,
`build_eq_content_error_iff`).
-/

set_option autoImplicit false

namespace StaticSite

variable {σ ε α β : Type}

/-! ### Errors of tasks

A combinator raises what its parts raise, and no more. With one lemma for each combinator, the
errors of a step are read off from its text. -/

/-- Whether a task raises no errors but some. -/
def Raises (allowed : ε → Prop) (task : EStateM ε σ α) : Prop :=
  ∀ s e t, task s = .error e t → allowed e

section

variable {allowed : ε → Prop} {task : EStateM ε σ α} {next : α → EStateM ε σ β}

theorem Raises.bind (h : Raises allowed task) (hnext : ∀ a, Raises allowed (next a)) :
    Raises allowed (task >>= next) := by
  intro s e u hrun
  rcases bind_eq_error_iff.mp hrun with hfirst | ⟨a, t, -, hsecond⟩
  · exact h s e u hfirst
  · exact hnext a t e u hsecond

theorem raises_of_ok (h : ∀ s, ∃ a t, task s = .ok a t) : Raises allowed task := by
  intro s e t hrun
  obtain ⟨a, u, hok⟩ := h s
  rw [hok] at hrun
  cases hrun

end

namespace Task

variable {allowed : ε → Prop}

theorem raises_onFiles {error : IoError → ε} (h : ∀ e, allowed (error e)) (task : FileTask α) :
    Raises allowed (onFiles error task) := by
  intro work e after hrun
  unfold onFiles at hrun
  split at hrun
  · cases hrun
  · cases hrun
    exact h _

/-- Reading that fails has changed nothing. -/
theorem ask_eq_error_iff {δ : Type} {error : δ → ε} {read : FileTree → Except δ α}
    {work after : Work} {e : ε} :
    ask error read work = .error e after ↔
      ∃ cause, read work.files = .error cause ∧ e = error cause ∧ after = work := by
  unfold ask
  cases read work.files with
  | ok a => simp
  | error cause =>
    constructor
    · rintro ⟨⟩
      exact ⟨cause, rfl, rfl, rfl⟩
    · rintro ⟨_, ⟨⟩, rfl, rfl⟩
      rfl

theorem raises_ask {δ : Type} {error : δ → ε} (h : ∀ e, allowed (error e))
    (read : FileTree → Except δ α) : Raises allowed (ask error read) := by
  intro work e after hrun
  obtain ⟨cause, -, rfl, -⟩ := ask_eq_error_iff.mp hrun
  exact h cause

theorem raises_print (line : String) : Raises allowed (print line : Task ε Unit) :=
  raises_of_ok fun _ => ⟨_, _, rfl⟩

theorem raises_look (view : FileTree → α) : Raises allowed (look view : Task ε α) :=
  raises_of_ok fun _ => ⟨_, _, rfl⟩

theorem raises_attempt (task : Task ε Unit) : Raises allowed (attempt task) := by
  refine raises_of_ok fun work => ?_
  unfold attempt
  split
  · exact ⟨_, _, rfl⟩
  · exact ⟨_, _, rfl⟩

theorem raises_forEach {act : α → Task ε Unit} (h : ∀ a, Raises allowed (act a)) (all : List α) :
    Raises allowed (forEach act all) := by
  induction all with
  | nil => exact raises_of_ok fun _ => ⟨_, _, rfl⟩
  | cons a rest ih => exact (h a).bind fun _ => ih

end Task

/-! ### Errors of the phases

Clearing, making pages and finishing are one phase here: all their errors are about the output, and
none of them can be mistaken for an error about settings or content. -/

/-- Whether an error is about what a build puts out, and not about what it is given. -/
def BuildError.IsOfOutput : BuildError → Prop
  | config _ => False
  | content _ => False
  | render _ => True
  | page _ => True
  | assets _ _ => True
  | directory _ => True

namespace Build

variable {paths : SitePaths} {site : Site} {config : Config} {now : Instant}

theorem raises_load (config : Config) (paths : SitePaths) (now : Instant) :
    Raises (fun error => ∀ cause, error ≠ .config cause) (load config paths now) := by
  unfold load
  refine (Task.raises_onFiles (fun _ => nofun) _).bind fun _ => ?_
  refine (Task.raises_onFiles (fun _ => nofun) _).bind fun _ => ?_
  refine (Task.raises_print _).bind fun _ => ?_
  refine (Task.raises_ask (fun _ => nofun) _).bind fun articles => ?_
  refine (Task.raises_print _).bind fun _ => ?_
  refine (Task.raises_print _).bind fun _ => ?_
  refine (Task.raises_ask (fun _ => nofun) _).bind fun authors => ?_
  refine (Task.raises_print _).bind fun _ => ?_
  refine (Task.raises_look _).bind fun games => ?_
  exact raises_of_ok fun _ => ⟨_, _, rfl⟩

theorem raises_clearOutput (paths : SitePaths) :
    Raises BuildError.IsOfOutput (clearOutput paths) := by
  have hmake : Raises BuildError.IsOfOutput
      (Task.onFiles BuildError.directory (.makeDirectories paths.output)) :=
    Task.raises_onFiles (fun _ => trivial) _
  unfold clearOutput
  refine (Task.raises_look _).bind fun held => ?_
  cases held with
  | true => exact (Task.raises_onFiles (fun _ => trivial) _).bind fun _ => hmake
  | false => exact hmake

theorem raises_makePage (paths : SitePaths) (site : Site) (page : Page) :
    Raises BuildError.IsOfOutput (makePage paths site page) := by
  have hrender : Raises BuildError.IsOfOutput (renderPage paths site page) := by
    intro work e after hrun
    unfold renderPage at hrun
    split at hrun
    · cases hrun
    · cases hrun
      trivial
  unfold makePage
  refine hrender.bind fun html => ?_
  refine (Task.raises_onFiles (fun _ => trivial) _).bind fun _ => ?_
  exact raises_of_ok fun _ => ⟨_, _, rfl⟩

theorem raises_runStage (paths : SitePaths) (site : Site) (stage : Stage) :
    Raises BuildError.IsOfOutput (runStage paths site stage) := by
  unfold runStage
  refine Task.raises_forEach (fun page => ?_) _
  split
  · exact Task.raises_attempt _
  · exact raises_makePage paths site page

theorem raises_finish (paths : SitePaths) (site : Site) :
    Raises BuildError.IsOfOutput (finish paths site) := by
  have hcopy : Raises BuildError.IsOfOutput (copyAssets paths) := by
    unfold copyAssets
    refine (Task.raises_look _).bind fun held => ?_
    cases held with
    | true => exact (Task.raises_onFiles (fun _ => trivial) _).bind fun _ => Task.raises_print _
    | false => exact Task.raises_print _
  have hdata : Raises BuildError.IsOfOutput (writeData paths site) := by
    unfold writeData
    exact (Task.raises_onFiles (fun _ => trivial) _).bind
      fun _ => Task.raises_onFiles (fun _ => trivial) _
  unfold finish
  refine hcopy.bind fun _ => hdata.bind fun _ => ?_
  refine (raises_of_ok fun _ => ⟨_, _, rfl⟩).bind fun work => ?_
  refine (Task.raises_look _).bind fun shown => (Task.raises_print _).bind fun _ => ?_
  exact raises_of_ok fun _ => ⟨_, _, rfl⟩

/-- What a build does once the content has been loaded. -/
def putOut (paths : SitePaths) (site : Site) : Task BuildError BuildReport := do
  clearOutput paths
  Task.forEach (runStage paths site) pageStages
  finish paths site

theorem raises_putOut (paths : SitePaths) (site : Site) :
    Raises BuildError.IsOfOutput (putOut paths site) :=
  (raises_clearOutput paths).bind fun _ =>
    (Task.raises_forEach (raises_runStage paths site) _).bind fun _ => raises_finish paths site

end Build

/-! ### Errors of a build

A build that fails has failed in one of three phases. Each phase raises errors of its own kind, so
the two other phases are ruled out by the error that is seen. -/

section

variable {config : Config} {base : Path} {now : Instant} {work after : Work}

theorem build_eq_bind (config : Config) (base : Path) (now : Instant) :
    build config base now =
      (do
        Task.ask .config fun _ => config.paths.validate base
        let site ← Build.load config (config.paths.seenFrom base) now
        Build.putOut (config.paths.seenFrom base) site) := rfl

/-- A build fails in the check of its paths, while it loads the content, or after that. -/
theorem build_eq_error_iff {error : BuildError} :
    build config base now work = .error error after ↔
      (∃ cause, config.paths.validate base = .error cause ∧ error = .config cause ∧ after = work) ∨
        config.paths.validate base = .ok () ∧
          (Build.load config (config.paths.seenFrom base) now work = .error error after ∨
            ∃ site loaded,
              Build.load config (config.paths.seenFrom base) now work = .ok site loaded ∧
                Build.putOut (config.paths.seenFrom base) site loaded = .error error after) := by
  rw [build_eq_bind, bind_eq_error_iff, Task.ask_eq_error_iff]
  refine or_congr Iff.rfl ?_
  constructor
  · rintro ⟨_, _, hask, h⟩
    obtain ⟨hcheck, rfl⟩ := Task.ask_eq_ok hask
    exact ⟨hcheck, bind_eq_error_iff.mp h⟩
  · rintro ⟨hcheck, h⟩
    refine ⟨(), work, ?_, bind_eq_error_iff.mpr h⟩
    unfold Task.ask
    rw [hcheck]

/-- Errors about settings come from the check of the paths, before anything is done. -/
theorem build_eq_config_error_iff {cause : ConfigError} :
    build config base now work = .error (.config cause) after ↔
      config.paths.validate base = .error cause ∧ after = work := by
  rw [build_eq_error_iff]
  constructor
  · rintro (⟨_, hcheck, ⟨⟩, hsame⟩ | ⟨-, hload | ⟨site, loaded, -, hput⟩⟩)
    · exact ⟨hcheck, hsame⟩
    · exact absurd rfl (Build.raises_load _ _ _ _ _ _ hload cause)
    · exact (Build.raises_putOut _ _ _ _ _ hput).elim
  · rintro ⟨hcheck, hsame⟩
    exact Or.inl ⟨cause, hcheck, rfl, hsame⟩

/-- Errors about content come from loading it, before the output is cleared. -/
theorem build_eq_content_error_iff {cause : ContentError} :
    build config base now work = .error (.content cause) after ↔
      config.paths.validate base = .ok () ∧
        Build.load config (config.paths.seenFrom base) now work =
          .error (.content cause) after := by
  rw [build_eq_error_iff]
  constructor
  · rintro (⟨_, -, ⟨⟩, -⟩ | ⟨hcheck, hload | ⟨site, loaded, -, hput⟩⟩)
    · exact ⟨hcheck, hload⟩
    · exact (Build.raises_putOut _ _ _ _ _ hput).elim
  · rintro ⟨hcheck, hload⟩
    exact Or.inr ⟨hcheck, Or.inl hload⟩

/-- A build that has not loaded the content has kept every file. -/
theorem file_build_iff_of_not_loaded (hbase : base.isAbsolute = true)
    (hfiles : work.files.WellFormed)
    (hload : ∀ site loaded,
      Build.load config (config.paths.seenFrom base) now work ≠ .ok site loaded)
    (place : Place) (content : ByteArray) :
    (stateAfter (build config base now) work).files.at? place = some (.file content) ↔
      work.files.at? place = some (.file content) := by
  have hkept : (stateAfter (Build.load config (config.paths.seenFrom base) now) work).files.at?
      place = some (.file content) ↔ work.files.at? place = some (.file content) := by
    rw [← FileTree.kind?_eq_file, ← FileTree.kind?_eq_file]
    exact Build.file_load_iff (Build.rooted_seenFrom hbase config.paths) config now hfiles
  cases hrun : build config base now work with
  | ok report final =>
    obtain ⟨site, loaded, _, _, hreaches, -⟩ := phases_of_build hrun
    exact absurd hreaches.load (hload site loaded)
  | error error after =>
    rw [stateAfter_of_error hrun]
    rcases build_eq_error_iff.mp hrun with
      ⟨_, -, -, rfl⟩ | ⟨-, hfailed | ⟨site, loaded, hloaded, -⟩⟩
    · exact Iff.rfl
    · rwa [stateAfter_of_error hfailed] at hkept
    · exact absurd hloaded (hload site loaded)

/-- **What a build that fails leaves behind.** A build fails for its settings exactly if the check
of the paths does, and then it has done nothing. It fails for the content exactly if the paths are
accepted and loading fails so; then every file is still there with the same bytes, and none is new,
neither in the output directory nor elsewhere. And whatever comes of a build, a file is gone or
changed only if all content has been loaded. -/
theorem build_fails_safely {base : Path} (hbase : base.isAbsolute = true) (config : Config)
    (now : Instant) {work : Work} (hfiles : work.files.WellFormed) :
    let paths := config.paths.seenFrom base
    (∀ cause after, build config base now work = .error (.config cause) after ↔
      config.paths.validate base = .error cause ∧ after = work) ∧
    (∀ cause after, build config base now work = .error (.content cause) after ↔
      config.paths.validate base = .ok () ∧
        Build.load config paths now work = .error (.content cause) after) ∧
    (∀ cause after, build config base now work = .error (.content cause) after →
      ∀ place content, after.files.at? place = some (.file content) ↔
        work.files.at? place = some (.file content)) ∧
    ∀ place content, work.files.at? place = some (.file content) →
      (stateAfter (build config base now) work).files.at? place ≠ some (.file content) →
      ∃ site loaded, Build.load config paths now work = .ok site loaded := by
  intro paths
  refine ⟨fun _ _ => build_eq_config_error_iff, fun _ _ => build_eq_content_error_iff, ?_, ?_⟩
  · -- the content has not been loaded, since loading it has failed
    intro cause after hrun place content
    have hload := (build_eq_content_error_iff.mp hrun).2
    rw [← stateAfter_of_error hrun]
    refine file_build_iff_of_not_loaded hbase hfiles (fun site loaded hloaded => ?_) place content
    rw [hload] at hloaded
    cases hloaded
  · -- if loading had failed too, then no file would have been lost
    intro place content hfile hlost
    cases hrun : Build.load config paths now work with
    | ok site loaded => exact ⟨site, loaded, rfl⟩
    | error error after =>
      have hload : ∀ site loaded, Build.load config paths now work ≠ .ok site loaded := by
        rw [hrun]
        exact fun _ _ => nofun
      exact absurd ((file_build_iff_of_not_loaded hbase hfiles hload place content).mpr hfile) hlost

end

/-! ### A site with an article that cannot be read -/

/-- A site in `/site` with the output of an earlier build. Its article is no text. -/
def brokenSite : FileTree :=
  .directory [("site", .directory [
    ("content", .directory [("articles", .directory [("a.md", .file ⟨#[255]⟩)])]),
    ("dist", .directory [("index.html", .file ⟨#[60]⟩)])])]

theorem wellFormed_brokenSite : brokenSite.WellFormed :=
  FileTree.wellFormed_of_allNamed (by decide)

/-- The page of the earlier build. -/
def earlierPage : Place := ["site", "dist", "index.html"]

/-- The output of an earlier build is still there if an article cannot be read, and paths that are
refused leave everything as it is. -/
theorem build_keeps_earlier_page :
    brokenSite.WellFormed ∧
      (∃ cause after, build {} (.ofString "/site") ⟨0, 0⟩ (.start brokenSite) =
          .error (.content cause) after ∧
        after.files.at? earlierPage = some (.file ⟨#[60]⟩)) ∧
      ∃ cause after, build { paths := { output := .ofString "." } } (.ofString "/site") ⟨0, 0⟩
          (.start brokenSite) = .error (.config cause) after ∧
        after = .start brokenSite := by
  refine ⟨wellFormed_brokenSite, ?_, ?_⟩
  · have hfails : fails (build {} (.ofString "/site") ⟨0, 0⟩) (.start brokenSite)
        (fun error => error matches .content _) = true := by decide +kernel
    obtain ⟨error, after, hrun, htest⟩ := fails_eq_true_iff.mp hfails
    cases error with
    | content cause =>
      refine ⟨cause, after, hrun, ?_⟩
      exact ((build_fails_safely (by decide) {} ⟨0, 0⟩ wellFormed_brokenSite).2.2.1 cause after
        hrun earlierPage _).mpr (by rfl)
    | _ => cases htest
  · have hfails : fails (build { paths := { output := .ofString "." } } (.ofString "/site") ⟨0, 0⟩)
        (.start brokenSite) (fun error => error matches .config _) = true := by decide +kernel
    obtain ⟨error, after, hrun, htest⟩ := fails_eq_true_iff.mp hfails
    cases error with
    | config cause =>
      exact ⟨cause, after, hrun, (((build_fails_safely (by decide) _ ⟨0, 0⟩
        wellFormed_brokenSite).1 cause after).mp hrun).2⟩
    | _ => cases htest

end StaticSite
