import StaticSite.Command.Run
import StaticSite.Proofs.Site.Confinement
/-!
# StaticSite.Proofs.Site.Frame

**What a site can lose and gain is its output.** Outside of the output directory a build does
nothing but make missing directories on its way, wherever it stops; whatever the files of the
content are called, no page is planned anywhere else; and cleaning takes away the output directory
with everything in it, and nothing more (`build_and_clean_change_output`).
-/

set_option autoImplicit false

namespace StaticSite

/-! ### Paths of places

A place that consists of names is where the path through these names leads, so a path that has been
made from a place can be removed as any other. -/

namespace Path

variable {place : Place}

theorem steps_ofPlace (h : ∀ name ∈ place, IsName name) : (ofPlace place).steps = place := by
  have hslash : ∀ piece ∈ place.map String.toList, '/' ∉ piece := by
    intro piece hpiece
    obtain ⟨name, hname, rfl⟩ := List.mem_map.mp hpiece
    exact (h name hname).2.2.2
  have hnames : (place.map String.toList).filter (!·.isEmpty) = place.map String.toList := by
    rw [List.filter_eq_self]
    intro piece hpiece
    obtain ⟨name, hname, rfl⟩ := List.mem_map.mp hpiece
    cases hchars : name.toList with
    | nil => exact absurd (String.toList_eq_nil_iff.mp hchars) (h name hname).1
    | cons c rest => rfl
  unfold ofPlace
  rw [steps_slash, steps_join_pieces hslash, stepsOf, hnames, List.map_map]
  simp [Function.comp_def]

theorem location_ofPlace (h : ∀ name ∈ place, IsName name) : (ofPlace place).location = place := by
  unfold location
  rw [steps_ofPlace h]
  exact FileTree.follow_names h []

end Path

/-! ### Cleaning

The path that is removed is made from the place of the directory that was found. So what is removed
is told by places, and the path that the output was found by does not matter any more. -/

namespace FileTree

variable {tree after : FileTree} {place goal : Place}

theorem kind?_erase (h : (tree.at? place).isSome) (hplace : place ≠ []) :
    (tree.erase place).kind? goal = if place <+: goal then none else tree.kind? goal := by
  split
  · rename_i hunder
    obtain ⟨rest, rfl⟩ := hunder
    rw [kind?, at?_erase_append h hplace]
    rfl
  · rename_i houtside
    exact kind?_erase_outside h houtside

/-- A directory that is removed under its own names is gone with everything below it. -/
theorem remove_ofPlace (hnames : ∀ name ∈ place, IsName name)
    (h : FileTask.remove (.ofPlace place) tree = .ok () after) :
    after.kind? goal = if place <+: goal then none else tree.kind? goal := by
  unfold FileTask.remove at h
  split at h
  · cases h
  · cases h
  · rename_i found entries hfind
    obtain ⟨rfl, hat⟩ := find_location hfind
    rw [Path.location_ofPlace hnames] at h hat
    rw [Path.steps_ofPlace hnames] at h
    -- the last name is no point, and there is one, since the root cannot be removed
    split at h
    · rename_i hlast
      exact absurd rfl (hnames _ (List.mem_of_getLast? hlast)).2.2.1
    · cases h
    · cases h
    · rename_i hlast
      cases h
      refine kind?_erase (Option.isSome_of_eq_some hat) ?_
      rintro rfl
      cases hlast

end FileTree

namespace Command

variable {config : Config} {base : Path} {dryRun : Bool} {work after : Work} {place : Place}

/-- Cleaning that succeeds takes away the output directory, if it is there and nothing is only
tried. -/
theorem kind?_cleanSite (h : cleanSite config base dryRun work = .ok () after) :
    after.files.kind? place =
      if dryRun = false ∧ work.files.holds (config.paths.seenFrom base).output = true ∧
        (config.paths.seenFrom base).output.location <+: place then none
      else work.files.kind? place := by
  unfold cleanSite at h
  obtain ⟨canonical, looked, hlook, h⟩ := bind_eq_ok_iff.mp h
  obtain ⟨rfl, rfl⟩ := Task.look_eq_ok hlook
  unfold FileTree.canonical? at h
  unfold FileTree.holds
  generalize (config.paths.seenFrom base).output = output at h ⊢
  cases hfind : work.files.find output with
  -- an output that is not found is not taken away, and nothing is
  | error e =>
    rw [hfind] at h
    cases h
    simp
  | ok found =>
    obtain ⟨directory, entry⟩ := found
    -- the directory that was found is at the place that the path spells
    obtain rfl := (FileTree.find_location hfind).1
    rw [hfind] at h
    cases dryRun with
    | true =>
      cases h
      simp
    | false =>
      obtain ⟨_, removed, hremove, hprint⟩ := bind_eq_ok_iff.mp h
      cases hprint
      have hfiles := (Task.onFiles_eq_ok hremove).1
      simpa using FileTree.remove_ofPlace (fun _ => Path.isName_of_mem_location) hfiles

end Command

/-! ### The output of a site -/

/-- **What a site can lose and gain is its output.** Outside of the output directory a build,
whether it succeeds or fails, only makes missing directories on its way; no page is planned outside
of it, whatever the content is called; and cleaning that succeeds takes away the output directory
with all below it, if it is there and is to be taken away, and nothing else. -/
theorem build_and_clean_change_output {base : Path} (hbase : base.isAbsolute = true)
    (config : Config) (now : Instant) {work : Work} (hfiles : work.files.WellFormed) :
    let paths := config.paths.seenFrom base
    (∀ place, ¬ paths.output.location <+: place →
      (stateAfter (build config base now) work).files.kind? place = work.files.kind? place ∨
        Build.OnTheWay paths place ∧ work.files.kind? place = none ∧
          (stateAfter (build config base now) work).files.kind? place = some none) ∧
    (∀ site loaded, Build.load config paths now work = .ok site loaded →
      ∀ stage ∈ pageStages, ∀ page ∈ stage.pages site,
        paths.output.Inside (Build.pageFile paths page)) ∧
    ∀ dryRun cleaned, Command.cleanSite config base dryRun work = .ok () cleaned →
      ∀ place, cleaned.files.kind? place =
        if dryRun = false ∧ work.files.holds paths.output = true ∧
          paths.output.location <+: place then none
        else work.files.kind? place := by
  intro paths
  have hrooted : Build.Rooted paths := Build.rooted_seenFrom hbase config.paths
  refine ⟨fun place houtside => ?_, fun site loaded hload stage hstage page hpage => ?_,
    fun dryRun cleaned hclean place => Command.kind?_cleanSite hclean⟩
  · exact (build_allows hbase config now hfiles).2 place (.inl houtside)
  · have hsite := Build.stemmed_of_load hrooted hfiles hload
    exact Path.inside_output hrooted.output (inward_of_mem_pages hsite.slashless hstage hpage)

/-- A site in `/site` with notes beside the output of an earlier build. -/
def notesSite : FileTree :=
  .directory [("site", .directory [("dist", .directory [("old.html", .file ⟨#[60]⟩)]),
    ("notes.txt", .file ⟨#[110]⟩)])]

/-- Neither a build nor cleaning touches the notes, and cleaning takes away the earlier output. -/
theorem build_and_clean_keep_notes :
    let base := Path.ofString "/site"
    (stateAfter (build {} base ⟨0, 0⟩) (.start notesSite)).files.kind? ["site", "notes.txt"] =
        some (some ⟨#[110]⟩) ∧
      ∃ cleaned, Command.cleanSite {} base false (.start notesSite) = .ok () cleaned ∧
        cleaned.files.kind? ["site", "notes.txt"] = some (some ⟨#[110]⟩) ∧
        cleaned.files.kind? ["site", "dist"] = none := by
  have hbase : (Path.ofString "/site").isAbsolute = true := by decide
  have hnotes : (Work.start notesSite).files.WellFormed :=
    FileTree.wellFormed_of_allNamed (by decide)
  obtain ⟨hbuild, -, hclean⟩ := build_and_clean_change_output hbase {} ⟨0, 0⟩ hnotes
  refine ⟨?_, _, rfl, ?_, ?_⟩
  · rcases hbuild ["site", "notes.txt"] (by decide) with hsame | ⟨-, hnone, -⟩
    · exact hsame
    · cases hnone
  · exact hclean false _ rfl ["site", "notes.txt"]
  · exact hclean false _ rfl ["site", "dist"]

end StaticSite
