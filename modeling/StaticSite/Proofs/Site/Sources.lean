import StaticSite.Proofs.Config.Validation
import StaticSite.Proofs.Site.Confinement
/-!
# StaticSite.Proofs.Site.Sources

Which sources survive a build. Paths are refused if the output is a source directory or contains
one, but not if it is inside of one. So **a build keeps every source that is not in the output
directory, and clearing the output takes away exactly the others** (`build_spares_sources`). All
sources stay if no source directory contains the output, but not what stands in `static/img` if the
output goes there (`build_loses_source_in_output`).
-/

set_option autoImplicit false

namespace StaticSite

namespace Build

variable {paths : SitePaths} {place : Place} {content : ByteArray}

/-- The directories of the sources. -/
def sourceDirectories (paths : SitePaths) : List Path :=
  [articlesDirectory paths, authorsDirectory paths, gamesDirectory paths, paths.templates,
    paths.assets]

/-- Whether a place is inside of the output directory. -/
def InOutput (paths : SitePaths) (place : Place) : Prop :=
  paths.output.location <+: place ∧ paths.output.location ≠ place

instance (paths : SitePaths) (place : Place) : Decidable (InOutput paths place) :=
  inferInstanceAs (Decidable (_ ∧ _))

/-! ### Accepted paths

A place that is in a source directory and in the output has the one above the other. The check rules
out one of the two cases, that the output contains the source directory. -/

/-- Accepted paths put the output in a source directory if they have it contain sources at all. -/
theorem source_prefix_output {base : Path} (hbase : base.isAbsolute = true) {config : SitePaths}
    (haccepted : config.validate base = .ok ()) {source : Path}
    (hsource : source ∈ sourceDirectories (config.seenFrom base))
    (hplace : source.location <+: place)
    (hout : (config.seenFrom base).output.location <+: place) :
    source.location <+: (config.seenFrom base).output.location := by
  obtain ⟨-, haccepted⟩ := (SitePaths.validate_eq_ok_iff hbase).mp haccepted
  rcases List.prefix_or_prefix_of_prefix hplace hout with hinside | houtside
  · exact hinside
  -- an output that contains a directory of content is that directory, or contains all content
  have hchild : ∀ name, IsName name → source = (config.seenFrom base).content.child name →
      source.location <+: (config.seenFrom base).output.location := by
    intro name hname heq
    rw [heq, Path.location_child hname] at houtside ⊢
    rcases List.prefix_concat_iff.mp houtside with hsame | hcontent
    · exact hsame.symm ▸ List.prefix_rfl
    · exact absurd hcontent (haccepted _ (by simp [SitePaths.checked, SitePaths.seenFrom]))
  simp only [sourceDirectories, List.mem_cons, List.not_mem_nil, or_false] at hsource
  rcases hsource with rfl | rfl | rfl | rfl | rfl
  · exact hchild "articles" (by decide) rfl
  · exact hchild "authors" (by decide) rfl
  · exact hchild "games" (by decide) rfl
  · exact absurd houtside (haccepted _ (by simp [SitePaths.checked, SitePaths.seenFrom]))
  · exact absurd houtside (haccepted _ (by simp [SitePaths.checked, SitePaths.seenFrom]))

/-! ### Clearing the output

Clearing is an equivalence for each file, so it says both what is lost and what stays; the files
that are lost are those in the output, if the output is found. -/

theorem files_onFiles {ε α : Type} (error : IoError → ε) (task : FileTask α) (work : Work) :
    (stateAfter (Task.onFiles error task) work).files = stateAfter task work.files := by
  unfold stateAfter Task.onFiles
  cases task work.files with
  | ok a files => rfl
  | error e files => rfl

/-- A directory that is there loses its files, and no file is lost outside of it. -/
theorem file_remove_iff {tree : FileTree} (hheld : tree.holds paths.output = true) :
    (stateAfter (FileTask.remove paths.output) tree).kind? place = some (some content) ↔
      tree.kind? place = some (some content) ∧ ¬ InOutput paths place := by
  unfold FileTree.holds at hheld
  split at hheld
  · rename_i found hfind
    obtain ⟨start, entry⟩ := found
    cases entry with
    | file other =>
      obtain ⟨rfl, hat⟩ := FileTree.find_location hfind
      have hsame : stateAfter (FileTask.remove paths.output) tree = tree := by
        unfold stateAfter FileTask.remove
        rw [hfind]
      -- a file is not removed, and nothing stands below it
      rw [hsame, iff_self_and]
      rintro hfile ⟨⟨rest, rfl⟩, hne⟩
      cases rest with
      | nil => exact hne (List.append_nil _).symm
      | cons name rest =>
        rw [FileTree.kind?, FileTree.at?_append, hat, Option.bind_some,
          FileTree.at?_cons_of_no_entries (by rfl)] at hfile
        cases hfile
    | directory entries =>
      have hemptied := FileTree.emptied_remove hfind
      rw [hemptied.file_iff]
      refine and_congr_right fun hfile => not_congr ⟨fun hout => ⟨hout, ?_⟩, And.left⟩
      rintro rfl
      rw [hemptied.directory] at hfile
      cases hfile
  · cases hheld

/-- Clearing the output takes away the files in it, if it is there, and no other file. -/
theorem file_clearOutput_iff (h : Rooted paths) {work : Work} (hfiles : work.files.WellFormed) :
    (stateAfter (clearOutput paths) work).files.kind? place = some (some content) ↔
      work.files.kind? place = some (some content) ∧
        ¬ (work.files.holds paths.output = true ∧ InOutput paths place) := by
  have hmake : ∀ {work : Work}, work.files.WellFormed →
      ((stateAfter (Task.onFiles BuildError.directory (.makeDirectories paths.output))
        work).files.kind? place = some (some content) ↔
        work.files.kind? place = some (some content)) := by
    intro work hwork
    rw [files_onFiles]
    exact FileTask.file_makeDirectories_iff h.output hwork place content
  unfold clearOutput
  rw [stateAfter_bind]
  change (stateAfter (if work.files.holds paths.output = true then _ else _) work).files.kind?
    place = _ ↔ _
  cases hheld : work.files.holds paths.output with
  | false => simpa using hmake hfiles
  | true =>
    have hremoved := ((keeps_removeOutput paths).allows hfiles).1
    have hiff : (stateAfter (Task.onFiles BuildError.directory (.remove paths.output))
        work).files.kind? place = some (some content) ↔
          work.files.kind? place = some (some content) ∧ ¬ InOutput paths place := by
      rw [files_onFiles]
      exact file_remove_iff hheld
    -- the directory is made anew only if it could be removed; making it brings no file back
    rw [if_pos rfl, stateAfter_bind]
    unfold stateAfter at hremoved hiff
    cases hrun : Task.onFiles BuildError.directory (.remove paths.output) work with
    | ok a after =>
      rw [hrun] at hremoved hiff
      simpa [hmake hremoved] using hiff
    | error e after =>
      rw [hrun] at hiff
      simpa using hiff

/-- No file comes or goes while the content is loaded. -/
theorem file_load_iff (h : Rooted paths) (config : Config) (now : Instant) {work : Work}
    (hfiles : work.files.WellFormed) :
    (stateAfter (load config paths now) work).files.kind? place = some (some content) ↔
      work.files.kind? place = some (some content) := by
  have hload := yields_load
    (FileTask.permitted_anywhere (place ++ [""]) h.articles)
    (FileTask.permitted_anywhere (place ++ [""]) h.authors) config now
  exact (hload.allows hfiles).2.file_iff (FileTree.child_not_above place "")

end Build

open Build (sourceDirectories InOutput)

/-- **What a build spares of the sources**, for accepted paths. A file among the sources stays,
whatever else happens, unless the output directory is inside of the source directory and the file is
inside of the output directory. Such a file is lost if the output directory is there when the output
is cleared, and only then is it lost to the clearing. -/
theorem build_spares_sources {base : Path} (hbase : base.isAbsolute = true) {config : Config}
    (now : Instant) {work : Work} (hfiles : work.files.WellFormed)
    (haccepted : config.paths.validate base = .ok ()) {source : Path}
    (hsource : source ∈ sourceDirectories (config.paths.seenFrom base)) {place : Place}
    (hplace : source.location <+: place) {content : ByteArray}
    (hfile : work.files.at? place = some (.file content)) :
    let paths := config.paths.seenFrom base
    (¬ (source.location <+: paths.output.location ∧ InOutput paths place) →
      (stateAfter (build config base now) work).files.at? place = some (.file content)) ∧
    ∀ site loaded, Build.load config paths now work = .ok site loaded →
      ((stateAfter (Build.clearOutput paths) loaded).files.at? place = some (.file content) ↔
        ¬ (loaded.files.holds paths.output = true ∧ InOutput paths place)) := by
  intro paths
  have hrooted : Build.Rooted paths := Build.rooted_seenFrom hbase config.paths
  rw [← FileTree.kind?_eq_file] at hfile
  constructor
  · intro hspared
    rw [← FileTree.kind?_eq_file]
    refine (build_allows hbase config now hfiles).2.file ?_ hfile
    by_cases hout : paths.output.location <+: place
    · -- the output contains the place, so it is in the source directory
      have hinside := Build.source_prefix_output hbase haccepted hsource hplace hout
      by_cases hsame : paths.output.location = place
      · exact .inr ⟨hsame.symm, content, hfile⟩
      · exact absurd ⟨hinside, hout, hsame⟩ hspared
    · exact .inl hout
  · -- no file comes or goes before the clearing, so it finds the file where it was
    intro site loaded hload
    have hstate : stateAfter (Build.load config paths now) work = loaded := by
      unfold stateAfter
      rw [hload]
    have hloaded : loaded.files.kind? place = some (some content) := by
      rw [← hstate]
      exact (Build.file_load_iff hrooted config now hfiles).mpr hfile
    have hformed : loaded.files.WellFormed := by
      rw [← hstate]
      exact ((Build.yields_load (Build.permitted_articles hrooted)
        (Build.permitted_authors hrooted) config now).allows hfiles).1
    rw [← FileTree.kind?_eq_file, Build.file_clearOutput_iff hrooted hformed, and_iff_right hloaded]

/-- A site in `/site` with one picture. -/
def pictureSite : FileTree :=
  .directory [("site", .directory [("static", .directory [("img", .directory
    [("logo.png", .file ⟨#[137]⟩)])])])]

/-- Where the picture is. -/
def picturePlace : Place := ["site", "static", "img", "logo.png"]

theorem wellFormed_pictureSite : pictureSite.WellFormed :=
  FileTree.wellFormed_of_allNamed (by decide)

/-- A build with the usual paths keeps the picture. -/
theorem build_spares_picture :
    (stateAfter (build {} (.ofString "/site") ⟨0, 0⟩) (.start pictureSite)).files.at? picturePlace =
      some (.file ⟨#[137]⟩) := by
  have hsource : (SitePaths.seenFrom {} (.ofString "/site")).assets ∈
      sourceDirectories (SitePaths.seenFrom {} (.ofString "/site")) := by simp [sourceDirectories]
  exact (build_spares_sources (by decide) ⟨0, 0⟩ wellFormed_pictureSite (by rfl) hsource
    (by decide) (by rfl)).1 (by decide)

/-- Paths are accepted that have the output inside of a source directory. The build deletes what is
there: the picture is gone, although the build fails for want of a template. -/
theorem build_loses_source_in_output :
    let config : Config := { paths := { output := .ofString "static/img" } }
    config.paths.validate (.ofString "/site") = .ok () ∧
      pictureSite.WellFormed ∧
      (config.paths.seenFrom (.ofString "/site")).assets.location <+: picturePlace ∧
      pictureSite.at? picturePlace = some (.file ⟨#[137]⟩) ∧
      (stateAfter (build config (.ofString "/site") ⟨0, 0⟩)
        (.start pictureSite)).files.at? picturePlace = none := by
  exact ⟨by rfl, wellFormed_pictureSite, by decide, by rfl, by decide +kernel⟩

end StaticSite
