import StaticSite.Proofs.Config.Validation
import StaticSite.Proofs.FileTree.Copying
import StaticSite.Proofs.Site.Overwriting
import StaticSite.Proofs.Site.Phases
/-!
# StaticSite.Proofs.Site.Assets

The files that are copied as they are. **If the output is not inside of their directory, they are
copied to where they were before the build, below the output, or the build says that they are not**
(`assets_are_copied`): the copy comes to an end, it succeeds if and only if nothing of another kind
has been made where they go and their paths can be used, and the number that is printed is theirs. A
file of the name of a page's directory ends the build (`assets_clash_with_page`).
-/

set_option autoImplicit false

namespace StaticSite

namespace Build

variable {paths : SitePaths} {work : Work}

/-! ### The phase -/

theorem copyAssets_of_holdsDirectory (h : work.files.holdsDirectory paths.assets = true) :
    copyAssets paths work =
      match FileTask.copy paths.assets paths.output work.files with
      | .ok count files =>
        .ok () { work with
          files := files
          printed := work.printed ++ ["Copied " ++ toString count ++ " static file(s)"] }
      | .error e files => .error (.assets paths.assets e) { work with files := files } := by
  simp only [copyAssets, Task.look, bind, EStateM.bind, h, if_true, Task.onFiles]
  cases FileTask.copy paths.assets paths.output work.files with
  | ok count files => rfl
  | error e files => rfl

theorem copyAssets_of_not_holdsDirectory (h : work.files.holdsDirectory paths.assets = false) :
    copyAssets paths work = .ok () { work with
      printed := work.printed ++ ["No static directory found, skipping..."] } := by
  simp only [copyAssets, Task.look, bind, EStateM.bind, h]
  rfl

/-- What becomes of the copy when the directory is there, apart from the output: it succeeds if and
only if all can be copied. -/
theorem copyAssets_spec (hfiles : work.files.Regular) (hout : paths.output.isAbsolute = true)
    (hheld : work.files.holdsDirectory paths.assets = true)
    (hgoal : work.files.holdsDirectory paths.output = true)
    (hunder : ¬ paths.output.location <+: paths.assets.location)
    (hapart : ¬ paths.assets.location <+: paths.output.location) :
    match copyAssets paths work with
    | .ok _ copied => work.files.Copyable paths.assets paths.output ∧
        FileTree.Overlaid paths.assets.location paths.output.location work.files copied.files ∧
        ∃ count, Counts count (fun rest => work.files.HasFile (paths.assets.location ++ rest)) ∧
          copied.printed = work.printed ++ ["Copied " ++ toString count ++ " static file(s)"]
    | .error e _ => ¬ work.files.Copyable paths.assets paths.output ∧
        ∃ cause, e = .assets paths.assets cause := by
  have hspec := FileTask.copy_spec hfiles hout hheld hgoal hunder hapart
  rw [copyAssets_of_holdsDirectory hheld]
  cases hcopy : FileTask.copy paths.assets paths.output work.files with
  | error e files =>
    rw [hcopy] at hspec
    exact ⟨hspec, e, rfl⟩
  | ok count files =>
    rw [hcopy] at hspec
    obtain ⟨hcopyable, hoverlaid, hcount⟩ := hspec
    exact ⟨hcopyable, hoverlaid, count, hcount, rfl⟩

/-- What is left of a build after the copy changes no file but the record of the site. -/
theorem file_finish_iff {site : Site} (hout : paths.output.isAbsolute = true)
    (hfiles : work.files.Regular) {final : Work} {report : BuildReport}
    (h : finish paths site work = .ok report final) :
    ∃ copied, copyAssets paths work = .ok () copied ∧
      final.files.kind? (dataFile paths).location =
        some (some (bytes (Json.pretty site.data))) ∧
      ∀ place, place ≠ (dataFile paths).location → ∀ content,
        final.files.kind? place = some (some content) ↔
          copied.files.kind? place = some (some content) := by
  obtain ⟨copied, written, hcopy, hwrite, hfinal⟩ := finish_eq_ok h
  have hcopied := ((regular_copyAssets hout).holds_of_ok hcopy hfiles).1
  rw [hfinal]
  exact ⟨copied, hcopy, writeData_eq_ok hout hcopied hwrite⟩

/-- A file that has been copied is there at the end, but for one in the place of the record. -/
theorem kind?_final_of_copied {site : Site} {copied : Work}
    (hout : paths.output.isAbsolute = true) (hfiles : work.files.Regular) {final : Work}
    {report : BuildReport} (h : finish paths site work = .ok report final)
    (hcopy : copyAssets paths work = .ok () copied)
    (hoverlaid : FileTree.Overlaid paths.assets.location paths.output.location work.files
      copied.files) {rest : Place} {content : ByteArray}
    (hfile : work.files.kind? (paths.assets.location ++ rest) = some (some content)) :
    final.files.kind? (paths.output.location ++ rest) =
      some (some (if rest = ["data.json"] then bytes (Json.pretty site.data) else content)) := by
  obtain ⟨found, hfound, hdata, hothers⟩ := file_finish_iff hout hfiles h
  rw [hcopy] at hfound
  cases hfound
  have hlocation : (dataFile paths).location = paths.output.location ++ ["data.json"] :=
    Path.location_child (by decide)
  rw [hlocation] at hdata hothers
  split
  · -- only the record of the site is written after the copy
    rename_i hrest
    rw [hrest, hdata]
  · rename_i hrest
    refine (hothers _ (fun heq => hrest (List.append_cancel_left heq)) content).mpr ?_
    rw [hoverlaid.inside, hfile]
    rfl

end Build

/-! ### The copy in a build -/

/-- **What becomes of the files that are copied as they are**, for paths that are accepted and an
output that is not inside of their directory. When a build comes to them they are as they were
before it. The copy does not depend on how deep it may go. If their directory is not found, the
build says so and leaves it at that. Otherwise the copy succeeds if and only if they can be copied;
then they lie over what was made, and their number is printed; if it fails, the build names their
directory. After a build that succeeds each of them is where it was copied to, but for the record of
the site, which takes the place of `data.json`. -/
theorem assets_are_copied {base : Path} (hbase : base.isAbsolute = true) {config : Config}
    {now : Instant} {start : Work} (hfiles : start.files.WellFormed ∧ start.files.Ordered)
    {site : Site} {loaded cleared made : Work}
    (h : Reaches config base now start site loaded cleared made)
    (hapart : ¬ (config.paths.seenFrom base).assets.location <+:
      (config.paths.seenFrom base).output.location) :
    let paths := config.paths.seenFrom base
    let source := paths.assets.location
    let goal := paths.output.location
    (∀ rest content, made.files.kind? (source ++ rest) = some (some content) ↔
      start.files.kind? (source ++ rest) = some (some content)) ∧
    (∀ fuel, maxPathBytes + 2 ≤ fuel →
      FileTask.copyWith fuel paths.assets paths.output made.files =
        FileTask.copy paths.assets paths.output made.files) ∧
    (made.files.holdsDirectory paths.assets = false →
      Build.copyAssets paths made = .ok () { made with
        printed := made.printed ++ ["No static directory found, skipping..."] }) ∧
    (made.files.holdsDirectory paths.assets = true →
      (match Build.copyAssets paths made with
        | .ok _ copied => made.files.Copyable paths.assets paths.output ∧
            FileTree.Overlaid source goal made.files copied.files ∧
            ∃ count, Counts count (fun rest => start.files.HasFile (source ++ rest)) ∧
              copied.printed =
                made.printed ++ ["Copied " ++ toString count ++ " static file(s)"]
        | .error e _ => ¬ made.files.Copyable paths.assets paths.output ∧
            ∃ cause, e = .assets paths.assets cause) ∧
      ∀ report final, build config base now start = .ok report final → ∀ rest content,
        start.files.kind? (source ++ rest) = some (some content) →
          final.files.kind? (goal ++ rest) = some (some
            (if rest = ["data.json"] then Build.bytes (Json.pretty site.data) else content))) := by
  intro paths source goal
  have hrooted : Build.Rooted paths := Build.rooted_seenFrom hbase config.paths
  have hmade := h.regular_made hbase hfiles
  -- that the paths are accepted keeps the files apart from the output in one direction
  have hout : ¬ goal <+: source :=
    ((SitePaths.validate_eq_ok_iff hbase).mp h.accepted).2 _
      (by simp [SitePaths.checked, paths, SitePaths.seenFrom])
  -- what is to be copied lies outside of the output, where the build has changed nothing
  have hsame : ∀ rest content, made.files.kind? (source ++ rest) = some (some content) ↔
      start.files.kind? (source ++ rest) = some (some content) := by
    intro rest content
    refine (h.allows hbase hfiles.1).2.file_iff ?_
    simpa using FileTree.not_prefix_append hout hapart rest []
  refine ⟨hsame, fun fuel hfuel => FileTask.copyWith_eq_copy hmade hrooted.output hfuel,
    Build.copyAssets_of_not_holdsDirectory, fun hheld => ?_⟩
  have hspec := Build.copyAssets_spec hmade hrooted.output hheld
    (h.holdsDirectory_output hbase hfiles) hout hapart
  cases hcopy : Build.copyAssets paths made with
  | error e failed =>
    rw [hcopy] at hspec
    -- a copy that fails leaves no build that succeeds
    refine ⟨hspec, fun report final hbuild => ?_⟩
    obtain ⟨copied, hcopied, -⟩ :=
      Build.file_finish_iff hrooted.output hmade (h.finish_of_build hbuild)
    rw [hcopy] at hcopied
    cases hcopied
  | ok _ copied =>
    rw [hcopy] at hspec
    obtain ⟨hcopyable, hoverlaid, count, hcount, hprinted⟩ := hspec
    -- the number is that of the files before the build, since they are the same
    have hcounts := hcount.congr fun rest => exists_congr fun content => hsame rest content
    refine ⟨⟨hcopyable, hoverlaid, count, hcounts, hprinted⟩,
      fun report final hbuild rest content hfile => ?_⟩
    exact Build.kind?_final_of_copied hrooted.output hmade (h.finish_of_build hbuild) hcopy
      hoverlaid ((hsame rest content).mpr hfile)

/-- A site in `/site` with all templates and the given files to be copied. -/
def assetsSite (assets : List (String × FileTree)) : FileTree :=
  .directory [("site", .directory [("static", .directory assets), ("templates", plainTemplates)])]

/-- A style sheet in a directory, and a file in place of the record of the site. -/
def stylesheet : List (String × FileTree) :=
  [("css", .directory [("site.css", .file "p".toUTF8)]), ("data.json", .file "x".toUTF8)]

/-- The style sheet is copied, and the record of the site is not overwritten. -/
theorem assets_are_copied_stylesheet :
    let base := Path.ofString "/site"
    let start := Work.start (assetsSite stylesheet)
    ∃ site loaded cleared made, Reaches {} base ⟨0, 0⟩ start site loaded cleared made ∧
      made.files.holdsDirectory (SitePaths.seenFrom {} base).assets = true ∧
      ∃ report final, build {} base ⟨0, 0⟩ start = .ok report final ∧
        final.files.kind? ["site", "dist", "css", "site.css"] = some (some "p".toUTF8) ∧
        final.files.kind? ["site", "dist", "data.json"] =
          some (some (Build.bytes (Json.pretty site.data))) := by
  intro base start
  have hfiles : start.files.WellFormed ∧ start.files.Ordered :=
    ⟨FileTree.wellFormed_of_allNamed (by decide), FileTree.ordered_of_orderly _ (by decide)⟩
  have hruns : passes (build {} base ⟨0, 0⟩) start (fun _ _ => true) = true := by decide +kernel
  obtain ⟨report, final, hbuild, -⟩ := passes_eq_true_iff.mp hruns
  obtain ⟨site, loaded, cleared, made, hreaches, -⟩ := phases_of_build hbuild
  have hheld : made.files.holdsDirectory (SitePaths.seenFrom {} base).assets = true := by
    refine hreaches.holdsDirectory (by decide) hfiles (fun place hplace hunder => ?_)
      (by decide +kernel)
    rw [Path.passes_iff_of_names (by decide)] at hplace
    exact absurd (hunder.trans hplace) (by decide)
  have hcopied := (assets_are_copied (by decide) hfiles hreaches (by decide)).2.2.2 hheld
  refine ⟨site, loaded, cleared, made, hreaches, hheld, report, final, hbuild, ?_, ?_⟩
  · exact hcopied.2 report final hbuild ["css", "site.css"] _ rfl
  · exact hcopied.2 report final hbuild ["data.json"] _ rfl

/-- A file is to be copied to where the page about the authors has its directory. The paths are
accepted and the build comes to the copy, which fails: the file is not below the output. -/
theorem assets_clash_with_page :
    let base := Path.ofString "/site"
    let paths := SitePaths.seenFrom {} base
    let tree := assetsSite [("about", .file "x".toUTF8)]
    SitePaths.validate {} base = .ok () ∧ tree.WellFormed ∧ tree.Ordered ∧
      tree.at? (paths.assets.location ++ ["about"]) = some (.file "x".toUTF8) ∧
      ∃ site loaded cleared made, Reaches {} base ⟨0, 0⟩ (.start tree) site loaded cleared made ∧
        made.files.holdsDirectory paths.assets = true ∧
        ∃ failed, Build.copyAssets paths made = .error (.assets paths.assets .isDirectory) failed ∧
          failed.files.at? (paths.output.location ++ ["about"]) ≠ some (.file "x".toUTF8) := by
  intro base paths tree
  have hruns : passes (Build.prepare {} base ⟨0, 0⟩) (.start tree) (fun _ made =>
      made.files.holdsDirectory paths.assets &&
        match Build.copyAssets paths made with
        | .ok _ _ => false
        | .error e failed => decide (e = .assets paths.assets .isDirectory ∧
            failed.files.kind? (paths.output.location ++ ["about"]) = some none)) = true := by
    decide +kernel
  obtain ⟨site, made, hprepare, htest⟩ := passes_eq_true_iff.mp hruns
  obtain ⟨loaded, cleared, hreaches⟩ := reaches_of_prepare hprepare
  rw [Bool.and_eq_true] at htest
  obtain ⟨hheld, htest⟩ := htest
  refine ⟨by rfl, FileTree.wellFormed_of_allNamed (by decide),
    FileTree.ordered_of_orderly _ (by decide), rfl, site, loaded, cleared, made, hreaches,
    hheld, ?_⟩
  cases hcopy : Build.copyAssets paths made with
  | ok _ copied =>
    rw [hcopy] at htest
    cases htest
  | error e failed =>
    rw [hcopy] at htest
    obtain ⟨rfl, hdirectory⟩ := of_decide_eq_true htest
    refine ⟨failed, rfl, fun hfile => ?_⟩
    rw [← FileTree.kind?_eq_file, hdirectory] at hfile
    cases hfile

end StaticSite
