import StaticSite.Proofs.Content.Reading
import StaticSite.Proofs.Config.Validation
import StaticSite.Proofs.FileTree.Overlay
import StaticSite.Proofs.Site.Overwriting
import StaticSite.Proofs.Site.Phases
import StaticSite.Proofs.Site.Sources
/-!
# StaticSite.Proofs.Site.Rebuilding

Building a site again. Loading and clearing leave the same, whatever was in the output before: the
content is read outside of the output, and once the output has been cleared nothing of it is left.
**Builds of trees that are the same outside of the output come to the same end**
(`rebuild_is_clean`), if what stands at the place of the output is found under its path when it is
to be cleared. A path that goes back from a directory that is not there hides an output that is
(`rebuild_keeps_hidden_output`).
-/

set_option autoImplicit false

namespace StaticSite

namespace Build

variable {paths : SitePaths} {site : Site} {place : Place} {first second : FileTree}

/-! ### What is compared

Two trees that are the same outside of the output may still differ in directories that a build makes
anyway. So the comparison leaves these out, as long as neither tree has a file there. -/

/-- Whether two trees are the same outside of the output. Directories on the way of a build may be
missing in either. -/
def SameOutside (paths : SitePaths) (first second : FileTree) : Prop :=
  ∀ place, ¬ paths.output.location <+: place → first.kind? place = second.kind? place ∨
    OnTheWay paths place ∧ ¬ first.HasFile place ∧ ¬ second.HasFile place

/-- Whether what stands at the place of the output, if anything does, is found under its path. -/
def InView (paths : SitePaths) (tree : FileTree) : Prop :=
  tree.holds paths.output = true ∨ tree.kind? paths.output.location = none

theorem SameOutside.file_iff (h : SameOutside paths first second)
    (hplace : ¬ paths.output.location <+: place) (content : ByteArray) :
    first.kind? place = some (some content) ↔ second.kind? place = some (some content) := by
  rcases h place hplace with hsame | ⟨-, hfirst, hsecond⟩
  · rw [hsame]
  · exact iff_of_false (fun hfile => hfirst ⟨content, hfile⟩) fun hfile => hsecond ⟨content, hfile⟩

/-- To take the output away changes nothing outside of it. -/
theorem sameOutside_erase (h : (first.at? paths.output.location).isSome) :
    SameOutside paths first (first.erase paths.output.location) :=
  fun _ hplace => .inl (FileTree.kind?_erase_outside h hplace).symm

/-- A build changes nothing outside of its output but for directories on its way. -/
theorem SameOutside.of_allows {work after : Work} (h : (discipline paths).Allows work after) :
    SameOutside paths work.files after.files := by
  intro place hplace
  rcases h.2 place (.inl hplace) with hsame | ⟨hway, hnone, hdirectory⟩
  · exact .inl hsame.symm
  · refine .inr ⟨hway, ?_, ?_⟩
    · rintro ⟨content, hfile⟩
      rw [hnone] at hfile
      cases hfile
    · rintro ⟨content, hfile⟩
      rw [hdirectory] at hfile
      cases hfile

/-! ### Loading

Content is read from below its own directory, which the output is not in and does not contain. So
what is read there is the same in both trees, the directories that loading makes included. -/

section Loading

variable {config : Config} {now : Instant} {work loaded : Work}

theorem makes_of_load (h : Rooted paths) (hfiles : work.files.WellFormed)
    (hload : load config paths now work = .ok site loaded) :
    ∃ made, made.WellFormed ∧
      FileTask.makeDirectories (articlesDirectory paths) work.files = .ok () made ∧
      FileTask.makeDirectories (authorsDirectory paths) made = .ok () loaded.files := by
  obtain ⟨made, _, _, harticles, hauthors, -⟩ := load_eq_ok hload
  have hmake := FileTask.stands_makeDirectories h.articles
  exact ⟨made, hmake.holds_of_ok harticles hfiles, harticles, hauthors⟩

/-- Loading makes the directories of the articles and of the authors. -/
theorem kind?_load (h : Rooted paths) (hfiles : work.files.WellFormed)
    (hload : load config paths now work = .ok site loaded) :
    (∀ place, (articlesDirectory paths).Passes place ∨ (authorsDirectory paths).Passes place →
      loaded.files.kind? place = some none) ∧
    ∀ place, ¬ ((articlesDirectory paths).Passes place ∨ (authorsDirectory paths).Passes place) →
      loaded.files.kind? place = work.files.kind? place := by
  obtain ⟨made, hmade, harticles, hauthors⟩ := makes_of_load h hfiles hload
  obtain ⟨hfirst, hfirstSame⟩ := FileTask.kind?_makeDirectories h.articles hfiles harticles
  obtain ⟨hlast, hlastSame⟩ := FileTask.kind?_makeDirectories h.authors hmade hauthors
  constructor
  · intro place hplace
    by_cases hpassed : (authorsDirectory paths).Passes place
    · exact hlast place hpassed
    · rw [hlastSame place hpassed]
      exact hfirst place (hplace.resolve_right hpassed)
  · intro place hplace
    rw [hlastSame place fun hpassed => hplace (.inr hpassed),
      hfirstSame place fun hpassed => hplace (.inl hpassed)]

theorem file_loaded_iff (h : Rooted paths) (hfiles : work.files.WellFormed)
    (hload : load config paths now work = .ok site loaded) (place : Place) (content : ByteArray) :
    loaded.files.kind? place = some (some content) ↔
      work.files.kind? place = some (some content) := by
  rw [← stateAfter_of_ok hload]
  exact file_load_iff h config now hfiles

/-- The directories of the articles and of the authors are there when the content is read. -/
theorem holdsDirectory_loaded (h : Rooted paths) (hfiles : work.files.WellFormed)
    (hload : load config paths now work = .ok site loaded) :
    loaded.files.holdsDirectory (articlesDirectory paths) = true ∧
      loaded.files.holdsDirectory (authorsDirectory paths) = true := by
  obtain ⟨made, hmade, harticles, hauthors⟩ := makes_of_load h hfiles hload
  have hheld := FileTask.holdsDirectory_makeDirectories h.articles hfiles harticles
  have hstands := (FileTask.stands_makeDirectories h.authors).allows_of_ok hauthors hmade
  exact ⟨FileTask.holdsDirectory_of_standing hmade hstands hheld,
    FileTask.holdsDirectory_makeDirectories h.authors hmade hauthors⟩

end Loading

/-- Content that has dates of its own is loaded alike from trees that are the same outside of the
output, at any time, if the output is apart from it. -/
theorem load_eq_of_sameOutside (h : Rooted paths) {config : Config} {now now' : Instant}
    {work work' loaded loaded' : Work} {other : Site} (hfirst : work.files.Regular)
    (hsecond : work'.files.Regular) (hsame : SameOutside paths work.files work'.files)
    (hout : ¬ paths.output.location <+: paths.content.location)
    (hcontent : ¬ paths.content.location <+: paths.output.location)
    (hdated : work.files.Dated (articlesDirectory paths).location)
    (hload : load config paths now work = .ok site loaded)
    (hload' : load config paths now' work' = .ok other loaded') : site = other := by
  have hregular := (respects_regular.load h config now).holds_of_ok hload hfirst
  have hregular' := (respects_regular.load h config now').holds_of_ok hload' hsecond
  have hfile := file_loaded_iff h hfirst.1 hload
  have hfile' := file_loaded_iff h hsecond.1 hload'
  have hfiles : ∀ name, IsName name →
      loaded.files.SameFiles loaded'.files (paths.content.child name).location := by
    intro name hname entry content
    rw [hfile, hfile', Path.location_child hname, List.append_assoc]
    refine hsame.file_iff ?_ content
    have hapart := FileTree.not_prefix_append hout hcontent ([name] ++ [entry]) []
    rwa [List.append_nil] at hapart
  have hdated' : loaded.files.Dated (articlesDirectory paths).location :=
    fun name content text hname hentry => hdated name content text hname ((hfile _ _).mp hentry)
  obtain ⟨_, articles, authors, -, -, harticles, hauthors, rfl, -⟩ := load_eq_ok hload
  obtain ⟨_, articles', authors', -, -, harticles', hauthors', rfl, -⟩ := load_eq_ok hload'
  obtain ⟨hheldArticles, hheldAuthors⟩ := holdsDirectory_loaded h hfirst.1 hload
  obtain ⟨hheldArticles', hheldAuthors'⟩ := holdsDirectory_loaded h hsecond.1 hload'
  rw [loadArticles_congr ⟨hregular, hregular', hheldArticles, hheldArticles',
    hfiles _ (by decide)⟩ hdated' config.extensions now now', harticles'] at harticles
  rw [loadAuthors_congr ⟨hregular, hregular', hheldAuthors, hheldAuthors',
    hfiles _ (by decide)⟩, hauthors'] at hauthors
  cases harticles
  cases hauthors
  -- the directory of the games may be missing, but not the content
  have hgames : loadGames loaded.files (gamesDirectory paths) =
      loadGames loaded'.files (gamesDirectory paths) := by
    refine loadGames_congr hregular hregular' (fun place hplace hne => ?_) (hfiles _ (by decide))
    rcases (Path.passes_child_iff (by decide)).mp hplace with hpasses | hlast
    · have hway : (articlesDirectory paths).Passes place :=
        (Path.passes_child_iff (by decide)).mpr (.inl hpasses)
      exact ⟨(kind?_load h hfirst.1 hload).1 place (.inl hway),
        (kind?_load h hsecond.1 hload').1 place (.inl hway)⟩
    · exact absurd (hlast.trans (Path.location_child (by decide)).symm) hne
  rw [hgames]

/-! ### Clearing

Clearing removes the output only if it is found. If it is not found but something stands at its
place, the directories that are made afterwards may bring it back, and this is what `InView` rules
out. -/

section Clearing

variable {work cleared : Work}

theorem emptied_of_remove {p : Path} {tree removed : FileTree}
    (h : FileTask.remove p tree = .ok () removed) : FileTree.Emptied p.location tree removed := by
  obtain ⟨place, entries, hfind⟩ :
      ∃ place entries, tree.find p = .ok (place, .directory entries) := by
    unfold FileTask.remove at h
    split at h
    · cases h
    · cases h
    · exact ⟨_, _, ‹_›⟩
  exact stateAfter_of_ok h ▸ FileTree.emptied_remove hfind

/-- Whether the output is found or not, nothing is left below its place, and the rest is as it
was. -/
theorem kind?_removed {removed : FileTree} (hfiles : work.files.WellFormed)
    (hview : InView paths work.files)
    (h : if work.files.holds paths.output then
        FileTask.remove paths.output work.files = .ok () removed
      else removed = work.files) :
    removed.WellFormed ∧
      (∀ name rest, removed.kind? (paths.output.location ++ name :: rest) = none) ∧
      ∀ place, ¬ paths.output.location <+: place →
        removed.kind? place = work.files.kind? place := by
  cases hholds : work.files.holds paths.output with
  | true =>
    rw [hholds, if_pos rfl] at h
    have hemptied := emptied_of_remove h
    have hallows : (FileTree.within [] fun _ => True).Allows work.files removed :=
      hemptied.allows List.nil_prefix hfiles
    exact ⟨hallows.1, hemptied.below, hemptied.outside⟩
  | false =>
    rw [hholds, if_neg (by simp)] at h
    subst h
    have hnone : work.files.at? paths.output.location = none :=
      Option.map_eq_none_iff.mp (hview.resolve_left (by simp [hholds]))
    refine ⟨hfiles, fun name rest => ?_, fun _ _ => rfl⟩
    rw [FileTree.kind?, FileTree.at?_append, hnone]
    rfl

/-- What is left when the output has been cleared is its directory and those on its way. -/
theorem kind?_clearOutput (hout : paths.output.isAbsolute = true) (hfiles : work.files.WellFormed)
    (hview : InView paths work.files) (h : clearOutput paths work = .ok () cleared) :
    (∀ place, paths.output.Passes place → cleared.files.kind? place = some none) ∧
    ∀ place, ¬ paths.output.Passes place → cleared.files.kind? place =
      if paths.output.location <+: place then none else work.files.kind? place := by
  obtain ⟨removed, hremoved, hmake, -⟩ := clearOutput_eq_ok h
  obtain ⟨hformed, hbelow, houtside⟩ := kind?_removed hfiles hview hremoved
  -- making the directory adds the places that its path passes and nothing else
  obtain ⟨hmade, hsame⟩ := FileTask.kind?_makeDirectories hout hformed hmake
  refine ⟨hmade, fun place hplace => ?_⟩
  rw [hsame place hplace]
  split
  · rename_i hunder
    obtain ⟨rest, rfl⟩ := hunder
    cases rest with
    | nil =>
      rw [List.append_nil] at hplace
      exact absurd paths.output.passes_location hplace
    | cons name rest => exact hbelow name rest
  · rename_i houtsidePlace
    exact houtside place houtsidePlace

/-- A path without `..` shows the output, if there is any. -/
theorem inView_of_clearOutput (hout : paths.output.isAbsolute = true)
    (hsteps : ".." ∉ paths.output.steps) (hfiles : work.files.WellFormed)
    (h : clearOutput paths work = .ok () cleared) : InView paths work.files := by
  by_contra hhidden
  obtain ⟨hholds, hsome⟩ := not_or.mp hhidden
  obtain ⟨removed, hremoved, hmake, -⟩ := clearOutput_eq_ok h
  rw [if_neg hholds] at hremoved
  subst hremoved
  have hmade := FileTask.holdsDirectory_makeDirectories hout hfiles hmake
  have hlocation := (FileTree.holdsDirectory_iff_target.mp hmade).2
  -- an output out of view is there without being found; a file would have kept the directory from
  -- being made, and a directory is found if no step goes back
  cases hkind : work.files.kind? paths.output.location with
  | none => exact hsome hkind
  | some found =>
    cases found with
    | some content =>
      exact FileTask.not_file_of_makeDirectories hout hfiles hmake paths.output.passes_location
        content hkind
    | none =>
      have hroot : cleared.files.kind? [] = some none :=
        FileTree.kind?_of_prefix hlocation List.nil_prefix
      obtain ⟨husable, -⟩ := (FileTree.holdsDirectory_iff hroot).mp hmade
      have hheld : work.files.holdsDirectory paths.output = true :=
        (FileTree.holdsDirectory_iff hfiles.root).mpr ⟨husable, fun place hplace =>
          FileTree.kind?_of_prefix hkind (hplace.prefix_of_forward hsteps)⟩
      exact hholds (FileTree.holds_of_holdsDirectory hheld)

end Clearing

/-! ### The end of a build

From equal sites and equal trees everything else follows, since the rest of a build is a function of
them. So two builds are compared where the output has been cleared. -/

section Finish

variable {made final : Work} {report : BuildReport}

theorem regular_finish (hout : paths.output.isAbsolute = true) (hmade : made.files.Regular)
    (h : finish paths site made = .ok report final) : final.files.Regular := by
  obtain ⟨copied, written, hcopy, hwrite, hfinal⟩ := finish_eq_ok h
  have hcopied := (regular_copyAssets hout).holds_of_ok hcopy hmade
  exact hfinal ▸ (respects_regular.writeData hout site).holds_of_ok hwrite hcopied

/-- A build leaves its output where its path leads. -/
theorem holdsDirectory_finish (hout : paths.output.isAbsolute = true) (hmade : made.files.Regular)
    (h : finish paths site made = .ok report final) :
    final.files.holdsDirectory paths.output = true := by
  obtain ⟨copied, written, hcopy, hwrite, hfinal⟩ := finish_eq_ok h
  have hcopied := ((regular_copyAssets hout).holds_of_ok hcopy hmade).1
  obtain ⟨_, directory, hmake, hfile⟩ := bind_eq_ok_iff.mp hwrite
  obtain ⟨hmake, -⟩ := Task.onFiles_eq_ok hmake
  obtain ⟨hfile, -⟩ := Task.onFiles_eq_ok hfile
  have hformed : directory.files.WellFormed :=
    (FileTask.stands_makeDirectories hout).holds_of_ok hmake hcopied
  have hstands : FileTask.standing.Keeps
      (FileTask.write (dataFile paths) (bytes (Json.pretty site.data))) := FileTask.stands_write
  rw [hfinal]
  exact FileTask.holdsDirectory_of_standing hformed (hstands.allows_of_ok hfile hformed)
    (FileTask.holdsDirectory_makeDirectories hout hcopied hmake)

/-- The output that a build leaves is found when the site is built again. -/
theorem inView_of_finish (h : Rooted paths) (hmade : made.files.Regular)
    (hfinish : finish paths site made = .ok report final) {config : Config} {now : Instant}
    {other : Site} {loaded : Work}
    (hload : load config paths now (.start final.files) = .ok other loaded) :
    InView paths loaded.files := by
  have hfinal := (regular_finish h.output hmade hfinish).1
  have hstands := (respects_standing.load h config now).allows_of_ok hload hfinal
  exact .inl (FileTree.holds_of_holdsDirectory (FileTask.holdsDirectory_of_standing hfinal hstands
    (holdsDirectory_finish h.output hmade hfinish)))

end Finish

end Build

open Build (InView SameOutside)

namespace Reaches

variable {config : Config} {base : Path} {now now' : Instant} {first second : FileTree}
  {site other : Site} {loaded cleared made loaded' cleared' made' : Work}

/-- Once the output has been cleared no file is in it. -/
theorem not_file_cleared (hbase : base.isAbsolute = true) (hfirst : first.Regular)
    (h : Reaches config base now (.start first) site loaded cleared made)
    (hview : InView (config.paths.seenFrom base) loaded.files) (rest : Place)
    (content : ByteArray) :
    cleared.files.kind? ((config.paths.seenFrom base).output.location ++ rest) ≠
      some (some content) := by
  have hrooted := Build.rooted_seenFrom hbase config.paths
  obtain ⟨hmade, hothers⟩ := Build.kind?_clearOutput hrooted.output
    (h.regular_loaded hbase hfirst).1 hview h.clear
  by_cases hpassed : (config.paths.seenFrom base).output.Passes
      ((config.paths.seenFrom base).output.location ++ rest)
  · rw [hmade _ hpassed]
    simp
  · rw [hothers _ hpassed, if_pos (List.prefix_append _ _)]
    simp

/-- What stood outside of the output decides what stands there when the content has been loaded. -/
theorem kind?_loaded_eq (hbase : base.isAbsolute = true) (hfirst : first.Regular)
    (hsecond : second.Regular) (hsame : SameOutside (config.paths.seenFrom base) first second)
    (h : Reaches config base now (.start first) site loaded cleared made)
    (h' : Reaches config base now' (.start second) other loaded' cleared' made') {place : Place}
    (hplace : ¬ (config.paths.seenFrom base).output.location <+: place)
    (hpassed : ¬ (config.paths.seenFrom base).output.Passes place) :
    loaded.files.kind? place = loaded'.files.kind? place := by
  have hrooted := Build.rooted_seenFrom hbase config.paths
  obtain ⟨hmade, hothers⟩ := Build.kind?_load hrooted hfirst.1 h.load
  obtain ⟨hmade', hothers'⟩ := Build.kind?_load hrooted hsecond.1 h'.load
  by_cases hway : (Build.articlesDirectory (config.paths.seenFrom base)).Passes place ∨
      (Build.authorsDirectory (config.paths.seenFrom base)).Passes place
  · rw [hmade place hway, hmade' place hway]
  · rw [hothers place hway, hothers' place hway]
    rcases hsame place hplace with heq | ⟨harticles | hauthors | houtput, -⟩
    · exact heq
    · exact absurd (.inl harticles) hway
    · exact absurd (.inr hauthors) hway
    · exact absurd houtput hpassed

theorem files_cleared_eq (hbase : base.isAbsolute = true) (hfirst : first.Regular)
    (hsecond : second.Regular) (hsame : SameOutside (config.paths.seenFrom base) first second)
    (h : Reaches config base now (.start first) site loaded cleared made)
    (hview : InView (config.paths.seenFrom base) loaded.files)
    (h' : Reaches config base now' (.start second) other loaded' cleared' made')
    (hview' : InView (config.paths.seenFrom base) loaded'.files) :
    cleared.files = cleared'.files := by
  have hrooted := Build.rooted_seenFrom hbase config.paths
  obtain ⟨hmade, hothers⟩ := Build.kind?_clearOutput hrooted.output
    (h.regular_loaded hbase hfirst).1 hview h.clear
  obtain ⟨hmade', hothers'⟩ := Build.kind?_clearOutput hrooted.output
    (h'.regular_loaded hbase hsecond).1 hview' h'.clear
  refine (h.regular_cleared hbase hfirst).2.ext (h'.regular_cleared hbase hsecond).2
    fun place => ?_
  by_cases hpassed : (config.paths.seenFrom base).output.Passes place
  · rw [hmade place hpassed, hmade' place hpassed]
  · rw [hothers place hpassed, hothers' place hpassed]
    by_cases hunder : (config.paths.seenFrom base).output.location <+: place
    · rw [if_pos hunder, if_pos hunder]
    · rw [if_neg hunder, if_neg hunder]
      exact kind?_loaded_eq hbase hfirst hsecond hsame h h' hunder hpassed

/-- Builds of trees that are the same outside of the output are in the same state once that has been
cleared. -/
theorem cleared_eq (hbase : base.isAbsolute = true) (hfirst : first.Regular)
    (hsecond : second.Regular) (hsame : SameOutside (config.paths.seenFrom base) first second)
    (hcontent : ¬ (config.paths.seenFrom base).content.location <+:
      (config.paths.seenFrom base).output.location)
    (hdated : first.Dated (Build.articlesDirectory (config.paths.seenFrom base)).location)
    (h : Reaches config base now (.start first) site loaded cleared made)
    (hview : InView (config.paths.seenFrom base) loaded.files)
    (h' : Reaches config base now' (.start second) other loaded' cleared' made')
    (hview' : InView (config.paths.seenFrom base) loaded'.files) :
    site = other ∧ cleared = cleared' := by
  have hout := ((SitePaths.validate_eq_ok_iff hbase).mp h.accepted).2
    (config.paths.seenFrom base).content (by simp [SitePaths.checked, SitePaths.seenFrom])
  have hsite : site = other :=
    Build.load_eq_of_sameOutside (Build.rooted_seenFrom hbase config.paths) hfirst hsecond hsame
      hout hcontent hdated h.load h'.load
  have hfiles := files_cleared_eq hbase hfirst hsecond hsame h hview h' hview'
  refine ⟨hsite, ?_⟩
  -- apart from the files, a work holds the lines about the content
  obtain ⟨_, articles, authors, -, -, -, -, hfound, hprinted⟩ := Build.load_eq_ok h.load
  obtain ⟨_, articles', authors', -, -, -, -, hfound', hprinted'⟩ := Build.load_eq_ok h'.load
  obtain ⟨_, -, -, hcleared⟩ := Build.clearOutput_eq_ok h.clear
  obtain ⟨_, -, -, hcleared'⟩ := Build.clearOutput_eq_ok h'.clear
  rw [hfound, hfound'] at hsite
  injection hsite with _ harticles hauthors _
  rw [hcleared, hcleared', hfiles, hprinted, hprinted', harticles, hauthors]
  rfl

end Reaches

/-- A path without `..` shows the output in every build that succeeds. -/
theorem inView_of_build {base : Path} (hbase : base.isAbsolute = true) {config : Config}
    (hsteps : ".." ∉ (config.paths.seenFrom base).output.steps) {now : Instant} {first : FileTree}
    (hfirst : first.Regular) {report : BuildReport} {final : Work}
    (hbuild : build config base now (.start first) = .ok report final) {site : Site} {loaded : Work}
    (hload : Build.load config (config.paths.seenFrom base) now (.start first) = .ok site loaded) :
    InView (config.paths.seenFrom base) loaded.files := by
  have hrooted := Build.rooted_seenFrom hbase config.paths
  obtain ⟨_, loaded', cleared, made, h, -⟩ := phases_of_build hbuild
  have heq := hload.symm.trans h.load
  cases heq
  exact Build.inView_of_clearOutput hrooted.output hsteps (h.regular_loaded hbase hfirst).1 h.clear

/-- **What a build leaves is decided outside of its output**, for a content with dates of its own
that does not contain the output, if the output is found under its path when it is to be cleared. No
file of an earlier build is left when the pages are made; every other build that succeeds and starts
from the same outside of the output, at whatever time and whatever was in the output, reports,
prints and leaves the same; and so does building the site again. -/
theorem rebuild_is_clean {base : Path} (hbase : base.isAbsolute = true) {config : Config}
    {now : Instant} {first : FileTree} (hfirst : first.WellFormed ∧ first.Ordered)
    (hcontent : ¬ (config.paths.seenFrom base).content.location <+:
      (config.paths.seenFrom base).output.location)
    (hdated : first.Dated (Build.articlesDirectory (config.paths.seenFrom base)).location)
    (hview : ∀ site loaded,
      Build.load config (config.paths.seenFrom base) now (.start first) = .ok site loaded →
        InView (config.paths.seenFrom base) loaded.files)
    {report : BuildReport} {final : Work}
    (hbuild : build config base now (.start first) = .ok report final) :
    let paths := config.paths.seenFrom base
    (∀ site loaded cleared made,
      Reaches config base now (.start first) site loaded cleared made → ∀ rest content,
        cleared.files.kind? (paths.output.location ++ rest) ≠ some (some content)) ∧
    (∀ second now' report' final', second.WellFormed ∧ second.Ordered →
      SameOutside paths first second →
      (∀ site loaded, Build.load config paths now' (.start second) = .ok site loaded →
        InView paths loaded.files) →
      build config base now' (.start second) = .ok report' final' →
        report' = report ∧ final' = final) ∧
    ∀ now' report' final', build config base now' (.start final.files) = .ok report' final' →
      report' = report ∧ final' = final := by
  intro paths
  have hrooted : Build.Rooted paths := Build.rooted_seenFrom hbase config.paths
  obtain ⟨site, loaded, cleared, made, hreaches, hfinish⟩ := phases_of_build hbuild
  have hrebuild : ∀ second now' report' final', second.WellFormed ∧ second.Ordered →
      SameOutside paths first second →
      (∀ site loaded, Build.load config paths now' (.start second) = .ok site loaded →
        InView paths loaded.files) →
      build config base now' (.start second) = .ok report' final' →
        report' = report ∧ final' = final := by
    intro second now' report' final' hsecond hsame hview' hbuild'
    obtain ⟨other, loaded', cleared', made', hreaches', hfinish'⟩ := phases_of_build hbuild'
    obtain ⟨rfl, rfl⟩ := hreaches.cleared_eq hbase hfirst hsecond hsame hcontent hdated
      (hview site loaded hreaches.load) hreaches' (hview' other loaded' hreaches'.load)
    -- from here on both builds do the same
    have hmade := hreaches.stages.symm.trans hreaches'.stages
    cases hmade
    have hend := hfinish'.symm.trans hfinish
    cases hend
    exact ⟨rfl, rfl⟩
  refine ⟨fun site loaded cleared made h => h.not_file_cleared hbase hfirst
    (hview site loaded h.load), hrebuild, fun now' report' final' hbuild' => ?_⟩
  have hmade := hreaches.regular_made hbase hfirst
  have hallows := (keeps_build hbase config now).allows_of_ok hbuild hfirst.1
  exact hrebuild final.files now' report' final' (Build.regular_finish hrooted.output hmade hfinish)
    (SameOutside.of_allows hallows) (fun _ _ => Build.inView_of_finish hrooted hmade hfinish)
    hbuild'

/-- A text with nothing but a date. -/
def datedText : ByteArray := "---\ndate: 2024-05-01\n---\n".toUTF8

/-- A site in `/site` with one article, which has a date, and the given output. -/
def datedSite (output : List (String × FileTree)) : FileTree :=
  .directory [("site", .directory ([("content", .directory [("articles", .directory
    [("hello.md", .file datedText)])])] ++ output ++ [("templates", plainTemplates)]))]

/-- What an earlier build has left. -/
def staleOutput : List (String × FileTree) :=
  [("dist", .directory [("stale.html", .file "old".toUTF8)])]

theorem dated_datedSite (output : List (String × FileTree)) :
    (datedSite output).Dated ["site", "content", "articles"] := by
  intro name content text _ hfile hdecode
  have hdate : ((String.fromUTF8? datedText).map fun text =>
      (truthyText? ((FrontMatter.parse text.toList).1.get? "date")).isSome) = some true := by
    decide +kernel
  have harticles : (datedSite output).at? ["site", "content", "articles"] =
      some (.directory [("hello.md", .file datedText)]) := rfl
  rw [FileTree.kind?_eq_file, FileTree.at?_append, harticles, Option.bind_some,
    FileTree.at?_directory, Fields.get?_cons] at hfile
  split at hfile
  · cases hfile
    rw [hdecode] at hdate
    exact Option.some.inj hdate
  · cases hfile

theorem regular_datedSite :
    ((datedSite staleOutput).WellFormed ∧ (datedSite staleOutput).Ordered) ∧
      (datedSite []).WellFormed ∧ (datedSite []).Ordered :=
  ⟨⟨FileTree.wellFormed_of_allNamed (by decide), FileTree.ordered_of_orderly _ (by decide)⟩,
    FileTree.wellFormed_of_allNamed (by decide), FileTree.ordered_of_orderly _ (by decide)⟩

/-- A build that finds the output of an earlier one leaves what a first build leaves, and so does
the next one. -/
theorem rebuild_is_clean_stale :
    let base := Path.ofString "/site"
    ∃ report final, build {} base ⟨0, 0⟩ (.start (datedSite staleOutput)) = .ok report final ∧
      build {} base ⟨1, 0⟩ (.start (datedSite [])) = .ok report final ∧
      build {} base ⟨2, 0⟩ (.start final.files) = .ok report final ∧
      final.files.kind? ["site", "dist", "stale.html"] = none := by
  intro base
  have hbase : base.isAbsolute = true := by decide
  have hsteps : ".." ∉ (SitePaths.seenFrom {} base).output.steps := by decide
  obtain ⟨hstale, hfresh⟩ := regular_datedSite
  -- the builds are only run to know that they succeed; what they leave is told by the theorem
  have hruns : passes (build {} base ⟨0, 0⟩) (.start (datedSite staleOutput)) (fun _ final =>
      decide (final.files.kind? ["site", "dist", "stale.html"] = none) &&
        passes (build {} base ⟨2, 0⟩) (.start final.files) fun _ _ => true) = true := by
    decide +kernel
  obtain ⟨report, final, hbuild, hfinal⟩ := passes_eq_true_iff.mp hruns
  rw [Bool.and_eq_true, decide_eq_true_eq] at hfinal
  obtain ⟨hgone, hagain⟩ := hfinal
  obtain ⟨_, _, hagain, -⟩ := passes_eq_true_iff.mp hagain
  have hfirst : passes (build {} base ⟨1, 0⟩) (.start (datedSite [])) (fun _ _ => true) = true := by
    decide +kernel
  obtain ⟨_, _, hfirst, -⟩ := passes_eq_true_iff.mp hfirst
  obtain ⟨-, hother, hnext⟩ := rebuild_is_clean hbase hstale (by decide)
    (by exact dated_datedSite staleOutput)
    (fun _ _ => inView_of_build hbase hsteps hstale hbuild) hbuild
  have hsame : SameOutside (SitePaths.seenFrom {} base) (datedSite staleOutput) (datedSite []) :=
    Build.sameOutside_erase (by rfl)
  obtain ⟨rfl, rfl⟩ := hother _ _ _ _ hfresh hsame
    (fun _ _ => inView_of_build hbase hsteps hfresh hfirst) hfirst
  obtain ⟨rfl, rfl⟩ := hnext _ _ _ hagain
  exact ⟨_, _, hbuild, hfirst, hagain, hgone⟩

/-- The output of an earlier build stays if it is to be found through a directory that is not there:
the output seems to be missing, is not removed, and is found when the directory has been made. -/
theorem rebuild_keeps_hidden_output :
    let base := Path.ofString "/site"
    let config : Config := { paths := { output := .ofString "nope/../dist" } }
    SitePaths.validate config.paths base = .ok () ∧
      SameOutside (config.paths.seenFrom base) (datedSite staleOutput) (datedSite []) ∧
      (datedSite staleOutput).Dated
        (Build.articlesDirectory (config.paths.seenFrom base)).location ∧
      ∃ report final report' final',
        build config base ⟨0, 0⟩ (.start (datedSite staleOutput)) = .ok report final ∧
        build config base ⟨0, 0⟩ (.start (datedSite [])) = .ok report' final' ∧
        final.files.kind? ["site", "dist", "stale.html"] = some (some "old".toUTF8) ∧
        final'.files.kind? ["site", "dist", "stale.html"] = none := by
  intro base config
  have hruns : passes (build config base ⟨0, 0⟩) (.start (datedSite staleOutput)) (fun _ final =>
      decide (final.files.kind? ["site", "dist", "stale.html"] = some (some "old".toUTF8))) =
        true := by
    decide +kernel
  have hruns' : passes (build config base ⟨0, 0⟩) (.start (datedSite [])) (fun _ final =>
      decide (final.files.kind? ["site", "dist", "stale.html"] = none)) = true := by
    decide +kernel
  obtain ⟨report, final, hbuild, hkept⟩ := passes_eq_true_iff.mp hruns
  obtain ⟨report', final', hbuild', hnone⟩ := passes_eq_true_iff.mp hruns'
  exact ⟨by rfl, Build.sameOutside_erase (by rfl), dated_datedSite staleOutput, report, final,
    report', final', hbuild, hbuild', of_decide_eq_true hkept, of_decide_eq_true hnone⟩

end StaticSite
