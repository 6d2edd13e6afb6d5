import StaticSite.Proofs.Site.CategoryPages
import StaticSite.Proofs.Site.Overwriting
/-!
# StaticSite.Proofs.Site.StemPages

The pages of articles and authors, which go by the stems of their files. A stem is a part of an
address, and the address decides by its extension whether it names a file or a directory. So **a
page is the index page of a directory called by its stem, unless there is a point inside of the
stem** (`pages_go_by_stems`): what follows the last point is then taken for an extension, and the
page is a file called by the stem. The article `v1.2` has no directory (`build_without_directory`).
-/

set_option autoImplicit false

namespace StaticSite

/-- Whether a stem has an extension of its own: a point after its first character. The step `..` is
not a name and has none. -/
def Dotted (stem : String) : Prop := stem ≠ ".." ∧ '.' ∈ stem.toList.tail

instance : DecidablePred Dotted := fun _ => inferInstanceAs (Decidable (_ ∧ _))

/-! ### Addresses

The extension of an address is that of its last name, and the last name of a stem in a section is
the stem, unless the stem is a step that is no name. -/

namespace Path

variable {name stem : String}

theorem isSome_extension?_slash (hname : IsName name) (hpoint : '.' ∉ name.toList)
    (hstem : '/' ∉ stem.toList) :
    (extension? ⟨name.toList ++ '/' :: stem.toList⟩).isSome ↔ Dotted stem := by
  unfold extension? Dotted
  rw [fileName?_slash hname hstem]
  split
  · -- the address goes by the name of the section
    rename_i hsilent
    rw [Option.bind_some, cutName_of_point_not_mem hpoint]
    have hplain : ¬ (stem ≠ ".." ∧ '.' ∈ stem.toList.tail) := by
      rcases hsilent with rfl | rfl
      · decide
      · decide
    exact iff_of_false (by simp) hplain
  · split
    · rename_i hpoints
      simp [hpoints]
    · rename_i hpoints
      rw [Option.bind_some, Option.isSome_map, isSome_cutName_iff]
      simp [hpoints]

/-- Where the page of a stem in a section is written. -/
theorem output_section (hname : IsName name) (hpoint : '.' ∉ name.toList)
    (hstem : '/' ∉ stem.toList) (dir : Path) :
    dir.output ('/' :: (name.toList ++ '/' :: stem.toList)) =
      if Dotted stem then (dir.child name).child stem
      else ((dir.child name).child stem).child "index.html" := by
  have hchars : name.toList ≠ [] := fun hnil => hname.1 (String.toList_eq_nil_iff.mp hnil)
  have hjoin : dir.join ⟨name.toList ++ '/' :: stem.toList⟩ = (dir.child name).child stem :=
    join_slash hchars hname.2.2.2 hstem dir
  unfold output
  dsimp only
  rw [dropWhile_slash hname.2.2.2 hchars, if_neg (by simp [hchars]), hjoin]
  exact if_congr (isSome_extension?_slash hname hpoint hstem) rfl rfl

end Path

/-! ### Turns

Pages that cannot be made are left out, so it cannot be promised that a page is there in the end.
What can be said is that its turn comes, whatever has become of the pages before it. -/

namespace Task

variable {ε α : Type}

/-- Trying tasks one after the other never fails. -/
theorem exists_forEach_attempt (act : α → Task ε Unit) (all : List α) (work : Work) :
    ∃ after, forEach (fun a => attempt (act a)) all work = .ok () after := by
  induction all generalizing work with
  | nil => exact ⟨work, rfl⟩
  | cons a rest ih =>
    obtain ⟨middle, hmiddle⟩ : ∃ middle, attempt (act a) work = .ok () middle := by
      unfold attempt
      cases act a work with
      | ok _ after => exact ⟨after, rfl⟩
      | error _ after => exact ⟨after, rfl⟩
    obtain ⟨after, hafter⟩ := ih middle
    exact ⟨after, bind_eq_ok_iff.mpr ⟨(), middle, hmiddle, hafter⟩⟩

end Task

namespace Build

variable {paths : SitePaths} {site : Site} {stage : Stage} {page : Page} {work : Work}

/-- Whether a run of a stage comes to a page: from this moment on it is the same to try the page,
and then others. -/
def ComesTo (paths : SitePaths) (site : Site) (stage : Stage) (work : Work) (page : Page)
    (moment : Work) : Prop :=
  ∃ later, runStage paths site stage work = (do
    Task.attempt (makePage paths site page)
    Task.forEach (fun other => Task.attempt (makePage paths site other)) later) moment

/-- A stage that leaves out the pages that cannot be made comes to all of its pages. -/
theorem exists_comesTo (hout : paths.output.isAbsolute = true) (hlenient : stage.lenient = true)
    (hpage : page ∈ stage.pages site) (hwork : work.files.WellFormed) :
    ∃ moment, moment.files.WellFormed ∧ ComesTo paths site stage work page moment := by
  obtain ⟨before, later, hsplit⟩ := List.append_of_mem hpage
  obtain ⟨moment, hmoment⟩ := Task.exists_forEach_attempt (makePage paths site) before work
  have hkeeps : (sparing [""]).Keeps
      (Task.forEach (fun other => Task.attempt (makePage paths site other)) before) :=
    Task.keeps_forEach fun other _ => Task.keeps_attempt (keepsFormed_makePage hout other)
  refine ⟨moment, hkeeps.holds_of_ok hmoment hwork, later, ?_⟩
  unfold runStage
  rw [hlenient, hsplit]
  exact (congrFun (Task.forEach_append _ before (page :: later)) work).trans (bind_of_ok hmoment)

/-! ### Pages of stems

What is said of a page of a stem is collected in one structure, since it is the same for
articles and authors: its address, its turn, its file, and what is at the file once the page has
been made. -/

/-- What the address of a stem in a section leads to, below the output directory. -/
def entry (paths : SitePaths) (name stem : String) : Path := (paths.output.child name).child stem

/-- Whether a page is made for a stem in a section. The stage of the section comes to it; and
wherever it is made, it is the index page of a directory that is called by the stem, or the file
with this name if the stem has an extension. -/
structure StemPage (paths : SitePaths) (site : Site) (name stem : String) (page : Page) : Prop where
  address : page.address = "/" ++ name ++ "/" ++ stem
  turn : ∀ stage ∈ pageStages, stage.name = name → ∀ work : Work, work.files.WellFormed →
    ∃ moment, moment.files.WellFormed ∧ ComesTo paths site stage work page moment
  file : pageFile paths page =
    if Dotted stem then entry paths name stem else (entry paths name stem).child "index.html"
  shown : ∀ work made : Work, work.files.WellFormed → makePage paths site page work = .ok () made →
    ∃ html rendered, renderPage paths site page work = .ok html rendered ∧
      if Dotted stem then
        made.files.kind? (entry paths name stem).location = some (some (bytes html))
      else
        made.files.kind? (entry paths name stem).location = some none ∧
          made.files.kind? ((entry paths name stem).location ++ ["index.html"]) =
            some (some (bytes html))

/-- A page of a section of pages that may be left out. -/
theorem stemPage_of_address {name stem : String} (hname : IsName name)
    (hpoint : '.' ∉ name.toList) (hstem : '/' ∉ stem.toList)
    (hout : paths.output.isAbsolute = true) (hstage : stage ∈ pageStages)
    (hsection : stage.name = name) (hlenient : stage.lenient = true)
    (hpage : page ∈ stage.pages site) (haddress : page.address = "/" ++ name ++ "/" ++ stem) :
    StemPage paths site name stem page := by
  have hfile : pageFile paths page =
      if Dotted stem then entry paths name stem
      else (entry paths name stem).child "index.html" := by
    have hchars : page.address.toList = '/' :: (name.toList ++ '/' :: stem.toList) := by
      rw [haddress]
      simp
    unfold pageFile
    rw [hchars]
    exact Path.output_section hname hpoint hstem paths.output
  refine ⟨haddress, fun other hother hsame work hwork => ?_, hfile, fun work made hwork hmade => ?_⟩
  · obtain rfl := Stage.eq_of_name hstage hother (hsection.trans hsame.symm)
    exact exists_comesTo hout hlenient hpage hwork
  · obtain ⟨html, rendered, hrender, hshown⟩ := makePage_eq_ok hout hwork hmade
    refine ⟨html, rendered, hrender, ?_⟩
    rw [hfile] at hshown
    split
    · rename_i hdotted
      rwa [if_pos hdotted] at hshown
    · rename_i hdotted
      rw [if_neg hdotted, Path.location_child Path.isName_indexPage] at hshown
      -- what holds the index page is a directory
      exact ⟨FileTree.kind?_parent (Option.isSome_of_eq_some hshown), hshown⟩

end Build

/-- **The pages of articles and authors go by the stems of their files.** Each article file gives
one article and each author file an author, and these give one page each. The page is written to
`index.html` in a directory of its section that is called by the stem, so that its address names a
directory with an index page, if and only if the stem is not `Dotted`; otherwise it is written to a
file with the name of the stem. -/
theorem pages_go_by_stems {base : Path} (hbase : base.isAbsolute = true) {config : Config}
    {now : Instant} {work loaded : Work} (hfiles : work.files.WellFormed) {site : Site}
    (hload : Build.load config (config.paths.seenFrom base) now work = .ok site loaded) :
    let paths := config.paths.seenFrom base
    (∃ names, loaded.files.filesWith (Build.articlesDirectory paths) "md" = .ok names ∧
      site.articleSlugs.Perm (names.map stemOf)) ∧
    (∃ names, loaded.files.filesWith (Build.authorsDirectory paths) "json" = .ok names ∧
      ∀ id, id ∈ site.authors.names ↔ id ∈ names.map stemOf) ∧
    (∀ article ∈ site.articles, Build.StemPage paths site "articles" article.metadata.slug
      (site.articlePage article)) ∧
    ∀ author ∈ site.authors, Build.StemPage paths site "authors" author.1
      (site.authorPage author) := by
  intro paths
  have hrooted : Build.Rooted paths := Build.rooted_seenFrom hbase config.paths
  have hsite : site.Slashless := (Build.stemmed_of_load hrooted hfiles hload).slashless
  obtain ⟨_, articles, authors, -, -, harticles, hauthors, rfl, -⟩ := Build.load_eq_ok hload
  refine ⟨slugs_of_loadArticles harticles, names_of_loadAuthors hauthors,
    fun article harticle => ?_, fun author hauthor => ?_⟩
  · have hstage : ⟨"articles", true, fun site => site.articles.map site.articlePage⟩ ∈
        pageStages := by simp [pageStages]
    exact Build.stemPage_of_address (by decide) (by decide) (hsite.articles article harticle)
      hrooted.output hstage rfl rfl (List.mem_map_of_mem harticle) rfl
  · have hstage : ⟨"authors", true, fun site => site.authors.map site.authorPage⟩ ∈
        pageStages := by simp [pageStages]
    exact Build.stemPage_of_address (by decide) (by decide) (hsite.authors author hauthor)
      hrooted.output hstage rfl rfl (List.mem_map_of_mem hauthor) rfl

/-- A site in `/site` with one article and an author who has a point in the stem of the file. -/
def authoredSite (article : String) : FileTree :=
  .directory [("site", .directory [
    ("content", .directory [
      ("articles", .directory [(article, .file ⟨#[]⟩)]),
      ("authors", .directory [("j.doe.json", .file "{}".toUTF8)])]),
    ("templates", plainTemplates)])]

/-- A point in front of a stem does not matter, one inside of it does. -/
theorem pages_go_by_stems_draft :
    let paths := SitePaths.seenFrom {} (.ofString "/site")
    ∃ site loaded,
      Build.load {} paths ⟨0, 0⟩ (.start (authoredSite ".draft.md")) = .ok site loaded ∧
      (∃ article ∈ site.articles, Build.pageFile paths (site.articlePage article) =
        .ofString "/site/dist/articles/.draft/index.html") ∧
      ∃ author ∈ site.authors, Build.pageFile paths (site.authorPage author) =
        .ofString "/site/dist/authors/j.doe" := by
  intro paths
  have hruns : passes (Build.load {} paths ⟨0, 0⟩) (.start (authoredSite ".draft.md"))
      (fun site _ => decide (".draft" ∈ site.articleSlugs ∧ "j.doe" ∈ site.authors.names)) =
        true := by
    decide +kernel
  obtain ⟨site, loaded, hload, hstems⟩ := passes_eq_true_iff.mp hruns
  obtain ⟨hslug, hid⟩ := of_decide_eq_true hstems
  obtain ⟨article, harticle, hslug⟩ := List.mem_map.mp hslug
  obtain ⟨author, hauthor, hid⟩ := List.mem_map.mp hid
  have hfiles : (Work.start (authoredSite ".draft.md")).files.WellFormed :=
    FileTree.wellFormed_of_allNamed (by decide)
  obtain ⟨-, -, harticles, hauthors⟩ := pages_go_by_stems (by decide) hfiles hload
  refine ⟨site, loaded, hload, ⟨article, harticle, ?_⟩, author, hauthor, ?_⟩
  · rw [(harticles article harticle).file, hslug]
    decide
  · rw [(hauthors author hauthor).file, hid]
    decide

/-- The pages of the article `v1.2` and of the author `j.doe` are files with these names. There are
no directories with these names, and so no index pages in them. -/
theorem build_without_directory :
    ∃ report final,
      build {} (.ofString "/site") ⟨0, 0⟩ (.start (authoredSite "v1.2.md")) = .ok report final ∧
        (authoredSite "v1.2.md").WellFormed ∧
        final.files.kind? ["site", "dist", "articles", "v1.2"] = some (some "article".toUTF8) ∧
        final.files.kind? ["site", "dist", "articles", "v1.2", "index.html"] = none ∧
        final.files.kind? ["site", "dist", "authors", "j.doe"] = some (some "author".toUTF8) ∧
        final.files.kind? ["site", "dist", "authors", "j.doe", "index.html"] = none := by
  have hruns : passes (build {} (.ofString "/site") ⟨0, 0⟩) (.start (authoredSite "v1.2.md"))
      fun _ final => decide (
        final.files.kind? ["site", "dist", "articles", "v1.2"] = some (some "article".toUTF8) ∧
        final.files.kind? ["site", "dist", "articles", "v1.2", "index.html"] = none ∧
        final.files.kind? ["site", "dist", "authors", "j.doe"] = some (some "author".toUTF8) ∧
        final.files.kind? ["site", "dist", "authors", "j.doe", "index.html"] = none) := by
    decide +kernel
  obtain ⟨report, final, hbuild, hfinal⟩ := passes_eq_true_iff.mp hruns
  exact ⟨report, final, hbuild, FileTree.wellFormed_of_allNamed (by decide),
    of_decide_eq_true hfinal⟩

end StaticSite
