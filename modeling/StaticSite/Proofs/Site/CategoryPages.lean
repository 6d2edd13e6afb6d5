import StaticSite.Proofs.FileTree.Writing
import StaticSite.Proofs.Site.PagePlaces
import StaticSite.Proofs.Site.Phases
/-!
# StaticSite.Proofs.Site.CategoryPages

**Links to categories lead somewhere.** An article lists the slugs of its categories, and the pages
of categories are made from groups of articles; both start from the names that the article lists. So
each listed slug has a page, the page is made from data in which the article is listed, and it is
there when its stage is done: slugs hold no points, so that no two pages of the stage share a file,
and no page of another stage is in the directory of the categories
(`category_links_lead_to_pages`).
-/

set_option autoImplicit false

namespace StaticSite

open StaticSite.Path (steps)

/-! ### Grouping -/

namespace Category

/-- Whether an article is in the category with a slug. -/
def Holds (categories : List Category) (slug : String) (article : ArticleMetadata) : Prop :=
  ∃ category ∈ categories, category.slug = slug ∧ article ∈ category.articles

/-- Each article is in the category of each name that it lists. -/
theorem holds_ofArticles {articles : List ArticleMetadata} {article : ArticleMetadata}
    (harticle : article ∈ articles) {name : String} (hname : name ∈ article.categories) :
    Holds (ofArticles articles) (slugify name) article := by
  have hnaming : Naming.mk article name ∈ namings articles :=
    List.mem_flatMap.mpr ⟨article, harticle, List.mem_map_of_mem hname⟩
  obtain ⟨hcategory, hlisted⟩ := ofNamings_mem_ofArticles hnaming
  exact ⟨_, hcategory, rfl, hlisted⟩

end Category

/-! ### Pages that are written one after the other

A page is written when its turn comes, and the pages after it must not touch its file. The first is
read off from the one turn, the second is a discipline that all later turns keep: they spare the
place of the file. -/

namespace Task

variable {ε α : Type}

/-- A task for the elements of two lists is done for the first list, and then for the second. -/
theorem forEach_append (act : α → Task ε Unit) (first second : List α) :
    forEach act (first ++ second) = (forEach act first >>= fun _ => forEach act second) := by
  induction first with
  | nil => exact (pure_bind () fun _ => forEach act second).symm
  | cons a rest ih =>
    change (act a >>= fun _ => forEach act (rest ++ second)) =
      ((act a >>= fun _ => forEach act rest) >>= fun _ => forEach act second)
    rw [ih, bind_assoc]

end Task

namespace Build

variable {paths : SitePaths} {site : Site} {page : Page} {place : Place}

/-- The discipline of tasks that bring no file to a place, change none there and take none away. -/
def sparing (place : Place) : Discipline Work := (FileTree.sparing place).onPart Work.files

theorem spares_renderPage : (sparing place).Keeps (renderPage paths site page) := by
  refine Task.keeps_of_files_eq fun work => ?_
  obtain ⟨session, hsession⟩ := stateAfter_renderPage paths site page work
  rw [hsession]

/-- A page is written to its own file only. -/
theorem spares_makePage (hout : paths.output.isAbsolute = true)
    (hplace : (pageFile paths page).location ≠ place) :
    (sparing place).Keeps (makePage paths site page) := by
  unfold makePage
  refine spares_renderPage.bind fun html => ?_
  refine Discipline.Keeps.bind (Task.yields_onFiles
    (FileTask.spares_writeInside (isAbsolute_pageFile hout page) hplace)) fun _ => ?_
  exact Task.keeps_of_files_eq fun _ => rfl

/-- Trees stay well-formed: no page is in place of an entry without a name. -/
theorem keepsFormed_makePage (hout : paths.output.isAbsolute = true) (page : Page) :
    (sparing [""]).Keeps (makePage paths site page) := by
  refine spares_makePage hout fun heq => ?_
  have hname : IsName "" := Path.isName_of_mem_location (heq.symm ▸ List.mem_singleton_self "")
  exact hname.1 rfl

theorem spares_runStage (hout : paths.output.isAbsolute = true) {stage : Stage}
    (hplace : ∀ page ∈ stage.pages site, (pageFile paths page).location ≠ place) :
    (sparing place).Keeps (runStage paths site stage) := by
  unfold runStage
  refine Task.keeps_forEach fun page hpage => ?_
  have hmake : (sparing place).Keeps (makePage paths site page) :=
    spares_makePage hout (hplace page hpage)
  split
  · exact Task.keeps_attempt hmake
  · exact hmake

/-- A page that is made has been rendered, and its file shows it. -/
theorem makePage_eq_ok (hout : paths.output.isAbsolute = true) {work after : Work}
    (hfiles : work.files.WellFormed) (h : makePage paths site page work = .ok () after) :
    ∃ html rendered, renderPage paths site page work = .ok html rendered ∧
      after.files.kind? (pageFile paths page).location = some (some (bytes html)) := by
  obtain ⟨html, rendered, hrender, h⟩ := bind_eq_ok_iff.mp h
  obtain ⟨_, written, hwrite, h⟩ := bind_eq_ok_iff.mp h
  cases h
  have hkeeps : (sparing []).Keeps (renderPage paths site page) := spares_renderPage
  have hrendered : rendered.files.WellFormed := hkeeps.holds_of_ok hrender hfiles
  obtain ⟨hwritten, -⟩ := Task.onFiles_eq_ok hwrite
  exact ⟨html, rendered, hrender,
    (FileTask.writeInside_ok (isAbsolute_pageFile hout page) hrendered hwritten).1⟩

/-- Whether a stage has written a page: after the pages before it the page has been rendered, and
its file still shows it when the stage is done. -/
def Written (paths : SitePaths) (site : Site) (stage : Stage) (work after : Work) (page : Page) :
    Prop :=
  ∃ before later moment html rendered, stage.pages site = before ++ page :: later ∧
    Task.forEach (makePage paths site) before work = .ok () moment ∧
    renderPage paths site page moment = .ok html rendered ∧
    after.files.kind? (pageFile paths page).location = some (some (bytes html))

/-- A stage that leaves out no page and gives each a file of its own has written all of them. -/
theorem written_of_runStage (hout : paths.output.isAbsolute = true) {stage : Stage}
    (hstrict : stage.lenient = false)
    (hapart : ((stage.pages site).map fun page => (pageFile paths page).location).Nodup)
    {work after : Work} (hfiles : work.files.WellFormed)
    (h : runStage paths site stage work = .ok () after) :
    ∀ page ∈ stage.pages site, Written paths site stage work after page := by
  intro page hpage
  have hrun : Task.forEach (makePage paths site) (stage.pages site) work = .ok () after := by
    unfold runStage at h
    rw [hstrict] at h
    exact h
  obtain ⟨before, later, hsplit⟩ := List.append_of_mem hpage
  rw [hsplit] at hrun hapart
  rw [Task.forEach_append] at hrun
  obtain ⟨_, moment, hbefore, hrun⟩ := bind_eq_ok_iff.mp hrun
  obtain ⟨_, made, hmake, hlater⟩ := bind_eq_ok_iff.mp hrun
  have hmoment : moment.files.WellFormed :=
    (Task.keeps_forEach fun other _ => keepsFormed_makePage hout other).holds_of_ok hbefore hfiles
  obtain ⟨html, rendered, hrender, hshown⟩ := makePage_eq_ok hout hmoment hmake
  refine ⟨before, later, moment, html, rendered, hsplit, hbefore, hrender, ?_⟩
  -- the pages after it go to other files
  rw [List.map_append, List.map_cons] at hapart
  have hnot := (List.nodup_cons.mp (List.nodup_append.mp hapart).2.1).1
  have hkeeps : (sparing (pageFile paths page).location).Keeps
      (Task.forEach (makePage paths site) later) := by
    refine Task.keeps_forEach fun other hother => spares_makePage hout fun heq => hnot ?_
    exact List.mem_map.mpr ⟨other, hother, heq⟩
  have hmade : made.files.WellFormed := (keepsFormed_makePage hout page).holds_of_ok hmake hmoment
  have hspared := hkeeps made hmade
  rw [hlater] at hspared
  exact (hspared.1.2 (bytes html)).mpr hshown

end Build

/-! ### The directory of the categories

That no other stage writes here is a matter of first steps: a page of another section stands below
another name, and a page that leaves its section by `..` is the home page. -/

variable {site : Site} {paths : SitePaths} {stage : Stage}

/-- The stage that makes the pages of categories. -/
theorem eq_of_name_categories (hstage : stage ∈ pageStages) (hname : stage.name = "categories") :
    stage = ⟨"categories", false, fun site =>
      (Category.ofArticles site.metadata).map site.categoryPage⟩ :=
  Stage.eq_of_name hstage (by simp [pageStages]) hname

theorem slash_not_mem_slug_of_category {category : Category}
    (h : category ∈ Category.ofArticles site.metadata) : '/' ∉ category.slug.toList := by
  obtain ⟨name, hslug⟩ := Category.slugged_ofArticles site.metadata category h
  exact hslug ▸ slash_not_mem_slugify name

theorem location_categoryPage {category : Category}
    (h : category ∈ Category.ofArticles site.metadata) :
    (Build.pageFile paths (site.categoryPage category)).location =
      paths.output.location ++ sectionPlace "categories" category.slug := by
  unfold Build.pageFile
  rw [show (site.categoryPage category).address.toList =
    '/' :: ("categories".toList ++ '/' :: category.slug.toList) by simp [Site.categoryPage]]
  exact location_output_section (by decide) (by decide) (slash_not_mem_slug_of_category h) _

/-- Each category has a file of its own. -/
theorem nodup_locations_categories (paths : SitePaths) (site : Site) :
    (((Category.ofArticles site.metadata).map site.categoryPage).map
      fun page => (Build.pageFile paths page).location).Nodup := by
  have hslash : ∀ category ∈ Category.ofArticles site.metadata, '/' ∉ category.slug.toList :=
    fun _ hcategory => slash_not_mem_slug_of_category hcategory
  have hlocations := locations_section paths "categories" site.categoryPage (by decide) (by decide)
    (fun _ => by simp [Site.categoryPage]) hslash
  rw [hlocations, List.nodup_map_iff (List.append_right_injective _)]
  exact (apart_of_pointless "categories" (Category.nodup_slugs_ofArticles site.metadata)
    point_not_mem_slug_of_category).1

/-- The pages of a section are in its directory, or one of them is the home page. -/
theorem head?_sectionPlace_ne {name other : String} (hname : name ≠ other)
    (hindex : "index.html" ≠ other) (slug : String) :
    (sectionPlace name slug).head? ≠ some other := by
  intro hhead
  by_cases hslug : slug = ".."
  · rw [sectionPlace_eq_home_iff.mpr hslug] at hhead
    exact hindex (Option.some.inj hhead)
  · rw [head?_sectionPlace hslug] at hhead
    exact hname (Option.some.inj hhead)

/-- No page of another stage is in the directory of the categories. -/
theorem location_of_name_ne_categories (paths : SitePaths) (hsite : site.Slashless)
    (hstage : stage ∈ pageStages) (hname : stage.name ≠ "categories") {page : Page}
    (hpage : page ∈ stage.pages site) :
    ∃ place, (Build.pageFile paths page).location = paths.output.location ++ place ∧
      place.head? ≠ some "categories" := by
  have hfixed : ∀ (address : String) (names : Place), page.address = address →
      steps ⟨address.toList⟩ = names → (∀ name ∈ names, IsName name) →
      Path.extension? ⟨address.toList.dropWhile (· == '/')⟩ = none →
      (names ++ ["index.html"]).head? ≠ some "categories" →
      ∃ place, (Build.pageFile paths page).location = paths.output.location ++ place ∧
        place.head? ≠ some "categories" :=
    fun address names haddress hsteps hnames hext hhead =>
      ⟨_, location_pageFile_fixed paths page address names haddress hsteps hnames hext, hhead⟩
  have hsection : ∀ name slug : String, IsName name → '.' ∉ name.toList → '/' ∉ slug.toList →
      page.address.toList = '/' :: (name.toList ++ '/' :: slug.toList) → name ≠ "categories" →
      ∃ place, (Build.pageFile paths page).location = paths.output.location ++ place ∧
        place.head? ≠ some "categories" := by
    intro name slug hname hpoint hslug haddress hne
    unfold Build.pageFile
    rw [haddress, location_output_section hname hpoint hslug]
    exact ⟨_, rfl, head?_sectionPlace_ne hne (by decide) slug⟩
  -- stage by stage, in the order in which they are made
  unfold pageStages at hstage
  simp only [List.mem_cons, List.not_mem_nil, or_false] at hstage
  rcases hstage with rfl | rfl | rfl | rfl | rfl | rfl | rfl | rfl
  · obtain rfl := List.mem_singleton.mp hpage
    exact hfixed "/" [] rfl (by decide) (by decide) (by decide) (by decide)
  · obtain ⟨article, harticle, rfl⟩ := List.mem_map.mp hpage
    exact hsection "articles" article.metadata.slug (by decide) (by decide)
      (hsite.articles article harticle) (by simp [Site.articlePage]) (by decide)
  · obtain ⟨author, hauthor, rfl⟩ := List.mem_map.mp hpage
    exact hsection "authors" author.1 (by decide) (by decide)
      (hsite.authors author hauthor) (by simp [Site.authorPage]) (by decide)
  · obtain rfl := List.mem_singleton.mp hpage
    exact hfixed "/news" ["news"] rfl (by decide) (by decide) (by decide) (by decide)
  · obtain rfl := List.mem_singleton.mp hpage
    exact hfixed "/guides" ["guides"] rfl (by decide) (by decide) (by decide) (by decide)
  · obtain rfl := List.mem_singleton.mp hpage
    exact hfixed "/games" ["games"] rfl (by decide) (by decide) (by decide) (by decide)
  · obtain rfl := List.mem_singleton.mp hpage
    exact hfixed "/about" ["about"] rfl (by decide) (by decide) (by decide) (by decide)
  · exact absurd rfl hname

/-- Whether the data of a page has a list of articles with an article in it. -/
def Page.Lists (page : Page) (article : ArticleMetadata) : Prop :=
  ∃ articles, page.data.get? "articles" = some (.array articles) ∧ article.toJson ∈ articles

theorem lists_categoryPage {category : Category} {article : ArticleMetadata}
    (h : article ∈ category.articles) : (site.categoryPage category).Lists article := by
  refine ⟨category.articles.map ArticleMetadata.toJson, ?_, List.mem_map_of_mem h⟩
  simp [Site.categoryPage, Site.listing, Fields.ofList, Fields.get?_set]

/-- **Links to categories lead to pages that list the article.** When the stage of the categories
has succeeded, each slug that an article lists for its categories is the address of a page that this
stage has written from data with the article in its list. Categories with different slugs have
different files. If articles and authors go by names without slashes, as file names are
(`Build.stemmed_of_load`), then no other stage brings anything to one of these files or takes it
away. -/
theorem category_links_lead_to_pages (hout : paths.output.isAbsolute = true)
    (hstage : stage ∈ pageStages) (hname : stage.name = "categories") {work after : Work}
    (hfiles : work.files.WellFormed) (h : Build.runStage paths site stage work = .ok () after) :
    (∀ article ∈ site.articles, ∀ entry ∈ article.metadata.categoriesData, ∃ name slug : String,
      entry = .object (Fields.ofList [("name", .string name), ("slug", .string slug)]) ∧
        ∃ page ∈ stage.pages site, page.address = "/categories/" ++ slug ∧
          page.Lists article.metadata ∧ Build.Written paths site stage work after page) ∧
    (∀ page ∈ stage.pages site, ∀ other ∈ stage.pages site, page.address ≠ other.address →
      (Build.pageFile paths page).location ≠ (Build.pageFile paths other).location) ∧
    (site.Slashless → ∀ other ∈ pageStages, other.name ≠ "categories" →
      ∀ page ∈ stage.pages site, ∀ before : Work, before.files.WellFormed → ∀ content,
        (stateAfter (Build.runStage paths site other) before).files.kind?
            (Build.pageFile paths page).location = some (some content) ↔
          before.files.kind? (Build.pageFile paths page).location = some (some content)) := by
  obtain rfl := eq_of_name_categories hstage hname
  have hapart := nodup_locations_categories paths site
  refine ⟨fun article harticle entry hentry => ?_, fun page hpage other hother hne heq => ?_,
    fun hsite other hstage hother page hpage before hbefore => ?_⟩
  · -- each entry of the article comes from a name, and the name has a category that holds the
    -- article
    obtain ⟨name, hname, rfl⟩ := List.mem_map.mp hentry
    obtain ⟨category, hcategory, hslug, hholds⟩ :=
      Category.holds_ofArticles (List.mem_map_of_mem harticle) hname
    have hpage := List.mem_map_of_mem (f := site.categoryPage) hcategory
    refine ⟨name, slugify name, rfl, _, hpage, ?_, lists_categoryPage hholds, ?_⟩
    · exact congrArg ("/categories/" ++ ·) hslug
    · exact Build.written_of_runStage hout rfl hapart hfiles h _ hpage
  · exact hne (congrArg Page.address (List.inj_on_of_nodup_map hapart hpage hother heq))
  · -- a page of another stage that had this file would start with the name of the categories
    obtain ⟨category, hcategory, rfl⟩ := List.mem_map.mp hpage
    have hkeeps : (Build.sparing (Build.pageFile paths (site.categoryPage category)).location).Keeps
        (Build.runStage paths site other) := by
      refine Build.spares_runStage hout fun otherPage hotherPage heq => ?_
      obtain ⟨place, hplace, hhead⟩ :=
        location_of_name_ne_categories paths hsite hstage hother hotherPage
      rw [hplace, location_categoryPage hcategory, List.append_cancel_left_eq] at heq
      -- the slug is not `..`, since slugs have no points
      refine hhead (heq ▸ head?_sectionPlace fun hpoints => ?_)
      exact point_not_mem_slug_of_category category.slug (List.mem_map_of_mem hcategory)
        (hpoints ▸ by decide)
    exact (hkeeps.allows hbefore).2

/-- An article in two categories, one of which has no slug to speak of. -/
def signArticle : Article :=
  ⟨{ (default : ArticleMetadata) with categories := ["Elden Ring", "!!!"], slug := "sign" }, ""⟩

/-- A site in `/site` that has a template for categories and nothing else. -/
def categoryTemplateSite : FileTree :=
  .directory [("site", .directory [("templates", .directory
    [("category.html", .file "category".toUTF8)])])]

/-- Both categories of the article have a page. -/
theorem category_links_lead_to_pages_sign :
    let paths := SitePaths.seenFrom {} (.ofString "/site")
    let site : Site := ⟨{}, [signArticle], [], []⟩
    ∃ stage ∈ pageStages, stage.name = "categories" ∧ ∃ after,
      Build.runStage paths site stage (.start categoryTemplateSite) = .ok () after ∧
      signArticle.metadata.categoriesData.length = 2 ∧
      ∀ entry ∈ signArticle.metadata.categoriesData, ∃ name slug : String,
        entry = .object (Fields.ofList [("name", .string name), ("slug", .string slug)]) ∧
          ∃ page ∈ stage.pages site, page.address = "/categories/" ++ slug ∧
            page.Lists signArticle.metadata ∧
            Build.Written paths site stage (.start categoryTemplateSite) after page := by
  intro paths site
  have hstage : ⟨"categories", false, fun site =>
      (Category.ofArticles site.metadata).map site.categoryPage⟩ ∈ pageStages := by
    simp [pageStages]
  have hfiles : (Work.start categoryTemplateSite).files.WellFormed :=
    FileTree.wellFormed_of_allNamed (by decide)
  have hruns : passes (Build.runStage paths site ⟨"categories", false, fun site =>
      (Category.ofArticles site.metadata).map site.categoryPage⟩) (.start categoryTemplateSite)
      (fun _ _ => true) = true := by decide +kernel
  obtain ⟨_, after, hrun, -⟩ := passes_eq_true_iff.mp hruns
  refine ⟨_, hstage, rfl, after, hrun, rfl, ?_⟩
  exact (category_links_lead_to_pages (by decide) hstage rfl hfiles hrun).1 signArticle
    (List.mem_singleton_self _)

end StaticSite
