import StaticSite.Proofs.Content.Loading
import StaticSite.Proofs.Site.Grouping
import StaticSite.Proofs.Slug
/-!
# StaticSite.Proofs.Site.Addresses

The addresses of a site's pages. **No address leads out of the site** (`inward_of_mem_pages`): it is
fixed, or a fixed name and one step after it. That step may be anything that a file can be called,
also `.` or `..`, since it comes after a name.
-/

set_option autoImplicit false

namespace StaticSite

open StaticSite.Path (Inward inward_name_any inward_names steps steps_append_slash
  steps_eq_singleton)

/-- Whether what the addresses of a site are made from holds no slash. -/
structure Site.Slashless (site : Site) : Prop where
  articles : ∀ article ∈ site.articles, '/' ∉ article.metadata.slug.toList
  authors : ∀ author ∈ site.authors, '/' ∉ author.1.toList

/-- Whether a site's articles and authors go by stems of file names, and no two authors by one. -/
structure Site.Stemmed (site : Site) : Prop where
  articles : ∀ article ∈ site.articles, IsStem article.metadata.slug
  authors : ∀ author ∈ site.authors, IsStem author.1
  ascending : Fields.Ascending site.authors

theorem Site.Stemmed.slashless {site : Site} (h : site.Stemmed) : site.Slashless where
  articles article harticle := (h.articles article harticle).slash_not_mem
  authors author hauthor := (h.authors author hauthor).slash_not_mem

/-! ### Categories -/

namespace Category

/-- Whether every category has a slug that is made from a name. -/
def Slugged (categories : List Category) : Prop :=
  ∀ category ∈ categories, ∃ name, category.slug = slugify name

theorem slugged_ofArticles (articles : List ArticleMetadata) : Slugged (ofArticles articles) := by
  intro category hcategory
  obtain ⟨-, naming, -, hslug⟩ := eq_ofNamings_of_mem hcategory
  exact ⟨naming.name, hslug.symm⟩

end Category

/-! ### Pages

An address is cut at its slashes, so a slug without a slash is at most one step of it. The one step
that could lead out is `..`, and it comes after the name of a section, which it takes back. -/

theorem steps_of_slash_not_mem {s : List Char} (h : '/' ∉ s) :
    steps ⟨s⟩ = [] ∨ steps ⟨s⟩ = [String.ofList s] := by
  cases s with
  | nil => exact .inl rfl
  | cons c rest => exact .inr (steps_eq_singleton (by simp) h)

theorem inward_fixed (address : String)
    (h : ∀ name ∈ steps ⟨address.toList⟩ ++ ["index.html"], IsName name) :
    Inward (steps ⟨address.toList⟩ ++ ["index.html"]) :=
  inward_names h

/-- One step after a name leads inward, whatever it is. -/
theorem inward_after_name {front : List Char} {slug : String} (name : String)
    (hfront : steps ⟨front⟩ = [name]) (hname : IsName name) (hslug : '/' ∉ slug.toList) :
    Inward (steps ⟨front ++ '/' :: slug.toList⟩ ++ ["index.html"]) := by
  rw [steps_append_slash, hfront]
  rcases steps_of_slash_not_mem hslug with hnone | hone
  · rw [hnone]
    exact inward_name_any hname "index.html" (by simp)
  · rw [hone]
    exact inward_name_any hname _ (by decide)

theorem inward_of_mem_pages {site : Site} (hsite : site.Slashless) {stage : Stage}
    (hstage : stage ∈ pageStages) {page : Page} (hpage : page ∈ stage.pages site) :
    Inward (steps ⟨page.address.toList⟩ ++ ["index.html"]) := by
  -- stage by stage, in the order in which they are made
  unfold pageStages at hstage
  simp only [List.mem_cons, List.not_mem_nil, or_false] at hstage
  rcases hstage with rfl | rfl | rfl | rfl | rfl | rfl | rfl | rfl
  · obtain rfl := List.mem_singleton.mp hpage
    exact inward_fixed "/" (by decide)
  · obtain ⟨article, harticle, rfl⟩ := List.mem_map.mp hpage
    rw [show (site.articlePage article).address.toList =
      "/articles".toList ++ '/' :: article.metadata.slug.toList by simp [Site.articlePage]]
    exact inward_after_name "articles" (by decide) (by decide)
      (hsite.articles article harticle)
  · obtain ⟨author, hauthor, rfl⟩ := List.mem_map.mp hpage
    rw [show (site.authorPage author).address.toList =
      "/authors".toList ++ '/' :: author.1.toList by simp [Site.authorPage]]
    exact inward_after_name "authors" (by decide) (by decide)
      (hsite.authors author hauthor)
  · obtain rfl := List.mem_singleton.mp hpage
    exact inward_fixed "/news" (by decide)
  · obtain rfl := List.mem_singleton.mp hpage
    exact inward_fixed "/guides" (by decide)
  · obtain rfl := List.mem_singleton.mp hpage
    exact inward_fixed "/games" (by decide)
  · obtain rfl := List.mem_singleton.mp hpage
    exact inward_fixed "/about" (by decide)
  · obtain ⟨category, hcategory, rfl⟩ := List.mem_map.mp hpage
    obtain ⟨name, hslug⟩ := Category.slugged_ofArticles site.metadata category hcategory
    rw [show (site.categoryPage category).address.toList =
      "/categories".toList ++ '/' :: category.slug.toList by simp [Site.categoryPage]]
    refine inward_after_name "categories" (by decide) (by decide) ?_
    rw [hslug]
    exact slash_not_mem_slugify name

end StaticSite
