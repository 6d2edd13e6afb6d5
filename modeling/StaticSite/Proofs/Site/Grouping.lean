import Mathlib.Data.List.FinRange
import Mathlib.Data.List.Induction
import StaticSite.Proofs.Fields
import StaticSite.Site.Page
/-!
# StaticSite.Proofs.Site.Grouping

What grouping articles by category comes to. An article lists names, and a name leads by its slug to
a category, so the loop over articles and their names goes through a list of namings. **The
categories are the slugs in the order in which they are first met; each goes by the name that was
met first with its slug, and holds the articles of all namings with it**
(`Category.ofArticles_eq_grouped`): one more naming keeps this so (`Category.addArticle_grouped`).

The order of the categories and of their articles follows (`Category.ofArticles_in_order`), and so
does how often an article is listed. That is **once for each of its names for the category**
(`Category.articles_once_for_each_name`): names are compared as they are spelt when an article lists
them, but by their slugs here.
-/

set_option autoImplicit false

namespace StaticSite

/-- The names that an article lists for the category with a slug. -/
def ArticleMetadata.namesFor (article : ArticleMetadata) (slug : String) : List String :=
  article.categories.filter fun name => slugify name = slug

namespace Category

/-! ### Namings

The program has two loops, over the articles and over the names of each. As one list of namings they
are one fold, and all that follows is about this list. -/

/-- A name that an article lists for a category. -/
structure Naming where
  article : ArticleMetadata
  name : String

namespace Naming

/-- The slug of the category that is named. -/
def slug (naming : Naming) : String := slugify naming.name

end Naming

/-- The namings of articles, in the order in which they are met. -/
def namings (articles : List ArticleMetadata) : List Naming :=
  articles.flatMap fun article => article.categories.map (Naming.mk article)

variable {articles : List ArticleMetadata} {categories : List Category} {seen : List Naming}
  {naming : Naming} {slug : String}

theorem map_name_namings (articles : List ArticleMetadata) :
    (namings articles).map Naming.name = articles.flatMap ArticleMetadata.categories := by
  unfold namings
  rw [List.map_flatMap]
  refine congrArg (articles.flatMap ·) (funext fun article => ?_)
  rw [List.map_map]
  exact List.map_id _

theorem map_slug_namings (articles : List ArticleMetadata) :
    (namings articles).map Naming.slug =
      (articles.flatMap ArticleMetadata.categories).map slugify := by
  rw [← map_name_namings, List.map_map]
  rfl

/-- Articles are grouped naming by naming. -/
theorem ofArticles_eq_foldl (articles : List ArticleMetadata) :
    ofArticles articles = (namings articles).foldl
      (fun categories naming => addArticle naming.article naming.name categories) [] := by
  have hall : ∀ categories, articles.foldl addAll categories = (namings articles).foldl
      (fun categories naming => addArticle naming.article naming.name categories) categories := by
    induction articles with
    | nil => exact fun _ => rfl
    | cons article rest ih =>
      intro categories
      unfold namings
      rw [List.flatMap_cons, List.foldl_append, List.foldl_map]
      exact ih _
  exact hall []

/-! ### The categories of namings

The closed form looks at the whole list: which slugs there are, and for each slug the namings with
it. What one more naming changes in it is said here, apart from the program. -/

/-- The category with a slug: the first naming with the slug gives its name, and all namings with it
give its articles. -/
def ofNamings (seen : List Naming) (slug : String) : Category where
  name := ((seen.find? (·.slug = slug)).map Naming.name).getD ""
  slug := slug
  articles := (seen.filter (·.slug = slug)).map Naming.article

/-- The categories of namings, in the order in which their slugs are first met. -/
def grouped (seen : List Naming) : List Category :=
  (seen.map Naming.slug).eraseDups.map (ofNamings seen)

theorem map_slug_grouped (seen : List Naming) :
    (grouped seen).map Category.slug = (seen.map Naming.slug).eraseDups := by
  unfold grouped
  rw [List.map_map]
  exact List.map_id _

/-- A slug is added at the end, unless it has been met before. -/
theorem eraseDups_concat (slugs : List String) (slug : String) :
    (slugs ++ [slug]).eraseDups =
      if slug ∈ slugs then slugs.eraseDups else slugs.eraseDups ++ [slug] := by
  rw [List.eraseDups_append]
  split
  · rename_i hmem
    simp [List.removeAll, hmem]
  · rename_i hmem
    simp [List.removeAll, hmem, List.eraseDups_cons]

theorem nodup_eraseDups (slugs : List String) : slugs.eraseDups.Nodup := by
  induction slugs using List.reverseRecOn with
  | nil => exact List.nodup_nil
  | append_singleton rest slug ih =>
    rw [eraseDups_concat]
    split
    · exact ih
    · rename_i hmem
      refine ih.append (List.nodup_singleton slug) ?_
      rw [List.disjoint_singleton]
      exact fun h => hmem (List.mem_eraseDups.mp h)

/-- A naming says nothing about the categories with other slugs. -/
theorem ofNamings_concat_of_ne (h : naming.slug ≠ slug) :
    ofNamings (seen ++ [naming]) slug = ofNamings seen slug := by
  unfold ofNamings
  rw [List.find?_append, List.filter_append]
  simp [h]

/-- The first naming with a slug makes its category. -/
theorem ofNamings_concat_of_new (h : naming.slug ∉ seen.map Naming.slug) :
    ofNamings (seen ++ [naming]) naming.slug =
      ⟨naming.name, naming.slug, [naming.article]⟩ := by
  have hnone : ∀ other ∈ seen, ¬ other.slug = naming.slug :=
    fun other hother heq => h (heq ▸ List.mem_map_of_mem hother)
  have hfind : seen.find? (·.slug = naming.slug) = none := by
    rw [List.find?_eq_none]
    simpa using hnone
  have hfilter : seen.filter (·.slug = naming.slug) = [] := by
    rw [List.filter_eq_nil_iff]
    simpa using hnone
  unfold ofNamings
  rw [List.find?_append, List.filter_append, hfind, hfilter]
  simp

/-- A later naming adds its article. -/
theorem ofNamings_concat_of_known (h : naming.slug ∈ seen.map Naming.slug) :
    ofNamings (seen ++ [naming]) naming.slug =
      { ofNamings seen naming.slug with
        articles := (ofNamings seen naming.slug).articles ++ [naming.article] } := by
  obtain ⟨first, hfirst⟩ : ∃ first, seen.find? (·.slug = naming.slug) = some first := by
    obtain ⟨other, hother, hslug⟩ := List.mem_map.mp h
    rw [← Option.isSome_iff_exists, List.find?_isSome]
    exact ⟨other, hother, by simpa using hslug⟩
  unfold ofNamings
  rw [List.find?_append, List.filter_append, hfirst]
  simp

/-! ### One more naming

One step of the fold does to the closed form what one more naming does to it. A naming whose
slug is known changes the category that has it in place, and for this no two categories may have
the slug. -/

/-- A name with a new slug makes a category. -/
theorem addArticle_of_new (article : ArticleMetadata) {name : String}
    (h : slugify name ∉ categories.map Category.slug) :
    addArticle article name categories = categories ++ [⟨name, slugify name, [article]⟩] := by
  induction categories with
  | nil => rfl
  | cons first rest ih =>
    rw [List.map_cons, List.mem_cons, not_or] at h
    unfold addArticle
    rw [if_neg (Ne.symm h.1), ih h.2]
    rfl

/-- A name with a known slug adds the article to the category that has it. -/
theorem addArticle_of_known (article : ArticleMetadata) {name : String}
    (hslugs : (categories.map Category.slug).Nodup)
    (h : slugify name ∈ categories.map Category.slug) :
    addArticle article name categories = categories.map fun category =>
      if category.slug = slugify name then
        { category with articles := category.articles ++ [article] }
      else category := by
  induction categories with
  | nil => cases h
  | cons first rest ih =>
    rw [List.map_cons, List.nodup_cons] at hslugs
    unfold addArticle
    rw [List.map_cons]
    split
    · rename_i hfirst
      -- no later category has the slug
      have hrest : ∀ category ∈ rest, ¬ category.slug = slugify name :=
        fun category hcategory heq =>
          hslugs.1 (hfirst.trans heq.symm ▸ List.mem_map_of_mem hcategory)
      congr 1
      rw [List.map_congr_left fun category hcategory => if_neg (hrest category hcategory),
        List.map_id']
    · rename_i hfirst
      rw [List.map_cons, List.mem_cons] at h
      rw [ih hslugs.2 (h.resolve_left (Ne.symm hfirst))]

/-- **One more naming keeps the categories in step with the namings that have been met.** -/
theorem addArticle_grouped (seen : List Naming) (naming : Naming) :
    addArticle naming.article naming.name (grouped seen) = grouped (seen ++ [naming]) := by
  have hslugs := map_slug_grouped seen
  have hmem : slugify naming.name ∈ (grouped seen).map Category.slug ↔
      naming.slug ∈ seen.map Naming.slug := by
    rw [hslugs, List.mem_eraseDups]
    rfl
  have hsplit : grouped (seen ++ [naming]) =
      ((seen.map Naming.slug ++ [naming.slug]).eraseDups).map (ofNamings (seen ++ [naming])) := by
    unfold grouped
    rw [List.map_append]
    rfl
  rw [hsplit, eraseDups_concat]
  by_cases hknown : naming.slug ∈ seen.map Naming.slug
  · -- the slug is known: the categories stay where they are, and one of them gets the article
    rw [if_pos hknown, addArticle_of_known naming.article (hslugs ▸ nodup_eraseDups _)
      (hmem.mpr hknown)]
    unfold grouped
    rw [List.map_map]
    refine List.map_congr_left fun slug _ => ?_
    by_cases hslug : slug = naming.slug
    · subst hslug
      rw [ofNamings_concat_of_known hknown]
      exact if_pos rfl
    · rw [ofNamings_concat_of_ne (Ne.symm hslug)]
      exact if_neg hslug
  · -- the slug is new: a category is added at the end, and the others do not see the naming
    rw [if_neg hknown, addArticle_of_new naming.article (mt hmem.mp hknown), List.map_append,
      List.map_singleton, ofNamings_concat_of_new hknown]
    congr 1
    unfold grouped
    refine List.map_congr_left fun slug hslug => ?_
    refine (ofNamings_concat_of_ne fun heq => hknown ?_).symm
    exact heq ▸ List.mem_eraseDups.mp hslug

/-- **Articles are grouped as their namings are.** -/
theorem ofArticles_eq_grouped (articles : List ArticleMetadata) :
    ofArticles articles = grouped (namings articles) := by
  rw [ofArticles_eq_foldl]
  induction namings articles using List.reverseRecOn with
  | nil => rfl
  | append_singleton seen naming ih => rw [List.foldl_concat, ih, addArticle_grouped]

/-- A category is that of its slug, which some naming has. -/
theorem eq_ofNamings_of_mem {category : Category} (h : category ∈ ofArticles articles) :
    category = ofNamings (namings articles) category.slug ∧
      ∃ naming ∈ namings articles, naming.slug = category.slug := by
  rw [ofArticles_eq_grouped] at h
  obtain ⟨slug, hslug, rfl⟩ := List.mem_map.mp h
  exact ⟨rfl, List.mem_map.mp (List.mem_eraseDups.mp hslug)⟩

/-- The slug of a naming has a category, and the article is in it. -/
theorem ofNamings_mem_ofArticles (h : naming ∈ namings articles) :
    ofNamings (namings articles) naming.slug ∈ ofArticles articles ∧
      naming.article ∈ (ofNamings (namings articles) naming.slug).articles := by
  constructor
  · rw [ofArticles_eq_grouped]
    exact List.mem_map_of_mem (List.mem_eraseDups.mpr (List.mem_map_of_mem h))
  · have hfiltered : naming ∈ (namings articles).filter (·.slug = naming.slug) := by
      simpa using h
    exact List.mem_map_of_mem hfiltered

/-- No two categories have one slug. -/
theorem nodup_slugs_ofArticles (articles : List ArticleMetadata) :
    ((ofArticles articles).map Category.slug).Nodup := by
  rw [ofArticles_eq_grouped, map_slug_grouped]
  exact nodup_eraseDups _

/-- A category goes by the first spelling that is met. -/
theorem find?_name {category : Category} (h : category ∈ ofArticles articles) :
    (articles.flatMap ArticleMetadata.categories).find? (fun name => slugify name = category.slug) =
      some category.name := by
  obtain ⟨hcategory, naming, hnaming, hslug⟩ := eq_ofNamings_of_mem h
  obtain ⟨first, hfirst⟩ :
      ∃ first, (namings articles).find? (·.slug = category.slug) = some first := by
    rw [← Option.isSome_iff_exists, List.find?_isSome]
    exact ⟨naming, hnaming, by simpa using hslug⟩
  have hname : category.name = first.name := by
    rw [hcategory]
    unfold ofNamings
    rw [hfirst]
    rfl
  rw [← map_name_namings, List.find?_map, hname]
  exact congrArg (Option.map Naming.name) hfirst

/-- An article is listed once for each of its names for the category. -/
theorem articles_ofNamings (articles : List ArticleMetadata) (slug : String) :
    (ofNamings (namings articles) slug).articles =
      articles.flatMap fun article =>
        List.replicate (article.namesFor slug).length article := by
  unfold ofNamings namings
  dsimp only
  rw [List.filter_flatMap, List.map_flatMap]
  refine congrArg (articles.flatMap ·) (funext fun article => ?_)
  rw [List.filter_map, List.map_map]
  exact List.map_const'

theorem articles_of_mem {category : Category} (h : category ∈ ofArticles articles) :
    category.articles = articles.flatMap fun article =>
      List.replicate (article.namesFor category.slug).length article := by
  rw [← articles_ofNamings]
  exact congrArg Category.articles (eq_ofNamings_of_mem h).1

/-! ### Order -/

theorem mem_namesFor_iff {article : ArticleMetadata} {name : String} :
    name ∈ article.namesFor slug ↔ name ∈ article.categories ∧ slugify name = slug := by
  unfold ArticleMetadata.namesFor
  simp

/-- What is repeated element by element is a list of positions in ascending order. -/
theorem exists_positions {α : Type} (all : List α) (count : α → Nat) :
    ∃ positions : List (Fin all.length),
      (all.flatMap fun a => List.replicate (count a) a) = positions.map all.get ∧
        positions.Pairwise (· ≤ ·) ∧
        ∀ position, position ∈ positions ↔ 0 < count (all.get position) := by
  refine ⟨(List.finRange all.length).flatMap fun position =>
    List.replicate (count (all.get position)) position, ?_, ?_, fun position => ?_⟩
  · rw [List.map_flatMap]
    conv_lhs => rw [← List.map_get_finRange all, List.flatMap_map]
    simp only [List.map_replicate]
  · rw [List.pairwise_flatMap]
    refine ⟨fun position _ => ?_, (List.pairwise_lt_finRange _).imp fun hlt i hi j hj => ?_⟩
    · exact List.pairwise_replicate.mpr (.inr le_rfl)
    · rw [List.eq_of_mem_replicate hi, List.eq_of_mem_replicate hj]
      exact hlt.le
  · rw [List.mem_flatMap]
    constructor
    · rintro ⟨other, -, hmem⟩
      obtain ⟨hcount, rfl⟩ := List.mem_replicate.mp hmem
      exact Nat.pos_of_ne_zero hcount
    · intro hcount
      exact ⟨position, List.mem_finRange _, List.mem_replicate.mpr ⟨hcount.ne', rfl⟩⟩

/-- **Grouping keeps the order in which things are met.** The categories have different slugs, in
the order in which names with these slugs are first met, article by article and name by name; each
goes by the first spelling. It holds the articles that list a name for it and no others, in the
order in which the articles come. -/
theorem ofArticles_in_order (articles : List ArticleMetadata) :
    let names := articles.flatMap ArticleMetadata.categories
    (ofArticles articles).map Category.slug = (names.map slugify).eraseDups ∧
    ((ofArticles articles).map Category.slug).Nodup ∧
    ∀ category ∈ ofArticles articles,
      names.find? (fun name => slugify name = category.slug) = some category.name ∧
      ∃ positions : List (Fin articles.length),
        category.articles = positions.map articles.get ∧ positions.Pairwise (· ≤ ·) ∧
          ∀ position, position ∈ positions ↔
            ∃ name ∈ (articles.get position).categories, slugify name = category.slug := by
  intro names
  refine ⟨?_, nodup_slugs_ofArticles articles, fun category hcategory => ?_⟩
  · rw [ofArticles_eq_grouped, map_slug_grouped, map_slug_namings]
  · obtain ⟨positions, harticles, hsorted, hmem⟩ :=
      exists_positions articles fun article => (article.namesFor category.slug).length
    refine ⟨find?_name hcategory, positions, ?_, hsorted, fun position => ?_⟩
    · rw [articles_of_mem hcategory, harticles]
    · rw [hmem, List.length_pos_iff_exists_mem]
      simp only [mem_namesFor_iff]

/-- An article that is read with these categories. -/
def articleIn (names : List String) (slug : String) : ArticleMetadata :=
  .ofFrontMatter ⟨0, 0⟩ [("categories", .array (names.map Json.string))] [] slug

/-- Spellings that share a slug are met as one category, whatever comes between them. -/
theorem ofArticles_in_order_spellings :
    let articles := [articleIn ["Elden Ring", "Indie"] "a", articleIn ["elden ring"] "b",
      articleIn ["INDIE", "RPG"] "c"]
    (ofArticles articles).map Category.slug = ["elden-ring", "indie", "rpg"] ∧
      ∀ category ∈ ofArticles articles, category.slug = "indie" → category.name = "Indie" := by
  intro articles
  obtain ⟨hslugs, -, hcategories⟩ := ofArticles_in_order articles
  refine ⟨hslugs.trans (by decide +kernel), fun category hcategory hslug => ?_⟩
  have hname := (hcategories category hcategory).1
  rw [hslug] at hname
  have hfirst : (articles.flatMap ArticleMetadata.categories).find?
      (fun name => slugify name = "indie") = some "Indie" := by decide +kernel
  exact Option.some.inj (hname.symm.trans hfirst)

/-! ### Repetitions

Whether an article is listed twice is a question about numbers: the list of a category repeats each
article as often as it has names with the slug, and keeps the order. -/

theorem count_flatMap_replicate {α : Type} [DecidableEq α] (all : List α) (count : α → Nat)
    (a : α) : (all.flatMap fun b => List.replicate (count b) b).count a =
      count a * all.count a := by
  induction all with
  | nil => rfl
  | cons b rest ih =>
    rw [List.flatMap_cons, List.count_append, ih, List.count_replicate, List.count_cons]
    by_cases hb : b = a
    · subst hb
      simp [Nat.mul_add, Nat.add_comm]
    · simp [hb]

/-- A list in which elements are repeated goes through the list if none is there more than once. -/
theorem sublist_flatMap_replicate_iff {α : Type} {all : List α} {count : α → Nat} :
    (all.flatMap fun a => List.replicate (count a) a).Sublist all ↔ ∀ a ∈ all, count a ≤ 1 := by
  classical
  constructor
  · intro hsub a ha
    have hcount := hsub.count_le a
    rw [count_flatMap_replicate] at hcount
    have hpos : 0 < all.count a := List.count_pos_iff.mpr ha
    exact Nat.le_of_mul_le_mul_right (by simpa using hcount) hpos
  · intro hcount
    induction all with
    | nil => exact List.Sublist.refl []
    | cons a rest ih =>
      rw [List.flatMap_cons, ← List.singleton_append]
      refine List.Sublist.append ?_ (ih fun b hb => hcount b (List.mem_cons_of_mem _ hb))
      exact (List.replicate_sublist_replicate a).mpr (hcount a List.mem_cons_self)

/-- **An article is listed once for each of its names for a category**, and the list is what the
page of the category shows. So no article is listed twice in a category if and only if none has two
names with its slug. -/
theorem articles_once_for_each_name {articles : List ArticleMetadata} {category : Category}
    (h : category ∈ ofArticles articles) :
    category.articles = (articles.flatMap fun article =>
      List.replicate (article.namesFor category.slug).length article) ∧
    (category.articles.Sublist articles ↔
      ∀ article ∈ articles, (article.namesFor category.slug).length ≤ 1) ∧
    ∀ site : Site, (site.categoryPage category).data.get? "articles" =
      some (Site.listing category.articles) := by
  refine ⟨articles_of_mem h, ?_, fun site => ?_⟩
  · rw [articles_of_mem h]
    exact sublist_flatMap_replicate_iff
  · simp [Site.categoryPage, Fields.ofList, Fields.get?_set]

/-- One article lists a category twice in one spelling, and one lists two categories. -/
theorem articles_once_for_each_name_indie :
    ∃ category ∈ ofArticles [articleIn ["Indie", "Indie"] "a", articleIn ["indie", "RPG"] "b"],
      category.slug = "indie" ∧ category.articles.Sublist
        [articleIn ["Indie", "Indie"] "a", articleIn ["indie", "RPG"] "b"] := by
  have hslug : "indie" ∈ (ofArticles [articleIn ["Indie", "Indie"] "a",
      articleIn ["indie", "RPG"] "b"]).map Category.slug := by decide +kernel
  obtain ⟨category, hcategory, hslug⟩ := List.mem_map.mp hslug
  refine ⟨category, hcategory, hslug, (articles_once_for_each_name hcategory).2.1.mpr ?_⟩
  rw [hslug]
  decide +kernel

/-- Names are compared as they are spelt when an article is read, but by their slugs when it is put
into categories: an article with two spellings of one category is listed twice there. -/
theorem article_listed_twice :
    ∃ category ∈ ofArticles [articleIn ["Elden Ring", "elden ring"] "ring"],
      category.slug = "elden-ring" ∧
      category.articles = [articleIn ["Elden Ring", "elden ring"] "ring",
        articleIn ["Elden Ring", "elden ring"] "ring"] ∧
      ¬ category.articles.Sublist [articleIn ["Elden Ring", "elden ring"] "ring"] := by
  have hslug : "elden-ring" ∈ (ofArticles
      [articleIn ["Elden Ring", "elden ring"] "ring"]).map Category.slug := by decide +kernel
  obtain ⟨category, hcategory, hslug⟩ := List.mem_map.mp hslug
  have hnames : ((articleIn ["Elden Ring", "elden ring"] "ring").namesFor "elden-ring").length =
      2 := by decide +kernel
  have harticles := articles_of_mem hcategory
  rw [List.flatMap_singleton, hslug, hnames] at harticles
  refine ⟨category, hcategory, hslug, harticles, fun hsub => ?_⟩
  rw [harticles] at hsub
  exact absurd hsub.length_le (by decide)

end Category

end StaticSite
