import Mathlib.Data.List.Nodup
import Mathlib.Data.List.TakeWhile
import StaticSite.Proofs.Site.Addresses
import StaticSite.Site.Build
/-!
# StaticSite.Proofs.Site.PagePlaces

Where the pages of a site go, below its output directory: fixed places, and one place for each slug
of a section. A slug is one step of an address, so `..` leads back to the home page, and `.` leads
to the index page of the section, as does `index.html`. **All pages go to different places if and
only if the articles have different slugs and no slug does this to another page**
(`nodup_places_iff`). Authors have different slugs anyway, and the slugs of categories have no
points.
-/

set_option autoImplicit false

namespace StaticSite

open StaticSite.Path (steps steps_append_slash steps_eq_singleton)

/-! ### File names -/

namespace Path

theorem cutName_of_point_not_mem {name : List Char} (h : '.' ∉ name) :
    cutName name = (name, none) := by
  have hdrop : name.reverse.dropWhile (· != '.') = [] := by
    rw [List.dropWhile_eq_nil_iff]
    intro c hc
    have hne : c ≠ '.' := fun heq => h (heq ▸ List.mem_reverse.mp hc)
    simpa using hne
  unfold cutName
  dsimp only
  rw [hdrop]

theorem ofPiece?_text (s : String) :
    Component.ofPiece? s.toList =
      if s = "" ∨ s = "." then none else if s = ".." then some .parent else some (.normal s) := by
  have hiff : ∀ t : String, s.toList = t.toList ↔ s = t := fun t => String.toList_inj
  have hempty : s.toList = [] ↔ s = "" := hiff ""
  have hpoint : s.toList = ['.'] ↔ s = "." := hiff "."
  have hpoints : s.toList = ['.', '.'] ↔ s = ".." := hiff ".."
  unfold Component.ofPiece?
  simp only [hempty, hpoint, hpoints, String.ofList_toList]

/-- A path of two parts goes by the second, unless that is no name. -/
theorem fileName?_slash {name slug : String} (hname : IsName name) (hslug : '/' ∉ slug.toList) :
    fileName? ⟨name.toList ++ '/' :: slug.toList⟩ =
      if slug = "" ∨ slug = "." then some name else if slug = ".." then none else some slug := by
  have hpieces : pieces (name.toList ++ '/' :: slug.toList) = [name.toList, slug.toList] := by
    have happend : pieces (name.toList ++ '/' :: slug.toList) =
        pieces name.toList ++ pieces slug.toList :=
      Text.splitAtEach_append_cons (by rfl) _ _
    rw [happend, pieces_of_slash_not_mem hname.2.2.2, pieces_of_slash_not_mem hslug]
    rfl
  obtain ⟨start, -, hcomponents⟩ := exists_components ⟨name.toList ++ '/' :: slug.toList⟩
  unfold fileName?
  rw [hcomponents, hpieces, List.filterMap_cons_some (ofPiece?_toList hname), List.filterMap_cons,
    ofPiece?_text]
  by_cases hsilent : slug = "" ∨ slug = "."
  · rw [if_pos hsilent, if_pos hsilent]
    simp
  · rw [if_neg hsilent, if_neg hsilent]
    by_cases hpoints : slug = ".."
    · rw [if_pos hpoints, if_pos hpoints]
      simp
    · rw [if_neg hpoints, if_neg hpoints]
      simp

end Path

/-! ### Sections

The rule for one slug has four cases: the index page of the section, the home page, a file with an
extension, and the index page of a directory. A place shows which slug it was made for, except where
two cases meet; that is why injectivity is stated by way of `slugOfPlace`. -/

/-- Where the page of a slug in a section is, below the output directory. -/
def sectionPlace (name slug : String) : Place :=
  if slug = "" ∨ slug = "." then [name, "index.html"]
  else if slug = ".." then ["index.html"]
  else if (Path.cutName slug.toList).2.isSome then [name, slug]
  else [name, slug, "index.html"]

theorem dropWhile_slash {s : List Char} (h : '/' ∉ s) (hs : s ≠ []) (rest : List Char) :
    ('/' :: (s ++ rest)).dropWhile (· == '/') = s ++ rest := by
  cases s with
  | nil => exact absurd rfl hs
  | cons c s =>
    have hc : c ≠ '/' := fun heq => h (heq ▸ List.mem_cons_self)
    simp [hc]

/-- Where a slug leads, as a step. -/
theorem follow_slug {slug : String} (h : '/' ∉ slug.toList) (place : Place) :
    FileTree.follow place (steps ⟨slug.toList⟩) =
      if slug = "" ∨ slug = "." then place
      else if slug = ".." then place.dropLast else place ++ [slug] := by
  by_cases hempty : slug = ""
  · subst hempty
    rw [if_pos (.inl rfl)]
    rfl
  · have hsteps : steps ⟨slug.toList⟩ = [slug] := by
      rw [steps_eq_singleton (fun hnil => hempty (String.toList_eq_nil_iff.mp hnil)) h,
        String.ofList_toList]
    rw [hsteps]
    change FileTree.stepTo place slug = _
    unfold FileTree.stepTo
    simp only [hempty, false_or]

theorem location_output_section {name slug : String} (hname : IsName name)
    (hpoint : '.' ∉ name.toList) (hslug : '/' ∉ slug.toList) (dir : Path) :
    (dir.output ('/' :: (name.toList ++ '/' :: slug.toList))).location =
      dir.location ++ sectionPlace name slug := by
  have hchars : name.toList ≠ [] := fun hnil => hname.1 (String.toList_eq_nil_iff.mp hnil)
  have hsteps : steps ⟨'/' :: (name.toList ++ '/' :: slug.toList)⟩ =
      name :: steps ⟨slug.toList⟩ := by
    rw [Path.steps_slash, steps_append_slash, steps_eq_singleton hchars hname.2.2.2,
      String.ofList_toList]
    rfl
  rw [Path.location_output, dropWhile_slash hname.2.2.2 hchars, hsteps, Path.extension?,
    Path.fileName?_slash hname hslug, FileTree.follow_cons, FileTree.stepTo_name hname,
    follow_slug hslug]
  unfold sectionPlace
  split
  · -- the address goes by the name of the section, which has no extension
    rw [Option.bind_some, Path.cutName_of_point_not_mem hpoint]
    simp
  · split
    · simp
    · rw [Option.bind_some, Option.isSome_map]
      split
      · simp
      · simp

/-- The slugs of which a section has one page between them: its index page. -/
def indexSlugs : List String := ["", ".", "index.html"]

/-- The slug that a page of a section is made for. -/
def slugOfPlace : Place → String
  | [_, slug] | [_, slug, _] => slug
  | _ => ".."

/-- A place tells its slug, but for those that share the index page. -/
theorem slugOfPlace_sectionPlace (name slug : String) :
    slugOfPlace (sectionPlace name slug) = if slug ∈ indexSlugs then "index.html" else slug := by
  unfold sectionPlace
  split
  · rename_i hsilent
    rcases hsilent with rfl | rfl
    · rfl
    · rfl
  · rename_i hsilent
    split
    · rename_i hpoints
      subst hpoints
      rfl
    · have hslug : slug = if slug ∈ indexSlugs then "index.html" else slug := by
        split
        · rename_i hindex
          simp only [indexSlugs, List.mem_cons, List.not_mem_nil, or_false] at hindex
          rw [not_or] at hsilent
          exact (hindex.resolve_left hsilent.1).resolve_left hsilent.2
        · rfl
      split
      · exact hslug
      · exact hslug

theorem eq_or_indexSlugs_of_sectionPlace_eq {name s t : String}
    (h : sectionPlace name s = sectionPlace name t) : s = t ∨ s ∈ indexSlugs ∧ t ∈ indexSlugs := by
  have hslugs := congrArg slugOfPlace h
  rw [slugOfPlace_sectionPlace, slugOfPlace_sectionPlace] at hslugs
  have hindex : "index.html" ∈ indexSlugs := by decide
  split at hslugs
  · rename_i hs
    split at hslugs
    · rename_i ht
      exact .inr ⟨hs, ht⟩
    · rename_i ht
      exact absurd (hslugs ▸ hindex) ht
  · rename_i hs
    split at hslugs
    · exact absurd (hslugs.symm ▸ hindex) hs
    · exact .inl hslugs

theorem sectionPlace_eq_home_iff {name slug : String} :
    sectionPlace name slug = ["index.html"] ↔ slug = ".." := by
  unfold sectionPlace
  split
  · rename_i hsilent
    rcases hsilent with rfl | rfl
    · simp
    · simp
  · split
    · rename_i hpoints
      simp [hpoints]
    · rename_i hpoints
      split
      · simp [hpoints]
      · simp [hpoints]

theorem head?_sectionPlace {name slug : String} (h : slug ≠ "..") :
    (sectionPlace name slug).head? = some name := by
  unfold sectionPlace
  rw [if_neg h]
  split
  · rfl
  · split
    · rfl
    · rfl

/-- Whether slugs of one section stay in it and do not share its index page. -/
def ProperSlugs (slugs : List String) : Prop :=
  ".." ∉ slugs ∧ ¬ ("." ∈ slugs ∧ "index.html" ∈ slugs)

instance (slugs : List String) : Decidable (ProperSlugs slugs) :=
  inferInstanceAs (Decidable (_ ∧ _))

/-- When slugs have pages of their own, none of which is the home page. -/
theorem nodup_section_iff {slugs : List String} (name : String) (h : "" ∉ slugs) :
    (slugs.map (sectionPlace name)).Nodup ∧ ["index.html"] ∉ slugs.map (sectionPlace name) ↔
      slugs.Nodup ∧ ProperSlugs slugs := by
  have hhome : ["index.html"] ∉ slugs.map (sectionPlace name) ↔ ".." ∉ slugs := by
    simp [sectionPlace_eq_home_iff]
  have hone : ∀ slug ∈ slugs, slug ∈ indexSlugs → slug = "." ∨ slug = "index.html" := by
    intro slug hslug hindex
    simp only [indexSlugs, List.mem_cons, List.not_mem_nil, or_false] at hindex
    exact hindex.resolve_left fun hempty => h (hempty ▸ hslug)
  constructor
  · -- `.` and `index.html` have one place, so both of them cannot be there
    rintro ⟨hnodup, hhomeless⟩
    refine ⟨hnodup.of_map _, hhome.mp hhomeless, fun ⟨hpoint, hindex⟩ => ?_⟩
    have heq : sectionPlace name "." = sectionPlace name "index.html" := rfl
    exact absurd (List.inj_on_of_nodup_map hnodup hpoint hindex heq) (by decide)
  · -- two slugs with one place are equal, or both are for the index page of the section
    rintro ⟨hnodup, hpoints, hindex⟩
    refine ⟨(List.nodup_map_iff_inj_on hnodup).mpr fun s hs t ht heq => ?_, hhome.mpr hpoints⟩
    rcases eq_or_indexSlugs_of_sectionPlace_eq heq with hsame | ⟨hsindex, htindex⟩
    · exact hsame
    · rcases hone s hs hsindex with rfl | rfl
      · rcases hone t ht htindex with rfl | rfl
        · rfl
        · exact absurd ⟨hs, ht⟩ hindex
      · rcases hone t ht htindex with rfl | rfl
        · exact absurd ⟨ht, hs⟩ hindex
        · rfl

/-- Slugs without points have pages of their own, also an empty one. -/
theorem apart_of_pointless {slugs : List String} (name : String) (hnodup : slugs.Nodup)
    (h : ∀ slug ∈ slugs, '.' ∉ slug.toList) :
    (slugs.map (sectionPlace name)).Nodup ∧ ["index.html"] ∉ slugs.map (sectionPlace name) := by
  have hempty : ∀ slug ∈ slugs, slug ∈ indexSlugs → slug = "" := by
    intro slug hslug hindex
    simp only [indexSlugs, List.mem_cons, List.not_mem_nil, or_false] at hindex
    rcases hindex with rfl | rfl | rfl
    · rfl
    · exact absurd (by decide) (h _ hslug)
    · exact absurd (by decide) (h _ hslug)
  constructor
  · refine (List.nodup_map_iff_inj_on hnodup).mpr fun s hs t ht heq => ?_
    rcases eq_or_indexSlugs_of_sectionPlace_eq heq with hsame | ⟨hsindex, htindex⟩
    · exact hsame
    · rw [hempty s hs hsindex, hempty t ht htindex]
  · intro hhome
    obtain ⟨slug, hslug, heq⟩ := List.mem_map.mp hhome
    obtain rfl := sectionPlace_eq_home_iff.mp heq
    exact h _ hslug (by decide)

/-! ### Sites

The pages of a site are listed stage by stage. Each stage has its fixed page or a page for each slug
of its section, so the places of all pages are a table with one line for each stage. -/

/-- No two stages have one name. -/
theorem Stage.eq_of_name {stage other : Stage} (hstage : stage ∈ pageStages)
    (hother : other ∈ pageStages) (h : stage.name = other.name) : stage = other :=
  List.inj_on_of_nodup_map (by decide : (pageStages.map Stage.name).Nodup) hstage hother h

/-- The slugs of the articles of a site. -/
def Site.articleSlugs (site : Site) : List String :=
  site.articles.map fun article => article.metadata.slug

/-- All pages of a site, in the order in which they are made. -/
def Site.pages (site : Site) : List Page := pageStages.flatMap fun stage => stage.pages site

/-- Where the pages of a site are, below the output directory: stage by stage, with the name that
leads to the places of a stage. -/
def Site.places (site : Site) : List (String × List Place) :=
  [("index.html", [["index.html"]]),
   ("articles", site.articleSlugs.map (sectionPlace "articles")),
   ("authors", site.authors.names.map (sectionPlace "authors")),
   ("news", [["news", "index.html"]]),
   ("guides", [["guides", "index.html"]]),
   ("games", [["games", "index.html"]]),
   ("about", [["about", "index.html"]]),
   ("categories", ((Category.ofArticles site.metadata).map Category.slug).map
      (sectionPlace "categories"))]

/-- A page with an address of names is the index page there. -/
theorem location_pageFile_fixed (paths : SitePaths) (page : Page) (address : String)
    (names : Place) (haddress : page.address = address) (hsteps : steps ⟨address.toList⟩ = names)
    (hnames : ∀ name ∈ names, IsName name)
    (hpage : Path.extension? ⟨address.toList.dropWhile (· == '/')⟩ = none) :
    (Build.pageFile paths page).location = paths.output.location ++ (names ++ ["index.html"]) := by
  unfold Build.pageFile
  rw [haddress, Path.location_output, hpage, hsteps, FileTree.follow_names hnames,
    List.append_assoc]
  rfl

theorem locations_section {α : Type} (paths : SitePaths) (name : String) (page : α → Page)
    {slug : α → String} {all : List α} (hname : IsName name) (hpoint : '.' ∉ name.toList)
    (haddress : ∀ a, (page a).address.toList = '/' :: (name.toList ++ '/' :: (slug a).toList))
    (hslug : ∀ a ∈ all, '/' ∉ (slug a).toList) :
    (all.map page).map (fun page => (Build.pageFile paths page).location) =
      ((all.map slug).map (sectionPlace name)).map (paths.output.location ++ ·) := by
  rw [List.map_map, List.map_map, List.map_map]
  refine List.map_congr_left fun a ha => ?_
  change (paths.output.output (page a).address.toList).location = _
  rw [haddress]
  exact location_output_section hname hpoint (hslug a ha) paths.output

/-- The output files of all pages, stage by stage. -/
theorem locations_pages (paths : SitePaths) {site : Site} (hsite : site.Slashless) :
    site.pages.map (fun page => (Build.pageFile paths page).location) =
      (site.places.flatMap Prod.snd).map (paths.output.location ++ ·) := by
  have harticles := locations_section paths "articles" site.articlePage (by decide) (by decide)
    (fun _ => by simp [Site.articlePage]) hsite.articles
  have hauthors := locations_section paths "authors" site.authorPage (by decide) (by decide)
    (fun _ => by simp [Site.authorPage]) hsite.authors
  have hslugs : ∀ category ∈ Category.ofArticles site.metadata,
      '/' ∉ category.slug.toList := by
    intro category hcategory
    obtain ⟨name, hslug⟩ := Category.slugged_ofArticles site.metadata category hcategory
    exact hslug ▸ slash_not_mem_slugify name
  have hcategories := locations_section paths "categories" site.categoryPage (by decide) (by decide)
    (fun _ => by simp [Site.categoryPage]) hslugs
  -- the three sections are rewritten as a whole, the fixed pages one by one
  unfold Site.pages pageStages Site.places Site.articleSlugs Fields.names
  simp only [List.flatMap_cons, List.flatMap_nil, List.map_append, List.append_nil, harticles,
    hauthors, hcategories, List.map_cons, List.map_nil]
  rw [location_pageFile_fixed paths site.homePage "/" [] rfl (by decide) (by decide) (by decide),
    location_pageFile_fixed paths site.newsPage "/news" ["news"] rfl (by decide) (by decide)
      (by decide),
    location_pageFile_fixed paths site.guidesPage "/guides" ["guides"] rfl (by decide) (by decide)
      (by decide),
    location_pageFile_fixed paths site.gamesPage "/games" ["games"] rfl (by decide) (by decide)
      (by decide),
    location_pageFile_fixed paths site.aboutPage "/about" ["about"] rfl (by decide) (by decide)
      (by decide)]
  rfl

/-! ### Places of different pages

Pages of different stages are told apart by the first step of their places, as long as none of them
has become the home page. What is left is one question for each section. -/

/-- Places that start with different names are different. -/
theorem nodup_flatMap_of_heads {sections : List (String × List Place)}
    (hheads : ∀ part ∈ sections, ∀ place ∈ part.2, place.head? = some part.1)
    (hnames : (sections.map Prod.fst).Nodup) :
    (sections.flatMap Prod.snd).Nodup ↔ ∀ part ∈ sections, part.2.Nodup := by
  rw [List.nodup_flatMap, and_iff_left]
  refine List.Pairwise.imp_of_mem ?_ (List.pairwise_map.mp hnames)
  intro first second hfirst hsecond hne place hplace hother
  refine hne ?_
  have heads := (hheads first hfirst place hplace).symm.trans (hheads second hsecond place hother)
  exact Option.some.inj heads

theorem point_not_mem_slug_of_category {site : Site} :
    ∀ slug ∈ (Category.ofArticles site.metadata).map Category.slug, '.' ∉ slug.toList := by
  intro slug hslug
  obtain ⟨category, hcategory, rfl⟩ := List.mem_map.mp hslug
  obtain ⟨name, hname⟩ := Category.slugged_ofArticles site.metadata category hcategory
  exact hname ▸ point_not_mem_slugify name

theorem head?_of_mem_section {name : String} {slugs : List String}
    (h : ["index.html"] ∉ slugs.map (sectionPlace name)) :
    ∀ place ∈ slugs.map (sectionPlace name), place.head? = some name := by
  intro place hplace
  obtain ⟨slug, hslug, rfl⟩ := List.mem_map.mp hplace
  refine head?_sectionPlace fun heq => h ?_
  exact List.mem_map.mpr ⟨slug, hslug, sectionPlace_eq_home_iff.mpr heq⟩

/-- **When the pages of a site go to different places.** -/
theorem nodup_places_iff {site : Site} (hsite : site.Stemmed) :
    (site.places.flatMap Prod.snd).Nodup ↔
      site.articleSlugs.Nodup ∧ ProperSlugs site.articleSlugs ∧
        ProperSlugs site.authors.names := by
  have harticles : "" ∉ site.articleSlugs := by
    intro hempty
    obtain ⟨article, harticle, heq⟩ := List.mem_map.mp hempty
    exact (hsite.articles article harticle).ne_empty heq
  have hauthors : "" ∉ site.authors.names := by
    intro hempty
    obtain ⟨author, hauthor, heq⟩ := List.mem_map.mp hempty
    exact (hsite.authors author hauthor).ne_empty heq
  rw [← and_assoc, ← nodup_section_iff "articles" harticles,
    ← and_iff_right (b := ProperSlugs _) hsite.ascending.nodup_names,
    ← nodup_section_iff "authors" hauthors]
  constructor
  · intro hnodup
    have hparts := (List.nodup_flatMap.mp hnodup).1
    -- the home page comes first, and at no later place
    have hhome : ["index.html"] ∉ site.places.tail.flatMap Prod.snd :=
      (List.nodup_cons.mp hnodup).1
    have hapart : ∀ part ∈ site.places.tail, part.2.Nodup ∧ ["index.html"] ∉ part.2 :=
      fun part hpart => ⟨hparts part (List.mem_of_mem_tail hpart),
        fun hmem => hhome (List.mem_flatMap.mpr ⟨part, hpart, hmem⟩)⟩
    exact ⟨hapart ("articles", _) (by simp [Site.places]),
      hapart ("authors", _) (by simp [Site.places])⟩
  · rintro ⟨harticles, hauthors⟩
    have hcategories := apart_of_pointless "categories"
      (Category.nodup_slugs_ofArticles site.metadata) point_not_mem_slug_of_category
    have hparts : ∀ part ∈ site.places,
        (∀ place ∈ part.2, place.head? = some part.1) ∧ part.2.Nodup := by
      have hsection : ∀ {name : String} {slugs : List String},
          (slugs.map (sectionPlace name)).Nodup ∧ ["index.html"] ∉ slugs.map (sectionPlace name) →
          (∀ place ∈ slugs.map (sectionPlace name), place.head? = some name) ∧
            (slugs.map (sectionPlace name)).Nodup :=
        fun h => ⟨head?_of_mem_section h.2, h.1⟩
      unfold Site.places
      simp only [List.forall_mem_cons]
      exact ⟨by simp, hsection harticles, hsection hauthors, by simp, by simp, by simp, by simp,
        hsection hcategories, by simp⟩
    have hnames : (site.places.map Prod.fst).Nodup := by
      unfold Site.places
      simp only [List.map_cons, List.map_nil]
      decide
    exact (nodup_flatMap_of_heads (fun part hpart => (hparts part hpart).1) hnames).mpr
      fun part hpart => (hparts part hpart).2

end StaticSite
