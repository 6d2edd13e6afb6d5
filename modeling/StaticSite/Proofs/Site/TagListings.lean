import StaticSite.Proofs.Content.Record
import StaticSite.Proofs.Site.CategoryPages
import StaticSite.Proofs.Text.Blank
import StaticSite.Proofs.Text.Case
/-!
# StaticSite.Proofs.Site.TagListings

Tags and the pages that list articles by them. The link of a tag is found by lower case, and the
listings compare up to the case of ASCII letters. These are two relations, but they agree on the
words `news`, `guide` and `guides`, which have no letter that is the lower case of a character
beyond ASCII. So **the link of an article leads to the listing on which it is, and to the page of
the tag if it is on neither** (`tagLink_leads_to_listing`).
-/

set_option autoImplicit false

namespace StaticSite

/-! ### Tags -/

namespace Article

theorem isTrimmed_tagText (frontMatter : Fields Json) : Text.IsTrimmed (tagText frontMatter) := by
  unfold tagText
  dsimp only
  split
  · exact Text.isTrimmed_trim _
  · exact Text.isTrimmed_trim _
  · split
    · exact Text.isTrimmed_trim _
    · exact Text.isTrimmed_trim []

theorem tagOf_ne_empty (frontMatter : Fields Json) : tagOf frontMatter ≠ "" := by
  unfold tagOf
  split
  · decide
  · rename_i text hne
    exact fun hempty => hne (String.ofList_eq_empty_iff.mp hempty)

theorem isTrimmed_tagOf (frontMatter : Fields Json) :
    Text.IsTrimmed (tagOf frontMatter).toList := by
  unfold tagOf
  split
  · refine ⟨fun c hc => ?_, fun c hc => ?_⟩
    · obtain rfl : 'N' = c := Option.some.inj hc
      decide
    · obtain rfl : 's' = c := Option.some.inj hc
      decide
  · rw [String.toList_ofList]
    exact isTrimmed_tagText frontMatter

/-! ### Links

The link is found by a lower-casing of the tag. Comparing up to the case of ASCII letters gives the
same answer for the words in question, which is shown once for each word. -/

variable {tag : String}

/-- The page of a tag of its own is none of the listings. -/
theorem tagPage_ne (slug : String) {link : String} (h : link.toList[1]? ≠ some 't') :
    "/tags/" ++ slug ≠ link := by
  rintro rfl
  simp at h

theorem tagLink_eq_news_iff :
    tagLink tag = "/news" ↔ Text.equalIgnoringCase tag.toList "news".toList = true := by
  rw [← Text.lower_eq_iff (List.all_iff_forall_prop.mp (by decide))]
  unfold tagLink
  dsimp only
  split
  · rename_i hnews
    exact iff_of_true rfl hnews
  · rename_i hnews
    split
    · exact iff_of_false (by decide) hnews
    · exact iff_of_false (tagPage_ne _ (by decide)) hnews

theorem tagLink_eq_guides_iff :
    tagLink tag = "/guides" ↔ Text.equalIgnoringCase tag.toList "guide".toList = true ∨
      Text.equalIgnoringCase tag.toList "guides".toList = true := by
  rw [← Text.lower_eq_iff (List.all_iff_forall_prop.mp (by decide)),
    ← Text.lower_eq_iff (List.all_iff_forall_prop.mp (by decide))]
  unfold tagLink
  dsimp only
  split
  · rename_i hnews
    rw [hnews]
    decide
  · split
    · rename_i hguides
      exact iff_of_true rfl hguides
    · rename_i hguides
      exact iff_of_false (tagPage_ne _ (by decide)) hguides

/-- The link is the one that every full lower-casing of the tag gives. -/
theorem tagLink_of_isLowerCase {lowered : List Char} (h : Text.IsLowerCase tag.toList lowered) :
    tagLink tag =
      if lowered = "news".toList then "/news"
      else if lowered = "guide".toList ∨ lowered = "guides".toList then "/guides"
      else "/tags/" ++ slugify tag := by
  unfold tagLink
  have hword : ∀ {word : List Char}, (word.all fun c => c.toNat < 128) = true →
      (lowered = word ↔ Text.lower tag.toList = word) :=
    fun hascii => h.eq_word_iff (List.all_iff_forall_prop.mp hascii)
  simp only [hword (by decide : ("news".toList.all fun c => c.toNat < 128) = true),
    hword (by decide : ("guide".toList.all fun c => c.toNat < 128) = true),
    hword (by decide : ("guides".toList.all fun c => c.toNat < 128) = true)]

theorem tagLink_of_other (hnews : tagLink tag ≠ "/news") (hguides : tagLink tag ≠ "/guides") :
    tagLink tag = "/tags/" ++ slugify tag := by
  unfold tagLink at hnews hguides ⊢
  dsimp only at hnews hguides ⊢
  split
  · rename_i hlower
    exact absurd (if_pos hlower) hnews
  · rename_i hlower
    rw [if_neg hlower] at hguides
    split
    · rename_i hlower'
      exact absurd (if_pos hlower') hguides
    · rfl

end Article

/-! ### Records -/

namespace ArticleMetadata

variable {article other : ArticleMetadata}

/-- The record of an article shows its tag and the link of the tag. -/
theorem toJson_tag (article : ArticleMetadata) :
    ∃ record : Fields Json, article.toJson = .object record ∧
      record.get? "tag" = some (.string article.tag) ∧
      record.get? "tagLink" = some (.string (Article.tagLink article.tag)) := by
  obtain ⟨record, hrecord, -, hvalue⟩ := get?_record article
  refine ⟨record, hrecord, ?_, ?_⟩
  · rw [hvalue]
    rfl
  · rw [hvalue]
    rfl

theorem tag_eq_of_toJson_eq (h : article.toJson = other.toJson) : article.tag = other.tag := by
  obtain ⟨record, hrecord, htag, -⟩ := toJson_tag article
  obtain ⟨record', hrecord', htag', -⟩ := toJson_tag other
  rw [hrecord, hrecord', Json.object.injEq] at h
  rw [h, htag', Option.some.injEq, Json.string.injEq] at htag
  exact htag.symm

end ArticleMetadata

/-! ### Listings

A listing holds the records of articles, not the articles themselves. That an article is on it if
and only if it is wanted there needs that the record shows the tag. -/

namespace Site

variable {site : Site} {article : ArticleMetadata}

/-- Whether a stage makes a page with an article in its list. -/
def ListedBy (site : Site) (stageName : String) (article : ArticleMetadata) : Prop :=
  ∃ stage ∈ pageStages, stage.name = stageName ∧ ∃ page ∈ stage.pages site, page.Lists article

/-- A stage of one page that lists the articles with certain tags lists exactly those. -/
theorem listedBy_iff {name : String} (page : Site → Page) (wanted : ArticleMetadata → Bool)
    (hstage : ⟨name, false, fun site => [page site]⟩ ∈ pageStages)
    (htag : ∀ a b, a.tag = b.tag → wanted a = wanted b)
    (hdata : (page site).data.get? "articles" = some (listing (site.metadata.filter wanted)))
    (harticle : article ∈ site.metadata) :
    site.ListedBy name article ↔ wanted article = true := by
  constructor
  · rintro ⟨stage, hmember, hname, made, hmade, records, hrecords, hrecord⟩
    obtain rfl := Stage.eq_of_name hmember hstage hname
    rw [List.mem_singleton.mp hmade, hdata] at hrecords
    cases hrecords
    -- another article may have the same record, and then it has the same tag
    obtain ⟨other, hother, hsame⟩ := List.mem_map.mp hrecord
    rw [← htag other article (ArticleMetadata.tag_eq_of_toJson_eq hsame)]
    exact (List.mem_filter.mp hother).2
  · intro hwanted
    exact ⟨_, hstage, rfl, _, List.mem_singleton_self _, _, hdata,
      List.mem_map_of_mem (List.mem_filter.mpr ⟨harticle, hwanted⟩)⟩

theorem listedBy_news_iff (harticle : article ∈ site.metadata) :
    site.ListedBy "news" article ↔ Article.tagLink article.tag = "/news" := by
  rw [Article.tagLink_eq_news_iff]
  refine listedBy_iff newsPage isNews (by simp [pageStages]) (fun a b htag => ?_) ?_ harticle
  · unfold isNews ArticleMetadata.isTagged
    rw [htag]
  · simp [newsPage, Fields.ofList, Fields.get?_set]

theorem listedBy_guides_iff (harticle : article ∈ site.metadata) :
    site.ListedBy "guides" article ↔ Article.tagLink article.tag = "/guides" := by
  rw [Article.tagLink_eq_guides_iff, ← Bool.or_eq_true]
  refine listedBy_iff guidesPage isGuide (by simp [pageStages]) (fun a b htag => ?_) ?_ harticle
  · unfold isGuide ArticleMetadata.isTagged
    rw [htag]
  · simp [guidesPage, Fields.ofList, Fields.get?_set]

end Site

/-- **The link of an article leads to the listing on which it is.** Whatever its front matter says,
the article has a tag, without white space at either end. The link that its record shows, which any
full lower-casing of the tag gives, is `/news` exactly if the stage of the news lists the article,
`/guides` exactly if that of the guides does, and that of the tag's own page if neither does. Never
do both. -/
theorem tagLink_leads_to_listing (now : Instant) (frontMatter : Fields Json) (body : List Char)
    (slug : String) :
    let article := ArticleMetadata.ofFrontMatter now frontMatter body slug
    let link := Article.tagLink article.tag
    (article.tag ≠ "" ∧ Text.IsTrimmed article.tag.toList) ∧
    (∃ record : Fields Json, article.toJson = .object record ∧
      record.get? "tag" = some (.string article.tag) ∧
      record.get? "tagLink" = some (.string link)) ∧
    (∀ lowered, Text.IsLowerCase article.tag.toList lowered →
      link =
        if lowered = "news".toList then "/news"
        else if lowered = "guide".toList ∨ lowered = "guides".toList then "/guides"
        else "/tags/" ++ slugify article.tag) ∧
    ∀ site : Site, article ∈ site.metadata →
      (link = "/news" ↔ site.ListedBy "news" article) ∧
      (link = "/guides" ↔ site.ListedBy "guides" article) ∧
      (¬ site.ListedBy "news" article → ¬ site.ListedBy "guides" article →
        link = "/tags/" ++ slugify article.tag) ∧
      ¬ (site.ListedBy "news" article ∧ site.ListedBy "guides" article) := by
  intro article link
  refine ⟨⟨Article.tagOf_ne_empty frontMatter, Article.isTrimmed_tagOf frontMatter⟩,
    article.toJson_tag, fun _ => Article.tagLink_of_isLowerCase, fun site harticle => ?_⟩
  have hnews : site.ListedBy "news" article ↔ link = "/news" := Site.listedBy_news_iff harticle
  have hguides : site.ListedBy "guides" article ↔ link = "/guides" :=
    Site.listedBy_guides_iff harticle
  rw [hnews, hguides]
  refine ⟨Iff.rfl, Iff.rfl, Article.tagLink_of_other, fun ⟨hnews, hguides⟩ => ?_⟩
  rw [hnews] at hguides
  exact absurd hguides (by decide)

/-- An article whose tag is the first of a list, with white space around it. -/
def walkthrough : ArticleMetadata :=
  .ofFrontMatter ⟨0, 0⟩ [("tags", .array [.string " GUIDES\u2003", .string "News"])] []
    "walkthrough"

/-- It is among the guides, and its link leads there. -/
theorem tagLink_leads_to_listing_walkthrough :
    let site : Site := ⟨{}, [⟨walkthrough, ""⟩], [], []⟩
    walkthrough ∈ site.metadata ∧ walkthrough.tag = "GUIDES" ∧
      Article.tagLink walkthrough.tag = "/guides" ∧ site.ListedBy "guides" walkthrough ∧
      ¬ site.ListedBy "news" walkthrough := by
  intro site
  have harticle : walkthrough ∈ site.metadata := List.mem_singleton_self _
  have hlink : Article.tagLink walkthrough.tag = "/guides" := by decide
  obtain ⟨-, -, -, hall⟩ := tagLink_leads_to_listing ⟨0, 0⟩
    [("tags", .array [.string " GUIDES\u2003", .string "News"])] [] "walkthrough"
  obtain ⟨-, hguides, -, hapart⟩ := hall site harticle
  have hlisted := hguides.mp hlink
  exact ⟨harticle, by decide, hlink, hlisted, fun hnews => hapart ⟨hnews, hlisted⟩⟩

end StaticSite
