import StaticSite.Template.Engine
import StaticSite.Proofs.Template.Lookup
/-!
# StaticSite.Proofs.Template.Navigation

**The navigation flags are all that a page adds to its context** (`withCurrentPage_frame`). The
context is a mapping with one field set anew, `site`, and so is the site with `currentPage`, so the
frame is that of `Fields.set` two times over: paths that start with another segment do not see the
first (`Value.resolve_set_of_ne`), and paths that go on from `site` with another segment do not see
the second (`resolve_withCurrentPage_site`).

The flags are one for each entry of the navigation, and since a page belongs to one entry at most,
one of them is set or none (`countP_currentPage`).
-/

set_option autoImplicit false

namespace StaticSite

open Value

variable {template : String} {context : Value} {fields : Fields Value}

/-! ### The flags

Whether a page has an entry is decided by its template, and for all other templates by the article
in its context. The flags compare each entry with the one that has been found. -/

/-- The templates that have a place in the navigation. -/
def navigationTemplates : List String := ["index", "article", "news", "guides", "games", "about"]

/-- Whether a page belongs to an entry of the navigation: by its template, or because its context
has an article that is truthy. -/
def HasEntry (template : String) (context : Value) : Prop :=
  template ∈ navigationTemplates ∨
    ∃ article, context.get? "article" = some article ∧ article.isTruthy = true

theorem activePage?_of_mem (h : template ∈ navigationTemplates) :
    (activePage? template context).isSome = true := by
  simp only [navigationTemplates, List.mem_cons, List.not_mem_nil, or_false] at h
  rcases h with rfl | rfl | rfl | rfl | rfl | rfl
  all_goals simp [activePage?]

theorem activePage?_of_not_mem (h : template ∉ navigationTemplates) :
    activePage? template context =
      if (context.get? "article").any isTruthy then some "articles" else none := by
  simp only [navigationTemplates, List.mem_cons, List.not_mem_nil, or_false, not_or] at h
  obtain ⟨hindex, harticle, hnews, hguides, hgames, habout⟩ := h
  simp only [activePage?, hindex, harticle, hnews, hguides, hgames, habout, or_false, if_false]

theorem isSome_activePage?_iff :
    (activePage? template context).isSome = true ↔ HasEntry template context := by
  unfold HasEntry
  by_cases hknown : template ∈ navigationTemplates
  · exact iff_of_true (activePage?_of_mem hknown) (.inl hknown)
  · rw [activePage?_of_not_mem hknown, or_iff_right hknown, ← Option.any_eq_true]
    cases (context.get? "article").any isTruthy with
    | true => simp
    | false => simp

theorem mem_of_activePage? {page : String} (h : activePage? template context = some page) :
    page ∈ navigationPages := by
  unfold activePage? at h
  repeat' split at h
  all_goals cases h
  all_goals decide

/-- At most one flag is set: that of the entry to which the page belongs. -/
theorem countP_currentPage :
    (currentPage template context).countP (fun flag => flag.2.isTruthy) =
      if (activePage? template context).isSome then 1 else 0 := by
  unfold currentPage
  rw [List.countP_map]
  cases h : activePage? template context with
  | none => exact List.countP_eq_zero.mpr fun page _ => Bool.false_ne_true
  | some active =>
    have hcount : navigationPages.count active = 1 := by
      rw [List.Nodup.count (by decide), if_pos (mem_of_activePage? h)]
    rw [Option.isSome_some, if_pos rfl, ← hcount]
    refine List.countP_congr fun page _ => ?_
    have hflag : isTruthy (.bool (some active = some page)) = decide (some active = some page) :=
      rfl
    rw [Function.comp_apply, hflag, decide_eq_true_iff, Option.some.injEq, beq_iff_eq, eq_comm]

theorem names_currentPage :
    Fields.names (currentPage template context) = navigationPages := by
  unfold Fields.names currentPage
  rw [List.map_map]
  exact List.map_id _

/-! ### The frame -/

/-- The site of a context, without fields if there is none. -/
def siteFields (fields : Fields Value) : Fields Value :=
  ((fields.get? "site").bind Value.fields?).getD []

theorem withCurrentPage_mapping :
    withCurrentPage template (.mapping fields) =
      .mapping (fields.set "site" (.mapping ((siteFields fields).set "currentPage"
        (.mapping (currentPage template (.mapping fields)))))) := rfl

/-- A path through the site goes on from the site with its flags. -/
theorem resolve_withCurrentPage {path key : String} {rest : List String}
    (h : segments path = "site" :: key :: rest) :
    (withCurrentPage template (.mapping fields)).resolve path =
      ((((siteFields fields).set "currentPage"
        (.mapping (currentPage template (.mapping fields)))).get? key).getD null).walk rest := by
  rw [withCurrentPage_mapping, resolve_mapping (ne_empty_of_segments h) h, Fields.get?_set,
    if_pos rfl]
  rfl

/-- Other paths through the site do not see the flags. -/
theorem resolve_withCurrentPage_of_ne {site : Fields Value}
    (hsite : fields.get? "site" = some (.mapping site)) {path key : String} {rest : List String}
    (h : segments path = "site" :: key :: rest) (hkey : key ≠ "currentPage") :
    (withCurrentPage template (.mapping fields)).resolve path = (mapping fields).resolve path := by
  have hfields : siteFields fields = site := by
    unfold siteFields
    rw [hsite]
    rfl
  rw [resolve_withCurrentPage h, resolve_mapping (ne_empty_of_segments h) h, hsite, hfields,
    Fields.get?_set, if_neg hkey.symm]
  rfl

/-- **The navigation flags change nothing else.** Paths that do not start with `site` lead to the
same as before, and so do paths through the site, if it is a mapping, that go on with another key
than `currentPage`. That key has one flag for each of the five entries, whatever it had before. One
flag is set if the page belongs to an entry, and else none. -/
theorem withCurrentPage_frame (template : String) (fields : Fields Value) :
    (∀ path, firstSegment path ≠ some "site" →
      (withCurrentPage template (.mapping fields)).resolve path =
        (mapping fields).resolve path) ∧
    (∀ site path key rest, fields.get? "site" = some (.mapping site) →
      segments path = "site" :: key :: rest → key ≠ "currentPage" →
        (withCurrentPage template (.mapping fields)).resolve path =
          (mapping fields).resolve path) ∧
    ∃ flags : Fields Value,
      (withCurrentPage template (.mapping fields)).resolve "site.currentPage" = .mapping flags ∧
      flags.names = ["about", "articles", "games", "guides", "home"] ∧
      (∀ flag ∈ flags, ∃ set, flag.2 = .bool set) ∧
      (HasEntry template (.mapping fields) → flags.countP (fun flag => flag.2.isTruthy) = 1) ∧
      (¬ HasEntry template (.mapping fields) →
        flags.countP (fun flag => flag.2.isTruthy) = 0) := by
  refine ⟨fun path hpath => ?_, fun site path key rest hsite hpath hkey =>
    resolve_withCurrentPage_of_ne hsite hpath hkey,
    currentPage template (.mapping fields), ?_, names_currentPage, ?_, fun hentry => ?_,
    fun hentry => ?_⟩
  · -- paths that start with another segment do not see the field `site`
    rw [withCurrentPage_mapping]
    exact resolve_set_of_ne hpath _
  · have hsegments : segments "site.currentPage" = ["site", "currentPage"] := by decide +kernel
    rw [resolve_withCurrentPage hsegments, Fields.get?_set, if_pos rfl]
    rfl
  · intro flag hflag
    obtain ⟨page, -, rfl⟩ := List.mem_map.mp hflag
    exact ⟨_, rfl⟩
  · rw [countP_currentPage, if_pos (isSome_activePage?_iff.mpr hentry)]
  · rw [countP_currentPage, if_neg fun hsome => hentry (isSome_activePage?_iff.mp hsome)]

/-- A page about an article, in a site that has flags of its own. -/
def articleContext : Fields Value :=
  [("article", .mapping []), ("site", .mapping [("currentPage", .string "old"),
    ("menu", .sequence [.string "News"])])]

/-- The title and the menu stay, and the page of the author belongs to the articles. -/
theorem withCurrentPage_frame_article :
    firstSegment "article.title" ≠ some "site" ∧
      (withCurrentPage "author" (.mapping articleContext)).resolve "article.title" =
        (mapping articleContext).resolve "article.title" ∧
      articleContext.get? "site" = some (.mapping [("currentPage", .string "old"),
        ("menu", .sequence [.string "News"])]) ∧
      segments "site.menu.0" = ["site", "menu", "0"] ∧ "menu" ≠ "currentPage" ∧
      (withCurrentPage "author" (.mapping articleContext)).resolve "site.menu.0" =
        (mapping articleContext).resolve "site.menu.0" ∧
      HasEntry "author" (.mapping articleContext) ∧ ¬ HasEntry "author" (.mapping []) ∧
      ∃ flags, (withCurrentPage "author" (.mapping articleContext)).resolve "site.currentPage" =
        .mapping flags ∧ flags.countP (fun flag => flag.2.isTruthy) = 1 := by
  have htitle : firstSegment "article.title" ≠ some "site" := by decide +kernel
  have hsite : articleContext.get? "site" = some (.mapping [("currentPage", .string "old"),
    ("menu", .sequence [.string "News"])]) := rfl
  have hmenu : segments "site.menu.0" = ["site", "menu", "0"] := by decide +kernel
  have hkey : "menu" ≠ "currentPage" := by decide
  have hentry : HasEntry "author" (.mapping articleContext) := .inr ⟨.mapping [], rfl, rfl⟩
  have hnone : ¬ HasEntry "author" (.mapping []) := by
    rintro (hknown | ⟨article, harticle, -⟩)
    · exact absurd hknown (by decide)
    · cases harticle
  obtain ⟨hother, hbelow, flags, hflags, -, -, hone, -⟩ :=
    withCurrentPage_frame "author" articleContext
  exact ⟨htitle, hother _ htitle, hsite, hmenu, hkey, hbelow _ _ _ _ hsite hmenu hkey, hentry,
    hnone, flags, hflags, hone hentry⟩

end StaticSite
