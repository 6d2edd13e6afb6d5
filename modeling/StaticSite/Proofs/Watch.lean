import StaticSite.Proofs.Path.Folding
import StaticSite.Watch
/-!
# StaticSite.Proofs.Watch

**Which changes of a site are noticed.** Hidden files are meant to be passed over, but the test for
a point looks at the whole path of a file, from the root on. So of a site whose own directory is
hidden, or inside of a hidden one, no change is noticed at all, and of any other site every change
of a source is, as what it is (`WatchPaths.classify_isSome_iff`).
-/

set_option autoImplicit false

namespace StaticSite

namespace Path

variable {p q dir : Path}

/-- Whether no path is inside of both directories. -/
def Apart (p q : Path) : Prop := p.startsWith q = false ∧ q.startsWith p = false

instance (p q : Path) : Decidable (Apart p q) := inferInstanceAs (Decidable (_ ∧ _))

theorem Apart.symm (h : Apart p q) : Apart q p := ⟨h.2, h.1⟩

theorem Apart.not_startsWith {path : Path} (h : Apart p q) (hp : path.startsWith p = true) :
    path.startsWith q = false := by
  rw [Bool.eq_false_iff]
  intro hq
  rw [startsWith_iff] at hp hq
  rcases List.prefix_or_prefix_of_prefix hp hq with hunder | hunder
  · rw [← startsWith_iff, h.2] at hunder
    cases hunder
  · rw [← startsWith_iff, h.1] at hunder
    cases hunder

/-- The components of a path after those of a directory. -/
def beyond (dir p : Path) : List Component := p.components.drop dir.components.length

theorem components_eq_append_beyond (h : p.startsWith dir = true) :
    p.components = dir.components ++ dir.beyond p := by
  obtain ⟨rest, hrest⟩ := startsWith_iff.mp h
  unfold beyond
  rw [← hrest, List.drop_left]

end Path

namespace WatchPaths

variable {watched : WatchPaths} {site path : Path}

/-- Whether the sources of a site are directories below that of the site, apart from each other. -/
structure IsLaidOut (watched : WatchPaths) (site : Path) : Prop where
  content : watched.content.startsWith site = true
  templates : watched.templates.startsWith site = true
  assets : watched.assets.startsWith site = true
  content_templates : watched.content.Apart watched.templates
  content_assets : watched.content.Apart watched.assets
  templates_assets : watched.templates.Apart watched.assets

/-- Whether a path is that of a source: anything in the content or among the assets, or a page of
the templates. -/
inductive IsSource (watched : WatchPaths) (path : Path) : Prop where
  | content (h : path.startsWith watched.content = true)
  | template (h : path.startsWith watched.templates = true) (hpage : path.extension? = some "html")
  | asset (h : path.startsWith watched.assets = true)

theorem IsLaidOut.startsWith (h : watched.IsLaidOut site) (hpath : watched.IsSource path) :
    path.startsWith site = true := by
  have inside : ∀ {dir : Path}, dir.startsWith site = true → path.startsWith dir = true →
      path.startsWith site = true := by
    intro dir hdir hpath
    rw [Path.startsWith_iff] at hdir hpath ⊢
    exact hdir.trans hpath
  cases hpath with
  | content hin => exact inside h.content hin
  | template hin _ => exact inside h.templates hin
  | asset hin => exact inside h.assets hin

/-- The sources of a site are told apart, unless they are passed over. -/
theorem IsLaidOut.classify (h : watched.IsLaidOut site) (hpath : watched.IsSource path) :
    watched.classify path =
      if path.components.any isHidden then none
      else if path.components = watched.config.components then some .config
      else if path.startsWith watched.content then some (.content path)
      else if path.startsWith watched.templates then some (.template path)
      else some (.asset path) := by
  unfold WatchPaths.classify
  cases hpath with
  | content hin =>
    rw [hin, h.content_templates.not_startsWith hin]
    rfl
  | template hin hpage =>
    rw [hin, h.content_templates.symm.not_startsWith hin, hpage]
    rfl
  | asset hin =>
    rw [hin, h.templates_assets.symm.not_startsWith hin, h.content_assets.symm.not_startsWith hin]
    rfl

/-- **Where a site is decides whether its changes are noticed.** A change of a source that is not
hidden below the directory of the site is noticed if and only if nothing on the way to that
directory is hidden. What is noticed is taken for what it is, unless it is the configuration. -/
theorem classify_isSome_iff (h : watched.IsLaidOut site) (hpath : watched.IsSource path)
    (hbeyond : (site.beyond path).any isHidden = false) :
    ((watched.classify path).isSome = true ↔ site.components.any isHidden = false) ∧
      (site.components.any isHidden = false → path.components ≠ watched.config.components →
        (path.startsWith watched.content = true → watched.classify path = some (.content path)) ∧
        (path.startsWith watched.templates = true → watched.classify path = some (.template path)) ∧
        (path.startsWith watched.assets = true → watched.classify path = some (.asset path))) := by
  -- the path goes on from the directory of the site, and nothing after that is hidden
  have hhidden : path.components.any isHidden = site.components.any isHidden := by
    rw [Path.components_eq_append_beyond (h.startsWith hpath), List.any_append, hbeyond,
      Bool.or_false]
  rw [h.classify hpath, hhidden]
  constructor
  · cases site.components.any isHidden with
    | true => simp
    | false =>
      simp only [Bool.false_eq_true, if_false]
      split
      · simp
      · split
        · simp
        · split
          · simp
          · simp
  · intro hvisible hconfig
    rw [hvisible, if_neg Bool.false_ne_true, if_neg hconfig]
    refine ⟨fun hin => if_pos hin, fun hin => ?_, fun hin => ?_⟩
    · rw [h.content_templates.symm.not_startsWith hin, hin]
      rfl
    · rw [h.content_assets.symm.not_startsWith hin, h.templates_assets.symm.not_startsWith hin]
      rfl

/-- The usual places of a site in a directory. -/
def usual (site : Path) : WatchPaths :=
  ⟨site.child "content", site.child "templates", site.child "static", site.child "tofu.yaml"⟩

/-- In `/srv/blog` a new article is noticed. -/
theorem classify_isSome_iff_article :
    let site := Path.ofString "/srv/blog"
    let article := Path.ofString "/srv/blog/content/articles/hello.md"
    (usual site).IsLaidOut site ∧ (usual site).IsSource article ∧
      (site.beyond article).any isHidden = false ∧
      (usual site).classify article = some (.content article) := by
  intro site article
  have hlaid : (usual site).IsLaidOut site := by
    constructor
    all_goals decide
  have hsource : (usual site).IsSource article := .content (by decide)
  have hbeyond : (site.beyond article).any isHidden = false := by decide
  obtain ⟨-, hkind⟩ := classify_isSome_iff hlaid hsource hbeyond
  exact ⟨hlaid, hsource, hbeyond, (hkind (by decide) (by decide)).1 (by decide)⟩

/-- The same site in a hidden directory is laid out in the same way, and its article is no more
hidden, but the change is missed. -/
theorem classify_misses_change_in_hidden_directory :
    let site := Path.ofString "/home/ann/.sites/blog"
    let article := Path.ofString "/home/ann/.sites/blog/content/articles/hello.md"
    site.isAbsolute = true ∧ site.normalize = site ∧ (usual site).IsLaidOut site ∧
      (usual site).IsSource article ∧ (site.beyond article).any isHidden = false ∧
      (usual site).classify article = none := by
  intro site article
  have hlaid : (usual site).IsLaidOut site := by
    constructor
    all_goals decide
  exact ⟨by decide, by decide, hlaid, .content (by decide), by decide, by decide⟩

end WatchPaths

end StaticSite
