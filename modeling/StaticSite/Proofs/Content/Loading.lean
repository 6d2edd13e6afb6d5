import StaticSite.Content.Loading
import StaticSite.Proofs.Fields
import StaticSite.Proofs.Path.Output
/-!
# StaticSite.Proofs.Content.Loading

What loaded content is called. Articles and authors go by the stems of their file names, whatever is
in the files, and **a stem is not empty and holds no slash** (`isStem_stemOf`). Two articles can go
by one stem, since extensions are found whatever their case; two authors cannot.
-/

set_option autoImplicit false

namespace StaticSite

/-! ### Stems

A file is loaded for its extension, so its name has a point with something before it. That something
is the stem, and a part of the last name of a path. -/

theorem Path.slash_not_mem_fileName? {p : Path} {name : String} (h : p.fileName? = some name) :
    '/' ∉ name.toList := by
  obtain ⟨start, hstart, hcomponents⟩ := p.exists_components
  have hmem : Component.normal name ∈ p.components := by
    unfold Path.fileName? at h
    split at h
    · rename_i found hfound
      cases h
      exact List.mem_of_getLast? hfound
    · cases h
  rw [hcomponents, List.mem_append] at hmem
  obtain ⟨piece, hpiece, hof⟩ := List.mem_filterMap.mp (hmem.resolve_left (hstart name))
  unfold Component.ofPiece? at hof
  split at hof
  · cases hof
  · split at hof
    · cases hof
    · cases hof
      rw [String.toList_ofList]
      exact Path.slash_not_mem_pieces hpiece

/-- What stands before the last point is a start of the name. -/
theorem Path.cutName_start (name : List Char) : (cutName name).1 <+: name := by
  unfold cutName
  dsimp only
  split
  · exact List.prefix_rfl
  · exact List.prefix_rfl
  · rename_i point before _ hbefore
    have hsuffix : before <:+ name.reverse :=
      (List.suffix_cons point before).trans (hbefore ▸ List.dropWhile_suffix _)
    have hstart := List.reverse_prefix.mpr hsuffix
    rwa [List.reverse_reverse] at hstart

/-- Something stands before the last point of a name that has an extension. -/
theorem Path.cutName_ne_nil {name : List Char} (h : (cutName name).2.isSome) :
    (cutName name).1 ≠ [] := by
  obtain ⟨after, hafter⟩ := Option.isSome_iff_exists.mp h
  exact (Path.cutName_eq_iff.mp (Prod.ext rfl hafter)).1

/-- Whether a text can be the stem of a file that is loaded. -/
structure IsStem (stem : String) : Prop where
  ne_empty : stem ≠ ""
  slash_not_mem : '/' ∉ stem.toList

theorem isStem_stemOf {extension name : String} (h : hasExtension extension name = true) :
    IsStem (stemOf name) := by
  unfold hasExtension Path.extension? at h
  unfold stemOf Path.stem?
  cases hfile : (Path.ofString name).fileName? with
  | none =>
    rw [hfile] at h
    cases h
  | some file =>
    rw [hfile, Option.bind_some] at h
    have hcut : (Path.cutName file.toList).2.isSome := by
      cases hsecond : (Path.cutName file.toList).2 with
      | none =>
        rw [hsecond] at h
        cases h
      | some found => rfl
    rw [Option.map_some, Option.getD_some]
    refine ⟨fun hempty => ?_, fun hslash => ?_⟩
    · exact Path.cutName_ne_nil hcut (String.ofList_eq_empty_iff.mp hempty)
    · rw [String.toList_ofList] at hslash
      exact Path.slash_not_mem_fileName? hfile ((Path.cutName_start _).subset hslash)

theorem hasExtension_of_mem_filesWith {tree : FileTree} {directory : Path} {extension : String}
    {names : List String} (h : tree.filesWith directory extension = .ok names) :
    ∀ name ∈ names, hasExtension extension name = true := by
  unfold FileTree.filesWith at h
  split at h
  · cases h
  · cases h
    intro name hname
    obtain ⟨entry, hentry, rfl⟩ := List.mem_map.mp (List.mem_mergeSort.mp hname)
    have hkept := (List.mem_filter.mp hentry).2
    rw [Bool.and_eq_true] at hkept
    exact hkept.1

/-! ### Articles

Loading goes through the names of the files and stops at the first that cannot be read. If it does
not stop, what is true of each article by itself is true of all. -/

theorem slug_of_loadArticle {tree : FileTree} {extensions : List String} {now : Instant}
    {directory : Path} {name : String} {article : Article}
    (h : loadArticle tree extensions now directory name = .ok article) :
    article.metadata.slug = stemOf name := by
  unfold loadArticle at h
  dsimp only at h
  split at h
  · cases h
  · split at h
    · cases h
    · cases h
      rfl

theorem forall_of_mapM_ok {α β ε : Type} {f : α → Except ε β} {all : List α} {results : List β}
    {P : β → Prop} (hf : ∀ a ∈ all, ∀ b, f a = .ok b → P b) (h : all.mapM f = .ok results) :
    ∀ b ∈ results, P b := by
  induction all generalizing results with
  | nil =>
    cases h
    simp
  | cons a rest ih =>
    -- if the whole succeeds, then so does the first step and what comes after it
    rw [List.mapM_cons] at h
    cases ha : f a with
    | error e =>
      rw [ha] at h
      cases h
    | ok b =>
      rw [ha] at h
      cases hrest : rest.mapM f with
      | error e =>
        rw [hrest] at h
        cases h
      | ok bs =>
        rw [hrest] at h
        cases h
        intro other hother
        rcases List.mem_cons.mp hother with rfl | hother
        · exact hf a List.mem_cons_self _ ha
        · exact ih (fun a ha => hf a (List.mem_cons_of_mem _ ha)) hrest other hother

theorem map_of_mapM_ok {α β γ ε : Type} {f : α → Except ε β} {g : β → γ} {name : α → γ}
    (hf : ∀ a b, f a = .ok b → g b = name a) {all : List α} {results : List β}
    (h : all.mapM f = .ok results) : results.map g = all.map name := by
  induction all generalizing results with
  | nil =>
    cases h
    rfl
  | cons a rest ih =>
    rw [List.mapM_cons] at h
    cases ha : f a with
    | error e =>
      rw [ha] at h
      cases h
    | ok b =>
      rw [ha] at h
      cases hrest : rest.mapM f with
      | error e =>
        rw [hrest] at h
        cases h
      | ok bs =>
        rw [hrest] at h
        cases h
        rw [List.map_cons, List.map_cons, hf a b ha, ih hrest]

/-- Sorting moves articles and does nothing else to them. -/
theorem perm_newestFirst (articles : List Article) : (newestFirst articles).Perm articles := by
  have hdated : (articles.map fun article => (article.metadata.published?, article)).map Prod.snd =
      articles := by
    rw [List.map_map]
    exact List.map_id _
  unfold newestFirst
  dsimp only
  conv_rhs => rw [← hdated]
  exact (List.mergeSort_perm _ _).map Prod.snd

theorem mem_of_mem_newestFirst {articles : List Article} {article : Article}
    (h : article ∈ newestFirst articles) : article ∈ articles := by
  unfold newestFirst at h
  simpa using h

theorem isStem_slug {tree : FileTree} {extensions : List String} {now : Instant}
    {directory : Path} {articles : List Article}
    (h : loadArticles tree extensions now directory = .ok articles) :
    ∀ article ∈ articles, IsStem article.metadata.slug := by
  unfold loadArticles at h
  split at h
  · cases h
  · rename_i names hnames
    split at h
    · cases h
    · rename_i loaded hloaded
      cases h
      have hall : ∀ article ∈ loaded, IsStem article.metadata.slug := by
        refine forall_of_mapM_ok (fun name hname article harticle => ?_) hloaded
        rw [slug_of_loadArticle harticle]
        exact isStem_stemOf (hasExtension_of_mem_filesWith hnames name hname)
      exact fun article harticle => hall article (mem_of_mem_newestFirst harticle)

/-- Each article file gives one article, which goes by the stem of the file. -/
theorem slugs_of_loadArticles {tree : FileTree} {extensions : List String} {now : Instant}
    {directory : Path} {articles : List Article}
    (h : loadArticles tree extensions now directory = .ok articles) :
    ∃ names, tree.filesWith directory "md" = .ok names ∧
      (articles.map fun article => article.metadata.slug).Perm (names.map stemOf) := by
  unfold loadArticles at h
  split at h
  · cases h
  · rename_i names hnames
    split at h
    · cases h
    · rename_i loaded hloaded
      cases h
      refine ⟨names, hnames, ?_⟩
      rw [← map_of_mapM_ok (fun _ _ => slug_of_loadArticle) hloaded]
      exact (perm_newestFirst loaded).map _

/-! ### Authors -/

theorem isStem_author {tree : FileTree} {directory : Path} {authors : Authors}
    (h : loadAuthors tree directory = .ok authors) : ∀ author ∈ authors, IsStem author.1 := by
  unfold loadAuthors at h
  split at h
  · cases h
  · rename_i names hnames
    cases h
    intro author hauthor
    obtain ⟨name, hname, rfl⟩ := List.mem_map.mp (Fields.mem_ofList hauthor)
    exact isStem_stemOf (hasExtension_of_mem_filesWith hnames name hname)

/-- The authors go by the stems of the author files. -/
theorem names_of_loadAuthors {tree : FileTree} {directory : Path} {authors : Authors}
    (h : loadAuthors tree directory = .ok authors) :
    ∃ names, tree.filesWith directory "json" = .ok names ∧
      ∀ id, id ∈ authors.names ↔ id ∈ names.map stemOf := by
  unfold loadAuthors at h
  split at h
  · cases h
  · rename_i names hnames
    cases h
    refine ⟨names, hnames, fun id => ?_⟩
    rw [Fields.mem_names_ofList, List.map_map]
    rfl

/-- No two authors go by one stem. -/
theorem ascending_loadAuthors {tree : FileTree} {directory : Path} {authors : Authors}
    (h : loadAuthors tree directory = .ok authors) : Fields.Ascending authors := by
  unfold loadAuthors at h
  split at h
  · cases h
  · cases h
    exact Fields.ascending_ofList _

end StaticSite
