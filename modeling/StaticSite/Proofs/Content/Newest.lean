import StaticSite.Proofs.Content.Reading
import StaticSite.Proofs.Text.ByteOrder
import StaticSite.Proofs.Text.Case
/-!
# StaticSite.Proofs.Content.Newest

The order of articles. The files of a directory are taken in the order of their names, and their
articles are sorted by the time of publication. The sort keeps the order of articles of one time
(`pairwise_mergeSort_of_tie`), so that both orders come together: **articles are listed from the
newest on, those without a readable date last, and those of one time by the bytes of their file
names** (`loadArticles_newest_first`). There is one such list only, since no two files of a
directory have one name.
-/

set_option autoImplicit false

namespace StaticSite

/-! ### Names of article files -/

/-- Whether a name is that of an article: a stem and `md` in any letter case. -/
def IsArticleName (name : String) : Prop :=
  ∃ stem extension : String, stem ≠ "" ∧ extension ∈ ["md", "mD", "Md", "MD"] ∧
    name = stem ++ "." ++ extension

theorem equalIgnoringCase_md_iff {extension : String} :
    Text.equalIgnoringCase extension.toList "md".toList = true ↔
      extension ∈ ["md", "mD", "Md", "MD"] := by
  have hm : ∀ c : Char, c.toLower = 'm' ↔ c = 'm' ∨ c = 'M' :=
    fun c => Text.toLower_eq_iff 'M' (by decide)
  have hd : ∀ c : Char, c.toLower = 'd' ↔ c = 'd' ∨ c = 'D' :=
    fun c => Text.toLower_eq_iff 'D' (by decide)
  have hlist : ∀ chars : List Char, chars.map Char.toLower = ['m', 'd'] ↔
      chars ∈ [['m', 'd'], ['m', 'D'], ['M', 'd'], ['M', 'D']] := by
    intro chars
    match chars with
    | [] => simp
    | [c] => simp
    | [c, e] =>
      simp only [List.map_cons, List.map_nil, List.cons.injEq, List.mem_cons, hm, hd]
      grind
    | c :: e :: f :: rest => simp
  unfold Text.equalIgnoringCase
  rw [beq_iff_eq]
  refine (hlist extension.toList).trans ?_
  simp [← String.toList_inj]

theorem hasExtension_md_iff {name : String} (h : IsName name) :
    hasExtension "md" name = true ↔ IsArticleName name := by
  unfold hasExtension Path.extension?
  rw [Path.fileName?_ofString h, Option.bind_some]
  constructor
  · -- a name with an extension is cut at its last point, with a stem before it
    intro hextension
    cases hcut : (Path.cutName name.toList).2 with
    | none =>
      rw [hcut] at hextension
      cases hextension
    | some after =>
      rw [hcut] at hextension
      obtain ⟨hne, hname, -⟩ := Path.cutName_eq_iff.mp (Prod.ext rfl hcut)
      refine ⟨String.ofList (Path.cutName name.toList).1, String.ofList after, ?_,
        equalIgnoringCase_md_iff.mp hextension, ?_⟩
      · exact fun hempty => hne (String.ofList_eq_empty_iff.mp hempty)
      · rw [← String.toList_inj]
        simpa using hname
  · rintro ⟨stem, extension, hstem, hextension, rfl⟩
    have hpoint : '.' ∉ extension.toList := by
      simp only [List.mem_cons, List.not_mem_nil, or_false] at hextension
      rcases hextension with rfl | rfl | rfl | rfl
      all_goals decide
    -- the last point of the name is the one in front of the extension, which holds none
    have hcut : Path.cutName (stem ++ "." ++ extension).toList =
        (stem.toList, some extension.toList) := by
      refine Path.cutName_eq_iff.mpr ⟨?_, by simp, hpoint⟩
      exact fun hnil => hstem (String.toList_eq_nil_iff.mp hnil)
    rw [hcut, Option.map_some, String.ofList_toList]
    exact equalIgnoringCase_md_iff.mpr hextension

/-! ### Stable sorting

The merge sort of the library keeps every part of a list that is in order already. The elements of
one key are such a part, in whatever order they stand. -/

/-- What is sorted by a key is in order by the key, and elements with one key are in the order in
which they were before. -/
theorem pairwise_mergeSort_of_tie {α κ : Type} [DecidableEq κ] {le : κ → κ → Bool}
    (htrans : ∀ i j k, le i j = true → le j k = true → le i k = true)
    (htotal : ∀ i j, (le i j || le j i) = true) (key : α → κ) {r : α → α → Prop} {all : List α}
    (h : all.Pairwise r) :
    (all.mergeSort fun a b => le (key a) (key b)).Pairwise fun a b =>
      le (key a) (key b) = true ∧ (key a = key b → r a b) := by
  have htrans' : ∀ a b c, le (key a) (key b) = true → le (key b) (key c) = true →
      le (key a) (key c) = true := fun a b c => htrans _ _ _
  have htotal' : ∀ a b, (le (key a) (key b) || le (key b) (key a)) = true := fun a b => htotal _ _
  refine (List.pairwise_mergeSort htrans' htotal' all).and
    (List.pairwise_iff_forall_sublist.mpr fun {a b} hab heq => ?_)
  -- the elements with the key of the two are the same before and after, and in the same order
  let same : α → Bool := fun c => decide (key c = key a)
  have hsame : (all.filter same).Pairwise fun a b => le (key a) (key b) = true := by
    refine List.pairwise_of_forall_mem_list fun c hc d hd => ?_
    have hkeys := (of_decide_eq_true (List.mem_filter.mp hc).2).trans
      (of_decide_eq_true (List.mem_filter.mp hd).2).symm
    rw [hkeys]
    simpa using htotal (key d) (key d)
  have hsub := (List.sublist_mergeSort htrans' htotal' hsame List.filter_sublist).filter same
  rw [List.filter_filter] at hsub
  simp only [Bool.and_self] at hsub
  have hfilter := hsub.eq_of_length ((List.mergeSort_perm all _).symm.filter same).length_eq
  have hpair := hab.filter same
  rw [← hfilter, List.filter_eq_self.mpr] at hpair
  · exact List.pairwise_iff_forall_sublist.mp h (hpair.trans List.filter_sublist)
  · intro c hc
    rcases List.mem_cons.mp hc with rfl | hc
    · exact decide_eq_true rfl
    · rw [List.mem_singleton.mp hc]
      exact decide_eq_true heq.symm

/-! ### Times of publication

Times are compared as pairs of seconds and nanoseconds, and a missing time comes after all others.
This is a total order, as sorting needs, and ties are equal times. -/

theorem Instant.isBefore_iff {s t : Instant} :
    s.isBefore t = true ↔ s.seconds < t.seconds ∨ s.seconds = t.seconds ∧ s.nanos < t.nanos := by
  unfold isBefore
  simp

theorem Instant.eq_or_isBefore (s t : Instant) :
    s = t ∨ s.isBefore t = true ∨ t.isBefore s = true := by
  rw [isBefore_iff, isBefore_iff]
  cases s
  cases t
  simp only [Instant.mk.injEq]
  omega

/-- Whether one time of publication is later than another. No time is earlier than all times. -/
def IsLater : Option Instant → Option Instant → Prop
  | some s, some t => t.isBefore s = true
  | some _, none => True
  | none, _ => False

theorem isLater_some_iff {s t : Instant} :
    IsLater (some s) (some t) ↔ t.seconds < s.seconds ∨ t.seconds = s.seconds ∧ t.nanos < s.nanos :=
  Instant.isBefore_iff

theorem not_isLater_self (s : Option Instant) : ¬ IsLater s s := by
  cases s with
  | none => exact not_false
  | some s =>
    rw [isLater_some_iff]
    omega

theorem IsLater.trans {s t u : Option Instant} (h : IsLater s t) (h' : IsLater t u) :
    IsLater s u := by
  match s, t, u with
  | some s, some t, some u =>
    rw [isLater_some_iff] at h h' ⊢
    omega
  | some _, some _, none => trivial

theorem isNotBefore_iff {s t : Option Instant} :
    isNotBefore s t = true ↔ IsLater s t ∨ s = t := by
  match s, t with
  | none, none => exact iff_of_true rfl (.inr rfl)
  | some _, none => exact iff_of_true rfl (.inl trivial)
  | none, some _ =>
    exact iff_of_false (fun h => Bool.noConfusion h) fun h => h.elim id fun heq => nomatch heq
  | some s, some t =>
    unfold isNotBefore
    rw [Bool.not_eq_true', Option.some.injEq, Bool.eq_false_iff]
    constructor
    · intro hnot
      rcases Instant.eq_or_isBefore s t with heq | hbefore | hlater
      · exact .inr heq
      · exact absurd hbefore hnot
      · exact .inl hlater
    · rintro (hlater | rfl) hbefore
      · rw [isLater_some_iff] at hlater
        rw [Instant.isBefore_iff] at hbefore
        omega
      · rw [Instant.isBefore_iff] at hbefore
        omega

theorem isNotBefore_trans (s t u : Option Instant) (h : isNotBefore s t = true)
    (h' : isNotBefore t u = true) : isNotBefore s u = true := by
  rw [isNotBefore_iff] at h h' ⊢
  rcases h with hlater | rfl
  · rcases h' with hlater' | rfl
    · exact .inl (hlater.trans hlater')
    · exact .inl hlater
  · exact h'

theorem isNotBefore_total (s t : Option Instant) :
    (isNotBefore s t || isNotBefore t s) = true := by
  rw [Bool.or_eq_true, isNotBefore_iff, isNotBefore_iff]
  match s, t with
  | none, none => exact .inl (.inr rfl)
  | some _, none => exact .inl (.inl trivial)
  | none, some _ => exact .inr (.inl trivial)
  | some s, some t =>
    rcases Instant.eq_or_isBefore s t with rfl | hbefore | hlater
    · exact .inl (.inr rfl)
    · exact .inr (.inl hbefore)
    · exact .inl (.inl hlater)

/-! ### The order of articles

The order by time and the order by name are put together into one strict order. A list in a strict
order is determined by its elements, which makes the list of articles unique. -/

/-- Whether an article, with the name of its file, is listed before another: it is published later,
or at the same time and the bytes of its name come first. -/
def ListedBefore (a b : String × Article) : Prop :=
  IsLater a.2.metadata.published? b.2.metadata.published? ∨
    a.2.metadata.published? = b.2.metadata.published? ∧ Text.bytes a.1 < Text.bytes b.1

theorem not_listedBefore_self (a : String × Article) : ¬ ListedBefore a a := by
  rintro (hlater | ⟨-, hbytes⟩)
  · exact not_isLater_self _ hlater
  · exact List.lt_irrefl _ hbytes

theorem ListedBefore.trans {a b c : String × Article} (h : ListedBefore a b)
    (h' : ListedBefore b c) : ListedBefore a c := by
  unfold ListedBefore at h h' ⊢
  rcases h with hlater | ⟨heq, hbytes⟩
  · rcases h' with hlater' | ⟨heq', -⟩
    · exact .inl (hlater.trans hlater')
    · exact .inl (heq' ▸ hlater)
  · rcases h' with hlater' | ⟨heq', hbytes'⟩
    · exact .inl (heq ▸ hlater')
    · exact .inr ⟨heq.trans heq', List.lt_trans hbytes hbytes'⟩

/-- Sorting articles from files in the order of their names gives them the order of the list. -/
theorem exists_listed_newestFirst {files : List (String × Article)}
    (hnames : files.Pairwise fun a b => a.1 < b.1) :
    ∃ listed : List (String × Article), listed.Perm files ∧
      listed.map Prod.snd = newestFirst (files.map Prod.snd) ∧ listed.Pairwise ListedBefore := by
  let key : String × Article → Option Instant := fun file => file.2.metadata.published?
  refine ⟨files.mergeSort fun a b => isNotBefore (key a) (key b), List.mergeSort_perm _ _, ?_, ?_⟩
  · have hdated : (files.mergeSort fun a b => isNotBefore (key a) (key b)).map
        (fun file => (key file, file.2)) =
          (files.map fun file => (key file, file.2)).mergeSort fun a b => isNotBefore a.1 b.1 :=
      List.map_mergeSort fun _ _ _ _ => rfl
    have hsnd := congrArg (List.map Prod.snd) hdated
    rw [List.map_map] at hsnd
    unfold newestFirst
    dsimp only
    rw [List.map_map]
    exact hsnd
  · refine (pairwise_mergeSort_of_tie isNotBefore_trans isNotBefore_total key hnames).imp
      fun ⟨hnot, htie⟩ => ?_
    rcases isNotBefore_iff.mp hnot with hlater | heq
    · exact .inl hlater
    · exact .inr ⟨heq, Text.bytes_lt_iff.mpr (htie heq)⟩

/-! ### Loading -/

/-- What is made of each element of a list, if something can be made of each. -/
theorem exists_mapM_ok {α β ε : Type} {f : α → Except ε β} {all : List α}
    (h : ∀ a ∈ all, ∃ b, f a = .ok b) :
    ∃ pairs : List (α × β), pairs.map Prod.fst = all ∧ all.mapM f = .ok (pairs.map Prod.snd) ∧
      ∀ pair ∈ pairs, f pair.1 = .ok pair.2 := by
  induction all with
  | nil => exact ⟨[], rfl, rfl, by simp⟩
  | cons a rest ih =>
    obtain ⟨b, hb⟩ := h a List.mem_cons_self
    obtain ⟨pairs, hfst, hrest, hall⟩ := ih fun c hc => h c (List.mem_cons_of_mem a hc)
    refine ⟨(a, b) :: pairs, congrArg (a :: ·) hfst, ?_, fun pair hpair => ?_⟩
    · rw [List.mapM_cons, hb, hrest]
      rfl
    · rcases List.mem_cons.mp hpair with rfl | hpair
      · exact hb
      · exact hall pair hpair

variable {tree : FileTree} {extensions : List String} {now : Instant} {directory : Path}

/-- Whether a name is that of an article file in a directory. -/
def FileTree.HasArticleFile (tree : FileTree) (directory : Path) (name : String) : Prop :=
  IsArticleName name ∧ tree.HasFile (directory.location ++ [name])

/-- Whether article files of a directory, with what is loaded from them, are all there, each of them
once, in the order in which articles are listed. -/
structure NewestFirst (tree : FileTree) (extensions : List String) (now : Instant)
    (directory : Path) (files : List (String × Article)) : Prop where
  once : (files.map Prod.fst).Nodup
  all : ∀ name, name ∈ files.map Prod.fst ↔ tree.HasArticleFile directory name
  loaded : ∀ file ∈ files, loadArticle tree extensions now directory file.1 = .ok file.2
  ordered : files.Pairwise ListedBefore

/-- There is one such list at most. -/
theorem NewestFirst.unique {files others : List (String × Article)}
    (h : NewestFirst tree extensions now directory files)
    (h' : NewestFirst tree extensions now directory others) : files = others := by
  have hmem : ∀ {files others : List (String × Article)},
      NewestFirst tree extensions now directory files →
      NewestFirst tree extensions now directory others → ∀ file ∈ files, file ∈ others := by
    intro files others h h' file hfile
    have hname := (h'.all file.1).mpr ((h.all file.1).mp (List.mem_map_of_mem hfile))
    obtain ⟨other, hother, hsame⟩ := List.mem_map.mp hname
    have harticle := h.loaded file hfile
    rw [← hsame, h'.loaded other hother] at harticle
    obtain rfl : other = file := Prod.ext hsame (Except.ok.inj harticle)
    exact hother
  exact Fields.eq_of_pairwise ListedBefore not_listedBefore_self ListedBefore.trans h.ordered
    h'.ordered fun file => ⟨hmem h h' file, hmem h' h file⟩

theorem mem_filesWith_md_iff (htree : tree.Regular) {names : List String}
    (h : tree.filesWith directory "md" = .ok names) (name : String) :
    name ∈ names ↔ tree.HasArticleFile directory name := by
  rw [mem_of_filesWith htree h]
  refine and_congr_left fun ⟨content, hfile⟩ => hasExtension_md_iff ?_
  exact htree.1.names _ (by rw [hfile]; rfl) name (by simp)

/-- **Articles are listed from the newest on.** If the article files of a directory can be read,
then loading succeeds. The articles are those of the files whose extension is `md` in any letter
case, one for each file: later times of publication first, articles without a readable date after
all others, and those of one time, or without one, in the order of the bytes of their file names. No
other list is like this. -/
theorem loadArticles_newest_first (htree : tree.Regular)
    (hheld : tree.holdsDirectory directory = true)
    (hreadable : ∀ name, tree.HasArticleFile directory name →
      ∃ article, loadArticle tree extensions now directory name = .ok article) :
    ∃ files, NewestFirst tree extensions now directory files ∧
      loadArticles tree extensions now directory = .ok (files.map Prod.snd) ∧
      ∀ others, NewestFirst tree extensions now directory others → others = files := by
  -- the names come from the directory, the articles from the names, and the list from sorting these
  obtain ⟨names, hnames⟩ := (exists_filesWith_iff "md").mpr hheld
  have hmem := mem_filesWith_md_iff htree hnames
  obtain ⟨loaded, hfst, hrun, hloaded⟩ :=
    exists_mapM_ok fun name hname => hreadable name ((hmem name).mp hname)
  have hascending := pairwise_of_filesWith htree hnames
  rw [← hfst, List.pairwise_map] at hascending
  obtain ⟨files, hperm, hlisted, hordered⟩ := exists_listed_newestFirst hascending
  have hfiles : NewestFirst tree extensions now directory files := by
    refine ⟨?_, fun name => ?_, fun file hfile => hloaded file (hperm.mem_iff.mp hfile), hordered⟩
    · rw [(hperm.map Prod.fst).nodup_iff]
      refine (List.pairwise_map.mpr hascending).imp fun hlt => ?_
      exact String.ne_of_lt hlt
    · rw [(hperm.map Prod.fst).mem_iff, hfst]
      exact hmem name
  refine ⟨files, hfiles, ?_, fun others hothers => hothers.unique hfiles⟩
  unfold loadArticles
  rw [hnames]
  dsimp only
  rw [hrun]
  exact congrArg Except.ok hlisted.symm

/-- Articles of one time that is written in two ways, a later one, one without a readable date, and
a file that is no article. -/
def noteEntries : List (String × FileTree) :=
  [("a.md", .file "---\ndate: someday\n---\n".toUTF8),
    ("b.md", .file "---\ndate: 2024-05-01T02:00:00+02:00\n---\n".toUTF8),
    ("c.Md", .file "---\ndate: 2024-05-01\n---\n".toUTF8),
    ("d.MD", .file "---\ndate: 2024-05-02\n---\n".toUTF8),
    ("e.txt", .file "".toUTF8)]

def noteTree : FileTree := .directory [("notes", .directory noteEntries)]

theorem hasArticleFile_noteTree_iff {name : String} :
    noteTree.HasArticleFile (.ofString "/notes") name ↔
      name ∈ ["a.md", "b.md", "c.Md", "d.MD"] := by
  have hplace : noteTree.at? (Path.ofString "/notes").location =
      some (.directory noteEntries) := rfl
  constructor
  · rintro ⟨harticle, content, hfile⟩
    have hname := List.mem_map_of_mem (f := Prod.fst)
      (Fields.mem_of_get? ((FileTree.kind?_append_eq_file hplace).mp hfile))
    simp only [noteEntries, List.map_cons, List.map_nil, List.mem_cons, List.not_mem_nil,
      or_false] at hname ⊢
    rcases hname with h | h | h | h | rfl
    · exact .inl h
    · exact .inr (.inl h)
    · exact .inr (.inr (.inl h))
    · exact .inr (.inr (.inr h))
    · exact absurd ((hasExtension_md_iff (by decide)).mpr harticle) (by decide)
  · intro hname
    simp only [List.mem_cons, List.not_mem_nil, or_false] at hname
    rcases hname with rfl | rfl | rfl | rfl
    all_goals exact ⟨(hasExtension_md_iff (by decide)).mp (by decide), _,
      (FileTree.kind?_append_eq_file hplace).mpr rfl⟩

/-- The later article is first, those of one time follow by their names, and the one without a
readable date is last. -/
theorem loadArticles_newest_first_notes :
    noteTree.Regular ∧ noteTree.holdsDirectory (.ofString "/notes") = true ∧
      (∀ name, noteTree.HasArticleFile (.ofString "/notes") name →
        ∃ article, loadArticle noteTree [] ⟨0, 0⟩ (.ofString "/notes") name = .ok article) ∧
      ∃ articles, loadArticles noteTree [] ⟨0, 0⟩ (.ofString "/notes") = .ok articles ∧
        articles.map (fun article => article.metadata.slug) = ["d", "b", "c", "a"] := by
  have hload : ∀ name slug published?,
      ((loadArticle noteTree [] ⟨0, 0⟩ (.ofString "/notes") name).toOption.map fun article =>
        (article.metadata.slug, article.metadata.published?)) = some (slug, published?) →
      ∃ article, loadArticle noteTree [] ⟨0, 0⟩ (.ofString "/notes") name = .ok article ∧
        article.metadata.slug = slug ∧ article.metadata.published? = published? := by
    intro name slug published? h
    cases hload : loadArticle noteTree [] ⟨0, 0⟩ (.ofString "/notes") name with
    | error e =>
      rw [hload] at h
      cases h
    | ok article =>
      rw [hload] at h
      cases h
      exact ⟨article, rfl, rfl, rfl⟩
  obtain ⟨a, ha, haslug, hadate⟩ := hload "a.md" "a" none (by decide +kernel)
  obtain ⟨b, hb, hbslug, hbdate⟩ := hload "b.md" "b" (some ⟨1714521600, 0⟩) (by decide +kernel)
  obtain ⟨c, hc, hcslug, hcdate⟩ := hload "c.Md" "c" (some ⟨1714521600, 0⟩) (by decide +kernel)
  obtain ⟨d, hd, hdslug, hddate⟩ := hload "d.MD" "d" (some ⟨1714608000, 0⟩) (by decide +kernel)
  have htree : noteTree.Regular :=
    ⟨FileTree.wellFormed_of_allNamed (by decide), FileTree.ordered_of_orderly _ (by decide)⟩
  have hheld : noteTree.holdsDirectory (.ofString "/notes") = true := by decide
  have hreadable : ∀ name, noteTree.HasArticleFile (.ofString "/notes") name →
      ∃ article, loadArticle noteTree [] ⟨0, 0⟩ (.ofString "/notes") name = .ok article := by
    intro name hname
    have hmem := hasArticleFile_noteTree_iff.mp hname
    simp only [List.mem_cons, List.not_mem_nil, or_false] at hmem
    rcases hmem with rfl | rfl | rfl | rfl
    · exact ⟨a, ha⟩
    · exact ⟨b, hb⟩
    · exact ⟨c, hc⟩
    · exact ⟨d, hd⟩
  refine ⟨htree, hheld, hreadable, ?_⟩
  obtain ⟨files, -, hrun, honly⟩ := loadArticles_newest_first htree hheld hreadable
  -- the list is not computed: it is the one list in this order, which is checked pair by pair
  have hlisted : NewestFirst noteTree [] ⟨0, 0⟩ (.ofString "/notes")
      [("d.MD", d), ("b.md", b), ("c.Md", c), ("a.md", a)] := by
    refine ⟨by simp, fun name => ?_, ?_, ?_⟩
    · rw [hasArticleFile_noteTree_iff]
      exact List.Perm.mem_iff (by decide : List.Perm ["d.MD", "b.md", "c.Md", "a.md"] _)
    · simp only [List.forall_mem_cons, List.not_mem_nil]
      exact ⟨hd, hb, hc, ha, fun _ h => h.elim⟩
    · have hdb : ListedBefore ("d.MD", d) ("b.md", b) := by
        refine .inl ?_
        rw [hddate, hbdate, isLater_some_iff]
        decide
      have hbc : ListedBefore ("b.md", b) ("c.Md", c) :=
        .inr ⟨hbdate.trans hcdate.symm, (by decide : Text.bytes "b.md" < Text.bytes "c.Md")⟩
      have hca : ListedBefore ("c.Md", c) ("a.md", a) := by
        refine .inl ?_
        rw [hcdate, hadate]
        trivial
      simp only [List.pairwise_cons, List.forall_mem_cons, List.not_mem_nil, List.Pairwise.nil,
        false_implies, implies_true, and_true]
      exact ⟨⟨hdb, hdb.trans hbc, (hdb.trans hbc).trans hca⟩, ⟨hbc, hbc.trans hca⟩, hca⟩
  refine ⟨_, hrun, ?_⟩
  rw [← honly _ hlisted]
  simp only [List.map_cons, List.map_nil, haslug, hbslug, hcslug, hdslug]

end StaticSite
