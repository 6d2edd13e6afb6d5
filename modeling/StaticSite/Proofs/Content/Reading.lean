import Mathlib.Data.List.Basic
import StaticSite.Proofs.Content.Loading
import StaticSite.Proofs.FileTree.Growth
import StaticSite.Proofs.FileTree.Order
import StaticSite.Proofs.FileTree.Reach
/-!
# StaticSite.Proofs.Content.Reading

What loaded content depends on. **Articles, authors and games are made from the files in their
directories, and from nothing else** (`loadArticles_congr`, `loadAuthors_congr`,
`loadGames_congr`): not from the time at which they are loaded, if each article has a date of its
own.
-/

set_option autoImplicit false

namespace StaticSite

variable {tree first second : FileTree} {directory : Path} {name extension : String}

/-- Whether the same files are in a directory at a place. -/
def FileTree.SameFiles (first second : FileTree) (place : Place) : Prop :=
  ∀ name content, first.kind? (place ++ [name]) = some (some content) ↔
    second.kind? (place ++ [name]) = some (some content)

theorem FileTree.SameFiles.symm {place : Place} (h : first.SameFiles second place) :
    second.SameFiles first place :=
  fun name content => (h name content).symm

/-! ### Names

A directory lists its entries in the order of their names. What is kept are the files with the
extension, and for a tree in order this is a question about each name. -/

/-- The names of files in a directory are those of the files that stand there. -/
theorem mem_of_filesWith (htree : tree.Regular) {names : List String}
    (h : tree.filesWith directory extension = .ok names) (name : String) :
    name ∈ names ↔
      hasExtension extension name = true ∧ tree.HasFile (directory.location ++ [name]) := by
  unfold FileTree.filesWith at h
  cases hlist : tree.list directory with
  | error e =>
    rw [hlist] at h
    cases h
  | ok entries =>
    rw [hlist] at h
    cases h
    obtain ⟨-, hentries⟩ := FileTree.list_eq_ok_iff.mp hlist
    have hascending : Fields.Ascending entries := (htree.2.at? hentries).entries.1
    have hfile : tree.HasFile (directory.location ++ [name]) ↔
        ∃ content, entries.get? name = some (.file content) :=
      exists_congr fun _ => FileTree.kind?_append_eq_file hentries
    rw [List.mem_mergeSort, hfile]
    constructor
    · -- a name that has been kept belongs to an entry, which is the only one of this name
      intro hname
      obtain ⟨entry, hentry, rfl⟩ := List.mem_map.mp hname
      obtain ⟨hmem, hkept⟩ := List.mem_filter.mp hentry
      rw [Bool.and_eq_true] at hkept
      refine ⟨hkept.1, ?_⟩
      rw [hascending.get?_of_mem hmem]
      cases hkind : entry.2 with
      | file content => exact ⟨content, rfl⟩
      | directory below =>
        rw [hkind] at hkept
        cases hkept.2
    · rintro ⟨hextension, content, hget⟩
      refine List.mem_map.mpr ⟨_, List.mem_filter.mpr ⟨Fields.mem_of_get? hget, ?_⟩, rfl⟩
      rw [hextension]
      rfl

theorem exists_filesWith_iff (extension : String) :
    (∃ names, tree.filesWith directory extension = .ok names) ↔
      tree.holdsDirectory directory = true := by
  unfold FileTree.filesWith
  constructor
  · rintro ⟨names, h⟩
    cases hlist : tree.list directory with
    | error e =>
      rw [hlist] at h
      cases h
    | ok entries => exact (FileTree.list_eq_ok_iff.mp hlist).1
  · intro hheld
    obtain ⟨entries, hentries⟩ := FileTree.kind?_eq_directory.mp
      (FileTree.holdsDirectory_iff_target.mp hheld).2
    rw [FileTree.list_eq_ok_iff.mpr ⟨hheld, hentries⟩]
    exact ⟨_, rfl⟩

/-- The names are in ascending order, each of them once. -/
theorem pairwise_of_filesWith (htree : tree.Regular) {names : List String}
    (h : tree.filesWith directory extension = .ok names) : names.Pairwise (· < ·) := by
  unfold FileTree.filesWith at h
  cases hlist : tree.list directory with
  | error e =>
    rw [hlist] at h
    cases h
  | ok entries =>
    rw [hlist] at h
    cases h
    have hascending : Fields.Ascending entries :=
      (htree.2.at? (FileTree.list_eq_ok_iff.mp hlist).2).entries.1
    have hfiles : (((entries : List (String × FileTree)).filter fun entry =>
        hasExtension extension entry.1 && !entry.2.isDirectory).map Prod.fst).Pairwise (· < ·) :=
      List.Pairwise.sublist (List.filter_sublist.map Prod.fst) hascending
    -- what is sorted stays as it is when it is sorted
    rw [List.mergeSort_of_pairwise]
    · exact hfiles
    · exact hfiles.imp fun hlt => by simpa using Std.le_of_lt hlt

theorem filesWith_congr (hfirst : first.Regular) (hsecond : second.Regular)
    (hheld : first.holdsDirectory directory = true)
    (hheld' : second.holdsDirectory directory = true)
    (hsame : first.SameFiles second directory.location) (extension : String) :
    first.filesWith directory extension = second.filesWith directory extension := by
  obtain ⟨names, hnames⟩ := (exists_filesWith_iff extension).mpr hheld
  obtain ⟨others, hothers⟩ := (exists_filesWith_iff extension).mpr hheld'
  rw [hnames, hothers]
  refine congrArg Except.ok (Fields.eq_of_pairwise (· < ·) String.lt_irrefl String.lt_trans
    (pairwise_of_filesWith hfirst hnames) (pairwise_of_filesWith hsecond hothers) fun name => ?_)
  rw [mem_of_filesWith hfirst hnames, mem_of_filesWith hsecond hothers]
  exact and_congr_right fun _ => exists_congr fun content => hsame name content

/-! ### Texts -/

theorem readText_eq_ok {p : Path} {text : List Char} (h : tree.readText p = .ok text) :
    ∃ content decoded, tree.read p = .ok content ∧ String.fromUTF8? content = some decoded ∧
      text = decoded.toList := by
  unfold FileTree.readText at h
  split at h
  · cases h
  · rename_i content hread
    split at h
    · rename_i decoded hdecode
      cases h
      exact ⟨content, decoded, hread, hdecode, rfl⟩
    · cases h

/-- A file is read in two trees with the same result if its directory is there in both. -/
theorem readText_congr (hfirst : first.WellFormed) (hsecond : second.WellFormed)
    (hheld : first.holdsDirectory directory = true)
    (hheld' : second.holdsDirectory directory = true) (hname : IsName name)
    (hsame : first.kind? (directory.location ++ [name]) =
      second.kind? (directory.location ++ [name])) :
    first.readText (directory.child name) = second.readText (directory.child name) := by
  have htarget : first.target (directory.child name) = second.target (directory.child name) := by
    rw [FileTree.target_child hfirst.root hheld hname,
      FileTree.target_child hsecond.root hheld' hname]
  have hread : first.read (directory.child name) = second.read (directory.child name) := by
    cases hrun : second.target (directory.child name) with
    | error e =>
      rw [FileTree.read_of_target_error (htarget.trans hrun), FileTree.read_of_target_error hrun]
    | ok target =>
      have hplace := FileTree.target_location hrun
      rw [Path.location_child hname] at hplace
      rw [FileTree.read_of_target (htarget.trans hrun), FileTree.read_of_target hrun, hplace,
        hsame]
  unfold FileTree.readText
  rw [hread]

theorem mapM_congr {α β ε : Type} {f g : α → Except ε β} {all : List α}
    (h : ∀ a ∈ all, f a = g a) : all.mapM f = all.mapM g := by
  induction all with
  | nil => rfl
  | cons a rest ih =>
    rw [List.mapM_cons, List.mapM_cons, h a List.mem_cons_self,
      ih fun b hb => h b (List.mem_cons_of_mem _ hb)]

/-- What the loading of content relies on: a directory that is there in two trees as there can be,
with the same files in it. -/
structure ReadAlike (first second : FileTree) (directory : Path) : Prop where
  regular : first.Regular
  regular' : second.Regular
  held : first.holdsDirectory directory = true
  held' : second.holdsDirectory directory = true
  same : first.SameFiles second directory.location

namespace ReadAlike

theorem filesWith (h : ReadAlike first second directory) (extension : String) :
    first.filesWith directory extension = second.filesWith directory extension :=
  filesWith_congr h.regular h.regular' h.held h.held' h.same extension

/-- Files that are found are read with the same result. -/
theorem readText (h : ReadAlike first second directory) {names : List String}
    (hnames : first.filesWith directory extension = .ok names) :
    ∀ name ∈ names,
      first.readText (directory.child name) = second.readText (directory.child name) := by
  intro name hname
  obtain ⟨-, content, hfile⟩ := (mem_of_filesWith h.regular hnames name).mp hname
  refine readText_congr h.regular.1 h.regular'.1 h.held h.held' ?_ ?_
  · exact h.regular.1.names _ (by rw [hfile]; rfl) name (by simp)
  · rw [hfile, (h.same name content).mp hfile]

end ReadAlike

/-! ### Articles

The time of loading comes in at one place: it is the date of an article that has none of its own. -/

/-- Whether each article in a directory at a place has a date of its own. -/
def FileTree.Dated (tree : FileTree) (place : Place) : Prop :=
  ∀ name content text, hasExtension "md" name = true →
    tree.kind? (place ++ [name]) = some (some content) → String.fromUTF8? content = some text →
      (truthyText? ((FrontMatter.parse text.toList).1.get? "date")).isSome = true

theorem ofFrontMatter_congr {frontMatter : Fields Json}
    (hdate : (truthyText? (frontMatter.get? "date")).isSome = true) (now now' : Instant)
    (body : List Char) (slug : String) :
    ArticleMetadata.ofFrontMatter now frontMatter body slug =
      ArticleMetadata.ofFrontMatter now' frontMatter body slug := by
  obtain ⟨date, hdate⟩ := Option.isSome_iff_exists.mp hdate
  unfold ArticleMetadata.ofFrontMatter
  simp only [hdate, Option.getD_some]

theorem loadArticle_congr (h : ReadAlike first second directory)
    (hdated : first.Dated directory.location) {names : List String}
    (hnames : first.filesWith directory "md" = .ok names) (extensions : List String)
    (now now' : Instant) :
    ∀ name ∈ names, loadArticle first extensions now directory name =
      loadArticle second extensions now' directory name := by
  intro name hname
  have htext := h.readText hnames name hname
  obtain ⟨hextension, content, hfile⟩ := (mem_of_filesWith h.regular hnames name).mp hname
  unfold loadArticle
  dsimp only
  rw [← htext]
  cases hrun : first.readText (directory.child name) with
  | error e => rfl
  | ok text =>
    obtain ⟨found, decoded, hread, hdecode, rfl⟩ := readText_eq_ok hrun
    have hname : IsName name := h.regular.1.names _ (by rw [hfile]; rfl) name (by simp)
    have hfound := ((FileTree.read_child_eq_ok_iff h.regular.1.root h.held hname).mp hread).2
    have hdate := hdated name found decoded hextension hfound hdecode
    dsimp only
    rw [ofFrontMatter_congr hdate now now']

/-- Articles that have dates of their own are the same whenever they are loaded. -/
theorem loadArticles_congr (h : ReadAlike first second directory)
    (hdated : first.Dated directory.location) (extensions : List String) (now now' : Instant) :
    loadArticles first extensions now directory =
      loadArticles second extensions now' directory := by
  unfold loadArticles
  rw [← h.filesWith]
  cases hnames : first.filesWith directory "md" with
  | error e => rfl
  | ok names =>
    dsimp only
    rw [mapM_congr (loadArticle_congr h hdated hnames extensions now now')]

/-! ### Records

A directory without games may be missing altogether. So two trees can differ in whether it is there
and still have the same games. -/

theorem loadAuthors_congr (h : ReadAlike first second directory) :
    loadAuthors first directory = loadAuthors second directory := by
  unfold loadAuthors
  rw [← h.filesWith]
  cases hnames : first.filesWith directory "json" with
  | error e => rfl
  | ok names =>
    refine congrArg (fun pairs => Except.ok (Fields.ofList pairs))
      (List.map_congr_left fun name hname => ?_)
    unfold loadRecord?
    rw [h.readText hnames name hname]

theorem loadGames_of_not_holdsDirectory (h : tree.holdsDirectory directory = false) :
    loadGames tree directory = [] := by
  unfold loadGames
  cases hnames : tree.filesWith directory "json" with
  | error e => rfl
  | ok names =>
    have hheld := (exists_filesWith_iff "json").mp ⟨names, hnames⟩
    rw [h] at hheld
    cases hheld

theorem loadGames_of_no_files (htree : tree.Regular)
    (h : ∀ name, ¬ tree.HasFile (directory.location ++ [name])) :
    loadGames tree directory = [] := by
  unfold loadGames
  cases hnames : tree.filesWith directory "json" with
  | error e => rfl
  | ok names =>
    have hempty : names = [] := List.eq_nil_iff_forall_not_mem.mpr fun name hname =>
      h name ((mem_of_filesWith htree hnames name).mp hname).2
    rw [hempty]
    rfl

/-- A directory that is missing in a tree with the same files has no games in either. -/
theorem loadGames_of_missing (hfirst : first.Regular)
    (hmissing : second.kind? directory.location ≠ some none)
    (hsame : first.SameFiles second directory.location) :
    loadGames first directory = loadGames second directory := by
  rw [loadGames_of_no_files hfirst, loadGames_of_not_holdsDirectory]
  · exact Bool.eq_false_iff.mpr fun hheld =>
      hmissing (FileTree.holdsDirectory_iff_target.mp hheld).2
  · rintro name ⟨content, hfile⟩
    have hentry := (hsame name content).mp hfile
    exact hmissing (FileTree.kind?_parent (Option.isSome_of_eq_some hentry))

/-- Games are the same if their files are, even if the directory is missing in one tree, as long as
what is above it is there in both. -/
theorem loadGames_congr (hfirst : first.Regular) (hsecond : second.Regular)
    (habove : ∀ place, directory.Passes place → place ≠ directory.location →
      first.kind? place = some none ∧ second.kind? place = some none)
    (hsame : first.SameFiles second directory.location) :
    loadGames first directory = loadGames second directory := by
  by_cases hthere : first.kind? directory.location = some none
  case neg => exact (loadGames_of_missing hsecond hthere hsame.symm).symm
  by_cases hthere' : second.kind? directory.location = some none
  case neg => exact loadGames_of_missing hfirst hthere' hsame
  have hpasses : ∀ place, directory.Passes place →
      first.kind? place = some none ∧ second.kind? place = some none := by
    intro place hplace
    by_cases hlast : place = directory.location
    · exact hlast ▸ ⟨hthere, hthere'⟩
    · exact habove place hplace hlast
  -- if the directory is there in both trees, a path that can be used finds it in both, and one that
  -- cannot be used in neither
  by_cases husable : directory.Usable
  · have hread : ReadAlike first second directory := by
      refine ⟨hfirst, hsecond, ?_, ?_, hsame⟩
      · exact (FileTree.holdsDirectory_iff hfirst.1.root).mpr
          ⟨husable, fun place hplace => (hpasses place hplace).1⟩
      · exact (FileTree.holdsDirectory_iff hsecond.1.root).mpr
          ⟨husable, fun place hplace => (hpasses place hplace).2⟩
    unfold loadGames
    rw [← hread.filesWith]
    cases hnames : first.filesWith directory "json" with
    | error e => rfl
    | ok names =>
      refine List.filterMap_congr fun name hname => ?_
      unfold loadRecord?
      rw [hread.readText hnames name hname]
  · have hnot : ∀ tree : FileTree, tree.WellFormed → tree.holdsDirectory directory = false :=
      fun tree htree => Bool.eq_false_iff.mpr fun hheld =>
        husable ((FileTree.holdsDirectory_iff htree.root).mp hheld).1
    rw [loadGames_of_not_holdsDirectory (hnot first hfirst.1),
      loadGames_of_not_holdsDirectory (hnot second hsecond.1)]

end StaticSite
