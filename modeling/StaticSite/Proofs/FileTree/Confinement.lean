import StaticSite.Proofs.FileTree.Operations
import StaticSite.Proofs.Path.Way
/-!
# StaticSite.Proofs.FileTree.Confinement

What tasks on files leave alone. **A task that is confined to a place changes nothing outside of it,
but for directories that it makes where nothing stands** (`FileTree.Confined`). A task is confined
if all paths that it uses lead inside (`FileTask.keeps_writeInside`, `FileTask.keeps_copy`).

A file that stands at the place itself stays as well: a directory is needed there, and only a
directory is removed.
-/

set_option autoImplicit false

namespace StaticSite

namespace FileTree

variable {before middle after : FileTree} {place out : Place} {made : Place → Prop} {p : Path}

/-! ### The discipline of a place

A task may make directories on its way to the place that it is confined to. They are allowed for by
`made`, where nothing stood; otherwise what happens outside is nothing. -/

/-- Whether nothing may happen to a place. -/
def Sheltered (tree : FileTree) (out place : Place) : Prop :=
  ¬ out <+: place ∨ place = out ∧ ∃ content, tree.kind? place = some (some content)

/-- Whether nothing has changed outside of `out`, but for directories that are made. -/
def Confined (out : Place) (made : Place → Prop) (before after : FileTree) : Prop :=
  ∀ place, before.Sheltered out place →
    after.kind? place = before.kind? place ∨
      made place ∧ before.kind? place = none ∧ after.kind? place = some none

theorem confined_refl (tree : FileTree) : Confined out made tree tree := fun _ _ => .inl rfl

theorem Confined.file {content : ByteArray} (h : Confined out made before after)
    (hplace : before.Sheltered out place) (hfile : before.kind? place = some (some content)) :
    after.kind? place = some (some content) := by
  rcases h place hplace with hsame | ⟨-, hnone, -⟩
  · rw [hsame, hfile]
  · rw [hfile] at hnone
    cases hnone

theorem Confined.trans (h : Confined out made before middle)
    (hnext : Confined out made middle after) : Confined out made before after := by
  intro place hsheltered
  -- what is sheltered before is sheltered in the middle, since no file comes or goes there
  have hmiddle : middle.Sheltered out place := by
    rcases hsheltered with houtside | ⟨hout, content, hcontent⟩
    · exact .inl houtside
    · exact .inr ⟨hout, content, h.file (.inr ⟨hout, content, hcontent⟩) hcontent⟩
  rcases h place hsheltered with hsame | ⟨hmade, hnone, hdirectory⟩
  · rw [← hsame]
    exact hnext place hmiddle
  · right
    refine ⟨hmade, hnone, ?_⟩
    rcases hnext place hmiddle with hsame | ⟨-, hnone, -⟩
    · rw [hsame, hdirectory]
    · rw [hdirectory] at hnone
      cases hnone

theorem Confined.file_iff {content : ByteArray} (h : Confined out made before after)
    (hplace : ¬ out <+: place) :
    after.kind? place = some (some content) ↔ before.kind? place = some (some content) := by
  refine ⟨fun hfile => ?_, h.file (.inl hplace)⟩
  rcases h place (.inl hplace) with hsame | ⟨-, -, hdirectory⟩
  · rw [← hsame, hfile]
  · rw [hfile] at hdirectory
    cases hdirectory

/-- The discipline of tasks that are confined to a place. -/
def within (out : Place) (made : Place → Prop) : Discipline FileTree where
  holds := WellFormed
  change := Confined out made
  refl := confined_refl
  trans := Confined.trans

theorem makeDirectory_allows (hp : out <+: p.location ∨ made p.location)
    (h : before.WellFormed) (hrun : before.makeDirectory p = .ok after) :
    (within out made).Allows before after := by
  obtain ⟨hnone, hkind⟩ := makeDirectory_ok h.root hrun
  have hne : p.location ≠ [] := by
    intro hroot
    rw [hroot, h.root] at hnone
    cases hnone
  refine ⟨wellFormed_of_kind? h ⟨hne, fun _ => Path.isName_of_mem_location⟩ hkind, ?_⟩
  intro place hsheltered
  rw [hkind]
  split
  · rename_i heq
    subst heq
    right
    refine ⟨?_, hnone, rfl⟩
    rcases hsheltered with houtside | ⟨-, content, hcontent⟩
    · exact hp.resolve_left houtside
    · rw [hnone] at hcontent
      cases hcontent
  · exact .inl rfl

theorem write_allows {content : ByteArray} (hp : out <+: p.location) (hne : p.location ≠ out)
    (h : before.WellFormed) (hrun : before.write p content = .ok after) :
    (within out made).Allows before after := by
  have hkind := write_ok h.root hrun
  have hroot : p.location ≠ [] := by
    intro hroot
    rw [hroot] at hp hne
    exact hne (List.prefix_nil.mp hp).symm
  refine ⟨wellFormed_of_kind? h ⟨hroot, fun _ => Path.isName_of_mem_location⟩ hkind, ?_⟩
  intro place hsheltered
  left
  rw [hkind, if_neg]
  rintro rfl
  rcases hsheltered with houtside | ⟨hout, -⟩
  · exact houtside hp
  · exact hne hout

theorem Emptied.allows (hout : out <+: place) (h : before.WellFormed)
    (hemptied : Emptied place before after) : (within out made).Allows before after := by
  refine ⟨⟨hemptied.root.trans h.root, fun goal hgoal => ?_⟩, fun goal hsheltered => .inl ?_⟩
  · by_cases hunder : place <+: goal
    · obtain ⟨rest, rfl⟩ := hunder
      cases rest with
      | nil =>
        rw [List.append_nil]
        exact h.names place (by rw [hemptied.directory]; rfl)
      | cons name rest =>
        rw [hemptied.below] at hgoal
        cases hgoal
    · rw [hemptied.outside goal hunder] at hgoal
      exact h.names goal hgoal
  · -- a file at `out` itself is not below the place, where a directory was
    refine hemptied.outside goal fun hunder => ?_
    rcases hsheltered with houtside | ⟨rfl, content, hcontent⟩
    · exact houtside (hout.trans hunder)
    · obtain rfl : place = goal := hunder.eq_of_length_le hout.length_le
      rw [hemptied.directory] at hcontent
      cases hcontent

end FileTree

/-! ### Tasks

Each task is confined by where its paths lead. To copy is to make directories and to write below
them, so what keeps these two keeps a copy, however deep it goes (`keeps_copyWith_of`). -/

namespace FileTask

open FileTree (within)

variable {out : Place} {made : Place → Prop} {p : Path} {d : Discipline FileTree}

theorem yields_ask {α : Type} {read : FileTree → Except IoError α} {post : α → Prop}
    (h : ∀ tree, d.holds tree → ∀ a, read tree = .ok a → post a) : d.Yields (ask read) post := by
  intro tree htree
  unfold ask
  cases hread : read tree with
  | ok a => exact ⟨Discipline.allows_refl htree, h tree htree a hread⟩
  | error e => exact Discipline.allows_refl htree

theorem keeps_step {act : FileTree → Except IoError FileTree}
    (h : ∀ tree after, d.holds tree → act tree = .ok after → d.Allows tree after) :
    d.Keeps (step act) := by
  intro tree htree
  unfold step
  cases hact : act tree with
  | ok after => exact ⟨h tree after htree hact, trivial⟩
  | error e => exact Discipline.allows_refl htree

theorem keeps_makeDirectory (hp : out <+: p.location ∨ made p.location) :
    (within out made).Keeps (makeDirectory p) := by
  intro tree htree
  unfold makeDirectory
  cases hmake : tree.makeDirectory p with
  | ok after => exact ⟨FileTree.makeDirectory_allows hp htree hmake, trivial⟩
  | error e =>
    dsimp only
    cases tree.holdsDirectory p with
    | true => exact ⟨Discipline.allows_refl htree, trivial⟩
    | false => exact Discipline.allows_refl htree

theorem keeps_makeChain {paths : List Path} (h : ∀ p ∈ paths, d.Keeps (makeDirectory p)) :
    d.Keeps (makeChain paths) := by
  induction paths with
  | nil => exact Discipline.yields_throw _
  | cons p parents ih =>
    -- each directory is tried first, and again after those above it
    have hfirst := h p List.mem_cons_self
    have hparents : d.Keeps (makeChain parents *> makeDirectory p) :=
      Discipline.Keeps.seqRight (ih fun q hq => h q (List.mem_cons_of_mem _ hq)) hfirst
    intro tree htree
    have hrun := hfirst tree htree
    unfold makeChain
    cases hmake : makeDirectory p tree with
    | ok a after =>
      rw [hmake] at hrun
      exact hrun
    | error e after =>
      rw [hmake] at hrun
      cases e
      case notFound => exact hparents.after hrun
      all_goals exact hrun

/-- Whether every directory on the way of a path may be made. -/
structure Permitted (out : Place) (made : Place → Prop) (p : Path) : Prop where
  absolute : p.isAbsolute = true
  way : ∀ place, p.Passes place → out <+: place ∨ made place

/-- If directories may be made anywhere, every path will do. -/
theorem permitted_anywhere (out : Place) (hp : p.isAbsolute = true) :
    Permitted out (fun _ => True) p where
  absolute := hp
  way _ _ := .inr trivial

theorem keeps_makeDirectories (hp : Permitted out made p) :
    (within out made).Keeps (makeDirectories p) := by
  unfold makeDirectories
  split
  · exact Discipline.keeps_pure ()
  · refine keeps_makeChain fun q hq => keeps_makeDirectory (hp.way _ ?_)
    exact q.passes_location.mono (Path.steps_of_mem_chain hp.absolute hq)

/-- Whatever directories are made, no file comes or goes. -/
theorem file_makeDirectories_iff {tree : FileTree} (hp : p.isAbsolute = true)
    (htree : tree.WellFormed) (place : Place) (content : ByteArray) :
    (stateAfter (makeDirectories p) tree).kind? place = some (some content) ↔
      tree.kind? place = some (some content) := by
  -- a task that is confined to a place below changes no file at the place itself
  exact ((keeps_makeDirectories (permitted_anywhere (place ++ [""]) hp)).allows htree).2.file_iff
    (FileTree.child_not_above place "")

theorem keeps_write {content : ByteArray} (hp : out <+: p.location) (hne : p.location ≠ out) :
    (within out made).Keeps (write p content) :=
  keeps_step fun _ _ htree hrun => FileTree.write_allows hp hne htree hrun

theorem keeps_writeInside {content : ByteArray} (hpermitted : Permitted out made p)
    (hp : out <+: p.location) (hne : p.location ≠ out) :
    (within out made).Keeps (writeInside p content) := by
  unfold writeInside
  split
  · rename_i parent hparent
    obtain ⟨habsolute, hsteps⟩ := Path.steps_of_parent? hpermitted.absolute hparent
    have hdirectories : (within out made).Keeps (makeDirectories parent) :=
      keeps_makeDirectories ⟨habsolute, fun place hpasses =>
        hpermitted.way place (hpasses.mono hsteps)⟩
    exact hdirectories.bind fun _ => keeps_write hp hne
  · exact (Discipline.keeps_pure ()).bind fun _ => keeps_write hp hne

theorem keeps_remove (hp : out <+: p.location) : (within out made).Keeps (remove p) := by
  refine Discipline.keeps_of_allows fun tree htree => ?_
  rcases FileTree.emptied_remove_or p tree with hsame | hemptied
  · rw [hsame]
    exact Discipline.allows_refl htree
  · exact hemptied.allows hp htree

/-- What a directory lists has names. -/
theorem yields_list (hformed : ∀ tree, d.holds tree → tree.WellFormed) (source : Path) :
    d.Yields (ask (·.list source)) fun entries => ∀ entry ∈ entries, IsName entry.1 := by
  refine yields_ask fun tree htree entries hlist => ?_
  unfold FileTree.list at hlist
  split at hlist
  · cases hlist
  · cases hlist
  · rename_i place listed hfind
    cases hlist
    obtain ⟨rfl, hat⟩ := FileTree.find_location hfind
    intro entry hentry
    refine (hformed tree htree).names (source.location ++ [entry.1]) ?_ entry.1 (by simp)
    rw [FileTree.isSome_kind?, FileTree.at?_append, hat, Option.bind_some, FileTree.at?_directory]
    obtain ⟨found, hfound⟩ := Option.isSome_iff_exists.mp (Fields.get?_isSome_of_mem hentry)
    rw [hfound]
    rfl

/-- Copying follows a discipline if it may make its goals and write below them. -/
theorem keeps_copyWith_of {P : Path → Prop} (hformed : ∀ tree, d.holds tree → tree.WellFormed)
    (hchild : ∀ goal name, P goal → IsName name → P (goal.child name))
    (hmake : ∀ goal, P goal → d.Keeps (makeDirectories goal))
    (hwrite : ∀ goal name content, P goal → IsName name →
      d.Keeps (write (goal.child name) content))
    {fuel : Nat} {source goal : Path} (hgoal : P goal) :
    d.Keeps (copyWith fuel source goal) := by
  induction fuel generalizing source goal with
  | zero => exact Discipline.yields_throw _
  | succ fuel ih =>
    unfold copyWith
    refine (hmake goal hgoal).bind fun _ => ?_
    refine (yields_list hformed source).bind fun entries hentries => ?_
    refine Discipline.keeps_foldlM (fun count entry hentry => ?_) 0
    -- a listed name leads further inside, in the goal as in the source
    have hname := hentries entry hentry
    obtain ⟨name, entry⟩ := entry
    cases entry with
    | directory below =>
      exact (ih (hchild goal name hgoal hname)).bind fun _ => Discipline.keeps_pure _
    | file content =>
      refine Discipline.Keeps.bind (yields_ask fun _ _ _ _ => trivial) fun content => ?_
      exact (hwrite goal name content hgoal hname).bind fun _ => Discipline.keeps_pure _

theorem Permitted.child {name : String} (hp : Permitted out made p) (hin : out <+: p.location)
    (hname : IsName name) : Permitted out made (p.child name) where
  absolute := Path.isAbsolute_join hp.absolute
  way place hpasses := by
    have hinward : Path.Inward [name] :=
      Path.inward_names fun n hn => List.mem_singleton.mp hn ▸ hname
    rcases hpasses.of_steps (Path.steps_child hname) hinward with hway | hbelow
    · exact hp.way place hway
    · exact .inl (hin.trans hbelow)

theorem location_child_inside {name : String} (hin : out <+: p.location) (hname : IsName name) :
    out <+: (p.child name).location ∧ (p.child name).location ≠ out := by
  rw [Path.location_child hname]
  exact ⟨hin.trans (List.prefix_append _ _), FileTree.child_ne_above hin name⟩

theorem keeps_copy {source goal : Path} (hgoal : Permitted out made goal)
    (hin : out <+: goal.location) : (within out made).Keeps (copy source goal) := by
  refine keeps_copyWith_of (P := fun goal => Permitted out made goal ∧ out <+: goal.location)
    (fun _ htree => htree) (fun goal name hgoal hname => ?_)
    (fun goal hgoal => keeps_makeDirectories hgoal.1) (fun goal name content hgoal hname => ?_)
    ⟨hgoal, hin⟩
  · exact ⟨hgoal.1.child hgoal.2 hname, (location_child_inside hgoal.2 hname).1⟩
  · obtain ⟨hbelow, hne⟩ := location_child_inside hgoal.2 hname
    exact keeps_write hbelow hne

end FileTask

end StaticSite
