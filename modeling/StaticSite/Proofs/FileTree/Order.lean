import StaticSite.Proofs.FileTree.Writing
/-!
# StaticSite.Proofs.FileTree.Order

Trees whose directories have their entries in order, each name once (`FileTree.Ordered`), as every
tree of files has them. **Such trees are equal if the same stands at each place** (`Ordered.ext`),
and everything that is done to a tree keeps it in order.
-/

set_option autoImplicit false

namespace StaticSite

namespace FileTree

variable {tree new first second : FileTree} {place : Place} {p : Path}

/-- Whether all directories, at all depths, have their entries in order, each name once. -/
inductive Ordered : FileTree → Prop
  | leaf (content : ByteArray) : Ordered (file content)
  | node {entries : Fields FileTree} : entries.Ascending →
      (∀ entry ∈ entries, Ordered entry.2) → Ordered (directory entries)

/-- A tree as there can be one. -/
abbrev Regular (tree : FileTree) : Prop := tree.WellFormed ∧ tree.Ordered

theorem ordered_empty : empty.Ordered := .node List.Pairwise.nil (by simp)

mutual

/-- Whether all directories have their entries in order, looked at one by one. -/
def orderly : FileTree → Bool
  | file _ => true
  | directory entries => decide (Fields.Ascending entries) && allOrderly entries

/-- Whether entries are orderly, at all depths. -/
def allOrderly : List (String × FileTree) → Bool
  | [] => true
  | (_, entry) :: rest => entry.orderly && allOrderly rest

end

mutual

theorem ordered_of_orderly (tree : FileTree) (h : tree.orderly = true) : tree.Ordered := by
  cases tree with
  | file content => exact .leaf content
  | directory entries =>
    unfold orderly at h
    rw [Bool.and_eq_true, decide_eq_true_eq] at h
    exact .node h.1 (ordered_of_allOrderly entries h.2)

theorem ordered_of_allOrderly (entries : List (String × FileTree))
    (h : allOrderly entries = true) : ∀ entry ∈ entries, entry.2.Ordered := by
  cases entries with
  | nil => simp
  | cons first rest =>
    obtain ⟨name, tree⟩ := first
    unfold allOrderly at h
    rw [Bool.and_eq_true] at h
    intro entry hentry
    rcases List.mem_cons.mp hentry with rfl | hentry
    · exact ordered_of_orderly tree h.1
    · exact ordered_of_allOrderly rest h.2 entry hentry

end

/-! ### Looking

Trees in order are told apart by what stands at their places; without the order, two lists of the
same entries would be different trees. -/

theorem Ordered.entries (h : tree.Ordered) :
    Fields.Ascending tree.entries ∧ ∀ entry ∈ tree.entries, entry.2.Ordered := by
  cases h with
  | leaf content => exact ⟨List.Pairwise.nil, by simp [FileTree.entries]⟩
  | node hascending hentries => exact ⟨hascending, hentries⟩

theorem Ordered.entry {entries : Fields FileTree} (h : (directory entries).Ordered) {name : String}
    {entry : FileTree} (hentry : entries.get? name = some entry) : entry.Ordered :=
  h.entries.2 _ (Fields.mem_of_get? hentry)

/-- What stands in a tree in order is in order. -/
theorem Ordered.at? (h : tree.Ordered) {entry : FileTree} (hentry : tree.at? place = some entry) :
    entry.Ordered := by
  induction place generalizing tree with
  | nil =>
    cases hentry
    exact h
  | cons name rest ih =>
    obtain ⟨entries, rfl⟩ := eq_directory_of_at?_cons (Option.isSome_of_eq_some hentry)
    rw [at?_directory] at hentry
    obtain ⟨found, hfound, hbelow⟩ := Option.bind_eq_some_iff.mp hentry
    exact ih (h.entry hfound) hbelow

/-- Trees in order are equal if the same stands at each place. -/
theorem Ordered.ext (hfirst : first.Ordered) (hsecond : second.Ordered)
    (h : ∀ place, first.kind? place = second.kind? place) : first = second := by
  induction hfirst generalizing second with
  | leaf content => exact Option.some.inj (kind?_eq_file.mp (h []).symm).symm
  | @node entries hascending hentries ih =>
    obtain ⟨others, hothers⟩ := kind?_eq_directory.mp (h []).symm
    obtain rfl : second = directory others := Option.some.inj hothers
    refine congrArg directory (hascending.ext hsecond.entries.1 fun name => ?_)
    -- the entries of a name are there in both trees or in none, and then they show the same
    have hbelow : ∀ rest, ((entries.get? name).bind (·.at? rest)).map content? =
        ((Fields.get? others name).bind (·.at? rest)).map content? := by
      intro rest
      rw [← at?_directory, ← at?_directory]
      exact h (name :: rest)
    cases hentry : entries.get? name with
    | none =>
      have hroot := hbelow []
      rw [hentry] at hroot
      cases hother : Fields.get? others name with
      | none => rfl
      | some other =>
        rw [hother] at hroot
        cases hroot
    | some entry =>
      cases hother : Fields.get? others name with
      | none =>
        have hroot := hbelow []
        rw [hentry, hother] at hroot
        cases hroot
      | some other =>
        refine congrArg some ?_
        refine ih _ (Fields.mem_of_get? hentry) (hsecond.entry hother) fun rest => ?_
        have hrest := hbelow rest
        rwa [hentry, hother] at hrest

/-! ### Changing -/

theorem Ordered.set_entry {entries : Fields FileTree} (h : (directory entries).Ordered)
    (hnew : new.Ordered) (name : String) : (directory (entries.set name new)).Ordered := by
  refine .node (h.entries.1.set name new) fun entry hentry => ?_
  rcases Fields.mem_set hentry with rfl | hold
  · exact hnew
  · exact h.entries.2 entry hold

theorem Ordered.set (h : tree.Ordered) (hnew : new.Ordered) (place : Place) :
    (tree.set new place).Ordered := by
  induction place generalizing tree with
  | nil => exact hnew
  | cons name rest ih =>
    cases tree with
    | file content => exact h
    | directory entries =>
      rw [set_cons]
      refine h.set_entry (ih ?_) name
      cases hentry : Fields.get? entries name with
      | none => exact ordered_empty
      | some entry => exact h.entry hentry

theorem Ordered.erase (h : tree.Ordered) (place : Place) : (tree.erase place).Ordered := by
  induction place generalizing tree with
  | nil => exact ordered_empty
  | cons name rest ih =>
    cases tree with
    | file content =>
      cases rest with
      | nil => exact h
      | cons second rest => exact h
    | directory entries =>
      cases rest with
      | nil =>
        exact .node (Fields.Ascending.erase h.entries.1 name) fun entry hentry =>
          h.entries.2 entry (List.mem_filter.mp hentry).1
      | cons second rest =>
        cases hentry : Fields.get? entries name with
        | none =>
          simp only [FileTree.erase, hentry]
          exact h
        | some entry =>
          rw [erase_cons hentry (by simp)]
          exact h.set_entry (ih (h.entry hentry)) name

/-- The discipline of tasks that keep a tree in order. -/
def ordering : Discipline FileTree where
  holds := Ordered
  change _ _ := True
  refl _ := trivial
  trans _ _ := trivial

theorem Ordered.makeDirectory {after : FileTree} (h : tree.Ordered)
    (hrun : tree.makeDirectory p = .ok after) : after.Ordered := by
  unfold FileTree.makeDirectory at hrun
  split at hrun
  · cases hrun
  · cases hrun
  · split at hrun
    · cases hrun
    · cases hrun
      exact h.set ordered_empty _

theorem Ordered.write {after : FileTree} {content : ByteArray} (h : tree.Ordered)
    (hrun : tree.write p content = .ok after) : after.Ordered := by
  unfold FileTree.write at hrun
  split at hrun
  · cases hrun
  · cases hrun
  · split at hrun
    · cases hrun
    · split at hrun
      · cases hrun
      · cases hrun
        exact h.set (.leaf content) _

end FileTree

namespace FileTask

open FileTree (ordering)

variable {p : Path} {content : ByteArray}

theorem ordered_makeDirectory (p : Path) : ordering.Keeps (makeDirectory p) := by
  intro tree htree
  unfold makeDirectory
  cases hmake : tree.makeDirectory p with
  | ok after => exact ⟨⟨FileTree.Ordered.makeDirectory htree hmake, trivial⟩, trivial⟩
  | error e =>
    dsimp only
    cases tree.holdsDirectory p with
    | true => exact ⟨Discipline.allows_refl htree, trivial⟩
    | false => exact Discipline.allows_refl htree

theorem ordered_makeDirectories (p : Path) : ordering.Keeps (makeDirectories p) := by
  unfold makeDirectories
  split
  · exact Discipline.keeps_pure ()
  · exact keeps_makeChain fun q _ => ordered_makeDirectory q

theorem ordered_remove (p : Path) : ordering.Keeps (remove p) := by
  refine Discipline.keeps_of_allows fun tree htree => ⟨?_, trivial⟩
  unfold stateAfter remove
  cases tree.find p with
  | error e => exact htree
  | ok found =>
    obtain ⟨place, entry⟩ := found
    cases entry with
    | file content => exact htree
    | directory entries =>
      have hset : (tree.set .empty place).Ordered := htree.set FileTree.ordered_empty place
      dsimp only
      generalize p.steps.getLast? = last
      split
      · rename_i hrun
        split at hrun
        all_goals cases hrun
        · exact hset
        · exact htree.erase place
      · rename_i hrun
        split at hrun
        all_goals cases hrun
        all_goals exact hset

/-! ### Trees as there can be

Well-formed and in order is what a tree of files is. Both are kept by every task, so they can be
asked for at the start and used in the middle. -/

/-- The discipline of tasks that keep a tree as there can be one: well-formed and in order. -/
def regular : Discipline FileTree where
  holds := FileTree.Regular
  change _ _ := True
  refl _ := trivial
  trans _ _ := trivial

theorem regular_of {α : Type} {task : FileTask α} {out : Place} {made : Place → Prop}
    (hformed : (FileTree.within out made).Keeps task) (hordered : ordering.Keeps task) :
    regular.Keeps task :=
  Discipline.keeps_of_allows fun _ htree =>
    ⟨⟨(hformed.allows htree.1).1, (hordered.allows htree.2).1⟩, trivial⟩

theorem regular_makeDirectories (hp : p.isAbsolute = true) :
    regular.Keeps (makeDirectories p) :=
  regular_of (keeps_makeDirectories (permitted_anywhere [] hp)) (ordered_makeDirectories p)

theorem regular_write (p : Path) (content : ByteArray) : regular.Keeps (write p content) :=
  keeps_step fun _ _ htree hwrite =>
    ⟨⟨FileTree.wellFormed_write htree.1 hwrite, htree.2.write hwrite⟩, trivial⟩

theorem regular_remove (p : Path) : regular.Keeps (remove p) := by
  have hformed : (FileTree.within [] fun _ => True).Keeps (remove p) :=
    keeps_remove List.nil_prefix
  exact regular_of hformed (ordered_remove p)

theorem regular_copyWith {source goal : Path} (fuel : Nat) (hgoal : goal.isAbsolute = true) :
    regular.Keeps (copyWith fuel source goal) := by
  refine keeps_copyWith_of (d := regular) (P := fun goal => goal.isAbsolute = true)
    (fun _ htree => htree.1)
    (fun goal name hgoal _ => Path.isAbsolute_join hgoal)
    (fun goal hgoal => regular_makeDirectories hgoal)
    (fun goal name content _ _ => regular_write (goal.child name) content) hgoal

end FileTask

end StaticSite
