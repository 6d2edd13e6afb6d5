import StaticSite.FileTree.Action
import StaticSite.Proofs.Discipline
import StaticSite.Proofs.FileTree.Places
/-!
# StaticSite.Proofs.FileTree.Operations

What each operation on a tree changes. **A directory that is made and a file that is written change
one place** (`makeDirectory_ok`, `write_ok`); what is removed is gone with everything below it, and
nothing else is (`Emptied`). Trees are `WellFormed`, as every tree of files is.
-/

set_option autoImplicit false

namespace StaticSite.FileTree

variable {tree before after : FileTree} {place goal : Place} {p : Path}

/-- Whether all entries, at all depths, have names. -/
def HasNames (tree : FileTree) : Prop :=
  ∀ place, (tree.kind? place).isSome → ∀ name ∈ place, IsName name

/-- A tree as there can be one: it is a directory, and its entries have names. -/
structure WellFormed (tree : FileTree) : Prop where
  root : tree.kind? [] = some none
  names : tree.HasNames

theorem hasNames_file (content : ByteArray) : (file content).HasNames := by
  intro place hplace name hname
  cases place with
  | nil => cases hname
  | cons first rest => cases hplace

theorem hasNames_directory {entries : Fields FileTree}
    (h : ∀ entry ∈ entries, IsName entry.1 ∧ entry.2.HasNames) :
    (directory entries).HasNames := by
  intro place hplace name hname
  cases place with
  | nil => cases hname
  | cons first rest =>
    rw [isSome_kind?, at?_directory] at hplace
    obtain ⟨found, hfound⟩ := Option.isSome_iff_exists.mp hplace
    obtain ⟨entry, hentry, hbelow⟩ := Option.bind_eq_some_iff.mp hfound
    obtain ⟨hfirst, hnames⟩ := h _ (Fields.mem_of_get? hentry)
    rcases List.mem_cons.mp hname with rfl | hname
    · exact hfirst
    · refine hnames rest ?_ name hname
      rw [isSome_kind?]
      exact Option.isSome_of_eq_some hbelow

theorem wellFormed_directory {entries : Fields FileTree}
    (h : ∀ entry ∈ entries, IsName entry.1 ∧ entry.2.HasNames) :
    (directory entries).WellFormed :=
  ⟨rfl, hasNames_directory h⟩

mutual

/-- Whether all entries have names, looked at one by one. -/
def named : FileTree → Bool
  | file _ => true
  | directory entries => allNamed entries

/-- Whether entries have names, at all depths. -/
def allNamed : List (String × FileTree) → Bool
  | [] => true
  | (name, entry) :: rest => decide (IsName name) && entry.named && allNamed rest

end

mutual

theorem hasNames_of_named (tree : FileTree) (h : tree.named = true) : tree.HasNames := by
  cases tree with
  | file content => exact hasNames_file content
  | directory entries => exact hasNames_directory (hasNames_of_allNamed entries h)

theorem hasNames_of_allNamed (entries : List (String × FileTree)) (h : allNamed entries = true) :
    ∀ entry ∈ entries, IsName entry.1 ∧ entry.2.HasNames := by
  cases entries with
  | nil => simp
  | cons first rest =>
    obtain ⟨name, tree⟩ := first
    unfold allNamed at h
    simp only [Bool.and_eq_true, decide_eq_true_eq] at h
    intro entry hentry
    rcases List.mem_cons.mp hentry with rfl | hentry
    · exact ⟨h.1.1, hasNames_of_named tree h.1.2⟩
    · exact hasNames_of_allNamed rest h.2 entry hentry

end

theorem wellFormed_of_allNamed {entries : Fields FileTree} (h : allNamed entries = true) :
    (directory entries).WellFormed :=
  wellFormed_directory (hasNames_of_allNamed entries h)

/-- A tree stays well-formed if one place gets a new entry. -/
theorem wellFormed_of_kind? {new : Option ByteArray} (h : before.WellFormed)
    (hplace : place ≠ [] ∧ ∀ name ∈ place, IsName name)
    (hkind : ∀ goal, after.kind? goal = if goal = place then some new else before.kind? goal) :
    after.WellFormed where
  root := by rw [hkind, if_neg (Ne.symm hplace.1), h.root]
  names goal hgoal := by
    rw [hkind] at hgoal
    split at hgoal
    · rename_i heq
      exact heq ▸ hplace.2
    · exact h.names goal hgoal

/-! ### Where things are done

An operation that succeeds has walked through directories to its place. What it changes is then told
by `FileTree.kind?` at every place, which is all that is used of the operations from here on. -/

theorem walk_directory {steps : List String} (h : tree.walk place steps = .ok goal)
    (hplace : tree.kind? place = some none) : tree.kind? goal = some none := by
  induction steps generalizing place with
  | nil =>
    cases h
    exact hplace
  | cons step rest ih =>
    unfold walk at h
    split at h
    · rename_i next hnext
      refine ih h ?_
      unfold enter at hnext
      split at hnext
      · cases hnext
      · split at hnext
        · rename_i entries hat
          cases hnext
          exact kind?_eq_directory.mpr ⟨entries, hat⟩
        · cases hnext
        · cases hnext
    · cases h

/-- An entry that is named is in a directory that is there. -/
theorem target_entry {parent : Place} {name : String} (hroot : tree.kind? [] = some none)
    (h : tree.target p = .ok (.entry parent name)) :
    p.location = parent ++ [name] ∧ ∃ entries, tree.at? parent = some (directory entries) := by
  refine ⟨(target_location h).symm, ?_⟩
  unfold FileTree.target at h
  split at h
  · cases h
  · split at h
    · cases h
    · split at h
      · cases h
      · split at h
        · cases h
        · rename_i parent' hwalk
          split at h
          · cases h
          · split at h
            · cases h
            · cases h
              exact kind?_eq_directory.mp (walk_directory hwalk hroot)

theorem makeDirectory_ok (hroot : tree.kind? [] = some none)
    (h : tree.makeDirectory p = .ok after) :
    tree.kind? p.location = none ∧
      ∀ goal, after.kind? goal = if goal = p.location then some none else tree.kind? goal := by
  unfold makeDirectory at h
  split at h
  · cases h
  · cases h
  · rename_i parent name htarget
    obtain ⟨hlocation, entries, hparent⟩ := target_entry hroot htarget
    split at h
    · cases h
    · rename_i hnone
      cases h
      rw [hlocation]
      refine ⟨by rw [kind?, hnone]; rfl, fun goal => ?_⟩
      refine kind?_set_leaf hparent (fun old hold => ?_) rfl
      rw [hnone] at hold
      cases hold

theorem write_ok {content : ByteArray} (hroot : tree.kind? [] = some none)
    (h : tree.write p content = .ok after) :
    ∀ goal, after.kind? goal =
      if goal = p.location then some (some content) else tree.kind? goal := by
  unfold write at h
  split at h
  · cases h
  · cases h
  · rename_i parent name htarget
    obtain ⟨hlocation, entries, hparent⟩ := target_entry hroot htarget
    split at h
    · cases h
    · split at h
      · cases h
      · rename_i hold
        cases h
        rw [hlocation]
        intro goal
        refine kind?_set_leaf hparent (fun old hat => ?_) rfl
        cases old with
        | file content => rfl
        | directory entries => exact absurd hat (hold entries)

/-- What is left when the content of a directory, and maybe the directory, is removed. -/
structure Emptied (place : Place) (before after : FileTree) : Prop where
  directory : before.kind? place = some none
  outside : ∀ goal, ¬ place <+: goal → after.kind? goal = before.kind? goal
  below : ∀ name rest, after.kind? (place ++ name :: rest) = none
  place : ∀ content, after.kind? place ≠ some (some content)
  root : after.kind? [] = before.kind? []

/-- The files below the place are gone, and all others stay. -/
theorem Emptied.file_iff {content : ByteArray} (h : Emptied place before after) :
    after.kind? goal = some (some content) ↔
      before.kind? goal = some (some content) ∧ ¬ place <+: goal := by
  by_cases hunder : place <+: goal
  · obtain ⟨rest, rfl⟩ := hunder
    have hgone : after.kind? (place ++ rest) ≠ some (some content) := by
      cases rest with
      | nil =>
        rw [List.append_nil]
        exact h.place content
      | cons name rest => simp [h.below]
    simp [hgone]
  · simp [h.outside goal hunder, hunder]

theorem emptied_set {entries : Fields FileTree} (h : tree.at? place = some (.directory entries)) :
    Emptied place tree (tree.set empty place) := by
  have hplace : (tree.at? place).isSome := Option.isSome_of_eq_some h
  have hself : (tree.set empty place).at? place = some empty := by
    have happend : (tree.set empty place).at? (place ++ []) = some empty :=
      at?_set_append hplace []
    rwa [List.append_nil] at happend
  refine ⟨kind?_eq_directory.mpr ⟨entries, h⟩, fun goal => kind?_set_outside hplace, ?_, ?_, ?_⟩
  · intro name rest
    rw [kind?, at?_set_append hplace]
    rfl
  · intro content hcontent
    rw [kind?, hself] at hcontent
    cases hcontent
  · cases place with
    | nil =>
      cases h
      rfl
    | cons name rest => exact kind?_set_outside hplace (by simp)

theorem emptied_erase {entries : Fields FileTree}
    (h : tree.at? place = some (.directory entries)) : Emptied place tree (tree.erase place) := by
  have hplace : (tree.at? place).isSome := Option.isSome_of_eq_some h
  cases place with
  | nil => exact emptied_set h
  | cons first others =>
    have hnone : ∀ rest, (tree.erase (first :: others)).kind? (first :: others ++ rest) = none := by
      intro rest
      rw [kind?, at?_erase_append hplace (by simp)]
      rfl
    refine ⟨kind?_eq_directory.mpr ⟨entries, h⟩, fun goal => kind?_erase_outside hplace,
      fun name rest => hnone (name :: rest), ?_, kind?_erase_outside hplace (by simp)⟩
    intro content hcontent
    have hself := hnone []
    rw [List.append_nil, hcontent] at hself
    cases hself

theorem emptied_remove {entries : Fields FileTree}
    (h : tree.find p = .ok (place, .directory entries)) :
    Emptied p.location tree (stateAfter (FileTask.remove p) tree) := by
  obtain ⟨rfl, hat⟩ := find_location h
  unfold stateAfter FileTask.remove
  rw [h]
  dsimp only
  generalize p.steps.getLast? = last
  split
  · rename_i hrun
    split at hrun
    all_goals cases hrun
    · exact emptied_set hat
    · exact emptied_erase hat
  · rename_i hrun
    split at hrun
    all_goals cases hrun
    all_goals exact emptied_set hat

/-- Only a directory is removed. -/
theorem emptied_remove_or (p : Path) (tree : FileTree) :
    stateAfter (FileTask.remove p) tree = tree ∨
      Emptied p.location tree (stateAfter (FileTask.remove p) tree) := by
  cases hfind : tree.find p with
  | error e =>
    left
    unfold stateAfter FileTask.remove
    rw [hfind]
  | ok found =>
    obtain ⟨place, entry⟩ := found
    cases entry with
    | file content =>
      left
      unfold stateAfter FileTask.remove
      rw [hfind]
    | directory entries => exact .inr (emptied_remove hfind)

end StaticSite.FileTree
