import StaticSite.FileTree.Basic
import StaticSite.Proofs.Fields
import StaticSite.Proofs.Path.Location
/-!
# StaticSite.Proofs.FileTree.Places

A tree, seen as what stands at each place (`FileTree.kind?`). **A change below one place is seen at
no place outside of it** (`kind?_set_outside`, `kind?_erase_outside`); where a file or an
empty directory is put, nothing changes but the place itself (`kind?_set_leaf`).
-/

set_option autoImplicit false

namespace StaticSite.FileTree

variable {tree new : FileTree} {place goal : Place} {name : String}

/-- The content of a file. A directory has none. -/
def content? : FileTree → Option ByteArray
  | file content => some content
  | directory _ => none

/-- What stands at a place, apart from the entries of a directory: the content of a file, or `none`
for a directory. -/
def kind? (tree : FileTree) (place : Place) : Option (Option ByteArray) :=
  (tree.at? place).map content?

/-! ### Looking

A place is a list of names, so what stands there is found by going through entries. `FileTree.Has`
is the same as an inductive, for proofs that go down the tree along a place. -/

theorem at?_cons (tree : FileTree) (name : String) (rest : Place) :
    tree.at? (name :: rest) = (tree.entries.get? name).bind (·.at? rest) := by
  cases hentry : tree.entries.get? name with
  | none => simp only [at?, hentry, Option.bind_none]
  | some entry => simp only [at?, hentry, Option.bind_some]

theorem at?_directory (entries : Fields FileTree) (name : String) (rest : Place) :
    (directory entries).at? (name :: rest) = (entries.get? name).bind (·.at? rest) :=
  at?_cons ..

theorem at?_append (tree : FileTree) (place rest : Place) :
    tree.at? (place ++ rest) = (tree.at? place).bind (·.at? rest) := by
  induction place generalizing tree with
  | nil => rfl
  | cons name place ih =>
    rw [List.cons_append, at?_cons, at?_cons]
    cases tree.entries.get? name with
    | none => rfl
    | some entry => exact ih entry

theorem at?_cons_of_no_entries (h : tree.entries = []) (name : String) (rest : Place) :
    tree.at? (name :: rest) = none := by
  rw [at?_cons, h]
  rfl

theorem isSome_kind? : (tree.kind? place).isSome = (tree.at? place).isSome := Option.isSome_map

theorem kind?_eq_file {content : ByteArray} :
    tree.kind? place = some (some content) ↔ tree.at? place = some (file content) := by
  unfold kind?
  cases tree.at? place with
  | none => simp
  | some entry =>
    cases entry with
    | file other => simp [content?]
    | directory entries => simp [content?]

theorem kind?_append_eq_file {entries : Fields FileTree} {name : String} {content : ByteArray}
    (h : tree.at? place = some (directory entries)) :
    tree.kind? (place ++ [name]) = some (some content) ↔
      entries.get? name = some (file content) := by
  rw [kind?_eq_file, at?_append, h, Option.bind_some, at?_directory]
  cases entries.get? name with
  | none => simp
  | some entry => simp [at?]

/-- An entry stands in a directory. -/
theorem kind?_eq_directory :
    tree.kind? place = some none ↔ ∃ entries, tree.at? place = some (directory entries) := by
  unfold kind?
  cases tree.at? place with
  | none => simp
  | some entry =>
    cases entry with
    | file other => simp [content?]
    | directory entries => simp [content?]

theorem eq_directory_of_at?_cons {rest : Place} (h : (tree.at? (name :: rest)).isSome) :
    ∃ entries, tree = directory entries := by
  cases tree with
  | directory entries => exact ⟨entries, rfl⟩
  | file content =>
    rw [at?_cons_of_no_entries (by rfl)] at h
    cases h

theorem at?_parent {rest : Place} (h : (tree.at? (place ++ name :: rest)).isSome) :
    ∃ entries, tree.at? place = some (directory entries) := by
  rw [at?_append] at h
  obtain ⟨found, hfound⟩ := Option.isSome_iff_exists.mp h
  obtain ⟨entry, hentry, hbelow⟩ := Option.bind_eq_some_iff.mp hfound
  obtain ⟨entries, rfl⟩ := eq_directory_of_at?_cons (Option.isSome_of_eq_some hbelow)
  exact ⟨entries, hentry⟩

/-- Only a directory has something below it. -/
theorem kind?_parent {rest : Place} (h : (tree.kind? (place ++ name :: rest)).isSome) :
    tree.kind? place = some none := by
  rw [isSome_kind?] at h
  exact kind?_eq_directory.mpr (at?_parent h)

/-- The places of a tree, one step after the other. -/
inductive Has : FileTree → Place → Prop
  | root (tree : FileTree) : Has tree []
  | step {entries : Fields FileTree} {name : String} {entry : FileTree} {rest : Place} :
      entries.get? name = some entry → Has entry rest → Has (directory entries) (name :: rest)

theorem has_of_isSome (h : (tree.at? place).isSome) : tree.Has place := by
  induction place generalizing tree with
  | nil => exact .root tree
  | cons name rest ih =>
    obtain ⟨entries, rfl⟩ := eq_directory_of_at?_cons h
    rw [at?_directory] at h
    obtain ⟨found, hfound⟩ := Option.isSome_iff_exists.mp h
    obtain ⟨entry, hentry, hbelow⟩ := Option.bind_eq_some_iff.mp hfound
    exact .step hentry (ih (Option.isSome_of_eq_some hbelow))

/-! ### Putting something at a place -/

theorem set_cons (entries : Fields FileTree) (new : FileTree) (name : String) (rest : Place) :
    (directory entries).set new (name :: rest) =
      directory (Fields.set entries name (((Fields.get? entries name).getD empty).set new rest)) :=
  rfl

theorem at?_set_append (h : (tree.at? place).isSome) (rest : Place) :
    (tree.set new place).at? (place ++ rest) = new.at? rest := by
  induction has_of_isSome h with
  | root tree => rfl
  | @step entries name entry place hentry hplace ih =>
    rw [at?_directory, hentry] at h
    rw [set_cons, List.cons_append, at?_directory, Fields.get?_set, if_pos rfl, hentry]
    exact ih h

theorem kind?_set_outside (h : (tree.at? place).isSome) (hgoal : ¬ place <+: goal) :
    (tree.set new place).kind? goal = tree.kind? goal := by
  induction has_of_isSome h generalizing goal with
  | root tree => exact absurd List.nil_prefix hgoal
  | @step entries name entry place hentry hplace ih =>
    rw [at?_directory, hentry] at h
    rw [set_cons, hentry]
    cases goal with
    | nil => rfl
    | cons first goal =>
      unfold kind?
      rw [at?_directory, at?_directory, Fields.get?_set]
      split
      · rename_i hfirst
        subst hfirst
        rw [hentry]
        refine ih h fun hunder => hgoal ?_
        exact (List.prefix_cons_inj name).mpr hunder
      · rfl

/-- To put something in a directory is to put a directory with one entry changed. -/
theorem set_child {entries : Fields FileTree} (h : tree.at? place = some (directory entries))
    (name : String) (new : FileTree) :
    tree.set new (place ++ [name]) = tree.set (directory (entries.set name new)) place := by
  induction has_of_isSome (Option.isSome_of_eq_some h) with
  | root tree =>
    cases h
    rfl
  | @step others first entry place hentry hplace ih =>
    rw [at?_directory, hentry] at h
    rw [List.cons_append, set_cons, set_cons, hentry]
    exact congrArg (fun changed => directory (Fields.set others first changed)) (ih h)

/-! ### Taking something away

Putting and erasing both come down to one directory whose list of entries changes; what is seen
outside of the place does not depend on how (`kind?_set_directory`). -/

theorem erase_cons {entries : Fields FileTree} {entry : FileTree} {rest : Place}
    (hentry : entries.get? name = some entry) (hrest : rest ≠ []) :
    (directory entries).erase (name :: rest) =
      directory (entries.set name (entry.erase rest)) := by
  cases rest with
  | nil => exact absurd rfl hrest
  | cons second rest => simp only [erase, hentry]

/-- To take something out of a directory is to put the directory without one entry. -/
theorem erase_child {entries : Fields FileTree} (h : tree.at? place = some (directory entries))
    (name : String) :
    tree.erase (place ++ [name]) = tree.set (directory (entries.erase name)) place := by
  induction has_of_isSome (Option.isSome_of_eq_some h) with
  | root tree =>
    cases h
    rfl
  | @step others first entry place hentry hplace ih =>
    rw [at?_directory, hentry] at h
    rw [List.cons_append, erase_cons hentry (by simp), set_cons, hentry]
    exact congrArg (fun changed => directory (Fields.set others first changed)) (ih h)

/-- A directory in which one entry changes shows the same at all other places. -/
theorem kind?_set_directory {entries changed : Fields FileTree}
    (h : tree.at? place = some (directory entries))
    (hothers : ∀ other, other ≠ name → changed.get? other = entries.get? other)
    (hgoal : ¬ place ++ [name] <+: goal) :
    (tree.set (directory changed) place).kind? goal = tree.kind? goal := by
  have hplace : (tree.at? place).isSome := Option.isSome_of_eq_some h
  by_cases hunder : place <+: goal
  · obtain ⟨rest, rfl⟩ := hunder
    unfold kind?
    rw [at?_set_append hplace, at?_append, h, Option.bind_some]
    cases rest with
    | nil => rfl
    | cons other rest =>
      -- the goal is below an entry of the same directory, and not below the changed one
      have hother : other ≠ name := by
        intro heq
        apply hgoal
        rw [heq, List.prefix_append_right_inj]
        exact ⟨rest, rfl⟩
      rw [at?_directory, at?_directory, hothers other hother]
  · exact kind?_set_outside hplace hunder

theorem eq_nil_or_child (place : Place) :
    place = [] ∨ ∃ parent name, place = parent ++ [name] := by
  simpa using List.eq_nil_or_concat place

theorem kind?_erase_outside (h : (tree.at? place).isSome) (hgoal : ¬ place <+: goal) :
    (tree.erase place).kind? goal = tree.kind? goal := by
  rcases eq_nil_or_child place with rfl | ⟨parent, name, rfl⟩
  · exact absurd List.nil_prefix hgoal
  obtain ⟨entries, hparent⟩ := at?_parent h
  rw [erase_child hparent]
  refine kind?_set_directory hparent (fun other hother => ?_) hgoal
  rw [Fields.get?_erase, if_neg (Ne.symm hother)]

theorem at?_erase_append (h : (tree.at? place).isSome) (hplace : place ≠ []) (rest : Place) :
    (tree.erase place).at? (place ++ rest) = none := by
  obtain ⟨parent, last, rfl⟩ := (eq_nil_or_child place).resolve_left hplace
  obtain ⟨entries, hparent⟩ := at?_parent h
  rw [erase_child hparent, List.append_assoc, at?_set_append (Option.isSome_of_eq_some hparent),
    List.singleton_append, at?_directory, Fields.get?_erase, if_pos rfl]
  rfl

/-- Where nothing has entries before or after, putting something changes its own place only. -/
theorem kind?_set_leaf {entries : Fields FileTree}
    (h : tree.at? place = some (directory entries))
    (hold : ∀ old, tree.at? (place ++ [name]) = some old → old.entries = [])
    (hnew : new.entries = []) :
    (tree.set new (place ++ [name])).kind? goal =
      if goal = place ++ [name] then some new.content? else tree.kind? goal := by
  rw [set_child h]
  by_cases hgoal : place ++ [name] <+: goal
  · obtain ⟨rest, rfl⟩ := hgoal
    unfold kind?
    rw [List.append_assoc, at?_set_append (Option.isSome_of_eq_some h)]
    rw [List.singleton_append, at?_directory, Fields.get?_set, if_pos rfl, Option.bind_some]
    cases rest with
    | nil =>
      rw [if_pos rfl]
      rfl
    | cons second rest =>
      -- neither the old entry nor the new one has anything below it
      have hbefore : tree.at? (place ++ name :: second :: rest) = none := by
        rw [List.append_cons, at?_append]
        cases hentry : tree.at? (place ++ [name]) with
        | none => rfl
        | some old => exact at?_cons_of_no_entries (hold old hentry) second rest
      rw [at?_cons_of_no_entries hnew, hbefore, if_neg (by simp)]
  · have hne : goal ≠ place ++ [name] := fun heq => hgoal (heq ▸ List.prefix_rfl)
    rw [if_neg hne]
    refine kind?_set_directory h (fun other hother => ?_) hgoal
    rw [Fields.get?_set, if_neg (Ne.symm hother)]

end StaticSite.FileTree
