import StaticSite.FileTree.Walk
import StaticSite.Proofs.Text.Split
/-!
# StaticSite.Proofs.Path.Location

**Where a path leads.** `Path.location` follows the steps of a path from the root, without a look at
any tree. A walk through a tree that succeeds ends there (`FileTree.find_location`), and so do the
components of the path, taken one after the other (`Path.location_resolve`).
-/

set_option autoImplicit false

namespace StaticSite

/-- The names that an entry of a directory can have. -/
def IsName (name : String) : Prop :=
  name ≠ "" ∧ name ≠ "." ∧ name ≠ ".." ∧ '/' ∉ name.toList

instance : DecidablePred IsName := fun _ => inferInstanceAs (Decidable (_ ∧ _))

/-- The place to which steps lead from another. -/
def FileTree.follow (place : Place) (steps : List String) : Place := steps.foldl stepTo place

/-- The place to which the steps of a path lead from the root. -/
def Path.location (p : Path) : Place := FileTree.follow [] p.steps

namespace FileTree

variable {tree : FileTree} {place : Place} {p : Path}

theorem follow_append (place : Place) (first second : List String) :
    follow place (first ++ second) = follow (follow place first) second :=
  List.foldl_append

theorem follow_cons (place : Place) (step : String) (rest : List String) :
    follow place (step :: rest) = follow (stepTo place step) rest := rfl

theorem stepTo_name {name : String} (h : IsName name) (place : Place) :
    stepTo place name = place ++ [name] := by
  unfold stepTo
  rw [if_neg h.2.1, if_neg h.2.2.1]

theorem follow_names {names : List String} (h : ∀ name ∈ names, IsName name) (place : Place) :
    follow place names = place ++ names := by
  induction names generalizing place with
  | nil => exact (List.append_nil place).symm
  | cons name rest ih =>
    rw [follow_cons, stepTo_name (h name List.mem_cons_self),
      ih (fun n hn => h n (List.mem_cons_of_mem _ hn)), List.append_assoc, List.singleton_append]

/-- An entry is at another place than everything above it. -/
theorem child_ne_above {parent : Place} (h : parent <+: place) (name : String) :
    place ++ [name] ≠ parent := by
  intro heq
  have hlength := h.length_le
  rw [← heq, List.length_append, List.length_singleton] at hlength
  omega

theorem child_not_above (place : Place) (name : String) : ¬ place ++ [name] <+: place :=
  fun hunder => child_ne_above List.prefix_rfl name (hunder.eq_of_length_le (by simp))

/-- A walk that succeeds ends where its steps lead. -/
theorem walk_eq_follow {steps : List String} {goal : Place}
    (h : tree.walk place steps = .ok goal) : goal = follow place steps := by
  induction steps generalizing place with
  | nil =>
    cases h
    rfl
  | cons step rest ih =>
    unfold walk at h
    split at h
    · rename_i next hnext
      have hstep : next = stepTo place step := by
        unfold enter at hnext
        split at hnext
        · cases hnext
        · split at hnext
          · cases hnext
            rfl
          · cases hnext
          · cases hnext
      rw [ih h, hstep]
      rfl
    · cases h

/-- A path names the place to which its steps lead. -/
theorem target_location {target : Target} (h : tree.target p = .ok target) :
    target.place = p.location := by
  unfold FileTree.target at h
  split at h
  · cases h
  · split at h
    · cases h
    · split at h
      · rename_i hlast
        cases h
        rw [List.getLast?_eq_none_iff] at hlast
        unfold Path.location Target.place
        rw [hlast]
        rfl
      · rename_i last hlast
        -- the walk goes to the parent, and the last step is taken from there
        have hsteps : p.steps = p.steps.dropLast ++ [last] := by
          obtain ⟨front, hfront⟩ := List.getLast?_eq_some_iff.mp hlast
          rw [hfront, List.dropLast_concat]
        split at h
        · cases h
        · rename_i parent hwalk
          have hlocation : p.location = stepTo parent last := by
            unfold Path.location
            rw [hsteps, follow_append, ← walk_eq_follow hwalk]
            rfl
          rw [hlocation]
          split at h
          · cases h
            rfl
          · rename_i hplain
            rw [not_or] at hplain
            split at h
            · cases h
            · cases h
              unfold stepTo Target.place
              rw [if_neg hplain.1, if_neg hplain.2]

theorem find_location {entry : FileTree} (h : tree.find p = .ok (place, entry)) :
    place = p.location ∧ tree.at? p.location = some entry := by
  unfold find at h
  split at h
  · cases h
  · rename_i target htarget
    rw [target_location htarget] at h
    split at h
    · cases h
    · rename_i content hat
      split at h
      · cases h
      · cases h
        exact ⟨rfl, hat⟩
    · rename_i entries hat
      cases h
      exact ⟨rfl, hat⟩

end FileTree

namespace Path

open FileTree (follow follow_append stepTo)

variable {p q : Path}

/-! ### Steps

The steps of a path are its pieces between slashes, the empty ones left out. To join a relative path
to another is to append its steps, with or without a slash at the end of the first. -/

theorem isAbsolute_iff : p.isAbsolute = true ↔ ∃ s, p.chars = '/' :: s := by
  unfold isAbsolute
  cases p.chars with
  | nil => simp
  | cons c s => simp

/-- The steps of pieces: those that are not empty. -/
def stepsOf (pieces : List (List Char)) : List String :=
  (pieces.filter (!·.isEmpty)).map String.ofList

theorem stepsOf_append (first second : List (List Char)) :
    stepsOf (first ++ second) = stepsOf first ++ stepsOf second := by
  unfold stepsOf
  rw [List.filter_append, List.map_append]

theorem steps_append_slash (s t : List Char) :
    steps ⟨s ++ '/' :: t⟩ = steps ⟨s⟩ ++ steps ⟨t⟩ := by
  change stepsOf (pieces _) = stepsOf (pieces _) ++ stepsOf (pieces _)
  unfold pieces
  rw [Text.splitAtEach_append_cons (by rfl), stepsOf_append]

theorem steps_slash (s : List Char) : steps ⟨'/' :: s⟩ = steps ⟨s⟩ :=
  steps_append_slash [] s

/-- A step is not empty and holds no slash. -/
theorem of_mem_steps {step : String} (h : step ∈ p.steps) :
    step ≠ "" ∧ '/' ∉ step.toList := by
  obtain ⟨piece, hpiece, rfl⟩ := List.mem_map.mp h
  obtain ⟨hpiece, hne⟩ := List.mem_filter.mp hpiece
  refine ⟨fun hempty => ?_, fun hslash => ?_⟩
  · rw [String.ofList_eq_empty_iff] at hempty
    rw [hempty] at hne
    cases hne
  · rw [String.toList_ofList] at hslash
    cases Text.not_separator_of_mem_splitAtEach hpiece hslash

theorem pieces_of_slash_not_mem {s : List Char} (h : '/' ∉ s) : pieces s = [s] := by
  refine Text.splitAtEach_eq_singleton fun c hc => ?_
  have hne : c ≠ '/' := fun heq => h (heq ▸ hc)
  simpa using hne

theorem steps_eq_singleton {s : List Char} (hs : s ≠ []) (hslash : '/' ∉ s) :
    steps ⟨s⟩ = [String.ofList s] := by
  unfold steps
  rw [pieces_of_slash_not_mem hslash]
  cases s with
  | nil => exact absurd rfl hs
  | cons c s => rfl

/-- The steps of a path seen from another come after the steps of that other. -/
theorem steps_join (h : q.isAbsolute = false) : (p.join q).steps = p.steps ++ q.steps := by
  unfold join
  rw [if_neg (by simp [h])]
  split
  · rename_i hend
    rcases hend with hempty | hslash
    · rw [hempty]
      have hp : p.steps = [] := by
        unfold steps
        rw [hempty]
        rfl
      rw [hp]
      rfl
    · obtain ⟨s, hs⟩ := List.getLast?_eq_some_iff.mp hslash
      have hp : p.steps = steps ⟨s⟩ := by
        have happend := steps_append_slash s []
        rw [show steps ⟨[]⟩ = [] from rfl, List.append_nil] at happend
        rw [← happend, ← hs]
      rw [hp, hs, List.append_assoc, List.singleton_append, steps_append_slash]
  · rw [steps_append_slash]

theorem location_join (h : q.isAbsolute = false) :
    (p.join q).location = follow p.location q.steps := by
  unfold location
  rw [steps_join h, follow_append]

theorem isAbsolute_join (h : p.isAbsolute = true) : (p.join q).isAbsolute = true := by
  obtain ⟨s, hs⟩ := isAbsolute_iff.mp h
  unfold join
  split
  · assumption
  · split
    · rw [isAbsolute_iff, hs]
      exact ⟨s ++ q.chars, rfl⟩
    · rw [isAbsolute_iff, hs]
      exact ⟨s ++ '/' :: q.chars, rfl⟩

theorem isAbsolute_resolve {base : Path} (h : base.isAbsolute = true) (p : Path) :
    (base.resolve p).isAbsolute = true := by
  unfold resolve
  split
  · assumption
  · exact isAbsolute_join h

theorem isAbsolute_ofString_name {name : String} (h : IsName name) :
    (ofString name).isAbsolute = false := by
  cases habsolute : (ofString name).isAbsolute with
  | false => rfl
  | true =>
    obtain ⟨s, hs⟩ := isAbsolute_iff.mp habsolute
    refine absurd ?_ h.2.2.2
    rw [show name.toList = '/' :: s from hs]
    exact List.mem_cons_self

theorem steps_child {name : String} (h : IsName name) :
    (p.child name).steps = p.steps ++ [name] := by
  have hne : name.toList ≠ [] := fun hnil => h.1 (String.toList_eq_nil_iff.mp hnil)
  have hname : (ofString name).steps = [name] := by
    rw [ofString, steps_eq_singleton hne h.2.2.2, String.ofList_toList]
  unfold child
  rw [steps_join (isAbsolute_ofString_name h), hname]

theorem location_child {name : String} (h : IsName name) :
    (p.child name).location = p.location ++ [name] := by
  unfold location
  rw [steps_child h, follow_append]
  exact FileTree.stepTo_name h _

/-! ### Names on the way -/

theorem isName_of_mem_follow {place : Place} {steps : List String}
    (hplace : ∀ name ∈ place, IsName name)
    (hsteps : ∀ step ∈ steps, step ≠ "" ∧ '/' ∉ step.toList) :
    ∀ name ∈ follow place steps, IsName name := by
  induction steps generalizing place with
  | nil => exact hplace
  | cons step rest ih =>
    refine ih ?_ fun s hs => hsteps s (List.mem_cons_of_mem _ hs)
    obtain ⟨hne, hslash⟩ := hsteps step List.mem_cons_self
    intro name hname
    unfold stepTo at hname
    split at hname
    · exact hplace name hname
    · rename_i hdot
      split at hname
      · exact hplace name ((List.dropLast_prefix place).subset hname)
      · rename_i hdots
        rcases List.mem_append.mp hname with hname | hname
        · exact hplace name hname
        · rw [List.mem_singleton.mp hname]
          exact ⟨hne, hdot, hdots, hslash⟩

theorem isName_of_mem_location {name : String} (h : name ∈ p.location) : IsName name :=
  isName_of_mem_follow (by simp) (fun _ hstep => of_mem_steps hstep) name h

/-! ### Components

Components and steps are two readings of a path: components leave points out and know `..` apart
from names. They lead to the same place, piece by piece. -/

theorem ofPiece?_toList {name : String} (h : IsName name) :
    Component.ofPiece? name.toList = some (.normal name) := by
  obtain ⟨hne, hdot, hdots, -⟩ := h
  have toList_ne : ∀ {s : List Char}, name ≠ String.ofList s → name.toList ≠ s := by
    intro s hs heq
    exact hs (by rw [← heq, String.ofList_toList])
  unfold Component.ofPiece?
  rw [if_neg (not_or.mpr ⟨toList_ne hne, toList_ne hdot⟩), if_neg (toList_ne hdots),
    String.ofList_toList]

/-- The place to which a component leads from another. -/
def enter (place : Place) : Component → Place
  | .root => []
  | .current => place
  | .parent => place.dropLast
  | .normal name => place ++ [name]

/-- The step of a piece leads where its component does. -/
theorem follow_piece (place : Place) (piece : List Char) :
    follow place (stepsOf [piece]) = (Component.ofPiece? piece).elim place (enter place) := by
  unfold Component.ofPiece?
  split
  · rename_i hsilent
    rcases hsilent with rfl | rfl
    · rfl
    · rfl
  · rename_i hsilent
    rw [not_or] at hsilent
    have hsteps : stepsOf [piece] = [String.ofList piece] := by
      cases piece with
      | nil => exact absurd rfl hsilent.1
      | cons c s => rfl
    rw [hsteps]
    split
    · rename_i hdots
      rw [hdots]
      rfl
    · rename_i hdots
      have hne : ∀ {s : List Char}, piece ≠ s → String.ofList piece ≠ String.ofList s := by
        intro s hs heq
        exact hs (String.ofList_injective heq)
      rw [FileTree.follow_cons, stepTo, if_neg (hne hsilent.2), if_neg (hne hdots)]
      rfl

theorem follow_stepsOf (place : Place) (pieces : List (List Char)) :
    follow place (stepsOf pieces) = (pieces.filterMap Component.ofPiece?).foldl enter place := by
  induction pieces generalizing place with
  | nil => rfl
  | cons piece rest ih =>
    change follow place (stepsOf ([piece] ++ rest)) = _
    rw [stepsOf_append, follow_append, follow_piece, ih, List.filterMap_cons]
    cases Component.ofPiece? piece with
    | none => rfl
    | some c => rfl

/-- The components that a path names after its start. -/
def parts (p : Path) : List Component := (pieces p.chars).filterMap Component.ofPiece?

/-- How the components of a path start. -/
def start : Bool → List Component
  | true => [.root]
  | false => []

/-- A path names its parts after its start. A point is a component only where a relative path
starts with it. -/
theorem components_eq (p : Path) :
    p.components = start p.isAbsolute ++ p.parts ∨
      p.isAbsolute = false ∧ (∃ rest, pieces p.chars = ['.'] :: rest) ∧
        p.components = .current :: p.parts := by
  cases habsolute : p.isAbsolute with
  | true =>
    obtain ⟨s, hs⟩ := isAbsolute_iff.mp habsolute
    left
    unfold components parts
    rw [hs]
    rfl
  | false =>
    unfold components parts
    split
    · rename_i s hs
      rw [isAbsolute_iff.mpr ⟨s, hs⟩] at habsolute
      cases habsolute
    · split
      · rename_i rest hpoint
        right
        exact ⟨rfl, ⟨rest, hpoint⟩, by rw [hpoint]; rfl⟩
      · left
        rfl

/-- The components of a path lead where its steps do. -/
theorem location_resolve (base p : Path) :
    (base.resolve p).location = p.components.foldl enter base.location := by
  have hsteps : ∀ place, follow place p.steps = p.parts.foldl enter place :=
    fun place => follow_stepsOf place (pieces p.chars)
  unfold resolve
  rcases p.components_eq with heq | ⟨hrelative, -, heq⟩
  · rw [heq, List.foldl_append, ← hsteps]
    cases h : p.isAbsolute with
    | true => rfl
    | false => exact location_join h
  · rw [heq, hrelative, List.foldl_cons, ← hsteps]
    exact location_join hrelative

end Path

end StaticSite
