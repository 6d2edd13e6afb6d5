import StaticSite.Proofs.FileTree.Writing
/-!
# StaticSite.Proofs.FileTree.Reach

**Which paths lead to a directory**: those that can be used at all and pass directories only
(`FileTree.holdsDirectory_iff`). A path that has been made leads to a directory from then on
(`FileTask.holdsDirectory_makeDirectories`), and what is done to an entry of a directory that a path
leads to is told by the name of the entry and what stands at its place.
-/

set_option autoImplicit false

namespace StaticSite

/-- Whether a path can be used in a tree at all. -/
structure Path.Usable (p : Path) : Prop where
  nul : p.containsNul = false
  length : p.isTooLong = false
  steps : ∀ step ∈ p.steps, step.utf8ByteSize ≤ maxNameBytes

namespace FileTree

variable {tree : FileTree} {place goal : Place} {p : Path} {name : String}

/-! ### Walking

A walk takes the steps of a path one by one and looks where it is after each. `walk_eq_ok_iff` says
this of all steps at once, and everything about paths is read off it. -/

theorem enter_eq_ok_iff {step : String} :
    tree.enter place step = .ok goal ↔
      step.utf8ByteSize ≤ maxNameBytes ∧ goal = stepTo place step ∧
        tree.kind? (stepTo place step) = some none := by
  unfold enter
  split
  · rename_i hlong
    simp [Nat.not_le.mpr hlong]
  · rename_i hshort
    have hsize : step.utf8ByteSize ≤ maxNameBytes := Nat.not_lt.mp hshort
    cases hat : tree.at? (stepTo place step) with
    | none => simp [kind?, hat]
    | some entry =>
      cases entry with
      | file content => simp [kind?, hat, content?]
      | directory entries => simp [kind?, hat, content?, hsize, eq_comm]

/-- A walk succeeds if its steps are names that can be used and lead through directories. -/
theorem walk_eq_ok_iff {steps : List String} (hplace : tree.kind? place = some none) :
    tree.walk place steps = .ok goal ↔
      goal = follow place steps ∧ (∀ step ∈ steps, step.utf8ByteSize ≤ maxNameBytes) ∧
        ∀ taken, taken <+: steps → tree.kind? (follow place taken) = some none := by
  -- on the steps, from any directory: what has been taken so far is the place itself
  induction steps generalizing place with
  | nil =>
    constructor
    · intro h
      cases h
      refine ⟨rfl, by simp, fun taken htaken => ?_⟩
      rwa [List.prefix_nil.mp htaken]
    · rintro ⟨rfl, -⟩
      rfl
  | cons step rest ih =>
    have hwalk : tree.walk place (step :: rest) = .ok goal ↔
        ∃ next, tree.enter place step = .ok next ∧ tree.walk next rest = .ok goal := by
      rw [walk]
      cases tree.enter place step with
      | ok next => simp
      | error e => simp
    rw [hwalk]
    constructor
    · rintro ⟨next, hnext, hrest⟩
      obtain ⟨hshort, rfl, hdirectory⟩ := enter_eq_ok_iff.mp hnext
      obtain ⟨hgoal, hsteps, htakens⟩ := (ih hdirectory).mp hrest
      refine ⟨hgoal, List.forall_mem_cons.mpr ⟨hshort, hsteps⟩, fun taken htaken => ?_⟩
      rcases List.prefix_cons_iff.mp htaken with rfl | ⟨more, rfl, hmore⟩
      · exact hplace
      · exact htakens more hmore
    · rintro ⟨hgoal, hsteps, htakens⟩
      obtain ⟨hshort, hsteps⟩ := List.forall_mem_cons.mp hsteps
      have hdirectory : tree.kind? (stepTo place step) = some none :=
        htakens [step] (by simp)
      refine ⟨stepTo place step, enter_eq_ok_iff.mpr ⟨hshort, rfl, hdirectory⟩, ?_⟩
      exact (ih hdirectory).mpr ⟨hgoal, hsteps, fun taken htaken =>
        htakens (step :: taken) ((List.prefix_cons_inj step).mpr htaken)⟩

/-- What a path that has a last step names is found in the directory to which the others lead. -/
theorem target_concat {front : List String} {last : String} (h : p.steps = front ++ [last]) :
    tree.target p =
      if p.containsNul then .error .nulInName
      else if p.isTooLong then .error .nameTooLong
      else
        match tree.walk [] front with
        | .error e => .error e
        | .ok parent =>
          if last = "." ∨ last = ".." then .ok (.present (stepTo parent last))
          else if maxNameBytes < last.utf8ByteSize then .error .nameTooLong
          else .ok (.entry parent last) := by
  unfold FileTree.target
  cases hwalk : tree.walk [] front with
  | error e => simp only [h, List.getLast?_concat, List.dropLast_concat, hwalk]
  | ok parent => simp only [h, List.getLast?_concat, List.dropLast_concat, hwalk]

theorem exists_target_concat_iff {front : List String} {last : String}
    (h : p.steps = front ++ [last]) :
    (∃ target, tree.target p = .ok target) ↔
      p.containsNul = false ∧ p.isTooLong = false ∧ last.utf8ByteSize ≤ maxNameBytes ∧
        ∃ parent, tree.walk [] front = .ok parent := by
  -- points are short enough to be names, so that the limit may be asked of every last step
  have hpoints : last = "." ∨ last = ".." → last.utf8ByteSize ≤ maxNameBytes := by
    rintro (rfl | rfl)
    · decide
    · decide
  rw [target_concat h]
  cases p.containsNul with
  | true => simp
  | false =>
    cases p.isTooLong with
    | true => simp
    | false =>
      cases tree.walk [] front with
      | error e => simp
      | ok parent =>
        by_cases hpoint : last = "." ∨ last = ".."
        · simp [hpoint, hpoints hpoint]
        · by_cases hlong : maxNameBytes < last.utf8ByteSize
          · simp [hpoint, hlong]
          · simp [hpoint, hlong, Nat.not_lt.mp hlong]

/-- A path names something if it can be used and leads through directories before its last step. -/
theorem exists_target_iff (hroot : tree.kind? [] = some none) :
    (∃ target, tree.target p = .ok target) ↔
      p.Usable ∧
        ∀ taken, taken <+: p.steps.dropLast → tree.kind? (follow [] taken) = some none := by
  rcases eq_nil_or_child p.steps with hnil | ⟨front, last, hfront⟩
  · -- a path without steps names the root
    have htarget : (∃ target, tree.target p = .ok target) ↔
        p.containsNul = false ∧ p.isTooLong = false := by
      unfold FileTree.target
      rw [hnil]
      cases p.containsNul with
      | true => simp
      | false =>
        cases p.isTooLong with
        | true => simp
        | false => simp
    rw [htarget, hnil]
    refine ⟨fun h => ⟨⟨h.1, h.2, by simp [hnil]⟩, fun taken htaken => ?_⟩,
      fun h => ⟨h.1.nul, h.1.length⟩⟩
    rw [List.prefix_nil.mp htaken]
    exact hroot
  · -- otherwise all steps but the last are walked
    rw [exists_target_concat_iff hfront, hfront, List.dropLast_concat]
    constructor
    · rintro ⟨hnul, hlength, hlast, parent, hwalk⟩
      obtain ⟨-, hsteps, htakens⟩ := (walk_eq_ok_iff hroot).mp hwalk
      refine ⟨⟨hnul, hlength, ?_⟩, htakens⟩
      rw [hfront, List.forall_mem_append]
      exact ⟨hsteps, List.forall_mem_singleton.mpr hlast⟩
    · rintro ⟨husable, htakens⟩
      have hsteps := husable.steps
      rw [hfront, List.forall_mem_append, List.forall_mem_singleton] at hsteps
      exact ⟨husable.nul, husable.length, hsteps.2, _,
        (walk_eq_ok_iff hroot).mpr ⟨rfl, hsteps.1, htakens⟩⟩

theorem holdsDirectory_iff_target :
    tree.holdsDirectory p = true ↔
      (∃ target, tree.target p = .ok target) ∧ tree.kind? p.location = some none := by
  unfold holdsDirectory find
  cases htarget : tree.target p with
  | error e => simp
  | ok target =>
    rw [← target_location htarget]
    cases hat : tree.at? target.place with
    | none => simp [kind?, hat]
    | some entry =>
      cases entry with
      | directory entries => simp [kind?, hat, content?, isDirectory]
      | file content =>
        cases hslash : p.namesDirectory with
        | true => simp [kind?, hat, content?]
        | false => simp [kind?, hat, content?, isDirectory]

/-- A path leads to a directory if it can be used and passes directories only. -/
theorem holdsDirectory_iff (hroot : tree.kind? [] = some none) :
    tree.holdsDirectory p = true ↔
      p.Usable ∧ ∀ place, p.Passes place → tree.kind? place = some none := by
  rw [holdsDirectory_iff_target, exists_target_iff hroot, and_assoc]
  refine and_congr_right fun _ => ⟨?_, fun h => ⟨fun taken htaken => ?_, ?_⟩⟩
  · rintro ⟨htakens, hlocation⟩ place ⟨taken, htaken, rfl⟩
    rcases eq_nil_or_child p.steps with hnil | ⟨front, last, hfront⟩
    · rw [hnil] at htaken
      rw [List.prefix_nil.mp htaken]
      exact hroot
    · rw [hfront, List.dropLast_concat] at htakens
      rw [hfront] at htaken
      rcases List.prefix_concat_iff.mp htaken with rfl | hproper
      · rw [Path.location, hfront] at hlocation
        exact hlocation
      · exact htakens taken hproper
  · exact h _ ⟨taken, htaken.trans (List.dropLast_prefix _), rfl⟩
  · exact h _ p.passes_location

/-- What is above a directory is a directory. -/
theorem kind?_of_prefix (hgoal : tree.kind? goal = some none) (h : place <+: goal) :
    tree.kind? place = some none := by
  obtain ⟨rest, rfl⟩ := h
  cases rest with
  | nil => rwa [List.append_nil] at hgoal
  | cons name rest => exact kind?_parent (Option.isSome_of_eq_some hgoal)

theorem holds_of_holdsDirectory (h : tree.holdsDirectory p = true) : tree.holds p = true := by
  unfold holdsDirectory at h
  unfold holds
  split at h
  · rename_i place entry hfind
    rw [hfind]
  · cases h

theorem list_eq_ok_iff {entries : Fields FileTree} :
    tree.list p = .ok entries ↔
      tree.holdsDirectory p = true ∧ tree.at? p.location = some (directory entries) := by
  unfold list holdsDirectory
  cases hfind : tree.find p with
  | error e => simp
  | ok found =>
    obtain ⟨place, entry⟩ := found
    have hat := (find_location hfind).2
    cases entry with
    | file content => simp [isDirectory]
    | directory others => simp [isDirectory, hat]

/-! ### Entries of a directory

What is done to an entry is told by the directory that is there and the name. The path of the
entry is that of the directory with one more step, so only its length and its characters are
asked again. -/

theorem namesDirectory_child (p : Path) (hname : IsName name) :
    (p.child name).namesDirectory = false := by
  have hne : name.toList ≠ [] := fun hnil => hname.1 (String.toList_eq_nil_iff.mp hnil)
  obtain ⟨front, hchars⟩ : ∃ front, (p.child name).chars = front ++ name.toList := by
    unfold Path.child Path.join
    rw [if_neg (by simp [Path.isAbsolute_ofString_name hname])]
    split
    · exact ⟨p.chars, rfl⟩
    · exact ⟨p.chars ++ ['/'], by simp [Path.ofString]⟩
  unfold Path.namesDirectory
  obtain ⟨last, hlast⟩ := Option.isSome_iff_exists.mp (List.getLast?_isSome.mpr hne)
  rw [hchars, List.getLast?_append, hlast, Option.some_or, beq_eq_false_iff_ne]
  intro hslash
  exact hname.2.2.2 (List.mem_of_getLast? (hlast.trans hslash))

theorem usable_child_iff (hp : p.Usable) (hname : IsName name) :
    (p.child name).Usable ↔
      (p.child name).containsNul = false ∧ (p.child name).isTooLong = false ∧
        name.utf8ByteSize ≤ maxNameBytes := by
  refine ⟨fun h => ⟨h.nul, h.length, h.steps name ?_⟩, fun h => ⟨h.1, h.2.1, ?_⟩⟩
  · rw [Path.steps_child hname]
    simp
  · rw [Path.steps_child hname, List.forall_mem_append]
    exact ⟨hp.steps, List.forall_mem_singleton.mpr h.2.2⟩

/-- What an entry's path names depends on the directory only through where that is. -/
theorem target_child (hroot : tree.kind? [] = some none) (hheld : tree.holdsDirectory p = true)
    (hname : IsName name) :
    tree.target (p.child name) =
      if (p.child name).containsNul then .error .nulInName
      else if (p.child name).isTooLong then .error .nameTooLong
      else if maxNameBytes < name.utf8ByteSize then .error .nameTooLong
      else .ok (.entry p.location name) := by
  obtain ⟨husable, hpasses⟩ := (holdsDirectory_iff hroot).mp hheld
  have hwalk : tree.walk [] p.steps = .ok p.location :=
    (walk_eq_ok_iff hroot).mpr ⟨rfl, husable.steps,
      fun taken htaken => hpasses _ ⟨taken, htaken, rfl⟩⟩
  rw [target_concat (Path.steps_child hname), hwalk]
  dsimp only
  rw [if_neg (not_or.mpr ⟨hname.2.1, hname.2.2.1⟩)]

theorem target_child_of_usable (hroot : tree.kind? [] = some none)
    (hheld : tree.holdsDirectory p = true) (hname : IsName name) (h : (p.child name).Usable) :
    tree.target (p.child name) = .ok (.entry p.location name) := by
  obtain ⟨husable, -⟩ := (holdsDirectory_iff hroot).mp hheld
  obtain ⟨hnul, hlength, hshort⟩ := (usable_child_iff husable hname).mp h
  rw [target_child hroot hheld hname, hnul, hlength, if_neg (Nat.not_lt.mpr hshort)]
  rfl

/-- An entry's path that cannot be used is refused, and not for want of anything. -/
theorem target_child_of_not_usable (hroot : tree.kind? [] = some none)
    (hheld : tree.holdsDirectory p = true) (hname : IsName name) (h : ¬ (p.child name).Usable) :
    ∃ e, e ≠ .notFound ∧ tree.target (p.child name) = .error e := by
  obtain ⟨husable, -⟩ := (holdsDirectory_iff hroot).mp hheld
  rw [usable_child_iff husable hname] at h
  rw [target_child hroot hheld hname]
  cases hnul : (p.child name).containsNul with
  | true => exact ⟨.nulInName, by decide, rfl⟩
  | false =>
    cases hlength : (p.child name).isTooLong with
    | true => exact ⟨.nameTooLong, by decide, rfl⟩
    | false =>
      have hlong : maxNameBytes < name.utf8ByteSize := by
        rw [hnul, hlength] at h
        simpa using h
      exact ⟨.nameTooLong, by decide, by simp [hlong]⟩

/-- What is read depends on where a path leads and on what stands there, but not on what a directory
has in it. -/
theorem read_of_target {target : Target} (h : tree.target p = .ok target) :
    tree.read p =
      match tree.kind? target.place with
      | none => .error .notFound
      | some none => .error .isDirectory
      | some (some content) =>
        if p.namesDirectory then .error .notDirectory else .ok content := by
  unfold read find kind?
  rw [h]
  dsimp only
  cases tree.at? target.place with
  | none => rfl
  | some entry =>
    cases entry with
    | directory entries => rfl
    | file content =>
      cases p.namesDirectory with
      | true => rfl
      | false => rfl

theorem read_of_target_error {e : IoError} (h : tree.target p = .error e) :
    tree.read p = .error e := by
  unfold read find
  rw [h]

theorem read_child_eq_ok_iff (hroot : tree.kind? [] = some none)
    (hheld : tree.holdsDirectory p = true) (hname : IsName name) {content : ByteArray} :
    tree.read (p.child name) = .ok content ↔
      (p.child name).Usable ∧ tree.kind? (p.location ++ [name]) = some (some content) := by
  by_cases husable : (p.child name).Usable
  · rw [read_of_target (target_child_of_usable hroot hheld hname husable)]
    simp only [Target.place, namesDirectory_child p hname]
    cases tree.kind? (p.location ++ [name]) with
    | none => simp
    | some found =>
      cases found with
      | none => simp
      | some other => simp [husable]
  · obtain ⟨e, -, htarget⟩ := target_child_of_not_usable hroot hheld hname husable
    rw [read_of_target_error htarget]
    simp [husable]

/-- A file is written in a directory, unless its path cannot be used or names a directory. -/
theorem exists_write_child_iff (hroot : tree.kind? [] = some none)
    (hheld : tree.holdsDirectory p = true) (hname : IsName name) (content : ByteArray) :
    (∃ after, tree.write (p.child name) content = .ok after) ↔
      (p.child name).Usable ∧ tree.kind? (p.location ++ [name]) ≠ some none := by
  by_cases husable : (p.child name).Usable
  · unfold write
    rw [target_child_of_usable hroot hheld hname husable]
    simp only [namesDirectory_child p hname]
    cases hat : tree.at? (p.location ++ [name]) with
    | none => simp [kind?, hat, husable]
    | some entry =>
      cases entry with
      | file other => simp [kind?, hat, content?, husable]
      | directory entries => simp [kind?, hat, content?]
  · obtain ⟨e, -, htarget⟩ := target_child_of_not_usable hroot hheld hname husable
    unfold write
    rw [htarget]
    simp [husable]

/-- No directory is taken away for a file. -/
theorem kind?_ne_of_write {after : FileTree} {content : ByteArray}
    (hroot : tree.kind? [] = some none) (h : tree.write p content = .ok after) :
    tree.kind? p.location ≠ some none := by
  unfold write at h
  split at h
  · cases h
  · cases h
  · rename_i parent name htarget
    split at h
    · cases h
    · split at h
      · cases h
      · rename_i hold
        rw [(target_entry hroot htarget).1]
        intro hdirectory
        obtain ⟨entries, hentries⟩ := kind?_eq_directory.mp hdirectory
        exact hold entries hentries

end FileTree

namespace FileTask

open FileTree (Confined)

variable {tree after : FileTree} {place : Place} {p : Path} {name : String}

/-! ### Making directories

To make a directory and those above it is to go up until one can be made, and down again. The order
does not show in the result: if it succeeds, all that is passed is a directory, and if it fails,
what has been made was missing. -/

theorem holdsDirectory_makeDirectory (htree : tree.WellFormed)
    (h : makeDirectory p tree = .ok () after) : after.holdsDirectory p = true := by
  unfold makeDirectory at h
  cases hmake : tree.makeDirectory p with
  | error e =>
    rw [hmake] at h
    dsimp only at h
    split at h
    · rename_i hheld
      cases h
      exact hheld
    · cases h
  | ok made =>
    rw [hmake] at h
    cases h
    obtain ⟨hnone, hkind⟩ := FileTree.makeDirectory_ok htree.root hmake
    have hdirectory : ∀ place, tree.kind? place = some none → after.kind? place = some none := by
      intro place hplace
      rw [hkind]
      split
      · rfl
      · exact hplace
    -- the directories on the way are those that led to the new one
    have htarget : ∃ target, tree.target p = .ok target := by
      unfold FileTree.makeDirectory at hmake
      split at hmake
      · cases hmake
      · exact ⟨_, ‹_›⟩
      · exact ⟨_, ‹_›⟩
    obtain ⟨husable, htakens⟩ := (FileTree.exists_target_iff htree.root).mp htarget
    refine FileTree.holdsDirectory_iff_target.mpr
      ⟨(FileTree.exists_target_iff (hdirectory [] htree.root)).mpr
        ⟨husable, fun taken htaken => ?_⟩, ?_⟩
    · exact hdirectory _ (htakens taken htaken)
    · rw [hkind, if_pos rfl]

/-- A chain that is made ends with its first directory. -/
theorem makeChain_cons_eq_ok {parents : List Path} (htree : tree.WellFormed)
    (h : makeChain (p :: parents) tree = .ok () after) :
    ∃ before, before.WellFormed ∧ makeDirectory p before = .ok () after := by
  have hfirst : (FileTree.within [] fun _ => True).Keeps (makeDirectory p) :=
    keeps_makeDirectory (.inl List.nil_prefix)
  have hparents : (FileTree.within [] fun _ => True).Keeps (makeChain parents) :=
    keeps_makeChain fun q _ => keeps_makeDirectory (.inl List.nil_prefix)
  rw [makeChain] at h
  dsimp only at h
  split at h
  · rename_i tried hrun
    obtain ⟨_, before, hbefore, hlast⟩ := bind_eq_ok_iff.mp h
    have htried := hfirst tree htree
    rw [hrun] at htried
    exact ⟨before, hparents.holds_of_ok hbefore htried.1, hlast⟩
  · exact ⟨tree, htree, h⟩

theorem chain_eq_cons (p : Path) : ∃ parents, p.chain = p :: parents := by
  unfold Path.chain
  cases p.components.length with
  | zero => exact ⟨[], rfl⟩
  | succ count =>
    unfold Path.chainWith
    split
    · exact ⟨_, rfl⟩
    · exact ⟨[], rfl⟩

theorem makeDirectories_eq_makeChain (hp : p.isAbsolute = true) :
    makeDirectories p = makeChain p.chain := by
  obtain ⟨s, hs⟩ := Path.isAbsolute_iff.mp hp
  unfold makeDirectories
  rw [if_neg (by simp [hs])]

/-- A path leads to a directory when this and those above it have been made. -/
theorem holdsDirectory_makeDirectories (hp : p.isAbsolute = true) (htree : tree.WellFormed)
    (h : makeDirectories p tree = .ok () after) : after.holdsDirectory p = true := by
  obtain ⟨parents, hchain⟩ := chain_eq_cons p
  rw [makeDirectories_eq_makeChain hp, hchain] at h
  obtain ⟨before, hbefore, hlast⟩ := makeChain_cons_eq_ok htree h
  exact holdsDirectory_makeDirectory hbefore hlast

/-- Whether it succeeds or fails, making directories changes what is passed and was missing. -/
theorem makeDirectories_changes (hp : p.isAbsolute = true) (htree : tree.WellFormed)
    (place : Place) :
    (stateAfter (makeDirectories p) tree).kind? place = tree.kind? place ∨
      p.Passes place ∧ tree.kind? place = none ∧
        (stateAfter (makeDirectories p) tree).kind? place = some none := by
  have hkeeps : (FileTree.within (place ++ [""]) p.Passes).Keeps (makeDirectories p) :=
    keeps_makeDirectories ⟨hp, fun _ hpasses => .inr hpasses⟩
  exact (hkeeps.allows htree).2 place (.inl (FileTree.child_not_above place ""))

/-- What is made are the directories that the path passes. -/
theorem kind?_makeDirectories (hp : p.isAbsolute = true) (htree : tree.WellFormed)
    (h : makeDirectories p tree = .ok () after) :
    (∀ place, p.Passes place → after.kind? place = some none) ∧
      ∀ place, ¬ p.Passes place → after.kind? place = tree.kind? place := by
  have hconfined : ∀ place, after.kind? place = tree.kind? place ∨
      p.Passes place ∧ tree.kind? place = none ∧ after.kind? place = some none := by
    rw [← stateAfter_of_ok h]
    exact makeDirectories_changes hp htree
  have hroot : after.kind? [] = some none := by
    rcases hconfined [] with hsame | ⟨-, -, hdirectory⟩
    · rw [hsame, htree.root]
    · exact hdirectory
  refine ⟨((FileTree.holdsDirectory_iff hroot).mp
    (holdsDirectory_makeDirectories hp htree h)).2, fun place hpasses => ?_⟩
  rcases hconfined place with hsame | ⟨hpassed, -, -⟩
  · exact hsame
  · exact absurd hpassed hpasses

/-- No directory is made in place of a file. -/
theorem not_file_of_makeDirectories (hp : p.isAbsolute = true) (htree : tree.WellFormed)
    (h : makeDirectories p tree = .ok () after) (hplace : p.Passes place) (content : ByteArray) :
    tree.kind? place ≠ some (some content) := by
  intro hfile
  have hstays := (file_makeDirectories_iff hp htree place content).mpr hfile
  rw [stateAfter_of_ok h, (kind?_makeDirectories hp htree h).1 place hplace] at hstays
  cases hstays

/-- Nothing is done for a directory that is there. -/
theorem makeDirectories_of_holdsDirectory (hp : p.isAbsolute = true) (htree : tree.WellFormed)
    (hheld : tree.holdsDirectory p = true) : makeDirectories p tree = .ok () tree := by
  have hmake : makeDirectory p tree = .ok () tree := by
    unfold makeDirectory
    cases hrun : tree.makeDirectory p with
    | error e => simp [hheld]
    | ok made =>
      have hnone := (FileTree.makeDirectory_ok htree.root hrun).1
      rw [(FileTree.holdsDirectory_iff_target.mp hheld).2] at hnone
      cases hnone
  obtain ⟨parents, hchain⟩ := chain_eq_cons p
  rw [makeDirectories_eq_makeChain hp, hchain, makeChain]
  dsimp only
  rw [hmake]

/-- A directory is made in another, unless its path cannot be used or names a file. -/
theorem exists_makeDirectories_child_iff (hp : p.isAbsolute = true) (htree : tree.WellFormed)
    (hheld : tree.holdsDirectory p = true) (hname : IsName name) :
    (∃ after, makeDirectories (p.child name) tree = .ok () after) ↔
      (p.child name).Usable ∧
        ∀ content, tree.kind? (p.location ++ [name]) ≠ some (some content) := by
  have habsolute : (p.child name).isAbsolute = true := Path.isAbsolute_join hp
  constructor
  · rintro ⟨after, hafter⟩
    have hmade := holdsDirectory_makeDirectories habsolute htree hafter
    have hroot : after.kind? [] = some none :=
      (kind?_makeDirectories habsolute htree hafter).1 [] ⟨[], List.nil_prefix, rfl⟩
    refine ⟨((FileTree.holdsDirectory_iff hroot).mp hmade).1, ?_⟩
    rw [← Path.location_child hname]
    exact not_file_of_makeDirectories habsolute htree hafter (p.child name).passes_location
  · rintro ⟨husable, hfile⟩
    have htarget := FileTree.target_child_of_usable htree.root hheld hname husable
    -- the directory above is there, so that one step is enough
    have hmake : ∃ after, makeDirectory (p.child name) tree = .ok () after := by
      unfold makeDirectory FileTree.makeDirectory
      rw [htarget]
      dsimp only
      cases hat : tree.at? (p.location ++ [name]) with
      | none => exact ⟨_, rfl⟩
      | some entry =>
        cases entry with
        | file content => exact absurd (FileTree.kind?_eq_file.mpr hat) (hfile content)
        | directory entries =>
          have hthere : tree.holdsDirectory (p.child name) = true := by
            refine FileTree.holdsDirectory_iff_target.mpr ⟨⟨_, htarget⟩, ?_⟩
            rw [Path.location_child hname]
            exact FileTree.kind?_eq_directory.mpr ⟨entries, hat⟩
          simp [hthere]
    obtain ⟨after, hafter⟩ := hmake
    obtain ⟨parents, hchain⟩ := chain_eq_cons (p.child name)
    rw [makeDirectories_eq_makeChain habsolute, hchain, makeChain]
    dsimp only
    rw [hafter]
    exact ⟨after, rfl⟩

theorem kind?_makeDirectories_child (hp : p.isAbsolute = true) (htree : tree.WellFormed)
    (hheld : tree.holdsDirectory p = true) (hname : IsName name)
    (h : makeDirectories (p.child name) tree = .ok () after) (place : Place) :
    after.kind? place =
      if place = p.location ++ [name] then some none else tree.kind? place := by
  obtain ⟨hmade, hsame⟩ := kind?_makeDirectories (Path.isAbsolute_join hp) htree h
  split
  · rename_i heq
    rw [heq, ← Path.location_child hname]
    exact hmade _ (p.child name).passes_location
  · rename_i hne
    by_cases hpasses : (p.child name).Passes place
    · rw [hmade place hpasses]
      -- all that is passed before the last step was there
      rcases (Path.passes_child_iff hname).mp hpasses with hbefore | hlast
      · exact (((FileTree.holdsDirectory_iff htree.root).mp hheld).2 _ hbefore).symm
      · exact absurd hlast hne
    · exact hsame place hpasses

/-! ### Directories that stay -/

/-- The discipline of tasks that take no directory away. -/
def standing : Discipline FileTree where
  holds := FileTree.WellFormed
  change before after := ∀ place, before.kind? place = some none → after.kind? place = some none
  refl _ _ h := h
  trans h hnext place hplace := hnext place (h place hplace)

theorem stands_makeDirectories (hp : p.isAbsolute = true) : standing.Keeps (makeDirectories p) := by
  refine Discipline.keeps_of_allows fun tree htree => ⟨?_, fun place hplace => ?_⟩
  · exact ((keeps_makeDirectories (permitted_anywhere [] hp)).allows htree).1
  · rcases makeDirectories_changes hp htree place with hsame | ⟨-, hnone, -⟩
    · rw [hsame, hplace]
    · rw [hplace] at hnone
      cases hnone

theorem stands_write {content : ByteArray} : standing.Keeps (write p content) := by
  refine keeps_step fun before after hbefore hwrite =>
    ⟨FileTree.wellFormed_write hbefore hwrite, fun place hplace => ?_⟩
  rw [FileTree.write_ok hbefore.root hwrite, if_neg, hplace]
  rintro rfl
  exact FileTree.kind?_ne_of_write hbefore.root hwrite hplace

theorem holdsDirectory_of_standing (hbefore : tree.WellFormed) (h : standing.Allows tree after)
    (hheld : tree.holdsDirectory p = true) : after.holdsDirectory p = true := by
  obtain ⟨husable, hpasses⟩ := (FileTree.holdsDirectory_iff hbefore.root).mp hheld
  exact (FileTree.holdsDirectory_iff h.1.root).mpr
    ⟨husable, fun place hplace => h.2 place (hpasses place hplace)⟩

end FileTask

end StaticSite
