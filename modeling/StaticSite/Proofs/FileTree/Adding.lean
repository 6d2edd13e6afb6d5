import StaticSite.Proofs.FileTree.Reach
import StaticSite.Proofs.Path.Output
/-!
# StaticSite.Proofs.FileTree.Adding

**What stands somewhere stays as it is when a file is only written where a path leads to nothing**
(`FileTask.adds_writeInside`), although directories are made on the way. That needs a directory from
which the path goes down by names: from there on, a path that can be used leads to something as soon
as something stands at its end (`FileTree.holds_join_iff`). A path that goes through a directory
which is missing and then back leads to nothing although something stands at its end.
-/

set_option autoImplicit false

namespace StaticSite

/-! ### Paths that go down

Files of a site are called by a directory and a path that goes down from it (`Path.GoesDown`). The
steps of such a path are names, so where they lead is seen from the directory alone. -/

namespace Path

open FileTree (follow follow_append follow_names)

variable {dir p q : Path} {place : Place}

/-- Whether a path, as seen from a directory, goes down by names to what can be a file. -/
structure GoesDown (q : Path) : Prop where
  relative : q.isAbsolute = false
  names : ∀ step ∈ q.steps, IsName step
  ne : q.steps ≠ []
  file : q.namesDirectory = false

instance (q : Path) : Decidable q.GoesDown :=
  decidable_of_iff
    (q.isAbsolute = false ∧ (∀ step ∈ q.steps, IsName step) ∧ q.steps ≠ [] ∧
      q.namesDirectory = false)
    ⟨fun h => ⟨h.1, h.2.1, h.2.2.1, h.2.2.2⟩, fun h => ⟨h.relative, h.names, h.ne, h.file⟩⟩

theorem GoesDown.location_join (h : q.GoesDown) :
    (dir.join q).location = dir.location ++ q.steps := by
  rw [Path.location_join h.relative, follow_names h.names]

theorem GoesDown.location_prefix_iff (hp : p.GoesDown) (hq : q.GoesDown) :
    (dir.join p).location <+: (dir.join q).location ↔ p.steps <+: q.steps := by
  rw [hp.location_join, hq.location_join, List.prefix_append_right_inj]

/-- The end is not on the way to the directory. -/
theorem GoesDown.not_above (h : q.GoesDown) : ¬ (dir.join q).location <+: dir.location := by
  intro hunder
  have hlength := hunder.length_le
  rw [h.location_join, List.length_append] at hlength
  exact absurd (List.length_pos_iff.mpr h.ne) (by omega)

theorem GoesDown.namesDirectory_join (h : q.GoesDown) : (dir.join q).namesDirectory = false := by
  have hchars : q.chars ≠ [] := by
    intro hnil
    refine h.ne ?_
    unfold steps
    rw [hnil]
    rfl
  have hfile := h.file
  unfold namesDirectory at hfile ⊢
  rw [join_of_relative h.relative, List.getLast?_append_of_ne_nil _ hchars, hfile]

/-- The steps that have been taken end on the way to the directory, or down from it. -/
theorem GoesDown.follow_taken (h : q.GoesDown) {taken : List String}
    (htaken : taken <+: (dir.join q).steps) :
    dir.Passes (follow [] taken) ∨ ∃ more, more <+: q.steps ∧ taken = dir.steps ++ more ∧
      follow [] taken = dir.location ++ more := by
  rw [steps_join h.relative] at htaken
  rcases List.prefix_or_prefix_of_prefix htaken (List.prefix_append dir.steps q.steps) with
    hearly | ⟨more, rfl⟩
  · exact .inl ⟨taken, hearly, rfl⟩
  · have hmore : more <+: q.steps := (List.prefix_append_right_inj dir.steps).mp htaken
    have hnames : ∀ step ∈ more, IsName step := fun step hstep => h.names step (hmore.subset hstep)
    exact .inr ⟨more, hmore, rfl, by rw [follow_append, follow_names hnames]; rfl⟩

/-- What is passed is passed on the way to the directory, or stands above the end. -/
theorem GoesDown.passes_join (h : q.GoesDown) (hpasses : (dir.join q).Passes place) :
    dir.Passes place ∨ place <+: (dir.join q).location := by
  obtain ⟨taken, htaken, rfl⟩ := hpasses
  refine (h.follow_taken htaken).imp_right ?_
  rintro ⟨more, hmore, -, hplace⟩
  rw [hplace, h.location_join]
  exact (List.prefix_append_right_inj _).mpr hmore

/-- The front of a path that can be used can be used. -/
theorem Usable.of_join (h : (p.join q).Usable) (hq : q.isAbsolute = false) : p.Usable := by
  obtain ⟨rest, hrest⟩ : ∃ rest, (p.join q).chars = p.chars ++ rest := by
    rw [join_of_relative hq]
    unfold lead
    split
    · exact ⟨q.chars, rfl⟩
    · exact ⟨['/'] ++ q.chars, List.append_assoc ..⟩
  have hnul := h.nul
  have hlength := h.length
  unfold containsNul at hnul
  unfold isTooLong toString at hlength
  rw [hrest] at hnul hlength
  refine ⟨?_, ?_, fun step hstep => h.steps step ?_⟩
  · unfold containsNul
    simp_all
  · rw [String.ofList_append, String.utf8ByteSize_append, decide_eq_false_iff_not] at hlength
    unfold isTooLong toString
    rw [decide_eq_false_iff_not]
    omega
  · rw [steps_join hq]
    exact List.mem_append_left _ hstep

end Path

namespace FileTree

variable {tree before after : FileTree} {dir p q : Path} {name : String} {content : ByteArray}

/-! ### Where something is there

That a path leads to something is a matter of the way, not only of the end. For a path that goes
down from a directory that is there, the way is there as soon as the end is. -/

theorem holds_iff_target :
    tree.holds p = true ↔ (∃ target, tree.target p = .ok target) ∧
      (tree.kind? p.location).isSome ∧
        (p.namesDirectory = true → tree.kind? p.location = some none) := by
  unfold holds find
  cases htarget : tree.target p with
  | error e => simp
  | ok target =>
    rw [← target_location htarget]
    cases hat : tree.at? target.place with
    | none => simp [kind?, hat]
    | some entry =>
      cases entry with
      | directory entries => simp [kind?, hat, content?]
      | file content =>
        cases hslash : p.namesDirectory with
        | true => simp [kind?, hat, content?]
        | false => simp [kind?, hat, content?]

/-- What leads to something can be used. -/
theorem usable_of_holds (hroot : tree.kind? [] = some none) (h : tree.holds p = true) :
    p.Usable :=
  ((exists_target_iff hroot).mp (holds_iff_target.mp h).1).1

/-- From a directory that is there, a path that goes down leads to whatever stands at its end. -/
theorem holds_join_iff (hroot : tree.kind? [] = some none) (hdir : tree.holdsDirectory dir = true)
    (hq : q.GoesDown) :
    tree.holds (dir.join q) = true ↔
      (dir.join q).Usable ∧ (tree.kind? (dir.join q).location).isSome := by
  refine ⟨fun h => ⟨usable_of_holds hroot h, (holds_iff_target.mp h).2.1⟩, ?_⟩
  rintro ⟨husable, hstands⟩
  refine holds_iff_target.mpr ⟨(exists_target_iff hroot).mpr ⟨husable, fun taken htaken => ?_⟩,
    hstands, fun hslash => ?_⟩
  · rcases hq.follow_taken (htaken.trans (List.dropLast_prefix _)) with
      hearly | ⟨more, ⟨rest, hrest⟩, rfl, hplace⟩
    · exact ((holdsDirectory_iff hroot).mp hdir).2 _ hearly
    · -- the end is further down, since the last step has not been taken
      rw [hplace]
      cases rest with
      | nil =>
        rw [List.append_nil] at hrest
        rw [hrest, Path.steps_join hq.relative, List.dropLast_append_of_ne_nil hq.ne,
          List.prefix_append_right_inj] at htaken
        have hlength := htaken.length_le
        rw [List.length_dropLast] at hlength
        exact absurd (List.length_pos_iff.mpr hq.ne) (by omega)
      | cons first rest =>
        rw [hq.location_join, ← hrest, ← List.append_assoc] at hstands
        exact kind?_parent hstands
  · rw [hq.namesDirectory_join] at hslash
    cases hslash

theorem goesDown_ofString (hname : IsName name) : (Path.ofString name).GoesDown := by
  have hchild : (⟨[]⟩ : Path).child name = .ofString name := by
    unfold Path.child Path.join
    rw [if_neg (by simp [Path.isAbsolute_ofString_name hname]), if_pos (.inl rfl)]
    rfl
  have hsteps : (Path.ofString name).steps = [name] := by
    rw [← hchild, Path.steps_child hname]
    rfl
  refine ⟨Path.isAbsolute_ofString_name hname, ?_, ?_, ?_⟩
  · rw [hsteps]
    exact List.forall_mem_singleton.mpr hname
  · rw [hsteps]
    exact List.cons_ne_nil _ _
  · rw [← hchild]
    exact namesDirectory_child ⟨[]⟩ hname

/-- A path that names an entry leads through the directory of that. -/
theorem holdsDirectory_of_target_child (hroot : tree.kind? [] = some none) (hname : IsName name)
    (h : ∃ target, tree.target (p.child name) = .ok target) : tree.holdsDirectory p = true := by
  obtain ⟨husable, htakens⟩ := (exists_target_iff hroot).mp h
  rw [Path.steps_child hname, List.dropLast_concat] at htakens
  refine (holdsDirectory_iff hroot).mpr
    ⟨husable.of_join (Path.isAbsolute_ofString_name hname), ?_⟩
  rintro place ⟨taken, htaken, rfl⟩
  exact htakens taken htaken

/-! ### What is there stays

A change to what is there shows at its place, and so does a removal. So `adding` asks of each place
only that what stood there still does. Directories that are made and a file in place of nothing meet
this; what has to be seen to is that a file is written in place of nothing. -/

/-- The discipline of tasks that change nothing that is there and take nothing away. -/
def adding : Discipline FileTree where
  holds := WellFormed
  change before after := ∀ place, (before.kind? place).isSome →
    after.kind? place = before.kind? place
  refl _ _ _ := rfl
  trans h hnext place hplace := by
    have hsame := h place hplace
    rw [hnext place (hsame ▸ hplace), hsame]

theorem stands_of_adding (h : adding.Allows before after) :
    FileTask.standing.Allows before after :=
  ⟨h.1, fun place hplace => (h.2 place (Option.isSome_of_eq_some hplace)).trans hplace⟩

/-- What is not there later was not there before. -/
theorem kind?_of_adding {place : Place} (h : adding.Allows before after)
    (hnone : after.kind? place = none) : before.kind? place = none := by
  cases hbefore : before.kind? place with
  | none => rfl
  | some entry =>
    rw [h.2 place (Option.isSome_of_eq_some hbefore), hbefore] at hnone
    cases hnone

/-- A path that leads to something leads there from then on. -/
theorem holds_of_adding (hbefore : before.WellFormed) (h : adding.Allows before after)
    (hheld : before.holds p = true) : after.holds p = true := by
  obtain ⟨htarget, hstands, hslash⟩ := holds_iff_target.mp hheld
  obtain ⟨husable, htakens⟩ := (exists_target_iff hbefore.root).mp htarget
  have hsame := h.2 p.location hstands
  refine holds_iff_target.mpr ⟨(exists_target_iff h.1.root).mpr ⟨husable, fun taken htaken => ?_⟩,
    ?_, ?_⟩
  · exact (stands_of_adding h).2 _ (htakens taken htaken)
  · rwa [hsame]
  · rwa [hsame]

theorem holdsDirectory_of_adding (hbefore : before.WellFormed) (h : adding.Allows before after)
    (hheld : before.holdsDirectory p = true) : after.holdsDirectory p = true :=
  FileTask.holdsDirectory_of_standing hbefore (stands_of_adding h) hheld

/-- A path to which a file is written can be used, leads through directories and names no
directory. -/
theorem target_of_write (h : before.write p content = .ok after) :
    (∃ target, before.target p = .ok target) ∧ p.namesDirectory = false := by
  unfold write at h
  split at h
  · cases h
  · cases h
  · rename_i parent name htarget
    split at h
    · cases h
    · rename_i hfile
      exact ⟨⟨_, htarget⟩, Bool.eq_false_iff.mpr hfile⟩

/-- Where a path leads to nothing, a file is written in place of nothing. -/
theorem kind?_of_write_of_not_holds (hfree : before.holds p = false)
    (h : before.write p content = .ok after) : before.kind? p.location = none := by
  obtain ⟨htarget, hfile⟩ := target_of_write h
  cases hkind : before.kind? p.location with
  | none => rfl
  | some entry =>
    have hheld : before.holds p = true :=
      holds_iff_target.mpr ⟨htarget, by rw [hkind]; rfl, by simp [hfile]⟩
    rw [hfree] at hheld
    cases hheld

theorem write_adds (hbefore : before.WellFormed) (hnone : before.kind? p.location = none)
    (h : before.write p content = .ok after) : adding.Allows before after := by
  refine ⟨wellFormed_write hbefore h, fun place hplace => ?_⟩
  rw [write_ok hbefore.root h, if_neg]
  rintro rfl
  rw [hnone] at hplace
  cases hplace

end FileTree

namespace FileTask

open FileTree (adding)

variable {dir p q : Path} {tree after : FileTree} {content : ByteArray}

theorem adds_makeDirectories (hp : p.isAbsolute = true) : adding.Keeps (makeDirectories p) := by
  refine Discipline.keeps_of_allows fun tree htree => ⟨?_, fun place hplace => ?_⟩
  · exact ((keeps_makeDirectories (permitted_anywhere [] hp)).allows htree).1
  · rcases makeDirectories_changes hp htree place with hsame | ⟨-, hnone, -⟩
    · exact hsame
    · rw [hnone] at hplace
      cases hplace

/-- On the way down from a directory that is there, nothing changes but what is above the end. -/
theorem kind?_makeDirectories_join (hp : dir.isAbsolute = true) (htree : tree.WellFormed)
    (hdir : tree.holdsDirectory dir = true) (hq : q.GoesDown) {place : Place}
    (hplace : ¬ place <+: (dir.join q).location) :
    (stateAfter (makeDirectories (dir.join q)) tree).kind? place = tree.kind? place := by
  rcases makeDirectories_changes (Path.isAbsolute_join hp) htree place with
    hsame | ⟨hpasses, hnone, -⟩
  · exact hsame
  · have hway := (hq.passes_join hpasses).resolve_right hplace
    rw [((FileTree.holdsDirectory_iff htree.root).mp hdir).2 place hway] at hnone
    cases hnone

/-- Writing that fails has changed nothing. -/
theorem eq_of_write_eq_error {e : IoError} (h : write p content tree = .error e after) :
    after = tree := by
  unfold write step at h
  split at h
  · cases h
  · cases h
    rfl

/-- What has become of a tree in which directories on the way of a path have been made. -/
structure Opened (p : Path) (tree made : FileTree) : Prop where
  adds : adding.Allows tree made
  files : ∀ place content, made.kind? place = some (some content) ↔
    tree.kind? place = some (some content)
  others : ∀ place, ¬ p.Passes place → made.kind? place = tree.kind? place

theorem opened_refl (htree : tree.WellFormed) : Opened p tree tree :=
  ⟨Discipline.allows_refl htree, fun _ _ => Iff.rfl, fun _ _ => rfl⟩

theorem opened_makeDirectories (hp : p.isAbsolute = true) (htree : tree.WellFormed)
    (h : makeDirectories p tree = .ok () after) : Opened p tree after := by
  refine ⟨(adds_makeDirectories hp).allows_of_ok h htree, fun place content => ?_,
    (kind?_makeDirectories hp htree h).2⟩
  rw [← file_makeDirectories_iff hp htree, stateAfter_of_ok h]

theorem Opened.mono {made : FileTree} (h : Opened q tree made) (hsteps : q.steps <+: p.steps) :
    Opened p tree made :=
  ⟨h.adds, h.files, fun place hplace => h.others place fun hpasses => hplace (hpasses.mono hsteps)⟩

/-- To write a file inside is to fail on the way, or to write it there. -/
theorem writeInside_phases (hp : p.isAbsolute = true) (htree : tree.WellFormed)
    (content : ByteArray) :
    (∃ e made, adding.Allows tree made ∧ writeInside p content tree = .error e made) ∨
      ∃ made, Opened p tree made ∧ writeInside p content tree = write p content made := by
  unfold writeInside
  cases hparent : p.parent? with
  | none => exact .inr ⟨tree, opened_refl htree, rfl⟩
  | some parent =>
    obtain ⟨habsolute, hsteps⟩ := Path.steps_of_parent? hp hparent
    dsimp only
    cases hmake : makeDirectories parent tree with
    | error e made =>
      have hadds := (adds_makeDirectories habsolute).allows htree
      rw [stateAfter_of_error hmake] at hadds
      exact .inl ⟨e, made, hadds, bind_eq_error_iff.mpr (.inl hmake)⟩
    | ok _ made =>
      exact .inr ⟨made, (opened_makeDirectories habsolute htree hmake).mono hsteps,
        bind_of_ok hmake⟩

/-- A file to which its path did not lead is written in place of nothing. -/
theorem Opened.kind?_of_write {made : FileTree} (h : Opened (dir.join q) tree made)
    (htree : tree.WellFormed) (hdir : tree.holdsDirectory dir = true) (hq : q.GoesDown)
    (hfree : tree.holds (dir.join q) = false)
    (hwrite : made.write (dir.join q) content = .ok after) :
    made.kind? (dir.join q).location = none := by
  have hroot := h.adds.1.root
  cases hkind : made.kind? (dir.join q).location with
  | none => rfl
  | some entry =>
    cases entry with
    | none => exact absurd hkind (FileTree.kind?_ne_of_write hroot hwrite)
    | some other =>
      -- a file was there before, and the path led to it
      have hbefore := (h.files _ other).mp hkind
      have husable := ((FileTree.exists_target_iff hroot).mp (FileTree.target_of_write hwrite).1).1
      have hheld : tree.holds (dir.join q) = true :=
        (FileTree.holds_join_iff htree.root hdir hq).mpr ⟨husable, Option.isSome_of_eq_some hbefore⟩
      rw [hfree] at hheld
      cases hheld

/-- A file that is written in a directory, where its path led to nothing, is new, and nothing else
changes. -/
theorem write_child_missing {name : String} (hname : IsName name) (htree : tree.WellFormed)
    (hfree : tree.holds (dir.child name) = false)
    (h : write (dir.child name) content tree = .ok () after) :
    tree.holdsDirectory dir = true ∧ tree.kind? (dir.child name).location = none ∧
      adding.Allows tree after ∧
      after.kind? (dir.child name).location = some (some content) ∧
      after.holds (dir.child name) = true ∧
      ∀ place, place ≠ (dir.child name).location → after.kind? place = tree.kind? place := by
  have hwrite := write_eq_ok_iff.mp h
  have htarget := (FileTree.target_of_write hwrite).1
  have hdir := FileTree.holdsDirectory_of_target_child htree.root hname htarget
  have hnone := FileTree.kind?_of_write_of_not_holds hfree hwrite
  have hadds := FileTree.write_adds htree hnone hwrite
  have hkind := FileTree.write_ok htree.root hwrite
  have hself : after.kind? (dir.child name).location = some (some content) := by
    rw [hkind, if_pos rfl]
  refine ⟨hdir, hnone, hadds, hself, ?_, fun place hplace => by rw [hkind, if_neg hplace]⟩
  have husable := ((FileTree.exists_target_iff htree.root).mp htarget).1
  have hdirAfter := FileTree.holdsDirectory_of_adding htree hadds hdir
  exact (FileTree.holds_join_iff hadds.1.root hdirAfter (FileTree.goesDown_ofString hname)).mpr
    ⟨husable, Option.isSome_of_eq_some hself⟩

section

variable (hp : dir.isAbsolute = true) (htree : tree.WellFormed)
  (hdir : tree.holdsDirectory dir = true) (hq : q.GoesDown)
  (hfree : tree.holds (dir.join q) = false)

include hp htree hdir hq hfree

/-- What stands somewhere stays as it is when a file is written to which its path does not lead
yet. -/
theorem adds_writeInside (content : ByteArray) :
    adding.Allows tree (stateAfter (writeInside (dir.join q) content) tree) := by
  rcases writeInside_phases (Path.isAbsolute_join hp) htree content with
    ⟨e, made, hadds, hrun⟩ | ⟨made, hopened, hrun⟩
  · rwa [stateAfter_of_error hrun]
  · cases hwrite : write (dir.join q) content made with
    | error e after =>
      rw [stateAfter_of_error (hrun.trans hwrite), eq_of_write_eq_error hwrite]
      exact hopened.adds
    | ok _ after =>
      rw [stateAfter_of_ok (hrun.trans hwrite)]
      have hwritten := write_eq_ok_iff.mp hwrite
      have hnone := hopened.kind?_of_write htree hdir hq hfree hwritten
      exact hopened.adds.trans (FileTree.write_adds hopened.adds.1 hnone hwritten)

/-- A file that is written where its path led to nothing is new, and nothing else changes but for
directories on its way. -/
theorem writeInside_missing (h : writeInside (dir.join q) content tree = .ok () after) :
    tree.kind? (dir.join q).location = none ∧
      after.kind? (dir.join q).location = some (some content) ∧
      after.holds (dir.join q) = true ∧
      ∀ place, ¬ place <+: (dir.join q).location → after.kind? place = tree.kind? place := by
  have hadds := adds_writeInside hp htree hdir hq hfree content
  rw [stateAfter_of_ok h] at hadds
  rcases writeInside_phases (Path.isAbsolute_join hp) htree content with
    ⟨e, made, -, hrun⟩ | ⟨made, hopened, hrun⟩
  · rw [hrun] at h
    cases h
  rw [hrun] at h
  have hwrite := write_eq_ok_iff.mp h
  have hroot := hopened.adds.1.root
  have hnone := hopened.kind?_of_write htree hdir hq hfree hwrite
  have hkind := FileTree.write_ok hroot hwrite
  have hself : after.kind? (dir.join q).location = some (some content) := by rw [hkind, if_pos rfl]
  -- what was missing once the way had been made was missing before
  refine ⟨FileTree.kind?_of_adding hopened.adds hnone, hself, ?_, fun place hplace => ?_⟩
  · have husable := ((FileTree.exists_target_iff hroot).mp (FileTree.target_of_write hwrite).1).1
    have hdirAfter := FileTree.holdsDirectory_of_adding htree hadds hdir
    exact (FileTree.holds_join_iff hadds.1.root hdirAfter hq).mpr
      ⟨husable, Option.isSome_of_eq_some hself⟩
  · have hne : place ≠ (dir.join q).location := fun heq => hplace (heq ▸ List.prefix_rfl)
    rw [hkind, if_neg hne]
    by_cases hpasses : (dir.join q).Passes place
    · -- what is passed on the way to the directory is there
      have hway := (hq.passes_join hpasses).resolve_right hplace
      have hthere := ((FileTree.holdsDirectory_iff htree.root).mp hdir).2 place hway
      exact hopened.adds.2 place (Option.isSome_of_eq_some hthere)
    · exact hopened.others place hpasses

end

end FileTask

end StaticSite
