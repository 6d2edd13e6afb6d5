import StaticSite.Proofs.FileTree.Overlay
/-!
# StaticSite.Proofs.FileTree.Copying

**What copying a directory does.** A copy into a directory that is neither inside of the source nor
around it succeeds if and only if all paths on the way can be used and nothing of another kind
stands where a file or a directory goes. Then everything of the source is in the goal, at the same
place below it and with the same content, everything else is as it was, and the number that is
returned is that of the files of the source (`FileTask.copy_spec`). The depth to which a copy may go
is no limit of its own (`FileTask.copyWith_eq_copy`).
-/

set_option autoImplicit false

namespace StaticSite

namespace FileTask

open FileTree (AllFit Copied CopiedAll Copying)

variable {tree after : FileTree} {source goal : Path} {name : String} {fuel : Nat}

/-! ### Copying entries

A copy of a directory is a loop over what it lists (`copyWith_succ`). What one round should do is
`Copies`; it also says when a round fails, for the copy of a directory succeeds if and only if all
its rounds do. -/

/-- Copies an entry of a directory and returns the number of files. -/
def copyEntry (fuel : Nat) (source goal : Path) : String × FileTree → FileTask Nat
  | (name, .directory _) => copyWith fuel (source.child name) (goal.child name)
  | (name, .file _) => do
    let content ← ask (·.read (source.child name))
    write (goal.child name) content
    pure 1

/-- Copies entries of a directory and adds the number of files to `start`. -/
def copyEntries (fuel : Nat) (source goal : Path) (entries : Fields FileTree) (start : Nat) :
    FileTask Nat :=
  entries.foldlM (fun count entry => do
    let more ← copyEntry fuel source goal entry
    pure (count + more)) start

theorem copyWith_succ (fuel : Nat) (source goal : Path) :
    copyWith (fuel + 1) source goal = (do
      makeDirectories goal
      let entries ← ask (·.list source)
      copyEntries fuel source goal entries 0) := by
  unfold copyWith copyEntries
  refine bind_congr fun _ => bind_congr fun entries => ?_
  congr 1
  funext count entry
  obtain ⟨name, entry⟩ := entry
  cases entry with
  | directory below => rfl
  | file content => simp only [copyEntry, bind_assoc, pure_bind]

theorem copyEntries_cons (fuel : Nat) (source goal : Path) (first : String × FileTree)
    (rest : Fields FileTree) (start : Nat) (tree : FileTree) :
    copyEntries fuel source goal (first :: rest) start tree =
      match copyEntry fuel source goal first tree with
      | .ok more middle => copyEntries fuel source goal rest (start + more) middle
      | .error e middle => .error e middle := by
  unfold copyEntries
  rw [List.foldlM_cons]
  simp only [bind, EStateM.bind]
  cases copyEntry fuel source goal first tree with
  | ok more middle => rfl
  | error e middle => rfl

theorem regular_copyEntry (hgoal : goal.isAbsolute = true) (entry : String × FileTree) :
    regular.Keeps (copyEntry fuel source goal entry) := by
  obtain ⟨name, entry⟩ := entry
  cases entry with
  | directory below => exact regular_copyWith fuel (Path.isAbsolute_join hgoal)
  | file content =>
    refine Discipline.Keeps.bind (yields_ask fun _ _ _ _ => trivial) fun content => ?_
    exact (regular_write (goal.child name) content).bind fun _ => Discipline.keeps_pure _

/-- Whether a copy does all of its work if all fits, and fails otherwise. -/
def Copies (task : FileTask Nat) (fuel : Nat) (source goal : Path) (tree : FileTree) : Prop :=
  match task tree with
  | .ok count after => Copied fuel source goal tree after count
  | .error _ _ => ¬ tree.AllFit fuel source goal

theorem allFit_file_iff {content : ByteArray}
    (hfile : tree.kind? source.location = some (some content)) :
    tree.AllFit fuel source goal ↔
      source.Usable ∧ goal.Usable ∧ tree.kind? goal.location ≠ some none := by
  constructor
  · intro h
    have hfits := h [] (some content) (by rwa [List.append_nil])
    refine ⟨hfits.readable, hfits.writable, fun hdirectory => ?_⟩
    cases hfits.alike none (by rwa [List.append_nil])
  · rintro ⟨hsource, hgoal, hnot⟩ rest new hnew
    cases rest with
    | nil =>
      rw [List.append_nil, hfile] at hnew
      cases hnew
      refine ⟨hsource, hgoal, fun old hold => ?_, fun hnone => by cases hnone⟩
      rw [List.append_nil] at hold
      cases old with
      | none => exact absurd hold hnot
      | some other => rfl
    | cons name rest =>
      rw [FileTree.kind?_below_file hfile] at hnew
      cases hnew

theorem copied_file {content : ByteArray} (hroot : tree.kind? [] = some none)
    (hfile : tree.kind? source.location = some (some content))
    (hfit : tree.AllFit fuel source goal) (hwrite : tree.write goal content = .ok after) :
    Copied fuel source goal tree after 1 := by
  have hkind := FileTree.write_ok hroot hwrite
  refine ⟨⟨fun place hplace => ?_, fun rest => ?_⟩, hfit, [[]], ?_, rfl, fun place => ?_⟩
  · -- outside of the goal nothing is written
    rw [hkind, if_neg]
    rintro rfl
    exact hplace List.prefix_rfl
  · -- the goal itself has the file, and nothing is below either of the two
    rw [hkind]
    cases rest with
    | nil =>
      rw [List.append_nil, List.append_nil, if_pos rfl, hfile]
      rfl
    | cons name rest =>
      rw [if_neg (by simp), FileTree.kind?_below_file hfile]
      rfl
  · -- there is one file to count, at the end of the path
    exact List.pairwise_singleton _ _
  · rw [List.mem_singleton]
    constructor
    · rintro rfl
      exact ⟨content, by rw [List.append_nil, hfile]⟩
    · rintro ⟨other, hother⟩
      cases place with
      | nil => rfl
      | cons name rest =>
        rw [FileTree.kind?_below_file hfile] at hother
        cases hother

/-- A file is copied if its path and that of the copy can be used and no directory is in its
place. -/
theorem copies_file (h : Copying tree source goal) (hname : IsName name) {content : ByteArray}
    (hfile : tree.kind? (source.location ++ [name]) = some (some content)) (old : ByteArray) :
    Copies (copyEntry fuel source goal (name, .file old)) fuel (source.child name)
      (goal.child name) tree := by
  have hread : ∀ found, tree.read (source.child name) = .ok found ↔
      (source.child name).Usable ∧
        tree.kind? (source.location ++ [name]) = some (some found) :=
    fun _ => FileTree.read_child_eq_ok_iff h.formed.root h.held hname
  have hwrite := FileTree.exists_write_child_iff h.formed.root h.made hname content
  rw [← Path.location_child hname] at hfile hwrite
  simp only [← Path.location_child hname, hfile] at hread
  -- fitting is put in terms of the two operations, so that each outcome of a run decides it
  have hfits : tree.AllFit fuel (source.child name) (goal.child name) ↔
      tree.read (source.child name) = .ok content ∧
        ∃ after, tree.write (goal.child name) content = .ok after := by
    rw [allFit_file_iff hfile, hread, hwrite]
    simp
  unfold Copies copyEntry
  cases hrun : tree.read (source.child name) with
  | error e => simp [ask, hrun, bind, EStateM.bind, hfits]
  | ok found =>
    obtain rfl : content = found := by
      have hfound := ((hread found).mp hrun).2
      simpa using hfound
    cases hwritten : tree.write (goal.child name) content with
    | error e => simp [ask, write, step, hrun, hwritten, bind, EStateM.bind, hfits]
    | ok after =>
      have hfit := hfits.mpr ⟨hrun, after, hwritten⟩
      simpa [ask, write, step, hrun, hwritten, bind, EStateM.bind, pure, EStateM.pure] using
        copied_file h.formed.root hfile hfit hwritten

/-- A copy can go on after an entry has been copied. -/
theorem copying_next {count : Nat} (h : Copying tree source goal)
    (hcopied : Copied fuel (source.child name) (goal.child name) tree after count)
    (hafter : regular.holds after) : Copying after source goal := by
  have hheld : ∀ {p : Path}, tree.holdsDirectory p = true → after.holdsDirectory p = true := by
    intro p hp
    obtain ⟨husable, hpasses⟩ := (FileTree.holdsDirectory_iff h.formed.root).mp hp
    exact (FileTree.holdsDirectory_iff hafter.1.root).mpr
      ⟨husable, fun place hplace => hcopied.stands (hpasses place hplace)⟩
  exact ⟨hafter.1, hafter.2, h.absolute, hheld h.held, hheld h.made, h.outside, h.apart⟩

/-- Entries are copied one after the other: if each does what it should, all of them do. -/
theorem copyEntries_spec (fuel : Nat) {todo : Fields FileTree}
    (hstep : ∀ {tree : FileTree} {entry : String × FileTree}, Copying tree source goal →
      IsName entry.1 →
      tree.kind? (source.location ++ [entry.1]) = some entry.2.content? →
      Copies (copyEntry fuel source goal entry) fuel (source.child entry.1)
        (goal.child entry.1) tree)
    (htree : Copying tree source goal) (hnames : ∀ entry ∈ todo, IsName entry.1)
    (hkinds : ∀ entry ∈ todo, tree.kind? (source.location ++ [entry.1]) = some entry.2.content?)
    (hnodup : todo.names.Nodup) (start : Nat) :
    match copyEntries fuel source goal todo start tree with
    | .ok total after =>
      ∃ count, total = start + count ∧ CopiedAll fuel source goal todo tree after count
    | .error _ _ =>
      ¬ ∀ entry ∈ todo, tree.AllFit fuel (source.child entry.1) (goal.child entry.1) := by
  -- on the entries that are left: after each round the tree is one in which a copy can go on
  induction todo generalizing tree start with
  | nil =>
    refine ⟨0, rfl, fun _ _ => rfl, by simp, by simp, [], List.nodup_nil, rfl, by simp⟩
  | cons first rest ih =>
    have hname := hnames first List.mem_cons_self
    have hfirst := hstep htree hname (hkinds first List.mem_cons_self)
    rw [copyEntries_cons]
    have hkeeps : regular.Keeps (copyEntry fuel source goal first) :=
      regular_copyEntry htree.absolute first
    have hmiddle := hkeeps tree ⟨htree.formed, htree.ordered⟩
    unfold Copies at hfirst
    cases hcopy : copyEntry fuel source goal first tree with
    | error e middle =>
      rw [hcopy] at hfirst
      exact fun hall => hfirst (hall first List.mem_cons_self)
    | ok more middle =>
      rw [hcopy] at hfirst hmiddle
      -- the entries that are left stand in the source as they did before the round
      have hsource := hfirst.kind?_source hname htree.outside htree.apart
      have hrest := ih (copying_next htree hfirst hmiddle.1.1)
        (fun entry hentry => hnames entry (List.mem_cons_of_mem _ hentry))
        (fun entry hentry => (hsource _).trans (hkinds entry (List.mem_cons_of_mem _ hentry)))
        (List.nodup_cons.mp hnodup).2 (start + more)
      dsimp only
      cases hothers : copyEntries fuel source goal rest (start + more) middle with
      | error e after =>
        rw [hothers] at hrest
        -- an entry that fits at first still does after the round, as it has another name
        refine fun hall => hrest fun entry hentry => ?_
        have hne : first.1 ≠ entry.1 := fun heq =>
          (List.nodup_cons.mp hnodup).1 (heq ▸ List.mem_map_of_mem hentry)
        exact (hfirst.allFit_iff hname (hnames entry (List.mem_cons_of_mem _ hentry)) hne
          htree.outside htree.apart).mpr (hall entry (List.mem_cons_of_mem _ hentry))
      | ok total after =>
        rw [hothers] at hrest
        obtain ⟨count, htotal, hall⟩ := hrest
        exact ⟨more + count, htotal.trans (Nat.add_assoc ..),
          hall.cons hnames hnodup htree.outside htree.apart hfirst⟩

/-! ### Copying directories

The goal of a copy is made first. It is a directory that is there, or the next entry of one; in both
cases it takes one step to make it (`Makable`), so the copies of subdirectories are like that of the
whole. The induction is on the number of directories that a copy may go through. -/

/-- Whether a directory can be made with one step: it fails only for its path or a file. -/
structure Makable (tree : FileTree) (goal : Path) : Prop where
  exists_iff : (∃ after, makeDirectories goal tree = .ok () after) ↔
    goal.Usable ∧ ∀ content, tree.kind? goal.location ≠ some (some content)
  kind : ∀ after, makeDirectories goal tree = .ok () after → ∀ place,
    after.kind? place = if place = goal.location then some none else tree.kind? place

theorem makable_of_holdsDirectory (htree : tree.WellFormed) (hgoal : goal.isAbsolute = true)
    (hheld : tree.holdsDirectory goal = true) : Makable tree goal := by
  have hmake := makeDirectories_of_holdsDirectory hgoal htree hheld
  obtain ⟨husable, hpasses⟩ := (FileTree.holdsDirectory_iff htree.root).mp hheld
  have hlocation := hpasses _ goal.passes_location
  refine ⟨⟨fun _ => ⟨husable, fun content hfile => ?_⟩, fun _ => ⟨tree, hmake⟩⟩,
    fun after hafter place => ?_⟩
  · rw [hlocation] at hfile
    cases hfile
  · rw [hmake] at hafter
    cases hafter
    split
    · rename_i heq
      rw [heq, hlocation]
    · rfl

theorem makable_child (h : Copying tree source goal) (hname : IsName name) :
    Makable tree (goal.child name) := by
  constructor
  · rw [exists_makeDirectories_child_iff h.absolute h.formed h.made hname,
      Path.location_child hname]
  · intro after hafter place
    rw [Path.location_child hname]
    exact kind?_makeDirectories_child h.absolute h.formed h.made hname hafter place

/-- What a directory lists are its entries, each name once. -/
theorem entries_of_list (htree : tree.WellFormed ∧ tree.Ordered) {entries : Fields FileTree}
    (hentries : tree.at? source.location = some (.directory entries)) :
    (∀ entry ∈ entries, IsName entry.1 ∧
      tree.kind? (source.location ++ [entry.1]) = some entry.2.content?) ∧
      entries.names.Nodup := by
  have hascending : Fields.Ascending entries := (htree.2.at? hentries).entries.1
  refine ⟨fun entry hentry => ?_, hascending.nodup_names⟩
  have hkind : tree.kind? (source.location ++ [entry.1]) = some entry.2.content? := by
    rw [FileTree.kind?, FileTree.at?_append, hentries, Option.bind_some,
      FileTree.at?_directory, hascending.get?_of_mem hentry]
    rfl
  exact ⟨htree.1.names _ (by rw [hkind]; rfl) entry.1 (by simp), hkind⟩

/-- Where a copy of a directory can start: the source is a directory, and the goal is one or can be
made one with a step. Nothing is said of the source's path, which may be too long to be used. -/
structure CopyStart (tree : FileTree) (source goal : Path) : Prop where
  formed : tree.WellFormed
  ordered : tree.Ordered
  absolute : goal.isAbsolute = true
  passes : ∀ place, source.Passes place → tree.kind? place = some none
  makable : Makable tree goal
  outside : ¬ goal.location <+: source.location
  apart : ¬ source.location <+: goal.location

/-- An entry that is a directory is copied as directories are. -/
theorem copyStart_child (h : Copying tree source goal) (hname : IsName name)
    (hdirectory : tree.kind? (source.location ++ [name]) = some none) :
    CopyStart tree (source.child name) (goal.child name) := by
  obtain ⟨-, hplaces⟩ := (FileTree.holdsDirectory_iff h.formed.root).mp h.held
  refine ⟨h.formed, h.ordered, Path.isAbsolute_join h.absolute, fun place hplace => ?_,
    makable_child h hname, ?_, ?_⟩
  · rcases (Path.passes_child_iff hname).mp hplace with hbefore | rfl
    · exact hplaces place hbefore
    · exact hdirectory
  · rw [Path.location_child hname, Path.location_child hname]
    exact FileTree.not_prefix_append h.outside h.apart _ _
  · rw [Path.location_child hname, Path.location_child hname]
    exact FileTree.not_prefix_append h.apart h.outside _ _

namespace CopyStart

variable {made : FileTree}

theorem root (h : CopyStart tree source goal) : tree.kind? source.location = some none :=
  h.passes _ source.passes_location

theorem regular_made (h : CopyStart tree source goal)
    (hmake : makeDirectories goal tree = .ok () made) : made.WellFormed ∧ made.Ordered :=
  (regular_makeDirectories h.absolute).holds_of_ok hmake ⟨h.formed, h.ordered⟩

/-- With the goal made the source is still there, so it can be listed if its path can be used. -/
theorem holdsDirectory_made (h : CopyStart tree source goal)
    (hmake : makeDirectories goal tree = .ok () made) (husable : source.Usable) :
    made.holdsDirectory source = true := by
  refine (FileTree.holdsDirectory_iff (h.regular_made hmake).1.root).mpr
    ⟨husable, fun place hplace => ?_⟩
  rw [h.makable.kind made hmake]
  split
  · rfl
  · exact h.passes place hplace

theorem copying_made (h : CopyStart tree source goal)
    (hmake : makeDirectories goal tree = .ok () made)
    (hheld : made.holdsDirectory source = true) : Copying made source goal :=
  ⟨(h.regular_made hmake).1, (h.regular_made hmake).2, h.absolute, hheld,
    holdsDirectory_makeDirectories h.absolute h.formed hmake, h.outside, h.apart⟩

end CopyStart

/-- With its goal made a directory is copied if its entries are, those among them that are
directories included. -/
theorem copies_entries {made : FileTree} {entries : Fields FileTree}
    (h : CopyStart tree source goal) (hmake : makeDirectories goal tree = .ok () made)
    (hlist : made.list source = .ok entries)
    (hcopies : ∀ {tree : FileTree} {source goal : Path}, CopyStart tree source goal →
      Copies (copyWith fuel source goal) fuel source goal tree) :
    match copyEntries fuel source goal entries 0 made with
    | .ok count after => Copied (fuel + 1) source goal tree after count
    | .error _ _ => ¬ tree.AllFit (fuel + 1) source goal := by
  have hmade := h.regular_made hmake
  have hkind := h.makable.kind made hmake
  obtain ⟨hheld, hentries⟩ := FileTree.list_eq_ok_iff.mp hlist
  obtain ⟨hall, hnodup⟩ := entries_of_list hmade hentries
  have hspec := copyEntries_spec fuel (fun {tree entry} htree hname hentry => by
    obtain ⟨name, entry⟩ := entry
    cases entry with
    | file content => exact copies_file htree hname hentry content
    | directory below => exact hcopies (copyStart_child htree hname hentry))
    (h.copying_made hmake hheld) (fun entry hentry => (hall entry hentry).1)
    (fun entry hentry => (hall entry hentry).2) hnodup 0
  -- all fit if and only if the source and the goal do and each entry does with the goal made
  have hiff := FileTree.allFit_succ_iff fuel hentries (fun entry hentry => (hall entry hentry).1)
    (fun place hplace => (hkind place).trans (if_neg hplace)) h.apart
  cases hcopy : copyEntries fuel source goal entries 0 made with
  | error e failed =>
    rw [hcopy] at hspec
    exact fun hfit => hspec (hiff.mp hfit).2.2.2
  | ok total after =>
    rw [hcopy] at hspec
    obtain ⟨count, htotal, hcopied⟩ := hspec
    obtain rfl : total = count := htotal.trans (Nat.zero_add _)
    have husable := ((FileTree.holdsDirectory_iff hmade.1.root).mp hheld).1
    have hmakable := h.makable.exists_iff.mp ⟨made, hmake⟩
    -- the goal was made and all entries were copied, so all fitted
    exact hcopied.directory hentries hkind h.apart
      (hiff.mpr ⟨husable, hmakable.1, hmakable.2, hcopied.fit⟩)

/-- **A copy does all of its work if all fits, and fails otherwise.** -/
theorem copies_copyWith (fuel : Nat) {tree : FileTree} {source goal : Path}
    (h : CopyStart tree source goal) :
    Copies (copyWith fuel source goal) fuel source goal tree := by
  induction fuel generalizing tree source goal with
  | zero =>
    -- no directory fits if the copy goes through none
    intro hfit
    have hroot := h.root
    have hshallow := (hfit [] none (by rwa [List.append_nil])).shallow rfl
    cases hshallow
  | succ fuel ih =>
    unfold Copies
    rw [copyWith_succ]
    simp only [bind, EStateM.bind]
    cases hmake : makeDirectories goal tree with
    | error e failed =>
      -- the goal could have been made if everything fitted
      intro hfit
      obtain ⟨after, hafter⟩ := h.makable.exists_iff.mpr (hfit.at_root h.root).2
      rw [hmake] at hafter
      cases hafter
    | ok _ made =>
      dsimp only [ask]
      cases hlist : made.list source with
      | error e =>
        -- the source is a directory that is there, so that its entries could have been listed
        intro hfit
        have hheld := h.holdsDirectory_made hmake (hfit.at_root h.root).1
        obtain ⟨entries, hentries⟩ := FileTree.kind?_eq_directory.mp
          (((FileTree.holdsDirectory_iff (h.regular_made hmake).1.root).mp hheld).2 _
            source.passes_location)
        rw [FileTree.list_eq_ok_iff.mpr ⟨hheld, hentries⟩] at hlist
        cases hlist
      | ok entries => exact copies_entries h hmake hlist ih

/-- No directory is too deep for a copy if all paths can be used. -/
theorem allFit_iff_copyable (htree : tree.WellFormed) :
    tree.AllFit (maxPathBytes + 2) source goal ↔ tree.Copyable source goal := by
  constructor
  · intro h
    exact ⟨fun rest new hnew => ⟨(h rest new hnew).readable, (h rest new hnew).writable⟩,
      fun rest new old hnew => (h rest new hnew).alike old⟩
  · intro h rest new hnew
    obtain ⟨hsource, hgoal⟩ := h.usable rest new hnew
    refine ⟨hsource, hgoal, fun old hold => h.alike rest new old hnew hold, fun _ => ?_⟩
    have hnames : ∀ name ∈ rest, IsName name := fun name hname =>
      htree.names _ (by rw [hnew]; rfl) name (List.mem_append_right _ hname)
    have hlength := Path.length_le_size_below (p := source) hnames
    have hsize := hsource.size_le
    omega

/-- **What copying a directory does.** If the source and the goal are directories that are there and
neither of them is inside of the other, then the copy succeeds if and only if what is in the source
can be copied. Then all of it is in the goal, nothing is changed elsewhere, and the number of files
is returned. -/
theorem copy_spec (htree : tree.WellFormed ∧ tree.Ordered) (habsolute : goal.isAbsolute = true)
    (hsource : tree.holdsDirectory source = true) (hgoal : tree.holdsDirectory goal = true)
    (hout : ¬ goal.location <+: source.location) (hapart : ¬ source.location <+: goal.location) :
    match copy source goal tree with
    | .ok count after => tree.Copyable source goal ∧
        FileTree.Overlaid source.location goal.location tree after ∧
        Counts count fun rest => tree.HasFile (source.location ++ rest)
    | .error _ _ => ¬ tree.Copyable source goal := by
  have hcopies := copies_copyWith (maxPathBytes + 2) ⟨htree.1, htree.2, habsolute,
    ((FileTree.holdsDirectory_iff htree.1.root).mp hsource).2,
    makable_of_holdsDirectory htree.1 habsolute hgoal, hout, hapart⟩
  unfold Copies at hcopies
  unfold copy
  rw [← allFit_iff_copyable htree.1]
  cases hrun : copyWith (maxPathBytes + 2) source goal tree with
  | ok count after =>
    rw [hrun] at hcopies
    exact ⟨hcopies.fit, hcopies.toOverlaid, hcopies.counted⟩
  | error e after =>
    rw [hrun] at hcopies
    exact hcopies

/-! ### The depth of a copy

Copies are defined by recursion on how deep they may go. Each directory makes the path of the goal
longer, and a path that is too long cannot be used, so a greater depth changes nothing. -/

/-- Entries are copied in the same way whatever the depth, if each of them is. -/
theorem copyEntries_congr {other : Nat} {entries : Fields FileTree}
    (htree : tree.WellFormed ∧ tree.Ordered) (habsolute : goal.isAbsolute = true)
    (hnames : ∀ entry ∈ entries, IsName entry.1)
    (hsame : ∀ {tree : FileTree} {name : String}, tree.WellFormed ∧ tree.Ordered → IsName name →
      copyWith fuel (source.child name) (goal.child name) tree =
        copyWith other (source.child name) (goal.child name) tree) (start : Nat) :
    copyEntries fuel source goal entries start tree =
      copyEntries other source goal entries start tree := by
  -- both copies are in the same tree after each round
  induction entries generalizing tree start with
  | nil => rfl
  | cons first rest ih =>
    have hname := hnames first List.mem_cons_self
    have hfirst : copyEntry fuel source goal first tree =
        copyEntry other source goal first tree := by
      obtain ⟨name, entry⟩ := first
      cases entry with
      | directory below => exact hsame htree hname
      | file content => rfl
    have hkeeps : regular.Keeps (copyEntry other source goal first) :=
      regular_copyEntry habsolute first
    have hmiddle := hkeeps tree htree
    rw [copyEntries_cons, copyEntries_cons, hfirst]
    cases hrun : copyEntry other source goal first tree with
    | error e middle => rfl
    | ok more middle =>
      rw [hrun] at hmiddle
      exact ih hmiddle.1.1 (fun entry hentry => hnames entry (List.mem_cons_of_mem _ hentry)) _

/-- A copy that may go through more directories than its path has bytes left may as well go through
one more. -/
theorem copyWith_succ_eq (htree : tree.WellFormed ∧ tree.Ordered)
    (habsolute : goal.isAbsolute = true) (hlong : maxPathBytes < goal.size + fuel) :
    copyWith (fuel + 2) source goal tree = copyWith (fuel + 1) source goal tree := by
  induction fuel generalizing tree source goal with
  | zero =>
    rw [copyWith_succ, copyWith_succ]
    simp only [bind, EStateM.bind]
    cases hmake : makeDirectories goal tree with
    | error e failed => rfl
    | ok _ made =>
      -- a path that is too long has no directory
      have hheld := holdsDirectory_makeDirectories habsolute htree.1 hmake
      have hmade := (regular_makeDirectories habsolute).holds_of_ok hmake htree
      have hsize := ((FileTree.holdsDirectory_iff hmade.1.root).mp hheld).1.size_le
      omega
  | succ fuel ih =>
    rw [copyWith_succ, copyWith_succ]
    simp only [bind, EStateM.bind]
    cases hmake : makeDirectories goal tree with
    | error e failed => rfl
    | ok _ made =>
      have hmade : made.WellFormed ∧ made.Ordered :=
        (regular_makeDirectories habsolute).holds_of_ok hmake htree
      dsimp only [ask]
      cases hlist : made.list source with
      | error e => rfl
      | ok entries =>
        have hall := (entries_of_list hmade (FileTree.list_eq_ok_iff.mp hlist).2).1
        -- the goal of an entry is longer than that of the directory, and one level of depth is used
        -- up
        refine copyEntries_congr hmade habsolute (fun entry hentry => (hall entry hentry).1)
          (fun htree hname => ih htree (Path.isAbsolute_join habsolute) ?_) 0
        have hsize := goal.size_child hname
        omega

/-- The depth to which a copy may go is no limit of its own. -/
theorem copyWith_eq_copy (htree : tree.WellFormed ∧ tree.Ordered)
    (habsolute : goal.isAbsolute = true) (hfuel : maxPathBytes + 2 ≤ fuel) :
    copyWith fuel source goal tree = copy source goal tree := by
  induction hfuel with
  | refl => rfl
  | @step fuel hle ih =>
    have hmore : maxPathBytes + 2 ≤ fuel := hle
    obtain ⟨less, rfl⟩ : ∃ less, fuel = less + 1 := ⟨fuel - 1, by omega⟩
    rw [copyWith_succ_eq htree habsolute (by omega), ih]

end FileTask

end StaticSite
