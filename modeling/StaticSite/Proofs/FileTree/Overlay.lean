import StaticSite.Proofs.FileTree.Growth
import StaticSite.Proofs.FileTree.Order
import StaticSite.Proofs.FileTree.Reach
/-!
# StaticSite.Proofs.FileTree.Overlay

What a copy of a directory comes to, seen place by place. What is in the source can be copied if all
paths on the way can be used and nothing of another kind stands where a file or a directory goes
(`FileTree.Copyable`); then all of it lies over what is in the goal (`FileTree.Overlaid`). **A
directory is copied if its entries are, one after the other** (`FileTree.allFit_succ_iff`,
`FileTree.CopiedAll.cons`, `FileTree.CopiedAll.directory`).
-/

set_option autoImplicit false

namespace StaticSite

/-! ### Paths below a path -/

namespace Path

variable {p : Path} {name : String} {rest : Place}

/-- The path of what is at a place below another. -/
def below (p : Path) (rest : Place) : Path := rest.foldl child p

/-- The bytes of a path. -/
def size (p : Path) : Nat := p.toString.utf8ByteSize

theorem size_child (p : Path) (h : IsName name) : p.size < (p.child name).size := by
  have hname : 0 < name.utf8ByteSize :=
    Nat.pos_of_ne_zero fun hzero => h.1 (String.utf8ByteSize_eq_zero_iff.mp hzero)
  have hsize : ∀ middle : List Char,
      p.size < (String.ofList (p.chars ++ (middle ++ name.toList))).utf8ByteSize := by
    intro middle
    rw [String.ofList_append, String.ofList_append, String.ofList_toList,
      String.utf8ByteSize_append, String.utf8ByteSize_append]
    change p.toString.utf8ByteSize < p.toString.utf8ByteSize + _
    omega
  unfold child join
  rw [if_neg (by simp [isAbsolute_ofString_name h])]
  split
  · exact hsize []
  · exact hsize ['/']

/-- Each name makes a path longer. -/
theorem length_le_size_below (h : ∀ name ∈ rest, IsName name) :
    rest.length + p.size ≤ (p.below rest).size := by
  induction rest generalizing p with
  | nil => exact Nat.le_of_eq (Nat.zero_add _)
  | cons name rest ih =>
    have hchild := p.size_child (h name List.mem_cons_self)
    have hrest := ih (p := p.child name) fun n hn => h n (List.mem_cons_of_mem _ hn)
    change _ ≤ ((p.child name).below rest).size
    rw [List.length_cons]
    omega

theorem Usable.size_le (h : p.Usable) : p.size ≤ maxPathBytes := by
  have hlength := h.length
  unfold isTooLong at hlength
  rw [decide_eq_false_iff_not] at hlength
  exact Nat.not_lt.mp hlength

end Path

/-! ### What can be copied, and what comes of it

`Copyable` and `Overlaid` speak of all places below the two directories at once. A copy goes through
them entry by entry and level by level, so they are stated with a bound on the depth as well
(`AllFit`, `Copied`), and brought down to the entries of a directory. -/

/-- Whether there are just so many places of a kind. -/
def Counts (number : Nat) (P : Place → Prop) : Prop :=
  ∃ places : List Place, places.Nodup ∧ places.length = number ∧ ∀ place, place ∈ places ↔ P place

namespace FileTree

variable {tree before after : FileTree} {source goal : Path} {name : String} {fuel : Nat}

/-- Whether what is below `source` can be copied to below `goal`: the paths there can be used, and
no file goes where a directory is and no directory where a file is. -/
structure Copyable (tree : FileTree) (source goal : Path) : Prop where
  usable : ∀ rest new, tree.kind? (source.location ++ rest) = some new →
    (source.below rest).Usable ∧ (goal.below rest).Usable
  alike : ∀ rest new old, tree.kind? (source.location ++ rest) = some new →
    tree.kind? (goal.location ++ rest) = some old → new.isSome = old.isSome

/-- Whether all that was below `source` is below `goal`, with what else was there, and all other
places are as they were. -/
structure Overlaid (source goal : Place) (before after : FileTree) : Prop where
  outside : ∀ place, ¬ goal <+: place → after.kind? place = before.kind? place
  inside : ∀ rest, after.kind? (goal ++ rest) =
    (before.kind? (source ++ rest)).or (before.kind? (goal ++ rest))

/-- Whether `new`, which stands at a place below `source`, can be copied by a copy that goes through
`fuel` directories. -/
structure Fits (fuel : Nat) (tree : FileTree) (source goal : Path) (rest : Place)
    (new : Option ByteArray) : Prop where
  readable : (source.below rest).Usable
  writable : (goal.below rest).Usable
  alike : ∀ old, tree.kind? (goal.location ++ rest) = some old → new.isSome = old.isSome
  shallow : new = none → rest.length < fuel

/-- Whether all that stands below `source` can be copied. -/
def AllFit (fuel : Nat) (tree : FileTree) (source goal : Path) : Prop :=
  ∀ rest new, tree.kind? (source.location ++ rest) = some new → Fits fuel tree source goal rest new

/-- What a copy has done. -/
structure Copied (fuel : Nat) (source goal : Path) (before after : FileTree) (count : Nat) : Prop
    extends Overlaid source.location goal.location before after where
  fit : before.AllFit fuel source goal
  counted : Counts count fun rest => before.HasFile (source.location ++ rest)

/-- Where a copy can go on: from a directory that is there to another, neither of them inside of the
other, in a tree as there can be one. -/
structure Copying (tree : FileTree) (source goal : Path) : Prop where
  formed : tree.WellFormed
  ordered : tree.Ordered
  absolute : goal.isAbsolute = true
  held : tree.holdsDirectory source = true
  made : tree.holdsDirectory goal = true
  outside : ¬ goal.location <+: source.location
  apart : ¬ source.location <+: goal.location

theorem not_prefix_append {first second : Place} (h : ¬ first <+: second)
    (hother : ¬ second <+: first) (rest more : Place) : ¬ first ++ more <+: second ++ rest := by
  intro hunder
  rcases List.prefix_or_prefix_of_prefix ((List.prefix_append _ _).trans hunder)
    (List.prefix_append second rest) with hfirst | hsecond
  · exact h hfirst
  · exact hother hsecond

/-- Directories stay: nothing but a directory goes where one is. -/
theorem Copied.stands {count : Nat} (h : Copied fuel source goal before after count) {place : Place}
    (hplace : before.kind? place = some none) : after.kind? place = some none := by
  by_cases hunder : goal.location <+: place
  · obtain ⟨rest, rfl⟩ := hunder
    rw [h.inside, hplace]
    cases hnew : before.kind? (source.location ++ rest) with
    | none => rfl
    | some new =>
      have halike := (h.fit rest new hnew).alike none hplace
      cases new with
      | none => rfl
      | some content => cases halike
  · rw [h.outside place hunder, hplace]

/-- Two trees with the same below the source and the goal are alike for a copy. -/
theorem AllFit.congr (h : AllFit fuel before source goal)
    (hsource : ∀ rest, after.kind? (source.location ++ rest) =
      before.kind? (source.location ++ rest))
    (hgoal : ∀ rest, after.kind? (goal.location ++ rest) = before.kind? (goal.location ++ rest)) :
    AllFit fuel after source goal := by
  intro rest new hnew
  have hfits := h rest new (hsource rest ▸ hnew)
  exact ⟨hfits.readable, hfits.writable, fun old hold => hfits.alike old (hgoal rest ▸ hold),
    hfits.shallow⟩

/-- What fits at a source that is a directory: its path, the path of the goal, and no file is in the
place of that. -/
theorem AllFit.at_root (h : AllFit fuel tree source goal)
    (hroot : tree.kind? source.location = some none) :
    source.Usable ∧ goal.Usable ∧ ∀ content, tree.kind? goal.location ≠ some (some content) := by
  have hfits := h [] none (by rwa [List.append_nil])
  refine ⟨hfits.readable, hfits.writable, fun content hfile => ?_⟩
  cases hfits.alike (some content) (by rwa [List.append_nil])

theorem location_child_append (p : Path) (hname : IsName name) (rest : Place) :
    (p.child name).location ++ rest = p.location ++ name :: rest := by
  rw [Path.location_child hname, List.append_assoc, List.singleton_append]

/-- What stands below a directory stands below one of its entries. -/
theorem exists_entry_of_kind? {entries : Fields FileTree} {place rest : Place}
    (hentries : tree.at? place = some (directory entries)) {new : Option ByteArray}
    (h : tree.kind? (place ++ name :: rest) = some new) : ∃ entry ∈ entries, entry.1 = name := by
  rw [kind?, at?_append, hentries, Option.bind_some, at?_directory] at h
  cases hget : entries.get? name with
  | none =>
    rw [hget] at h
    cases h
  | some entry => exact ⟨_, Fields.mem_of_get? hget, rfl⟩

/-- The source is as it was when the goal has been made, since the goal is not inside of it. -/
theorem kind?_source_of_made {made : FileTree}
    (hsame : ∀ place, place ≠ goal.location → made.kind? place = tree.kind? place)
    (hapart : ¬ source.location <+: goal.location) (rest : Place) :
    made.kind? (source.location ++ rest) = tree.kind? (source.location ++ rest) :=
  hsame _ fun heq => hapart (heq ▸ List.prefix_append _ _)

/-- What stands below a directory fits if it fits as part of its entry. -/
theorem fits_cons_iff {made : FileTree}
    (hsame : ∀ place, place ≠ goal.location → made.kind? place = tree.kind? place)
    (hname : IsName name) {rest : Place} {new : Option ByteArray} :
    Fits (fuel + 1) tree source goal (name :: rest) new ↔
      Fits fuel made (source.child name) (goal.child name) rest new := by
  have hgoal : made.kind? ((goal.child name).location ++ rest) =
      tree.kind? (goal.location ++ name :: rest) := by
    rw [location_child_append goal hname]
    exact hsame _ (by simp)
  constructor
  · intro h
    exact ⟨h.readable, h.writable, fun old hold => h.alike old (hgoal ▸ hold),
      fun hnew => Nat.lt_of_succ_lt_succ (h.shallow hnew)⟩
  · intro h
    exact ⟨h.readable, h.writable, fun old hold => h.alike old (hgoal.trans hold),
      fun hnew => Nat.succ_lt_succ (h.shallow hnew)⟩

/-- A directory can be copied if its goal can be made and its entries can be copied into that. -/
theorem allFit_succ_iff (fuel : Nat) {made : FileTree} {entries : Fields FileTree}
    (hentries : made.at? source.location = some (directory entries))
    (hnames : ∀ entry ∈ entries, IsName entry.1)
    (hsame : ∀ place, place ≠ goal.location → made.kind? place = tree.kind? place)
    (hapart : ¬ source.location <+: goal.location) :
    AllFit (fuel + 1) tree source goal ↔
      source.Usable ∧ goal.Usable ∧
        (∀ content, tree.kind? goal.location ≠ some (some content)) ∧
        ∀ entry ∈ entries, AllFit fuel made (source.child entry.1) (goal.child entry.1) := by
  have hsource := kind?_source_of_made hsame hapart
  have hroot : tree.kind? source.location = some none := by
    rw [← List.append_nil source.location, ← hsource, List.append_nil]
    exact kind?_eq_directory.mpr ⟨entries, hentries⟩
  constructor
  · intro h
    obtain ⟨hsourceUsable, hgoalUsable, hfile⟩ := h.at_root hroot
    refine ⟨hsourceUsable, hgoalUsable, hfile, fun entry hentry rest new hnew => ?_⟩
    have hname := hnames entry hentry
    rw [location_child_append source hname, hsource] at hnew
    exact (fits_cons_iff hsame hname).mp (h (entry.1 :: rest) new hnew)
  · -- what stands below the source is the source itself or stands below an entry
    rintro ⟨hsourceUsable, hgoalUsable, hfile, hall⟩ rest new hnew
    cases rest with
    | nil =>
      rw [List.append_nil, hroot] at hnew
      cases hnew
      refine ⟨hsourceUsable, hgoalUsable, fun old hold => ?_, fun _ => Nat.succ_pos fuel⟩
      rw [List.append_nil] at hold
      cases old with
      | none => rfl
      | some content => exact absurd hold (hfile content)
    | cons name rest =>
      rw [← hsource] at hnew
      obtain ⟨entry, hentry, rfl⟩ := exists_entry_of_kind? hentries hnew
      have hname := hnames entry hentry
      rw [← location_child_append source hname] at hnew
      exact (fits_cons_iff hsame hname).mpr (hall entry hentry rest new hnew)

theorem kind?_below_file {place : Place} {content : ByteArray}
    (h : tree.kind? place = some (some content)) (name : String) (rest : Place) :
    tree.kind? (place ++ name :: rest) = none := by
  rw [kind?, at?_append, kind?_eq_file.mp h, Option.bind_some,
    at?_cons_of_no_entries (by rfl)]
  rfl

/-- What a copy of some entries of a directory has done. -/
structure CopiedAll (fuel : Nat) (source goal : Path) (todo : Fields FileTree)
    (before after : FileTree) (count : Nat) : Prop where
  outside : ∀ place, (∀ entry ∈ todo, ¬ goal.location ++ [entry.1] <+: place) →
    after.kind? place = before.kind? place
  inside : ∀ entry ∈ todo, ∀ rest, after.kind? (goal.location ++ entry.1 :: rest) =
    (before.kind? (source.location ++ entry.1 :: rest)).or
      (before.kind? (goal.location ++ entry.1 :: rest))
  fit : ∀ entry ∈ todo, before.AllFit fuel (source.child entry.1) (goal.child entry.1)
  counted : Counts count fun place =>
    (∃ entry ∈ todo, place.head? = some entry.1) ∧ before.HasFile (source.location ++ place)

end FileTree

/-! ### Counting

The number that a copy returns is the number of files below the source. As a list of places without
repetition it splits by the first name, as the sum over the entries does. -/

theorem Counts.congr {number : Nat} {P Q : Place → Prop} (h : Counts number P)
    (hiff : ∀ place, P place ↔ Q place) : Counts number Q := by
  obtain ⟨places, hnodup, hlength, hmem⟩ := h
  exact ⟨places, hnodup, hlength, fun place => (hmem place).trans (hiff place)⟩

/-- The places that start with a name are counted without it, apart from those that do not. -/
theorem Counts.add {first others : Nat} (name : String) {P : Place → Prop}
    (hfirst : Counts first fun rest => P (name :: rest))
    (hothers : Counts others fun place => P place ∧ place.head? ≠ some name) :
    Counts (first + others) P := by
  obtain ⟨below, hbelow, rfl, hmemBelow⟩ := hfirst
  obtain ⟨rest, hrest, rfl, hmemRest⟩ := hothers
  refine ⟨below.map (name :: ·) ++ rest, ?_, by simp, fun place => ?_⟩
  · refine List.nodup_append.mpr ⟨?_, hrest, ?_⟩
    · exact List.Pairwise.map _ (fun _ _ hne heq => hne (List.cons.inj heq).2) hbelow
    · rintro _ hplace other hother rfl
      obtain ⟨tail, -, rfl⟩ := List.mem_map.mp hplace
      exact ((hmemRest _).mp hother).2 rfl
  · rw [List.mem_append, List.mem_map, hmemRest]
    constructor
    · rintro (⟨tail, htail, rfl⟩ | hplace)
      · exact (hmemBelow tail).mp htail
      · exact hplace.1
    · intro hplace
      by_cases hhead : place.head? = some name
      · obtain ⟨tail, rfl⟩ := List.head?_eq_some_iff.mp hhead
        exact .inl ⟨tail, (hmemBelow tail).mpr hplace, rfl⟩
      · exact .inr ⟨hplace, hhead⟩

namespace FileTree

variable {tree before middle after : FileTree} {source goal : Path} {name : String} {fuel : Nat}

/-- Names of one directory lead to places apart. -/
theorem child_not_prefix {place rest : Place} {other : String} (h : name ≠ other) :
    ¬ place ++ [name] <+: place ++ other :: rest := by
  rw [List.prefix_append_right_inj]
  exact fun hunder => h (List.cons_prefix_cons.mp hunder).1

/-- Nothing happens to the source when an entry is copied. -/
theorem Copied.kind?_source {count : Nat} (hname : IsName name)
    (hout : ¬ goal.location <+: source.location) (hapart : ¬ source.location <+: goal.location)
    (h : Copied fuel (source.child name) (goal.child name) before after count) (rest : Place) :
    after.kind? (source.location ++ rest) = before.kind? (source.location ++ rest) := by
  refine h.outside _ ?_
  rw [Path.location_child hname]
  exact not_prefix_append hout hapart rest [name]

/-- Nothing happens to the other entries of the goal when an entry is copied. -/
theorem Copied.kind?_other {count : Nat} {other : String} (hname : IsName name)
    (hne : name ≠ other) (h : Copied fuel (source.child name) (goal.child name) before after count)
    (rest : Place) :
    after.kind? (goal.location ++ other :: rest) =
      before.kind? (goal.location ++ other :: rest) := by
  refine h.outside _ ?_
  rw [Path.location_child hname]
  exact child_not_prefix hne

/-- Other entries fit as before when an entry is copied. -/
theorem Copied.allFit_iff {count : Nat} {other : String} (hname : IsName name)
    (hother : IsName other) (hne : name ≠ other)
    (hout : ¬ goal.location <+: source.location) (hapart : ¬ source.location <+: goal.location)
    (h : Copied fuel (source.child name) (goal.child name) before after count) :
    after.AllFit fuel (source.child other) (goal.child other) ↔
      before.AllFit fuel (source.child other) (goal.child other) := by
  have hsource : ∀ rest, after.kind? ((source.child other).location ++ rest) =
      before.kind? ((source.child other).location ++ rest) := by
    intro rest
    rw [location_child_append source hother, h.kind?_source hname hout hapart]
  have hgoal : ∀ rest, after.kind? ((goal.child other).location ++ rest) =
      before.kind? ((goal.child other).location ++ rest) := by
    intro rest
    rw [location_child_append goal hother, h.kind?_other hname hne]
  exact ⟨fun hfit => hfit.congr (fun rest => (hsource rest).symm) fun rest => (hgoal rest).symm,
    fun hfit => hfit.congr hsource hgoal⟩

/-- A copy of one entry and then of others is a copy of all of them. -/
theorem CopiedAll.cons {first : String × FileTree} {rest : Fields FileTree} {more count : Nat}
    (hnames : ∀ entry ∈ first :: rest, IsName entry.1)
    (hnodup : (Fields.names (first :: rest)).Nodup)
    (hout : ¬ goal.location <+: source.location) (hapart : ¬ source.location <+: goal.location)
    (hfirst : Copied fuel (source.child first.1) (goal.child first.1) before middle more)
    (hrest : CopiedAll fuel source goal rest middle after count) :
    CopiedAll fuel source goal (first :: rest) before after (more + count) := by
  have hname := hnames first List.mem_cons_self
  have hne : ∀ entry ∈ rest, first.1 ≠ entry.1 := by
    intro entry hentry heq
    exact (List.nodup_cons.mp hnodup).1 (heq ▸ List.mem_map_of_mem hentry)
  have hsource := hfirst.kind?_source hname hout hapart
  refine ⟨fun place hplace => ?_, fun entry hentry below => ?_, fun entry hentry => ?_, ?_⟩
  · -- the four fields in turn: outside of all goals, inside of them, what fits, and the count. The
    -- first entry is untouched by the others, as their names are different
    rw [hrest.outside place fun entry hentry => hplace entry (List.mem_cons_of_mem _ hentry)]
    refine hfirst.outside place ?_
    rw [Path.location_child hname]
    exact hplace first List.mem_cons_self
  · rcases List.mem_cons.mp hentry with rfl | hentry
    · rw [hrest.outside _ fun other hother => child_not_prefix (hne other hother).symm,
        ← location_child_append goal hname, ← location_child_append source hname]
      exact hfirst.inside below
    · rw [hrest.inside entry hentry, hsource, hfirst.kind?_other hname (hne entry hentry)]
  · -- the others fit before the first is copied if they do afterwards
    rcases List.mem_cons.mp hentry with rfl | hentry
    · exact hfirst.fit
    · have hentryName := hnames entry (List.mem_cons_of_mem _ hentry)
      exact (hfirst.allFit_iff hname hentryName (hne entry hentry) hout hapart).mp
        (hrest.fit entry hentry)
  · -- the files of the first entry are those whose places start with its name
    refine Counts.add first.1 (hfirst.counted.congr fun below => ?_)
      (hrest.counted.congr fun place => ?_)
    · rw [location_child_append source hname]
      exact ⟨fun hfile => ⟨⟨first, List.mem_cons_self, rfl⟩, hfile⟩, And.right⟩
    · have hfile : middle.HasFile (source.location ++ place) ↔
          before.HasFile (source.location ++ place) :=
        exists_congr fun content => by rw [hsource]
      rw [hfile]
      constructor
      · rintro ⟨⟨entry, hentry, hhead⟩, hplace⟩
        refine ⟨⟨⟨entry, List.mem_cons_of_mem _ hentry, hhead⟩, hplace⟩, ?_⟩
        rw [hhead]
        exact fun heq => hne entry hentry (Option.some.inj heq).symm
      · rintro ⟨⟨⟨entry, hentry, hhead⟩, hplace⟩, hnot⟩
        rcases List.mem_cons.mp hentry with rfl | hentry
        · exact absurd hhead hnot
        · exact ⟨⟨entry, hentry, hhead⟩, hplace⟩

/-- With all entries copied there is below the goal what was there and what is in the source. -/
theorem CopiedAll.kind?_goal {entries : Fields FileTree} {count : Nat}
    (hentries : before.at? source.location = some (directory entries))
    (h : CopiedAll fuel source goal entries before after count) (name : String) (rest : Place) :
    after.kind? (goal.location ++ name :: rest) =
      (before.kind? (source.location ++ name :: rest)).or
        (before.kind? (goal.location ++ name :: rest)) := by
  by_cases hentry : ∃ entry ∈ entries, entry.1 = name
  · obtain ⟨entry, hentry, rfl⟩ := hentry
    exact h.inside entry hentry rest
  · -- nothing of this name is in the source
    have hnone : before.kind? (source.location ++ name :: rest) = none :=
      Option.eq_none_iff_forall_ne_some.mpr fun new hnew =>
        hentry (exists_entry_of_kind? hentries hnew)
    rw [hnone, h.outside _ fun entry hmem =>
      child_not_prefix fun heq => hentry ⟨entry, hmem, heq⟩]
    rfl

/-- With all entries copied the number is that of all files in the source. -/
theorem CopiedAll.counts_source {entries : Fields FileTree} {count : Nat}
    (hentries : before.at? source.location = some (directory entries))
    (h : CopiedAll fuel source goal entries before after count) :
    Counts count fun rest => before.HasFile (source.location ++ rest) := by
  refine h.counted.congr fun place => ⟨And.right, fun hplace => ⟨?_, hplace⟩⟩
  obtain ⟨content, hcontent⟩ := hplace
  cases place with
  | nil =>
    rw [List.append_nil, kind?_eq_directory.mpr ⟨entries, hentries⟩] at hcontent
    cases hcontent
  | cons name rest =>
    obtain ⟨entry, hentry, hname⟩ := exists_entry_of_kind? hentries hcontent
    exact ⟨entry, hentry, congrArg some hname.symm⟩

/-- What is copied of all entries is copied of the directory, once its goal has been made. -/
theorem CopiedAll.directory {made : FileTree} {entries : Fields FileTree} {count : Nat}
    (hentries : made.at? source.location = some (directory entries))
    (hkind : ∀ place, made.kind? place =
      if place = goal.location then some none else tree.kind? place)
    (hapart : ¬ source.location <+: goal.location) (hfit : tree.AllFit (fuel + 1) source goal)
    (h : CopiedAll fuel source goal entries made after count) :
    Copied (fuel + 1) source goal tree after count := by
  have hsame : ∀ place, place ≠ goal.location → made.kind? place = tree.kind? place :=
    fun place hplace => (hkind place).trans (if_neg hplace)
  have hsource := kind?_source_of_made hsame hapart
  refine ⟨⟨fun place hplace => ?_, fun rest => ?_⟩, hfit,
    (h.counts_source hentries).congr fun rest => exists_congr fun content => by rw [hsource]⟩
  · have hne : place ≠ goal.location := by
      rintro rfl
      exact hplace List.prefix_rfl
    rw [h.outside place fun entry _ hunder => hplace ((List.prefix_append _ _).trans hunder),
      hsame place hne]
  · cases rest with
    | nil =>
      -- the goal itself is a directory from when it is made, and so is the source
      have hroot : tree.kind? (source.location ++ []) = some none := by
        rw [← hsource, List.append_nil]
        exact kind?_eq_directory.mpr ⟨entries, hentries⟩
      rw [hroot, List.append_nil, h.outside _ fun entry _ => child_not_above _ _, hkind,
        if_pos rfl]
      rfl
    | cons name rest =>
      rw [h.kind?_goal hentries, hsource, hsame _ (by simp)]

end FileTree

end StaticSite
