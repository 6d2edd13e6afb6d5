import StaticSite.Proofs.Path.Location
/-!
# StaticSite.Proofs.Path.Way

**What a path passes on its way.** The directories above an absolute path, however it is written,
are prefixes of its steps (`Path.steps_of_mem_chain`). A relative path whose prefixes never lead
out (`Inward`) keeps everything that it passes inside of the place from which it is seen
(`Path.Passes.of_steps`).
-/

set_option autoImplicit false

namespace StaticSite.Path

open FileTree (follow follow_append follow_cons stepTo stepTo_name)

variable {p q : Path} {place : Place}

/-- Whether a path passes a place on its way from the root, or ends there. -/
def Passes (p : Path) (place : Place) : Prop :=
  ∃ steps, steps <+: p.steps ∧ place = follow [] steps

theorem passes_location (p : Path) : p.Passes p.location := ⟨p.steps, List.prefix_rfl, rfl⟩

theorem Passes.mono (h : q.Passes place) (hsteps : q.steps <+: p.steps) : p.Passes place := by
  obtain ⟨steps, hstart, hplace⟩ := h
  exact ⟨steps, hstart.trans hsteps, hplace⟩

/-- An entry's path passes what the path of its directory passes, and the entry. -/
theorem passes_child_iff {name : String} (hname : IsName name) :
    (p.child name).Passes place ↔ p.Passes place ∨ place = p.location ++ [name] := by
  constructor
  · rintro ⟨taken, htaken, rfl⟩
    rw [steps_child hname] at htaken
    rcases List.prefix_concat_iff.mp htaken with rfl | hproper
    · rw [← location_child hname, location, steps_child hname]
      exact .inr rfl
    · exact .inl ⟨taken, hproper, rfl⟩
  · rintro (hpasses | rfl)
    · exact hpasses.mono (steps_child hname ▸ List.prefix_append _ _)
    · exact location_child hname ▸ (p.child name).passes_location

/-- A path that is written with names only passes the places above where it leads. -/
theorem passes_iff_of_names (h : ∀ step ∈ p.steps, IsName step) :
    p.Passes place ↔ place <+: p.location := by
  have hnames : ∀ {steps : List String}, steps <+: p.steps → follow [] steps = steps := by
    intro steps hsteps
    exact FileTree.follow_names (fun step hstep => h step (hsteps.subset hstep)) []
  unfold Passes location
  rw [hnames List.prefix_rfl]
  constructor
  · rintro ⟨steps, hsteps, rfl⟩
    rwa [hnames hsteps]
  · exact fun hplace => ⟨place, hplace, (hnames hplace).symm⟩

/-! ### The directories above a path

The directories above a path are found by cutting its text at the last slash, again and again. What
is left each time is written with some of the first pieces, so its steps are a prefix of the steps
of the path. -/

theorem stepsOf_mono {first second : List (List Char)} (h : first <+: second) :
    stepsOf first <+: stepsOf second :=
  (h.filter _).map _

/-- Pieces keep their steps when they are written as a path. -/
theorem steps_join_pieces {all : List (List Char)} (h : ∀ piece ∈ all, '/' ∉ piece) :
    steps ⟨Text.join ['/'] all⟩ = stepsOf all := by
  cases all with
  | nil => rfl
  | cons piece rest =>
    change stepsOf (pieces _) = _
    unfold pieces
    rw [Text.splitAtEach_join (by rfl) (List.cons_ne_nil _ _)]
    intro piece hpiece c hc
    have hne : c ≠ '/' := fun heq => h piece hpiece (heq ▸ hc)
    simpa using hne

theorem slash_not_mem_pieces {s piece : List Char} (h : piece ∈ pieces s) : '/' ∉ piece := by
  intro hslash
  cases Text.not_separator_of_mem_splitAtEach h hslash

/-- The parent of an absolute path is written with the first pieces of that path. -/
theorem parent?_slash {s : List Char} {q : Path} (h : parent? ⟨'/' :: s⟩ = some q) :
    ∃ left, left <+: pieces s ∧ q = ⟨'/' :: Text.join ['/'] left⟩ := by
  simp only [parent?] at h
  split at h
  · cases h
  · rename_i last before hrest
    cases h
    refine ⟨(dropSilent before).reverse, ?_, rfl⟩
    have hbefore : before <:+ (pieces s).reverse :=
      (List.suffix_cons last before).trans (hrest ▸ List.dropWhile_suffix _)
    have hleft : dropSilent before <:+ (pieces s).reverse :=
      (List.dropWhile_suffix _).trans hbefore
    rw [← List.reverse_reverse (pieces s)]
    exact List.reverse_prefix.mpr hleft

theorem steps_of_parent? (hp : p.isAbsolute = true) (h : p.parent? = some q) :
    q.isAbsolute = true ∧ q.steps <+: p.steps := by
  obtain ⟨s, hs⟩ := isAbsolute_iff.mp hp
  obtain rfl : p = ⟨'/' :: s⟩ := by rw [← hs]
  obtain ⟨left, hleft, rfl⟩ := parent?_slash h
  refine ⟨rfl, ?_⟩
  have hslash : ∀ piece ∈ left, '/' ∉ piece :=
    fun piece hpiece => slash_not_mem_pieces (hleft.subset hpiece)
  rw [steps_slash, steps_slash, steps_join_pieces hslash]
  exact stepsOf_mono hleft

/-- A path and the directories above it are prefixes of it. -/
theorem steps_of_mem_chain (hp : p.isAbsolute = true) (h : q ∈ p.chain) :
    q.steps <+: p.steps := by
  unfold chain at h
  generalize p.components.length = count at h
  induction count generalizing p with
  | zero =>
    obtain rfl := List.mem_singleton.mp h
    exact List.prefix_rfl
  | succ count ih =>
    unfold chainWith at h
    split at h
    · rename_i parent hparent
      obtain ⟨habsolute, hsteps⟩ := steps_of_parent? hp hparent
      rcases List.mem_cons.mp h with rfl | h
      · exact List.prefix_rfl
      · exact (ih habsolute h).trans hsteps
    · obtain rfl := List.mem_singleton.mp h
      exact List.prefix_rfl

/-! ### Paths that lead inward

Whether a path leads out is not decided by its end: `a/../../b` leaves and comes back elsewhere. So
every prefix has to stay inside. -/

/-- Whether steps, wherever they are taken up, lead to no place outside of it on the way. -/
def Inward (steps : List String) : Prop :=
  ∀ taken, taken <+: steps → ∀ place, place <+: follow place taken

/-- Steps lead further in if none of them goes back. -/
theorem prefix_follow_forward {steps : List String} (h : ".." ∉ steps) (place : Place) :
    place <+: follow place steps := by
  induction steps generalizing place with
  | nil => exact List.prefix_rfl
  | cons step rest ih =>
    obtain ⟨hstep, hrest⟩ := not_or.mp (mt List.mem_cons.mpr h)
    rw [follow_cons]
    refine List.IsPrefix.trans ?_ (ih hrest _)
    unfold stepTo
    split
    · exact List.prefix_rfl
    · rw [if_neg (Ne.symm hstep)]
      exact List.prefix_append place [step]

theorem forward_names {names : List String} (h : ∀ name ∈ names, IsName name) : ".." ∉ names :=
  fun hback => (h ".." hback).2.2.1 rfl

theorem inward_names {names : List String} (h : ∀ name ∈ names, IsName name) : Inward names :=
  fun _ htaken => prefix_follow_forward fun hback => forward_names h (htaken.subset hback)

/-- A path that does not go back passes only what is above the place to which it leads. -/
theorem Passes.prefix_of_forward (hsteps : ".." ∉ p.steps) (h : p.Passes place) :
    place <+: p.location := by
  obtain ⟨taken, ⟨more, hmore⟩, rfl⟩ := h
  unfold location
  rw [← hmore, follow_append]
  exact prefix_follow_forward (fun hback => hsteps (hmore ▸ List.mem_append_right _ hback)) _

/-- After a name any step stays inside, since `..` goes back from the name only. -/
theorem inward_name_any {name : String} (hname : IsName name) (step : String)
    {names : List String} (h : ∀ name ∈ names, IsName name) : Inward (name :: step :: names) := by
  intro taken htaken place
  rcases List.prefix_cons_iff.mp htaken with rfl | ⟨tail, rfl, htail⟩
  · exact List.prefix_rfl
  rw [follow_cons, stepTo_name hname]
  rcases List.prefix_cons_iff.mp htail with rfl | ⟨rest, rfl, hrest⟩
  · exact List.prefix_append place [name]
  rw [follow_cons]
  have hstep : place <+: stepTo (place ++ [name]) step := by
    unfold stepTo
    split
    · exact List.prefix_append place [name]
    · -- `..` takes back the name and nothing before it
      split
      · exact List.dropLast_concat.symm ▸ List.prefix_rfl
      · exact (List.prefix_append _ _).trans (List.prefix_append _ _)
  exact hstep.trans (prefix_follow_forward (fun hback => forward_names h (hrest.subset hback)) _)

theorem Inward.start {steps start : List String} (h : Inward steps) (hstart : start <+: steps) :
    Inward start :=
  fun taken htaken => h taken (htaken.trans hstart)

/-- A place on the way of a path that is seen from another is on the way of that other, or inside of
where that leads. -/
theorem Passes.of_steps {steps : List String} (h : p.Passes place)
    (hsteps : p.steps = q.steps ++ steps) (hinward : Inward steps) :
    q.Passes place ∨ q.location <+: place := by
  obtain ⟨taken, htaken, rfl⟩ := h
  rw [hsteps] at htaken
  rcases List.prefix_or_prefix_of_prefix htaken (List.prefix_append q.steps steps) with
    hearly | ⟨more, rfl⟩
  · exact .inl ⟨taken, hearly, rfl⟩
  · right
    rw [follow_append]
    exact hinward more ((List.prefix_append_right_inj q.steps).mp htaken) _

end StaticSite.Path
