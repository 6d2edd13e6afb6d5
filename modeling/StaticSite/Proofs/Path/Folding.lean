import StaticSite.Proofs.Path.Output
/-!
# StaticSite.Proofs.Path.Folding

**What folding leaves of a path**, absolute or relative: names after the root, or names after a run
of `..`. A step of folding keeps this shape (`IsTrail.step`), so the whole fold has it
(`isTrail_trail`). Components of this shape come back from the path that is written with them, and
folding them again changes nothing (`trail_normalize`).

A path in front of another is folded first (`trail_join`), so it may be written in any way that
folds alike. And folding never changes where a path leads (`location_resolve_normalize`).
-/

set_option autoImplicit false

namespace StaticSite

/-- Whether a component can stand after the start of a folded path. -/
def Component.IsStep (c : Component) : Prop :=
  c = .parent ∨ ∃ name, IsName name ∧ c = .normal name

namespace Path

variable {p q : Path} {absolute : Bool} {c : Component} {steps left : List Component}
  {place : Place}

/-! ### Components between slashes

A path that is written from components reads as these components again, if none of them is empty or
a point. After folding none is, but the start of the path needs a look of its own: the root is
written as a slash, and a relative path must not come out as an absolute one. -/

theorem isStep_of_mem_parts (h : c ∈ p.parts) : c.IsStep := by
  obtain ⟨piece, hpiece, hof⟩ := List.mem_filterMap.mp h
  have hslash : '/' ∉ piece := slash_not_mem_pieces hpiece
  unfold Component.ofPiece? at hof
  split at hof
  · cases hof
  · rename_i hsilent
    rw [not_or] at hsilent
    split at hof
    · cases hof
      exact .inl rfl
    · rename_i hdots
      cases hof
      have hne : ∀ {s : List Char}, piece ≠ s → String.ofList piece ≠ String.ofList s :=
        fun hs heq => hs (String.ofList_injective heq)
      exact .inr ⟨_, ⟨hne hsilent.1, hne hsilent.2, hne hdots, by simpa using hslash⟩, rfl⟩

theorem ofPiece?_of_isStep (h : c.IsStep) : Component.ofPiece? c.text = some c := by
  obtain rfl | ⟨name, hname, rfl⟩ := h
  · rfl
  · exact ofPiece?_toList hname

theorem slash_not_mem_of_isStep (h : c.IsStep) : '/' ∉ c.text := by
  obtain rfl | ⟨name, hname, rfl⟩ := h
  · decide
  · exact hname.2.2.2

theorem pieces_join_text (h : ∀ c ∈ steps, c.IsStep) (hne : steps ≠ []) :
    pieces (Text.join ['/'] (steps.map Component.text)) = steps.map Component.text := by
  refine Text.splitAtEach_join (by rfl) (by simpa using hne) fun piece hpiece d hd => ?_
  obtain ⟨step, hstep, rfl⟩ := List.mem_map.mp hpiece
  have hslash : d ≠ '/' := fun heq => slash_not_mem_of_isStep (h step hstep) (heq ▸ hd)
  simpa using hslash

/-- Components come back from the text in which slashes stand between them. -/
theorem parts_join_text (h : ∀ c ∈ steps, c.IsStep) :
    parts ⟨Text.join ['/'] (steps.map Component.text)⟩ = steps := by
  cases steps with
  | nil => rfl
  | cons first rest =>
    unfold parts
    dsimp only
    rw [pieces_join_text h (List.cons_ne_nil _ _), List.filterMap_map]
    calc (first :: rest).filterMap (Component.ofPiece? ∘ Component.text)
        = (first :: rest).filterMap some :=
          List.filterMap_congr fun c hc => ofPiece?_of_isStep (h c hc)
      _ = first :: rest := List.filterMap_some

/-- A path reads as the start and the components with which it is written. -/
theorem components_ofComponents_start (h : ∀ c ∈ steps, c.IsStep) (absolute : Bool) :
    (ofComponents (start absolute ++ steps)).isAbsolute = absolute ∧
      (ofComponents (start absolute ++ steps)).components = start absolute ++ steps := by
  have hparts := parts_join_text h
  cases absolute with
  | true => exact ⟨rfl, congrArg (Component.root :: ·) hparts⟩
  | false =>
    cases steps with
    | nil => exact ⟨rfl, rfl⟩
    | cons first rest =>
      have hfirst := h first List.mem_cons_self
      have hpieces := pieces_join_text h (List.cons_ne_nil _ _)
      have hof : ofComponents (start false ++ first :: rest) =
          ⟨Text.join ['/'] ((first :: rest).map Component.text)⟩ := by
        obtain rfl | ⟨name, -, rfl⟩ := hfirst
        · rfl
        · rfl
      rw [hof]
      generalize Text.join ['/'] ((first :: rest).map Component.text) = s at hparts hpieces
      -- the first piece is the text of a component, so it is neither empty nor a point
      have hne : ∀ {piece : List Char}, Component.ofPiece? piece = none →
          ∀ more, pieces s ≠ piece :: more := by
        intro piece hnone more heq
        rw [hpieces, List.map_cons, List.cons.injEq] at heq
        rw [← heq.1, ofPiece?_of_isStep hfirst] at hnone
        cases hnone
      have hrelative : isAbsolute ⟨s⟩ = false := by
        rw [Bool.eq_false_iff]
        intro habsolute
        obtain ⟨more, hs⟩ := isAbsolute_iff.mp habsolute
        obtain rfl : s = '/' :: more := hs
        exact hne rfl (pieces more) rfl
      refine ⟨hrelative, ?_⟩
      rcases components_eq ⟨s⟩ with heq | ⟨-, ⟨more, hpoint⟩, -⟩
      · rw [heq, hrelative, hparts]
      · exact absurd hpoint (hne rfl more)

/-! ### Folding, step by step

The fold keeps the components in reverse order, since what `..` takes away is the last one. The
shape of what has been kept is described in this order as well, with the last name first. -/

/-- What folding leaves of a path, in reverse order. -/
def trail (p : Path) : List Component := p.components.foldl foldStep []

theorem normalize_eq (p : Path) : p.normalize = ofComponents p.trail.reverse := rfl

/-- What folding can leave, in reverse order: names after the root or after a run of `..`. -/
inductive IsTrail : Bool → List Component → Prop where
  | root : IsTrail true [.root]
  | up (count : Nat) : IsTrail false (List.replicate count .parent)
  | name {absolute : Bool} {left : List Component} (name : String) (hname : IsName name)
      (h : IsTrail absolute left) : IsTrail absolute (.normal name :: left)

theorem foldStep_replicate (count : Nat) :
    foldStep (List.replicate count .parent) .parent = List.replicate (count + 1) .parent := by
  cases count with
  | zero => rfl
  | succ count => rfl

/-- One more component keeps the shape: a name is added, and `..` takes a name away, stays with its
like, or has no effect at the root. -/
theorem IsTrail.step (h : IsTrail absolute left) (hc : c.IsStep) :
    IsTrail absolute (foldStep left c) := by
  obtain rfl | ⟨name, hname, rfl⟩ := hc
  · cases h with
    | root => exact .root
    | up count =>
      rw [foldStep_replicate]
      exact .up (count + 1)
    | name _ _ h => exact h
  · exact .name name hname h

theorem IsTrail.foldl (h : IsTrail absolute left) (hsteps : ∀ c ∈ steps, c.IsStep) :
    IsTrail absolute (steps.foldl foldStep left) := by
  induction steps generalizing left with
  | nil => exact h
  | cons c rest ih =>
    exact ih (h.step (hsteps c List.mem_cons_self)) fun d hd => hsteps d (List.mem_cons_of_mem c hd)

theorem isTrail_start (absolute : Bool) : IsTrail absolute (start absolute) := by
  cases absolute with
  | true => exact .root
  | false => exact .up 0

/-- Folding a path is folding what it names after its start. -/
theorem trail_eq (p : Path) : p.trail = p.parts.foldl foldStep (start p.isAbsolute) := by
  unfold trail
  rcases p.components_eq with heq | ⟨hrelative, -, heq⟩
  · rw [heq, List.foldl_append]
    cases p.isAbsolute with
    | true => rfl
    | false => rfl
  · rw [heq, hrelative]
    rfl

theorem isTrail_trail (p : Path) : IsTrail p.isAbsolute p.trail := by
  rw [trail_eq]
  exact (isTrail_start _).foldl fun c hc => isStep_of_mem_parts hc

/-- Folding leaves what is folded already. -/
theorem IsTrail.foldl_reverse (h : IsTrail absolute left) :
    left.reverse.foldl foldStep [] = left := by
  induction h with
  | root => rfl
  | up count =>
    rw [List.reverse_replicate]
    induction count with
    | zero => rfl
    | succ count ih =>
      rw [List.replicate_succ', List.foldl_concat, ih, foldStep_replicate, List.replicate_succ']
  | name name _ _ ih =>
    rw [List.reverse_cons, List.foldl_concat, ih]
    rfl

theorem IsTrail.exists_names (h : IsTrail absolute left) :
    ∃ (ups : Nat) (names : List String), (∀ name ∈ names, IsName name) ∧
      left.reverse =
        (if absolute then [.root] else List.replicate ups .parent) ++ names.map .normal := by
  induction h with
  | root => exact ⟨0, [], by simp, rfl⟩
  | up count => exact ⟨count, [], by simp, by simp⟩
  | name name hname _ ih =>
    obtain ⟨ups, names, hnames, hleft⟩ := ih
    refine ⟨ups, names ++ [name], fun other hother => ?_, ?_⟩
    · rcases List.mem_append.mp hother with hother | hother
      · exact hnames other hother
      · exact List.mem_singleton.mp hother ▸ hname
    · rw [List.reverse_cons, hleft, List.map_append, List.append_assoc]
      rfl

theorem IsTrail.exists_steps (h : IsTrail absolute left) :
    ∃ steps, (∀ c ∈ steps, c.IsStep) ∧ left.reverse = start absolute ++ steps := by
  obtain ⟨ups, names, hnames, hleft⟩ := h.exists_names
  have hsteps : ∀ c ∈ names.map Component.normal, c.IsStep := by
    intro c hc
    obtain ⟨name, hname, rfl⟩ := List.mem_map.mp hc
    exact .inr ⟨name, hnames name hname, rfl⟩
  cases absolute with
  | true => exact ⟨_, hsteps, hleft⟩
  | false =>
    refine ⟨_, fun c hc => ?_, hleft⟩
    rcases List.mem_append.mp hc with hc | hc
    · rw [List.eq_of_mem_replicate hc]
      exact .inl rfl
    · exact hsteps c hc

/-- The folded path starts as the path does, and its components are what folding leaves. -/
theorem reads_normalize (p : Path) :
    p.normalize.isAbsolute = p.isAbsolute ∧ p.normalize.components = p.trail.reverse := by
  obtain ⟨steps, hsteps, hleft⟩ := p.isTrail_trail.exists_steps
  rw [normalize_eq, hleft]
  exact components_ofComponents_start hsteps p.isAbsolute

theorem trail_normalize (p : Path) : p.normalize.trail = p.trail := by
  show p.normalize.components.foldl foldStep [] = p.trail
  rw [p.reads_normalize.2, p.isTrail_trail.foldl_reverse]

/-- Paths that leave the same fold to one path, and no others do. -/
theorem normalize_eq_iff : p.normalize = q.normalize ↔ p.trail = q.trail := by
  constructor
  · intro h
    rw [← p.trail_normalize, h, q.trail_normalize]
  · intro h
    rw [normalize_eq, normalize_eq, h]

/-! ### Paths in front of others -/

theorem parts_append_slash (s t : List Char) :
    parts ⟨s ++ '/' :: t⟩ = parts ⟨s⟩ ++ parts ⟨t⟩ := by
  unfold parts pieces
  rw [Text.splitAtEach_append_cons (by rfl), List.filterMap_append]

theorem parts_join (h : q.isAbsolute = false) : (p.join q).parts = p.parts ++ q.parts := by
  rw [join_of_relative h]
  unfold lead
  split
  · rename_i hend
    rcases hend with hempty | hslash
    · have hparts : p.parts = [] := by
        unfold parts
        rw [hempty]
        rfl
      rw [hparts, hempty]
      rfl
    · obtain ⟨s, hs⟩ := List.getLast?_eq_some_iff.mp hslash
      have hparts : p.parts = parts ⟨s⟩ := by
        have happend := parts_append_slash s []
        rw [show parts ⟨[]⟩ = [] from rfl, List.append_nil] at happend
        rw [← happend, ← hs]
      rw [hparts, hs, List.append_assoc, List.singleton_append, parts_append_slash]
  · rw [List.append_assoc, List.singleton_append, parts_append_slash]

theorem isAbsolute_join_eq (h : q.isAbsolute = false) : (p.join q).isAbsolute = p.isAbsolute := by
  cases hp : p.isAbsolute with
  | true => exact isAbsolute_join hp
  | false => exact isAbsolute_join_of_relative hp h

/-- Folding a path behind another goes on where folding that other has come to. -/
theorem trail_join (h : q.isAbsolute = false) :
    (p.join q).trail = q.parts.foldl foldStep p.trail := by
  rw [trail_eq, parts_join h, isAbsolute_join_eq h, List.foldl_append, ← trail_eq]

theorem normalize_join (p q : Path) : (p.join q).normalize = (p.normalize.join q).normalize := by
  cases h : q.isAbsolute with
  | true =>
    have habsolute : ∀ p : Path, p.join q = q := fun p => if_pos h
    rw [habsolute, habsolute]
  | false =>
    rw [normalize_eq_iff, trail_join h, trail_join h, trail_normalize]

/-! ### Where folded paths lead

A place is the list of names on the way to it, so the root has no parent but itself, as in folding.
That is why taking a name back and going back from a place come to the same. -/

/-- What is left leads where the components do that have been folded. -/
theorem IsTrail.foldl_enter_step (h : IsTrail absolute left) (hc : c.IsStep) (place : Place) :
    (foldStep left c).reverse.foldl enter place = enter (left.reverse.foldl enter place) c := by
  obtain rfl | ⟨name, -, rfl⟩ := hc
  · cases h with
    | root => rfl
    | up count =>
      rw [foldStep_replicate, List.replicate_succ, List.reverse_cons, List.foldl_concat]
    | name name _ _ =>
      -- `..` takes back the name that has been added last
      rw [List.reverse_cons, List.foldl_concat]
      exact List.dropLast_concat.symm
  · show (Component.normal name :: left).reverse.foldl enter place = _
    rw [List.reverse_cons, List.foldl_concat]

theorem IsTrail.foldl_enter (h : IsTrail absolute left) (hsteps : ∀ c ∈ steps, c.IsStep)
    (place : Place) :
    (steps.foldl foldStep left).reverse.foldl enter place =
      steps.foldl enter (left.reverse.foldl enter place) := by
  induction steps generalizing left with
  | nil => rfl
  | cons c rest ih =>
    have hc := hsteps c List.mem_cons_self
    rw [List.foldl_cons, ih (h.step hc) fun d hd => hsteps d (List.mem_cons_of_mem c hd),
      h.foldl_enter_step hc, List.foldl_cons]

theorem foldl_enter_normalize (p : Path) (place : Place) :
    p.normalize.components.foldl enter place = p.components.foldl enter place := by
  have hstart : (start p.isAbsolute).reverse = start p.isAbsolute := by
    cases p.isAbsolute with
    | true => rfl
    | false => rfl
  have htrail : p.trail.reverse.foldl enter place =
      (start p.isAbsolute ++ p.parts).foldl enter place := by
    rw [trail_eq, (isTrail_start _).foldl_enter (fun c hc => isStep_of_mem_parts hc), hstart,
      List.foldl_append]
  rw [p.reads_normalize.2, htrail]
  rcases p.components_eq with heq | ⟨hrelative, -, heq⟩
  · rw [heq]
  · rw [heq, hrelative]
    rfl

/-- Folding does not change where a path leads, from wherever it is seen. -/
theorem location_resolve_normalize (base p : Path) :
    (base.resolve p.normalize).location = (base.resolve p).location := by
  rw [location_resolve, location_resolve, foldl_enter_normalize]

theorem foldl_enter_names (place : Place) (names : List String) :
    (names.map Component.normal).foldl enter place = place ++ names := by
  induction names generalizing place with
  | nil => exact (List.append_nil place).symm
  | cons name rest ih =>
    rw [List.map_cons, List.foldl_cons, ih]
    exact List.append_cons place name rest |>.symm

/-- The folded components of an absolute path spell the place to which it leads. -/
theorem components_normalize (h : p.isAbsolute = true) :
    p.normalize.components = .root :: p.location.map Component.normal := by
  obtain ⟨ups, names, -, hleft⟩ := p.isTrail_trail.exists_names
  have hcomponents : p.normalize.components = .root :: names.map Component.normal := by
    rw [p.reads_normalize.2, hleft, if_pos h]
    rfl
  have hlocation : p.location = names := by
    calc p.location = (p.resolve p).location := by rw [resolve, if_pos h]
      _ = p.normalize.components.foldl enter p.location := by
          rw [location_resolve, foldl_enter_normalize]
      _ = names := by
          rw [hcomponents]
          exact foldl_enter_names [] names
  rw [hcomponents, hlocation]

theorem startsWith_iff : p.startsWith q = true ↔ q.components <+: p.components :=
  List.isPrefixOf_iff_prefix

/-- One absolute path starts with another, both folded, if it leads to a place inside of the place
to which the other leads. -/
theorem startsWith_normalize (hp : p.isAbsolute = true) (hq : q.isAbsolute = true) :
    p.normalize.startsWith q.normalize = true ↔ q.location <+: p.location := by
  have hinjective : Function.Injective Component.normal := fun _ _ heq => by
    injection heq
  rw [startsWith_iff, components_normalize hp, components_normalize hq,
    List.prefix_cons_inj, List.prefix_map_iff_of_injective hinjective]

/-! ### Detours

Each kind of detour is taken out by an equation of folding, and by the law of joining this may be
done in the middle of a path. -/

/-- Whether the first path is the second with a detour: a point on the way, a name that is taken
back at once, or a slash at the end. -/
inductive Detour : Path → Path → Prop where
  | point (p q : Path) : Detour ((p.join (ofString ".")).join q) (p.join q)
  | back {name : String} (hname : IsName name) (p q : Path) :
      Detour (((p.child name).join (ofString "..")).join q) (p.join q)
  | slash {p : Path} (h : p.chars ≠ []) : Detour ⟨p.chars ++ ['/']⟩ p

theorem parts_ofString_name {name : String} (h : IsName name) :
    (ofString name).parts = [.normal name] := by
  have hpieces : pieces (ofString name).chars = [name.toList] := pieces_of_slash_not_mem h.2.2.2
  unfold parts
  rw [hpieces, List.filterMap_cons_some (ofPiece?_toList h)]
  rfl

/-- Paths that fold alike stand for each other in front of a path. -/
theorem normalize_join_congr (h : p.normalize = q.normalize) (r : Path) :
    (p.join r).normalize = (q.join r).normalize := by
  rw [normalize_join p, normalize_join q, h]

theorem Detour.normalize (h : Detour p q) : p.normalize = q.normalize := by
  cases h with
  | point p q =>
    refine normalize_join_congr (normalize_eq_iff.mpr ?_) q
    exact trail_join (by rfl)
  | back hname p q =>
    refine normalize_join_congr (normalize_eq_iff.mpr ?_) q
    rw [trail_join (by rfl), child, trail_join (isAbsolute_ofString_name hname),
      parts_ofString_name hname]
    rfl
  | slash h =>
    have habsolute : isAbsolute ⟨q.chars ++ ['/']⟩ = q.isAbsolute := by
      unfold isAbsolute
      rw [List.head?_append_of_ne_nil q.chars h]
    rw [normalize_eq_iff, trail_eq, trail_eq q, parts_append_slash, habsolute,
      show parts ⟨[]⟩ = [] from rfl, List.append_nil]

/-! ### The law of folding -/

/-- **Folding leaves a path without detours.** The folded path has no `.`; it has `..` at its start
only, and not if it is absolute; it is absolute if the path is. Folding it again changes nothing,
from everywhere it leads where the path leads, and another path that is seen from it folds as if it
were seen from the path itself. -/
theorem normalize_leaves_no_detours (p : Path) :
    (∃ (ups : Nat) (names : List String), (∀ name ∈ names, IsName name) ∧
      p.normalize.components =
        (if p.isAbsolute then [.root] else List.replicate ups .parent) ++ names.map .normal) ∧
    p.normalize.isAbsolute = p.isAbsolute ∧
    p.normalize.normalize = p.normalize ∧
    (∀ base : Path, (base.resolve p.normalize).location = (base.resolve p).location) ∧
    ∀ q : Path, (p.join q).normalize = (p.normalize.join q).normalize := by
  obtain ⟨habsolute, hcomponents⟩ := p.reads_normalize
  refine ⟨?_, habsolute, ?_, fun base => location_resolve_normalize base p, normalize_join p⟩
  · rw [hcomponents]
    exact p.isTrail_trail.exists_names
  · rw [normalize_eq_iff, trail_normalize]

end Path

end StaticSite
