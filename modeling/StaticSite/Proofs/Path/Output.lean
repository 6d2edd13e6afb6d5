import Mathlib.Data.List.Basic
import Mathlib.Data.List.TakeWhile
import StaticSite.Path.Output
import StaticSite.Proofs.Path.Way
import StaticSite.Proofs.Text.Blank
/-!
# StaticSite.Proofs.Path.Output

Where pages are written. A file lies inside of a directory if its path leads on from there, and the
place to which it leads is below that directory (`Path.Inside`). **An address whose steps lead
inward names a file inside of the output directory** (`inside_output`), whether it has an extension
or gets an index page. An address of two parts is the second as seen from the first (`join_slash`),
and it has an extension if there is a point inside of its last name (`isSome_cutName_iff`).
-/

set_option autoImplicit false

namespace StaticSite.Path

open FileTree (child_ne_above follow follow_append follow_cons stepTo stepTo_name)

variable {dir p q : Path} {name : String} {place : Place}

/-- Whether a path leads from a directory to something that is inside of it. -/
structure Inside (dir p : Path) : Prop where
  absolute : p.isAbsolute = true
  way : ∀ place, p.Passes place → dir.Passes place ∨ dir.location <+: place
  below : dir.location <+: p.location
  ne : p.location ≠ dir.location

theorem inside_of_steps {steps front : List String} (hp : p.isAbsolute = true)
    (hsteps : p.steps = dir.steps ++ steps) (hinward : Inward steps) (hfront : front <+: steps)
    (hlast : ∀ place, follow place steps = follow place front ++ [name]) : Inside dir p := by
  have hlocation : p.location = follow dir.location front ++ [name] := by
    unfold location
    rw [hsteps, follow_append]
    exact hlast _
  have hbelow : dir.location <+: follow dir.location front := hinward front hfront _
  refine ⟨hp, fun place hpasses => hpasses.of_steps hsteps hinward, ?_, ?_⟩
  · rw [hlocation]
    exact hbelow.trans (List.prefix_append _ _)
  · rw [hlocation]
    exact child_ne_above hbelow name

theorem inside_child (hdir : dir.isAbsolute = true) (hname : IsName name) :
    Inside dir (dir.child name) := by
  have hnames : ∀ n ∈ [name], IsName n := fun n hn => List.mem_singleton.mp hn ▸ hname
  have hlast : ∀ place, follow place [name] = follow place [] ++ [name] := by
    intro place
    rw [follow_cons, stepTo_name hname]
    rfl
  exact inside_of_steps (isAbsolute_join hdir) (steps_child hname) (inward_names hnames)
    List.nil_prefix hlast

/-! ### Paths in parts

Joining puts a slash between two paths unless one is there. To see that it is associative, a path is
given the form that it has in front of another. -/

/-- A path as it stands before another that is seen from it: with a slash at its end, if it has a
component. -/
def lead (p : Path) : List Char :=
  if p.chars = [] ∨ p.chars.getLast? = some '/' then p.chars else p.chars ++ ['/']

theorem join_of_relative (h : q.isAbsolute = false) :
    p.join q = ⟨p.lead ++ q.chars⟩ := by
  unfold join lead
  rw [if_neg (by simp [h])]
  split
  · rfl
  · rw [List.append_assoc, List.singleton_append]

theorem isAbsolute_join_of_relative (hp : p.isAbsolute = false)
    (hq : q.isAbsolute = false) : (p.join q).isAbsolute = false := by
  rw [join_of_relative hq]
  unfold lead
  cases hchars : p.chars with
  | nil =>
    rw [if_pos (.inl rfl)]
    exact hq
  | cons c rest =>
    unfold isAbsolute at hp ⊢
    rw [hchars] at hp
    split
    · exact hp
    · exact hp

theorem lead_join (h : q.isAbsolute = false) :
    (p.join q).lead = p.lead ++ q.lead := by
  rw [join_of_relative h]
  have hp : p.lead = [] ∨ p.lead.getLast? = some '/' := by
    unfold lead
    split
    · assumption
    · simp
  by_cases hq : q.chars = []
  · have hlead : q.lead = [] := by
      unfold lead
      rw [if_pos (.inl hq), hq]
    rw [hlead, hq, List.append_nil]
    exact if_pos hp
  · have hlast : (p.lead ++ q.chars).getLast? = q.chars.getLast? :=
      List.getLast?_append_of_ne_nil _ hq
    by_cases hslash : q.chars.getLast? = some '/'
    · have hlead : q.lead = q.chars := if_pos (.inr hslash)
      rw [hlead]
      exact if_pos (.inr (hlast.trans hslash))
    · have hlead : q.lead = q.chars ++ ['/'] := if_neg (by simp [hq, hslash])
      rw [hlead, ← List.append_assoc]
      exact if_neg (by simp [hq, hlast, hslash])

/-- It does not matter in which order paths are seen from each other. -/
theorem join_assoc (p q r : Path) : (p.join q).join r = p.join (q.join r) := by
  cases hr : r.isAbsolute with
  | true =>
    have habsolute : ∀ p : Path, p.join r = r := fun p => if_pos hr
    rw [habsolute, habsolute, habsolute]
  | false =>
    cases hq : q.isAbsolute with
    | true =>
      have habsolute : ∀ s : Path, s.isAbsolute = true → p.join s = s := fun s hs => if_pos hs
      rw [habsolute q hq, habsolute _ (isAbsolute_join hq)]
    | false =>
      rw [join_of_relative hr, lead_join hq, join_of_relative (isAbsolute_join_of_relative hq hr),
        join_of_relative hr, List.append_assoc]

/-- What stands before a slash is the directory from which the rest is seen. -/
theorem join_slash {name s : List Char} (hname : name ≠ []) (hslash : '/' ∉ name) (hs : '/' ∉ s)
    (dir : Path) : dir.join ⟨name ++ '/' :: s⟩ = (dir.join ⟨name⟩).join ⟨s⟩ := by
  have hrelative : isAbsolute ⟨s⟩ = false := by
    unfold isAbsolute
    simpa using fun hhead => hs (List.mem_of_mem_head? hhead)
  have hlead : lead ⟨name⟩ = name ++ ['/'] := by
    refine if_neg ?_
    simpa [hname] using fun hlast => hslash (List.mem_of_getLast? hlast)
  rw [join_assoc, join_of_relative hrelative, hlead, List.append_assoc, List.singleton_append]

/-! ### File names

The file name of a path is its last component, if that is a name, and the extension is cut off from
its end. An address can end in steps that are no names, and then the file name is found further in
front or not at all. -/

/-- An extension is what stands after the last point, if something stands before that point. -/
theorem cutName_eq_iff {name before after : List Char} :
    cutName name = (before, some after) ↔
      before ≠ [] ∧ name = before ++ '.' :: after ∧ '.' ∉ after := by
  constructor
  · intro h
    unfold cutName at h
    dsimp only at h
    split at h
    · cases h
    · cases h
    · rename_i point start hpoint hdrop
      cases h
      -- the name is read from its end, and the part without points is over where a point stands
      have hhead := List.head?_dropWhile_not (· != '.') name.reverse
      rw [hdrop] at hhead
      obtain rfl : point = '.' := by simpa using hhead
      refine ⟨fun hnil => hpoint rfl (List.reverse_eq_nil_iff.mp hnil), ?_, fun hmem => ?_⟩
      · have hname := List.takeWhile_append_dropWhile (p := (· != '.')) (l := name.reverse)
        rw [hdrop] at hname
        simpa using (congrArg List.reverse hname).symm
      · simpa using List.mem_takeWhile_imp (List.mem_reverse.mp hmem)
  · rintro ⟨hbefore, rfl, hafter⟩
    obtain ⟨htake, hdrop⟩ := @takeWhile_dropWhile_exact (· != '.') after.reverse
      ('.' :: before.reverse)
      (fun c hc => bne_iff_ne.mpr fun heq => hafter (heq ▸ List.mem_reverse.mp hc))
      (fun c hc => by cases hc; rfl)
    have hreverse : (before ++ '.' :: after).reverse = after.reverse ++ '.' :: before.reverse := by
      simp
    obtain ⟨c, rest, hrest⟩ := List.exists_cons_of_ne_nil (List.reverse_ne_nil_iff.mpr hbefore)
    have hstart : (c :: rest).reverse = before := by rw [← hrest, List.reverse_reverse]
    unfold cutName
    dsimp only
    rw [hreverse, htake, hdrop, hrest, List.reverse_reverse]
    exact congrArg (·, some after) hstart

/-- A name has an extension if there is a point in it after its first character. -/
theorem isSome_cutName_iff (name : List Char) : (cutName name).2.isSome ↔ '.' ∈ name.tail := by
  constructor
  · intro h
    obtain ⟨after, hafter⟩ := Option.isSome_iff_exists.mp h
    obtain ⟨hne, hname, -⟩ := cutName_eq_iff.mp (Prod.ext rfl hafter)
    obtain ⟨c, before, hbefore⟩ := List.exists_cons_of_ne_nil hne
    rw [hname, hbefore]
    simp
  · intro h
    cases name with
    | nil => cases h
    | cons c rest =>
      -- the last point of the name is the first of the name read backwards
      obtain ⟨after, before, hrest, hafter⟩ := List.eq_append_cons_of_mem (List.mem_reverse.mpr h)
      have hname : c :: rest = (c :: before.reverse) ++ '.' :: after.reverse := by
        simpa using congrArg List.reverse hrest
      rw [cutName_eq_iff.mpr ⟨List.cons_ne_nil _ _, hname, by simpa using hafter⟩]
      rfl

/-- The name at the end of pieces is the last name to which their steps lead. -/
theorem follow_of_getLast? {all : List (List Char)}
    (h : (all.filterMap Component.ofPiece?).getLast? = some (.normal name)) :
    ∃ front, front <+: stepsOf all ∧
      ∀ place, follow place (stepsOf all) = follow place front ++ [name] := by
  induction all with
  | nil => cases h
  | cons piece rest ih =>
    change ∃ front, front <+: stepsOf ([piece] ++ rest) ∧
      ∀ place, follow place (stepsOf ([piece] ++ rest)) = follow place front ++ [name]
    rw [stepsOf_append]
    cases hlast : (rest.filterMap Component.ofPiece?).getLast? with
    | none =>
      -- nothing after this piece counts, so it is the last name
      rw [List.getLast?_eq_none_iff] at hlast
      have hpiece : Component.ofPiece? piece = some (.normal name) := by
        rw [List.filterMap_cons, hlast] at h
        cases hof : Component.ofPiece? piece with
        | none =>
          rw [hof] at h
          cases h
        | some c =>
          rw [hof] at h
          exact h
      refine ⟨[], List.nil_prefix, fun place => ?_⟩
      rw [follow_append, follow_piece, hpiece, follow_stepsOf, hlast]
      rfl
    | some c =>
      have hrest : (rest.filterMap Component.ofPiece?).getLast? = some (.normal name) := by
        rw [List.filterMap_cons] at h
        split at h
        · exact h
        · rw [List.getLast?_cons, hlast] at h
          rw [hlast]
          exact h
      obtain ⟨front, hfront, hfollow⟩ := ih hrest
      have hlonger : stepsOf [piece] ++ front <+: stepsOf [piece] ++ stepsOf rest :=
        (List.prefix_append_right_inj _).mpr hfront
      refine ⟨stepsOf [piece] ++ front, hlonger, fun place => ?_⟩
      rw [follow_append, follow_append, hfollow]

/-- The components of a path are those of its pieces, after a mark of how it starts. -/
theorem exists_components (p : Path) :
    ∃ start, (∀ name, .normal name ∉ start) ∧
      p.components = start ++ (pieces p.chars).filterMap Component.ofPiece? := by
  rcases p.components_eq with heq | ⟨-, -, heq⟩
  · refine ⟨start p.isAbsolute, fun name hname => ?_, heq⟩
    cases habsolute : p.isAbsolute with
    | true => simp [start, habsolute] at hname
    | false => simp [start, habsolute] at hname
  · exact ⟨[.current], by simp, heq⟩

/-- A name is its own file name. -/
theorem fileName?_ofString (h : IsName name) : (ofString name).fileName? = some name := by
  obtain ⟨start, -, hcomponents⟩ := exists_components (ofString name)
  have hpieces : pieces (ofString name).chars = [name.toList] := pieces_of_slash_not_mem h.2.2.2
  unfold fileName?
  rw [hcomponents, hpieces, List.filterMap_cons_some (ofPiece?_toList h)]
  simp

/-- A path with a file name leads to something of this name. -/
theorem follow_of_fileName? (h : p.fileName? = some name) :
    ∃ front, front <+: p.steps ∧
      ∀ place, follow place p.steps = follow place front ++ [name] := by
  have hlast : p.components.getLast? = some (.normal name) := by
    unfold fileName? at h
    split at h
    · rename_i found hfound
      cases h
      exact hfound
    · cases h
  obtain ⟨start, hstart, hcomponents⟩ := exists_components p
  rw [hcomponents, List.getLast?_append] at hlast
  refine follow_of_getLast? ?_
  cases hend : ((pieces p.chars).filterMap Component.ofPiece?).getLast? with
  | some c =>
    rw [hend] at hlast
    exact hlast
  | none =>
    rw [hend] at hlast
    exact absurd (List.mem_of_getLast? hlast) (hstart name)

/-! ### Output files

The output file of an address is the address itself, or the index page behind it. In both cases the
steps of the address are followed from the output directory on. -/

theorem isAbsolute_dropWhile (s : List Char) :
    isAbsolute ⟨s.dropWhile (· == '/')⟩ = false := by
  induction s with
  | nil => rfl
  | cons c rest ih =>
    rw [List.dropWhile_cons]
    split
    · exact ih
    · rename_i hslash
      unfold isAbsolute
      simpa using hslash

theorem steps_dropWhile (s : List Char) : steps ⟨s.dropWhile (· == '/')⟩ = steps ⟨s⟩ := by
  induction s with
  | nil => rfl
  | cons c rest ih =>
    rw [List.dropWhile_cons]
    split
    · rename_i hslash
      obtain rfl : c = '/' := by simpa using hslash
      rw [ih, steps_slash]
    · rfl

theorem isName_indexPage : IsName "index.html" := by decide

/-- A page is where the steps of its address lead, if the address has an extension, and in the
directory there otherwise. -/
theorem location_output (dir : Path) (address : List Char) :
    (dir.output address).location =
      if (extension? ⟨address.dropWhile (· == '/')⟩).isSome then
        follow dir.location (steps ⟨address⟩)
      else follow dir.location (steps ⟨address⟩) ++ ["index.html"] := by
  have hrelative := isAbsolute_dropWhile address
  rw [← steps_dropWhile address]
  unfold output
  generalize (⟨address.dropWhile (· == '/')⟩ : Path) = rest at hrelative ⊢
  have hindex : ∀ p : Path, (p.join indexPage).location = p.location ++ ["index.html"] :=
    fun p => location_child isName_indexPage
  dsimp only
  split
  · rename_i hempty
    obtain rfl : rest = ⟨[]⟩ := by rw [← hempty]
    exact hindex dir
  · split
    · exact location_join hrelative
    · rw [hindex, location_join hrelative]

/-- A page lies inside of the output directory if the steps of its address lead inward. -/
theorem inside_output (hdir : dir.isAbsolute = true) {address : List Char}
    (h : Inward (steps ⟨address⟩ ++ ["index.html"])) : Inside dir (dir.output address) := by
  have hrelative := isAbsolute_dropWhile address
  have hsteps := steps_dropWhile address
  unfold output
  generalize (⟨address.dropWhile (· == '/')⟩ : Path) = rest at hrelative hsteps
  rw [← hsteps] at h
  -- an index page comes after all steps of the address
  have hindex : ∀ place, follow place (rest.steps ++ ["index.html"]) =
      follow place rest.steps ++ ["index.html"] := by
    intro place
    rw [follow_append, follow_cons, stepTo_name isName_indexPage]
    rfl
  have hjoin : ((dir.join rest).join indexPage).steps =
      dir.steps ++ (rest.steps ++ ["index.html"]) := by
    rw [← List.append_assoc, ← steps_join hrelative]
    exact steps_child isName_indexPage
  dsimp only
  split
  · exact inside_child hdir isName_indexPage
  · split
    · rename_i hextension
      -- only a name has an extension, so the address does not end in `..`
      obtain ⟨name, hname⟩ : ∃ name, rest.fileName? = some name := by
        unfold extension? at hextension
        cases hfile : rest.fileName? with
        | some name => exact ⟨name, rfl⟩
        | none =>
          rw [hfile] at hextension
          cases hextension
      obtain ⟨front, hfront, hfollow⟩ := follow_of_fileName? hname
      exact inside_of_steps (isAbsolute_join hdir) (steps_join hrelative)
        (h.start (List.prefix_append _ _)) hfront hfollow
    · exact inside_of_steps (isAbsolute_join (isAbsolute_join hdir)) hjoin h
        (List.prefix_append _ _) hindex

end StaticSite.Path
