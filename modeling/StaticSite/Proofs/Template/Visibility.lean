import StaticSite.Proofs.Template.Tokens
import StaticSite.Template.Evaluation
/-!
# StaticSite.Proofs.Template.Visibility

**Data shows through look-ups alone.** A template looks its paths up in five ways (`LookupForm`),
and `lookupsIn` lists every place where it does. What is found depends on the scope
(`Lookup.found`), and what becomes of it on the form: the text of a plain interpolation, the truth
of a condition, in the other forms the value (`LookupForm.Same`). Scopes in which no look-up makes a
difference show the same (`evalNodes_congr`).

Only plain interpolations and conditions whose paths start with `item.` look anything up in the
element of a loop, and they look in the innermost loop. So what a template shows is decided by what
all others find in the root, and by what these find in the element of the scope
(`evalNodes_of_viewedAlike`).
-/

set_option autoImplicit false

namespace StaticSite

/-! ### Look-ups

A list of the look-ups of some nodes is enough to say what they depend on. In the body of a loop the
element is not known beforehand, so there two scopes have to agree for every element. -/

/-- What a path is looked up for. -/
inductive LookupForm where
  /-- To be shown by a plain interpolation. -/
  | interpolation
  /-- To be shown by an interpolation with a fallback, if it is truthy. -/
  | primary
  /-- To be shown in place of a falsy value. -/
  | fallback
  /-- To be tested by a conditional. -/
  | condition
  /-- To be gone through by a loop. -/
  | loop
deriving DecidableEq

/-- A place in some nodes where a path is looked up. -/
structure Lookup where
  form : LookupForm
  path : String
  /-- Whether the place is in the body of one of the loops. -/
  inLoop : Bool
deriving DecidableEq

/-- A look-up of the body of a loop, seen from outside of the loop. -/
def Lookup.inside (l : Lookup) : Lookup := { l with inLoop := true }

mutual

/-- The look-ups of a node. -/
def Node.lookups : Node → List Lookup
  | .text _ => []
  | .interpolation path none => [⟨.interpolation, path, false⟩]
  | .interpolation path (some (.literal _)) => [⟨.primary, path, false⟩]
  | .interpolation path (some (.path other)) =>
    [⟨.primary, path, false⟩, ⟨.fallback, other, false⟩]
  | .conditional path body => ⟨.condition, path, false⟩ :: lookupsIn body
  | .loop path body => ⟨.loop, path, false⟩ :: (lookupsIn body).map Lookup.inside

/-- The look-ups of nodes, in order. -/
def lookupsIn : List Node → List Lookup
  | [] => []
  | node :: rest => node.lookups ++ lookupsIn rest

end

/-- The value that a look-up finds. -/
def Lookup.found (scope : Scope) (l : Lookup) : Value :=
  match l.form with
  | .interpolation => scope.interpolated l.path
  | .condition => scope.condition l.path
  | .primary | .fallback | .loop => scope.root.resolve l.path

/-- Whether two values are the same for what they are looked up for. -/
def LookupForm.Same : LookupForm → Value → Value → Prop
  | .interpolation, first, second => first.renderText = second.renderText
  | .condition, first, second => first.isTruthy = second.isTruthy
  | .primary, first, second | .fallback, first, second | .loop, first, second => first = second

theorem LookupForm.Same.of_eq {first second : Value} (form : LookupForm) (h : first = second) :
    form.Same first second := by
  subst h
  cases form with
  | interpolation | primary | fallback | condition | loop => rfl

/-- Whether a look-up makes no difference between two scopes. In the body of a loop the element is
an item of the loop, which is the same in both. -/
def Lookup.Agrees (l : Lookup) (s t : Scope) : Prop :=
  if l.inLoop then
    ∀ item, l.form.Same (l.found ⟨s.root, some item⟩) (l.found ⟨t.root, some item⟩)
  else l.form.Same (l.found s) (l.found t)

variable {l : Lookup} {s t : Scope}

theorem Lookup.Agrees.of_inside (h : l.inside.Agrees s t) (item : Value) :
    l.Agrees ⟨s.root, some item⟩ ⟨t.root, some item⟩ := by
  have hitems : ∀ item, l.form.Same (l.found ⟨s.root, some item⟩) (l.found ⟨t.root, some item⟩) := h
  unfold Lookup.Agrees
  split
  · exact hitems
  · exact hitems item

mutual

/-- What a node shows is decided by its look-ups. -/
theorem Node.eval_congr : ∀ {node : Node} {s t : Scope},
    (∀ l ∈ node.lookups, l.Agrees s t) → node.eval s = node.eval t
  | .text _, _, _, _ => rfl
  | .interpolation _ none, _, _, h => h _ (List.mem_singleton.mpr rfl)
  | .interpolation path (some (.literal text)), s, t, h => by
    have hprimary : s.root.resolve path = t.root.resolve path := h _ (List.mem_singleton.mpr rfl)
    simp only [Node.eval, interpolate, Fallback.text, hprimary]
  | .interpolation path (some (.path other)), s, t, h => by
    obtain ⟨hprimary, hrest⟩ := List.forall_mem_cons.mp h
    have hprimary : s.root.resolve path = t.root.resolve path := hprimary
    have hfallback : s.root.resolve other = t.root.resolve other :=
      hrest _ (List.mem_singleton.mpr rfl)
    simp only [Node.eval, interpolate, Fallback.text, hprimary, hfallback]
  | .conditional path body, s, t, h => by
    obtain ⟨hcondition, hbody⟩ := List.forall_mem_cons.mp h
    have hcondition : (s.condition path).isTruthy = (t.condition path).isTruthy := hcondition
    simp only [Node.eval, hcondition, evalNodes_congr hbody]
  | .loop path body, s, t, h => by
    obtain ⟨hitems, hbody⟩ := List.forall_mem_cons.mp h
    have hitems : s.root.resolve path = t.root.resolve path := hitems
    have hitem : ∀ item, evalNodes ⟨s.root, some item⟩ body = evalNodes ⟨t.root, some item⟩ body :=
      fun item => evalNodes_congr fun l hl => (List.forall_mem_map.mp hbody l hl).of_inside item
    simp only [Node.eval, hitems, hitem]

/-- What nodes show is decided by their look-ups. -/
theorem evalNodes_congr : ∀ {nodes : List Node} {s t : Scope},
    (∀ l ∈ lookupsIn nodes, l.Agrees s t) → evalNodes s nodes = evalNodes t nodes
  | [], _, _, _ => rfl
  | node :: rest, s, t, h => by
    obtain ⟨hnode, hrest⟩ := List.forall_mem_append.mp h
    simp only [evalNodes, Node.eval_congr hnode, evalNodes_congr hrest]

end

/-! ### Look-ups in the element of a loop

Which value is looked in is decided by the form of the look-up, by its path, and by whether there is
an element. The operations of a scope have one equation for each case. -/

/-- Whether a look-up is the plain interpolation or the condition of a path that starts with
`item.`. -/
def Lookup.IsItem (l : Lookup) : Prop :=
  (l.form = .interpolation ∨ l.form = .condition) ∧ (elementPath? l.path).isSome

/-- Whether a look-up refers to an element: that of a loop around it or, outside of the loops of the
nodes, that of the scope. -/
def Lookup.RefersToElement (l : Lookup) (scope : Scope) : Prop :=
  l.IsItem ∧ (l.inLoop ∨ scope.element.isSome)

instance (l : Lookup) : Decidable l.IsItem := instDecidableAnd

instance (l : Lookup) (scope : Scope) : Decidable (l.RefersToElement scope) := instDecidableAnd

namespace Scope

variable {scope : Scope} {path rest : String} {root element : Value}

theorem elementPath?_of_none (h : StaticSite.elementPath? path = none ∨ scope.element = none) :
    scope.elementPath? path = none := by
  unfold elementPath?
  split
  · rename_i element rest helement hrest
    rcases h with h | h
    · rw [h] at hrest
      cases hrest
    · rw [h] at helement
      cases helement
  · rfl

theorem elementPath?_of_some (h : StaticSite.elementPath? path = some rest) :
    elementPath? ⟨root, some element⟩ path = some (element, rest) := by
  unfold elementPath?
  rw [h]

theorem interpolated_of_none (h : StaticSite.elementPath? path = none ∨ scope.element = none) :
    scope.interpolated path = scope.root.resolve path := by
  unfold interpolated
  rw [elementPath?_of_none h]

/-- Outside of loops, plain interpolations look in the root. -/
theorem interpolated_root (root : Value) (path : String) :
    interpolated ⟨root, none⟩ path = root.resolve path := interpolated_of_none (.inr rfl)

theorem interpolated_of_some (h : StaticSite.elementPath? path = some rest) :
    interpolated ⟨root, some element⟩ path = element.walk (segments rest) := by
  unfold interpolated
  rw [elementPath?_of_some h]

theorem condition_of_none (h : StaticSite.elementPath? path = none ∨ scope.element = none) :
    scope.condition path = scope.root.resolve path := by
  unfold condition
  rw [elementPath?_of_none h]

/-- Outside of loops, conditions look in the root. -/
theorem condition_root (root : Value) (path : String) :
    condition ⟨root, none⟩ path = root.resolve path := condition_of_none (.inr rfl)

theorem condition_of_some (h : StaticSite.elementPath? path = some rest) :
    condition ⟨root, some element⟩ path = element.resolve rest := by
  unfold condition
  rw [elementPath?_of_some h]

end Scope

/-- What does not refer to an element is looked up in the root. -/
theorem Lookup.found_eq_resolve (h : ¬ (l.IsItem ∧ s.element.isSome)) :
    l.found s = s.root.resolve l.path := by
  obtain ⟨form, path, inLoop⟩ := l
  have hnone : form = .interpolation ∨ form = .condition →
      elementPath? path = none ∨ s.element = none := by
    intro hform
    by_cases hpath : elementPath? path = none
    · exact .inl hpath
    · refine .inr (Option.not_isSome_iff_eq_none.mp fun hsome => h ⟨⟨hform, ?_⟩, hsome⟩)
      exact Option.isSome_iff_ne_none.mpr hpath
  cases form with
  | interpolation => exact Scope.interpolated_of_none (hnone (.inl rfl))
  | condition => exact Scope.condition_of_none (hnone (.inr rfl))
  | primary | fallback | loop => rfl

/-- What refers to an element does not depend on the root. -/
theorem Lookup.IsItem.found_eq (h : l.IsItem) (root other item : Value) :
    l.found ⟨root, some item⟩ = l.found ⟨other, some item⟩ := by
  obtain ⟨form, path, inLoop⟩ := l
  obtain ⟨hform, hpath⟩ := h
  obtain ⟨rest, hrest⟩ := Option.isSome_iff_exists.mp hpath
  rcases hform with rfl | rfl
  · exact (Scope.interpolated_of_some hrest).trans (Scope.interpolated_of_some hrest).symm
  · exact (Scope.condition_of_some hrest).trans (Scope.condition_of_some hrest).symm

/-- Whether nodes have the same data in view in two scopes. -/
structure ViewedAlike (nodes : List Node) (s t : Scope) : Prop where
  /-- Both scopes have an element or neither has. -/
  present : s.element.isSome = t.element.isSome
  /-- What does not refer to an element is resolved alike in the roots. -/
  root : ∀ l ∈ lookupsIn nodes, ¬ l.RefersToElement s →
    s.root.resolve l.path = t.root.resolve l.path
  /-- What refers to the elements of the scopes shows the same text or has the same truth. -/
  element : ∀ l ∈ lookupsIn nodes, l.RefersToElement s → l.inLoop = false →
    l.form.Same (l.found s) (l.found t)

theorem ViewedAlike.agrees {nodes : List Node} (h : ViewedAlike nodes s t)
    (hl : l ∈ lookupsIn nodes) : l.Agrees s t := by
  unfold Lookup.Agrees
  by_cases hrefers : l.RefersToElement s
  · split
    · exact fun item => .of_eq _ (hrefers.1.found_eq _ _ item)
    · rename_i hinLoop
      exact h.element l hl hrefers (Bool.eq_false_iff.mpr hinLoop)
  · have hroot := h.root l hl hrefers
    split
    · rename_i hinLoop
      have hitem : ¬ l.IsItem := fun hitem => hrefers ⟨hitem, .inl hinLoop⟩
      intro item
      refine .of_eq _ ?_
      rw [Lookup.found_eq_resolve fun h => hitem h.1, Lookup.found_eq_resolve fun h => hitem h.1]
      exact hroot
    · have hs : ¬ (l.IsItem ∧ s.element.isSome) := fun hitem => hrefers ⟨hitem.1, .inr hitem.2⟩
      have ht : ¬ (l.IsItem ∧ t.element.isSome) := by rwa [← h.present]
      refine .of_eq _ ?_
      rw [Lookup.found_eq_resolve hs, Lookup.found_eq_resolve ht]
      exact hroot

/-- Nodes that refer to no element outside of their loops show the same for every element. -/
theorem evalNodes_element_congr {body : List Node}
    (h : ∀ l ∈ lookupsIn body, l.inLoop = false → ¬ l.IsItem) (root first second : Value) :
    evalNodes ⟨root, some first⟩ body = evalNodes ⟨root, some second⟩ body :=
  evalNodes_congr fun _ hl => ViewedAlike.agrees
    { present := rfl
      root := fun _ _ _ => rfl
      element := fun l hl hrefers hinLoop => absurd hrefers.1 (h l hl hinLoop) } hl

/-- **Data shows through look-ups alone.** Nodes that have the same data in view in two scopes show
the same. In particular, nodes that refer to no element outside of their loops show the same for
every element; and a loop sees nothing of an element around it. -/
theorem evalNodes_of_viewedAlike :
    (∀ (nodes : List Node) (s t : Scope), ViewedAlike nodes s t →
      evalNodes s nodes = evalNodes t nodes) ∧
    (∀ (root : Value) (body : List Node),
      (∀ l ∈ lookupsIn body, l.inLoop = false → ¬ l.IsItem) →
      ∀ first second, evalNodes ⟨root, some first⟩ body = evalNodes ⟨root, some second⟩ body) ∧
    (∀ (root : Value) (path : String) (body : List Node) (first second : Option Value),
      (Node.loop path body).eval ⟨root, first⟩ = (Node.loop path body).eval ⟨root, second⟩) :=
  ⟨fun _ _ _ h => evalNodes_congr fun _ hl => h.agrees hl,
    fun root _ h => evalNodes_element_congr h root,
    fun _ _ _ _ _ => rfl⟩

/-- A page that shows neither the secret of its root nor that of its element. -/
def discreetPage : List Char :=
  templateOf "«#if open»«item.name»«/if»«#each xs»«item.secret»«/each»«item.secret || \"?\"»"

/-- A scope with a secret in the root and one in the element. -/
def secretScope (secret : String) : Scope where
  root := .mapping [("open", .bool true), ("secret", .string secret), ("xs", .sequence [.null])]
  element := some (.mapping [("name", .string "n"), ("secret", .string secret)])

theorem lookupsIn_discreetPage :
    lookupsIn (parseTemplate discreetPage) =
      [⟨.condition, "open", false⟩, ⟨.interpolation, "item.name", false⟩, ⟨.loop, "xs", false⟩,
        ⟨.interpolation, "item.secret", true⟩, ⟨.primary, "item.secret", false⟩] := by
  decide +kernel

/-- Only the name of the element is in view, and it is the same in both scopes. -/
theorem viewedAlike_discreetPage :
    ViewedAlike (parseTemplate discreetPage) (secretScope "a") (secretScope "b") := by
  constructor
  · rfl
  · rw [lookupsIn_discreetPage]
    simp only [List.forall_mem_cons, List.not_mem_nil, false_imp_iff, implies_true, and_true]
    refine ⟨fun _ => rfl, fun h => absurd ?_ h, fun _ => rfl, fun h => absurd ?_ h, fun _ => rfl⟩
    · decide
    · decide
  · rw [lookupsIn_discreetPage]
    simp only [List.forall_mem_cons, List.not_mem_nil, false_imp_iff, implies_true, and_true]
    refine ⟨fun h => absurd h ?_, fun _ _ => rfl, fun h => absurd h ?_, fun _ hinLoop => ?_,
      fun h => absurd h ?_⟩
    · decide
    · decide
    · cases hinLoop
    · decide

/-- The secrets do not show. -/
theorem evalNodes_of_viewedAlike_secret :
    evalNodes (secretScope "a") (parseTemplate discreetPage) =
      evalNodes (secretScope "b") (parseTemplate discreetPage) :=
  evalNodes_of_viewedAlike.1 _ _ _ viewedAlike_discreetPage

end StaticSite
