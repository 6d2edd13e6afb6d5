/-!
# StaticSite.Proofs.Discipline

Disciplines of tasks. A task goes through states and may stop at any of them; **what each of its
steps respects, the task respects, whether it succeeds or fails**. A discipline says what holds of
every state and how a later state may differ from an earlier one.

`Discipline.Yields` is closed under everything that tasks are composed with; what a task returns is
carried along, since the next step can depend on it.
-/

set_option autoImplicit false

namespace StaticSite

variable {σ τ ε ε' α β : Type}

/-- The state in which a task ends, whether it succeeds or fails. -/
def stateAfter (task : EStateM ε σ α) (s : σ) : σ :=
  match task s with
  | .ok _ t => t
  | .error _ t => t

theorem stateAfter_of_ok {task : EStateM ε σ α} {s t : σ} {a : α} (h : task s = .ok a t) :
    stateAfter task s = t := by
  unfold stateAfter
  rw [h]

theorem stateAfter_of_error {task : EStateM ε σ α} {s t : σ} {e : ε} (h : task s = .error e t) :
    stateAfter task s = t := by
  unfold stateAfter
  rw [h]

theorem stateAfter_bind (task : EStateM ε σ α) (next : α → EStateM ε σ β) (s : σ) :
    stateAfter (task >>= next) s =
      match task s with
      | .ok a t => stateAfter (next a) t
      | .error _ t => t := by
  change (match EStateM.bind task next s with
    | .ok _ t => t
    | .error _ t => t) = _
  unfold EStateM.bind
  cases task s with
  | ok a t => rfl
  | error e t => rfl

/-- What follows a part that succeeds starts where that has ended. -/
theorem bind_of_ok {task : EStateM ε σ α} {next : α → EStateM ε σ β} {s t : σ} {a : α}
    (h : task s = .ok a t) : (task >>= next) s = next a t := by
  change EStateM.bind task next s = _
  unfold EStateM.bind
  rw [h]

/-- A task that succeeds has succeeded in each of its parts. -/
theorem bind_eq_ok_iff {task : EStateM ε σ α} {next : α → EStateM ε σ β} {s u : σ} {b : β} :
    (task >>= next) s = .ok b u ↔ ∃ a t, task s = .ok a t ∧ next a t = .ok b u := by
  change EStateM.bind task next s = _ ↔ _
  unfold EStateM.bind
  cases task s with
  | ok a t =>
    refine ⟨fun h => ⟨a, t, rfl, h⟩, ?_⟩
    rintro ⟨_, _, heq, h⟩
    cases heq
    exact h
  | error e t => simp

/-- A task that fails has failed in one of its parts. -/
theorem bind_eq_error_iff {task : EStateM ε σ α} {next : α → EStateM ε σ β} {s u : σ} {e : ε} :
    (task >>= next) s = .error e u ↔
      task s = .error e u ∨ ∃ a t, task s = .ok a t ∧ next a t = .error e u := by
  change EStateM.bind task next s = _ ↔ _
  unfold EStateM.bind
  cases task s with
  | ok a t =>
    constructor
    · exact fun h => Or.inr ⟨a, t, rfl, h⟩
    · rintro (h | ⟨_, _, heq, h⟩)
      · cases h
      · cases heq
        exact h
  | error e t => simp

/-- Whether a task succeeds with something that passes a test. -/
def passes (task : EStateM ε σ α) (s : σ) (test : α → σ → Bool) : Bool :=
  match task s with
  | .ok a t => test a t
  | .error _ _ => false

theorem passes_eq_true_iff {task : EStateM ε σ α} {s : σ} {test : α → σ → Bool} :
    passes task s test = true ↔ ∃ a t, task s = .ok a t ∧ test a t = true := by
  unfold passes
  cases task s with
  | ok a t =>
    refine ⟨fun h => ⟨a, t, rfl, h⟩, ?_⟩
    rintro ⟨_, _, heq, h⟩
    cases heq
    exact h
  | error e t => simp

/-- Whether a task fails with an error that passes a test. -/
def fails (task : EStateM ε σ α) (s : σ) (test : ε → Bool) : Bool :=
  match task s with
  | .ok _ _ => false
  | .error e _ => test e

theorem fails_eq_true_iff {task : EStateM ε σ α} {s : σ} {test : ε → Bool} :
    fails task s test = true ↔ ∃ e t, task s = .error e t ∧ test e = true := by
  unfold fails
  cases task s with
  | ok a t => simp
  | error e t =>
    refine ⟨fun h => ⟨e, t, rfl, h⟩, ?_⟩
    rintro ⟨_, _, ⟨⟩, h⟩
    exact h

/-- What holds of every state, and how states may change. -/
structure Discipline (σ : Type) where
  holds : σ → Prop
  change : σ → σ → Prop
  refl : ∀ s, change s s
  trans : ∀ {s t u}, change s t → change t u → change s u

namespace Discipline

variable {d : Discipline σ} {task : EStateM ε σ α} {next : α → EStateM ε σ β}
  {post : α → Prop} {goal : β → Prop}

/-- Whether one state may come after another. -/
def Allows (d : Discipline σ) (s t : σ) : Prop := d.holds t ∧ d.change s t

theorem allows_refl {s : σ} (h : d.holds s) : d.Allows s s := ⟨h, d.refl s⟩

theorem Allows.trans {s t u : σ} (h : d.Allows s t) (hnext : d.Allows t u) : d.Allows s u :=
  ⟨hnext.1, d.trans h.2 hnext.2⟩

/-- Whether a task follows a discipline, and returns only what satisfies `post`. -/
def Yields (d : Discipline σ) (task : EStateM ε σ α) (post : α → Prop) : Prop :=
  ∀ s, d.holds s →
    match task s with
    | .ok a t => d.Allows s t ∧ post a
    | .error _ t => d.Allows s t

/-- Whether a task follows a discipline. -/
def Keeps (d : Discipline σ) (task : EStateM ε σ α) : Prop := d.Yields task fun _ => True

/-! ### Reading a task off -/

theorem Yields.allows {s : σ} (h : d.Yields task post) (hs : d.holds s) :
    d.Allows s (stateAfter task s) := by
  have hrun := h s hs
  unfold stateAfter
  split at hrun
  · exact hrun.1
  · exact hrun

theorem Yields.allows_of_ok {s t : σ} {a : α} (h : d.Yields task post) (hrun : task s = .ok a t)
    (hs : d.holds s) : d.Allows s t :=
  stateAfter_of_ok hrun ▸ h.allows hs

theorem Yields.holds_of_ok {s t : σ} {a : α} (h : d.Yields task post) (hrun : task s = .ok a t)
    (hs : d.holds s) : d.holds t :=
  (h.allows_of_ok hrun hs).1

/-- A task that is begun later. -/
theorem Yields.after {s t : σ} (h : d.Yields task post) (hst : d.Allows s t) :
    match task t with
    | .ok a u => d.Allows s u ∧ post a
    | .error _ u => d.Allows s u := by
  have hrun := h t hst.1
  split at hrun
  · exact ⟨hst.trans hrun.1, hrun.2⟩
  · exact hst.trans hrun

theorem keeps_of_allows (h : ∀ s, d.holds s → d.Allows s (stateAfter task s)) : d.Keeps task := by
  intro s hs
  have hallows := h s hs
  unfold stateAfter at hallows
  split
  · rename_i hrun
    rw [hrun] at hallows
    exact ⟨hallows, trivial⟩
  · rename_i hrun
    rw [hrun] at hallows
    exact hallows

/-! ### Composing tasks

The lemmas follow the ways to build a task. That the state is allowed also where a task fails is
what makes them hold at every point where it may stop. -/

theorem yields_pure {a : α} (h : post a) : d.Yields (pure a : EStateM ε σ α) post :=
  fun _ hs => ⟨allows_refl hs, h⟩

theorem keeps_pure (a : α) : d.Keeps (pure a : EStateM ε σ α) := yields_pure trivial

theorem yields_throw (e : ε) : d.Yields (throw e : EStateM ε σ α) post :=
  fun _ hs => allows_refl hs

theorem Yields.bind (h : d.Yields task post) (hnext : ∀ a, post a → d.Yields (next a) goal) :
    d.Yields (task >>= next) goal := by
  intro s hs
  have hfirst := h s hs
  change match EStateM.bind task next s with
    | .ok b t => d.Allows s t ∧ goal b
    | .error _ t => d.Allows s t
  unfold EStateM.bind
  split at hfirst
  · rename_i a t hrun
    rw [hrun]
    exact (hnext a hfirst.2).after hfirst.1
  · rename_i e t hrun
    rw [hrun]
    exact hfirst

theorem Keeps.bind (h : d.Keeps task) (hnext : ∀ a, d.Yields (next a) goal) :
    d.Yields (task >>= next) goal :=
  Yields.bind h fun a _ => hnext a

/-- A task whose first part follows a discipline where it is begun. -/
theorem Allows.bind {s : σ} (h : d.Allows s (stateAfter task s))
    (hnext : ∀ a, d.Yields (next a) goal) :
    match (task >>= next) s with
    | .ok b t => d.Allows s t ∧ goal b
    | .error _ t => d.Allows s t := by
  cases hrun : task s with
  | ok a t =>
    rw [stateAfter_of_ok hrun] at h
    rw [bind_of_ok hrun]
    exact (hnext a).after h
  | error e t =>
    rw [stateAfter_of_error hrun] at h
    rw [bind_eq_error_iff.mpr (.inl hrun)]
    exact h

theorem Keeps.seqRight {second : EStateM ε σ β} (h : d.Keeps task)
    (hsecond : d.Yields second goal) : d.Yields (task *> second) goal :=
  h.bind fun _ => hsecond

theorem keeps_foldlM {step : β → α → EStateM ε σ β} {all : List α}
    (h : ∀ b, ∀ a ∈ all, d.Keeps (step b a)) (init : β) : d.Keeps (all.foldlM step init) := by
  induction all generalizing init with
  | nil => exact keeps_pure init
  | cons a rest ih =>
    rw [List.foldlM_cons]
    exact (h init a List.mem_cons_self).bind
      fun b => ih (fun b a ha => h b a (List.mem_cons_of_mem _ ha)) b

/-- The discipline of states of which a part follows another discipline. -/
def onPart (d : Discipline τ) (part : σ → τ) : Discipline σ where
  holds s := d.holds (part s)
  change s t := d.change (part s) (part t)
  refl _ := d.refl _
  trans h hnext := d.trans h hnext

theorem allows_onPart {d : Discipline τ} {part : σ → τ} {s t : σ} :
    (d.onPart part).Allows s t ↔ d.Allows (part s) (part t) :=
  Iff.rfl

end Discipline

end StaticSite
