import StaticSite.Proofs.Template.Inquiry
/-!
# StaticSite.Proofs.Template.Transparency

**A cache that cannot be seen.** While the loader stays the same, a session that started empty only
keeps bodies that the loader would give again (`Session.Faithful`). An inquiry made of such a
session has the result and the warnings that it has without any cache (`Inquiry.plain`), so earlier
uses of an engine show in the loader calls alone.
-/

set_option autoImplicit false

namespace StaticSite

variable {α : Type} {loader : Loader} {session : Session}

/-- Each body that is kept is the one that the loader holds. -/
def Session.Faithful (loader : Loader) (session : Session) : Prop :=
  ∀ key body, session.body? key = some body → loader.answer key = .ok body

namespace Session

theorem load_of_kept {key : SourceKey} {body : List Char} (h : session.body? key = some body) :
    session.load loader key.1 key.2 = (.ok body, session) := by
  unfold load
  rw [h]

/-- A body that is not kept comes from the loader, which is called once; only a success is kept. -/
theorem load_of_missing {key : SourceKey} (h : session.body? key = none) :
    session.load loader key.1 key.2 =
      (loader.answer key,
        match loader.answer key with
        | .ok body =>
          { session with
            bodies := (key, body) :: session.bodies
            loads := session.loads ++ [key] }
        | .error _ => { session with loads := session.loads ++ [key] }) := by
  unfold load
  rw [h]
  dsimp only [Loader.answer]
  cases loader key.1 key.2 with
  | ok body => rfl
  | error e => rfl

theorem load_warnings (key : SourceKey) :
    (session.load loader key.1 key.2).2.warnings = session.warnings := by
  cases h : session.body? key with
  | some body => rw [load_of_kept h]
  | none =>
    rw [load_of_missing h]
    cases loader.answer key with
    | ok body => rfl
    | error e => rfl

theorem body?_cons (bodies : List (SourceKey × List Char)) (loads : List SourceKey)
    (warnings : List Warning) (key other : SourceKey) (body : List Char) :
    body? ⟨(key, body) :: bodies, loads, warnings⟩ other =
      if other = key then some body else body? ⟨bodies, loads, warnings⟩ other := by
  unfold body?
  rw [List.lookup_cons]
  by_cases h : other = key
  · simp [h]
  · simp [h, beq_false_of_ne h]

theorem faithful_empty (loader : Loader) : empty.Faithful loader := by
  intro key body h
  cases h

theorem Faithful.warn (h : session.Faithful loader) (warning : Warning) :
    (session.warn warning).Faithful loader := h

/-- A faithful session answers as the loader does. -/
theorem Faithful.load_fst (h : session.Faithful loader) (key : SourceKey) :
    (session.load loader key.1 key.2).1 = loader.answer key := by
  cases hk : session.body? key with
  | some body => rw [load_of_kept hk, h key body hk]
  | none => rw [load_of_missing hk]

theorem Faithful.load_snd (h : session.Faithful loader) (key : SourceKey) :
    (session.load loader key.1 key.2).2.Faithful loader := by
  cases hk : session.body? key with
  | some body =>
    rw [load_of_kept hk]
    exact h
  | none =>
    rw [load_of_missing hk]
    cases hl : loader.answer key with
    | error e => exact h
    | ok body =>
      intro other found hfound
      rw [body?_cons] at hfound
      split at hfound
      · next heq => rw [heq, hl, Option.some.inj hfound]
      · exact h other found hfound

end Session

/-- The result of an inquiry that the loader answers itself, and the warnings on the way. -/
def Inquiry.plain (loader : Loader) : Inquiry α → α × List Warning
  | .done a => (a, [])
  | .ask key next => (next (loader.answer key)).plain loader
  | .warn warning next => ((next.plain loader).1, warning :: (next.plain loader).2)

/-- A faithful session gives the result and adds the warnings of the inquiry without a cache, and
stays faithful. -/
theorem Session.Faithful.run (h : session.Faithful loader) (inquiry : Inquiry α) :
    (inquiry.run loader session).1 = (inquiry.plain loader).1 ∧
      (inquiry.run loader session).2.warnings =
        session.warnings ++ (inquiry.plain loader).2 ∧
      (inquiry.run loader session).2.Faithful loader := by
  -- over the steps of the inquiry: each leaves a faithful session for the rest
  induction inquiry generalizing session with
  | done a => exact ⟨rfl, (List.append_nil _).symm, h⟩
  | ask key next ih =>
    have hnext := ih (loader.answer key) (h.load_snd key)
    simp only [Inquiry.run, Inquiry.plain, h.load_fst key]
    rw [Session.load_warnings] at hnext
    exact hnext
  | warn warning next ih =>
    obtain ⟨hresult, hwarnings, hfaithful⟩ := ih (h.warn warning)
    refine ⟨hresult, ?_, hfaithful⟩
    calc (next.run loader (session.warn warning)).2.warnings
        = (session.warnings ++ [warning]) ++ (next.plain loader).2 := hwarnings
      _ = session.warnings ++ warning :: (next.plain loader).2 := by simp

/-- The session after some uses, one after the other. -/
def Session.afterUses (loader : Loader) (session : Session) (uses : List Use) : Session :=
  uses.foldl (Use.perform loader) session

theorem Session.Faithful.afterUses (h : session.Faithful loader) (uses : List Use) :
    (session.afterUses loader uses).Faithful loader := by
  induction uses generalizing session with
  | nil => exact h
  | cons use rest ih =>
    refine ih ?_
    rw [← Use.run_inquiry]
    exact (h.run use.inquiry).2.2

/-- **The cache is invisible.** Whatever an engine has been used for, it renders a page to the
result of a new engine and with the warnings of a new engine. -/
theorem render_afterUses (loader : Loader) (uses : List Use) (template : String)
    (context : Value) (layout : String) :
    (render loader template context layout (Session.empty.afterUses loader uses)).1 =
        (render loader template context layout .empty).1 ∧
      (render loader template context layout (Session.empty.afterUses loader uses)).2.warnings =
        (Session.empty.afterUses loader uses).warnings ++
          (render loader template context layout .empty).2.warnings := by
  have hused := ((Session.faithful_empty loader).afterUses uses).run
    (Inquiry.render template context layout)
  have hnew := (Session.faithful_empty loader).run (Inquiry.render template context layout)
  rw [Inquiry.run_render] at hused hnew
  refine ⟨hused.1.trans hnew.1.symm, ?_⟩
  rw [hused.2.1, hnew.2.1]
  rfl

end StaticSite
