import StaticSite.Template.Engine
/-!
# StaticSite.Proofs.Template.Inquiry

**What is asked of a session.** Expansion and rendering touch a session in two ways only: they ask
for the body of a key, and they warn. An `Inquiry` is a task with nothing but these two steps; what
it does next may depend on the answers.

`Inquiry.run` makes an inquiry of a session. The operations of a session and of an engine are
inquiries (`Inquiry.run_expand`, `Inquiry.run_render`), so a fact about all inquiries is a fact
about all of them, however many bodies a template asks for and in whatever order.
-/

set_option autoImplicit false

namespace StaticSite

/-- What a session or a loader says about a key. -/
abbrev Answer := Except LoadError (List Char)

/-- What a loader holds for a key. -/
abbrev Loader.answer (loader : Loader) (key : SourceKey) : Answer := loader key.1 key.2

/-- A task on a session: steps that ask for a body, and steps that warn. -/
inductive Inquiry (α : Type) where
  | done (result : α)
  /-- Asks for the body of a key and goes on as the answer decides. -/
  | ask (key : SourceKey) (next : Answer → Inquiry α)
  | warn (warning : Warning) (next : Inquiry α)

namespace Inquiry

variable {α β : Type}

/-- One inquiry after another. -/
def bind : Inquiry α → (α → Inquiry β) → Inquiry β
  | done a, next => next a
  | ask key more, next => ask key fun answer => (more answer).bind next
  | warn warning more, next => warn warning (more.bind next)

/-- Makes an inquiry of a session. -/
def run (loader : Loader) : Inquiry α → Session → α × Session
  | done a, session => (a, session)
  | ask key next, session =>
    (next (session.load loader key.1 key.2).1).run loader (session.load loader key.1 key.2).2
  | warn warning next, session => next.run loader (session.warn warning)

theorem run_bind (loader : Loader) (inquiry : Inquiry α) (next : α → Inquiry β)
    (session : Session) :
    (inquiry.bind next).run loader session =
      (next (inquiry.run loader session).1).run loader (inquiry.run loader session).2 := by
  induction inquiry generalizing session with
  | done a => rfl
  | ask key more ih => exact ih _ _
  | warn warning more ih => exact ih _

/-! ### The operations of a session and of an engine

Each operation is written once more, as an inquiry, with the equation that making this inquiry of a
session is the operation. From here on theorems are proved for inquiries. -/

/-- The body of a name. -/
def load (kind : SourceKind) (name : String) : Inquiry Answer := ask (kind, name) done

/-- The body of a partial, which is empty if it cannot be loaded. -/
def loadPart (name : String) : Inquiry (List Char) :=
  ask (.part, name) fun
    | .ok body => done body
    | .error e => warn (.missing name e) (done [])

/-- The text of tokens, with `expandName` in the place of each inclusion marker. -/
def expandTokens (expandName : String → Inquiry (List Char)) : List Token → Inquiry (List Char)
  | [] => done []
  | .marker (.inclusion name) _ :: rest =>
    (expandName name).bind fun body =>
      (expandTokens expandName rest).bind fun more => done (body ++ more)
  | token :: rest => (expandTokens expandName rest).bind fun more => done (token.raw ++ more)

/-- The text with its partials included, where the partials of `chain` are in expansion and `room`
more may be. -/
def expandWithin : Nat → List String → List Char → Inquiry (List Char)
  | 0, chain, source =>
    expandTokens
      (fun name => warn (if name ∈ chain then .cycle name chain else .tooDeep name) (done []))
      (tokenize source)
  | room + 1, chain, source =>
    expandTokens
      (fun name =>
        if name ∈ chain then warn (.cycle name chain) (done [])
        else (loadPart name).bind fun body => expandWithin room (chain ++ [name]) body)
      (tokenize source)

/-- The text with its partials included. -/
def expand (source : List Char) : Inquiry (List Char) := expandWithin maxDepth [] source

/-- What a text shows of a context after its partials have been included. -/
def showSource (source : List Char) (context : Value) : Inquiry (List Char) :=
  (expand source).bind fun expanded => done (substitute expanded context)

/-- A page inside a layout. -/
def render (template : String) (context : Value) (layout : String) :
    Inquiry (Except RenderError (List Char)) :=
  ask (.page, template) fun
    | .error e => done (.error ⟨template, e⟩)
    | .ok source =>
      (showSource source (withCurrentPage template context)).bind fun page =>
        ask (.layout, layout) fun
          | .error _ => done (.ok page)
          | .ok layoutSource =>
            (showSource (injectContent layoutSource page) (withCurrentPage template context)).bind
              fun html => done (.ok html)

theorem run_load (loader : Loader) (kind : SourceKind) (name : String) (session : Session) :
    (load kind name).run loader session = session.load loader kind name := rfl

theorem run_loadPart (loader : Loader) (name : String) (session : Session) :
    (loadPart name).run loader session = session.loadPart loader name := by
  unfold loadPart Session.loadPart
  simp only [run]
  rcases h : session.load loader .part name with ⟨answer, after⟩
  cases answer with
  | ok body => rfl
  | error e => rfl

theorem run_expandTokens (loader : Loader) {asked : String → Inquiry (List Char)}
    {expandName : String → Session → List Char × Session}
    (hname : ∀ name session, (asked name).run loader session = expandName name session)
    (tokens : List Token) (session : Session) :
    (expandTokens asked tokens).run loader session =
      StaticSite.expandTokens expandName tokens session := by
  induction tokens generalizing session with
  | nil => rfl
  | cons token rest ih =>
    unfold expandTokens StaticSite.expandTokens
    split
    · rename_i heq
      cases heq
    · rename_i name raw tail heq
      cases heq
      simp only [run_bind, run, hname, ih]
    · rename_i tail hplain heq
      cases heq
      simp only [run_bind, run, ih]

theorem run_expandWithin (loader : Loader) (room : Nat) (chain : List String)
    (source : List Char) (session : Session) :
    (expandWithin room chain source).run loader session =
      StaticSite.expandWithin loader room chain source session := by
  -- over the room left: the partials of a text are expanded with one place less
  induction room generalizing chain source session with
  | zero =>
    unfold expandWithin StaticSite.expandWithin
    exact run_expandTokens loader (fun _ _ => rfl) _ _
  | succ room ih =>
    unfold expandWithin StaticSite.expandWithin
    refine run_expandTokens loader (fun name session => ?_) _ _
    by_cases hname : name ∈ chain
    · simp only [if_pos hname, run]
    · simp only [if_neg hname, run_bind, run_loadPart, ih]

theorem run_expand (loader : Loader) (source : List Char) (session : Session) :
    (expand source).run loader session = StaticSite.expand loader source session :=
  run_expandWithin loader maxDepth [] source session

theorem run_showSource (loader : Loader) (source : List Char) (context : Value)
    (session : Session) :
    (showSource source context).run loader session =
      StaticSite.showSource loader source context session := by
  simp only [showSource, StaticSite.showSource, run_bind, run, run_expand]

theorem run_render (loader : Loader) (template : String) (context : Value) (layout : String)
    (session : Session) :
    (render template context layout).run loader session =
      StaticSite.render loader template context layout session := by
  unfold render StaticSite.render
  simp only [run]
  rcases session.load loader .page template with ⟨answer, loaded⟩
  cases answer with
  | error e => rfl
  | ok source =>
    simp only [run_bind, run_showSource, run]
    rcases (StaticSite.showSource loader source (withCurrentPage template context) loaded).2.load
      loader .layout layout with ⟨answer, both⟩
    cases answer with
    | error e => rfl
    | ok layoutSource => simp only [run_bind, run_showSource, run]

end Inquiry

/-! ### Uses of an engine -/

/-- What can be done with an engine, and with the cache inside of it. -/
inductive Use where
  | load (kind : SourceKind) (name : String)
  | loadPart (name : String)
  | expand (source : List Char)
  | render (template : String) (context : Value) (layout : String)

namespace Use

/-- The session after a use. -/
def perform (loader : Loader) (session : Session) : Use → Session
  | load kind name => (session.load loader kind name).2
  | loadPart name => (session.loadPart loader name).2
  | expand source => (StaticSite.expand loader source session).2
  | render template context layout =>
    (StaticSite.render loader template context layout session).2

/-- A use as an inquiry, its result left out. -/
def inquiry : Use → Inquiry Unit
  | load kind name => (Inquiry.load kind name).bind fun _ => .done ()
  | loadPart name => (Inquiry.loadPart name).bind fun _ => .done ()
  | expand source => (Inquiry.expand source).bind fun _ => .done ()
  | render template context layout =>
    (Inquiry.render template context layout).bind fun _ => .done ()

theorem run_inquiry (loader : Loader) (use : Use) (session : Session) :
    (use.inquiry.run loader session).2 = use.perform loader session := by
  cases use with
  | load kind name => simp only [inquiry, perform, Inquiry.run_bind, Inquiry.run_load, Inquiry.run]
  | loadPart name =>
    simp only [inquiry, perform, Inquiry.run_bind, Inquiry.run_loadPart, Inquiry.run]
  | expand source =>
    simp only [inquiry, perform, Inquiry.run_bind, Inquiry.run_expand, Inquiry.run]
  | render template context layout =>
    simp only [inquiry, perform, Inquiry.run_bind, Inquiry.run_render, Inquiry.run]

end Use

end StaticSite
