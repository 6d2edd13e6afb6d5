import StaticSite.Proofs.Template.Inlining
import StaticSite.Proofs.Template.Tokens
/-!
# StaticSite.Proofs.Template.Rendering

**Only a template can be missed.** An engine asks for three kinds of body and takes a failure in
three ways: without the template there is no page, without the layout the page is what the template
shows, and a missing partial shows nothing. All requests of a rendering are answered as the session
answers at its start, in both passes and at every depth, so that a page is a function of these
answers (`rendering`, `render_eq_rendering`). It has one place for an error (`render_error_iff`).
-/

set_option autoImplicit false

namespace StaticSite

variable {loader : Loader} {session : Session} {template layout : String} {context : Value}

/-- Whether the body of a key is neither kept nor held by the loader. -/
def Session.Lacks (loader : Loader) (session : Session) (key : SourceKey) : Prop :=
  session.body? key = none ∧ ∃ cause, loader.answer key = .error cause

/-- A session lacks the bodies about which it answers with an error. -/
theorem Session.lacks_iff {key : SourceKey} :
    session.Lacks loader key ↔ ∃ cause, (session.seen loader).answer key = .error cause := by
  unfold Lacks
  cases hkept : session.body? key with
  | some body => simp [seen_of_kept hkept]
  | none => simp [seen_of_missing hkept]

/-! ### Pages without a session

The equations of a rendering name the three kinds of body that it uses. Sessions come in only by
what they answer, and a rendering does not change that. -/

/-- A page inside of a layout, where all bodies are answered for. -/
def rendering (answers : Loader) (template : String) (context : Value) (layout : String) :
    Except RenderError (List Char) :=
  match answers .page template with
  | .error cause => .error ⟨template, cause⟩
  | .ok source =>
    let context := withCurrentPage template context
    let page := substitute (expansion answers source) context
    match answers .layout layout with
    | .error _ => .ok page
    | .ok layoutSource =>
      .ok (substitute (expansion answers (injectContent layoutSource page)) context)

namespace Inquiry

variable {answers : Loader}

theorem plain_showSource (source : List Char) (context : Value) :
    ((showSource source context).plain answers).1 =
      substitute (expansion answers source) context := by
  unfold showSource expand expansion
  rw [plain_bind, plain_expandWithin]
  rfl

theorem plain_render (template : String) (context : Value) (layout : String) :
    ((render template context layout).plain answers).1 =
      rendering answers template context layout := by
  unfold render rendering
  simp only [plain, Loader.answer]
  cases answers .page template with
  | error cause => rfl
  | ok source =>
    simp only [plain_bind, plain_showSource, plain, Loader.answer]
    cases answers .layout layout with
    | error cause => rfl
    | ok layoutSource => simp only [plain_bind, plain_showSource, plain]

end Inquiry

/-- The page that an engine renders is decided by what its session answers. -/
theorem render_eq_rendering (loader : Loader) (template : String) (context : Value)
    (layout : String) (session : Session) :
    (render loader template context layout session).1 =
      rendering (session.seen loader) template context layout := by
  rw [← Inquiry.run_render, (session.run_eq_plain _).1]
  exact Inquiry.plain_render _ _ _

/-! ### Failures -/

/-- Without its template, a page costs one loader call and leaves all else as it was. -/
theorem render_of_lacks {cause : LoadError} (hkept : session.body? (.page, template) = none)
    (hcause : loader .page template = .error cause) :
    render loader template context layout session =
      (.error ⟨template, cause⟩,
        { session with loads := session.loads ++ [(.page, template)] }) := by
  have hload := @Session.load_of_missing loader session (.page, template) hkept
  rw [show loader.answer (.page, template) = .error cause from hcause] at hload
  unfold render
  rw [show session.load loader .page template = _ from hload]

theorem rendering_of_page {answers : Loader} {source : List Char}
    (h : answers .page template = .ok source) :
    ∃ html, rendering answers template context layout = .ok html := by
  unfold rendering
  rw [h]
  cases answers .layout layout with
  | error cause => exact ⟨_, rfl⟩
  | ok layoutSource => exact ⟨_, rfl⟩

theorem rendering_without_layout {answers : Loader} {source : List Char} {cause : LoadError}
    (hsource : answers .page template = .ok source)
    (hlayout : answers .layout layout = .error cause) :
    rendering answers template context layout =
      .ok (substitute (expansion answers source) (withCurrentPage template context)) := by
  unfold rendering
  rw [hsource]
  simp only [hlayout]

theorem render_of_not_lacks (h : ¬ session.Lacks loader (.page, template)) :
    ∃ html, (render loader template context layout session).1 = .ok html := by
  rw [render_eq_rendering]
  cases hanswer : session.seen loader .page template with
  | error cause => exact absurd (Session.lacks_iff.mpr ⟨cause, hanswer⟩) h
  | ok source => exact rendering_of_page hanswer

theorem lacks_of_render_error {e : RenderError}
    (h : (render loader template context layout session).1 = .error e) :
    session.Lacks loader (.page, template) := by
  refine Classical.byContradiction fun hlacks => ?_
  obtain ⟨html, hhtml⟩ := @render_of_not_lacks loader session template layout context hlacks
  rw [h] at hhtml
  cases hhtml

/-- **Only a template can be missed.** Rendering fails if and only if the template is neither kept
nor held by the loader. It has then called the loader for the template and done nothing else. In all
other cases there is a page, and without a layout it is what the template shows. -/
theorem render_error_iff (loader : Loader) (template : String) (context : Value) (layout : String)
    (session : Session) :
    ((∃ e, (render loader template context layout session).1 = .error e) ↔
      session.Lacks loader (.page, template)) ∧
    (∀ e, (render loader template context layout session).1 = .error e →
      e.template = template ∧ loader .page template = .error e.cause ∧
      (render loader template context layout session).2.loads =
        session.loads ++ [(.page, template)] ∧
      (render loader template context layout session).2.warnings = session.warnings ∧
      (render loader template context layout session).2.bodies = session.bodies) ∧
    (¬ session.Lacks loader (.page, template) →
      ∃ html, (render loader template context layout session).1 = .ok html) ∧
    (∀ source, (session.load loader .page template).1 = .ok source →
      session.Lacks loader (.layout, layout) →
      (render loader template context layout session).1 =
        .ok (substitute (expand loader source session).1 (withCurrentPage template context))) := by
  refine ⟨⟨fun ⟨e, he⟩ => lacks_of_render_error he, ?_⟩, fun e he => ?_, render_of_not_lacks,
    fun source hsource hlayout => ?_⟩
  · rintro ⟨hkept, cause, hcause⟩
    rw [render_of_lacks hkept hcause]
    exact ⟨_, rfl⟩
  · obtain ⟨hkept, cause, hcause⟩ := lacks_of_render_error he
    rw [render_of_lacks hkept hcause] at he ⊢
    cases he
    exact ⟨rfl, hcause, rfl, rfl, rfl⟩
  · -- without a layout the page is what the template shows, and the answers have not changed
    obtain ⟨cause, hcause⟩ := Session.lacks_iff.mp hlayout
    rw [render_eq_rendering, expand_eq_expansion]
    exact rendering_without_layout hsource hcause

/-- A template with a partial that is missing, and no layout. -/
def bareLoader : Loader
  | .page, "page" => .ok (templateOf "a«> nope»«b»")
  | kind, name => .error (.notFound kind name)

/-- The page comes out without the partial and without a layout. -/
theorem render_error_iff_page :
    (render bareLoader "page" (.mapping [("b", .string "B")]) "ghost" .empty).1 =
      .ok ['a', 'B'] := by
  have hpage := (render_error_iff bareLoader "page" (.mapping [("b", .string "B")]) "ghost"
    .empty).2.2.2 (templateOf "a«> nope»«b»") rfl ⟨rfl, _, rfl⟩
  rw [hpage]
  refine congrArg Except.ok ?_
  decide +kernel

end StaticSite
