import StaticSite.Proofs.Template.Grammar
import StaticSite.Proofs.Template.Transparency
/-!
# StaticSite.Proofs.Template.Scope

**What an engine can ask for.** The name of a template and the name of a layout are given to an
engine; every other name that it asks for stands in an inclusion marker, and so is written in
letters, digits, `_` and `-` (`isRun_of_inclusion`). This holds for every text that is tokenized,
also for one that was put together from inserted values. So rendering asks for the template, the
layout and partials with such names, whatever the bodies hold (`Inquiry.asks_render`).

An inquiry that asks for keys of a class alone is decided by what the loader holds for them
(`Inquiry.Asks.run_congr`).
-/

set_option autoImplicit false

namespace StaticSite

variable {α β : Type} {P : SourceKey → Prop} {loader other : Loader}

/-- The keys that belong to rendering a template in a layout. -/
inductive InScope (template layout : String) : SourceKey → Prop
  | template : InScope template layout (.page, template)
  | layout : InScope template layout (.layout, layout)
  | part {name : String} :
    IsRun Marker.isNameChar name.toList → InScope template layout (.part, name)

/-- An inclusion marker names its partial in the characters of names. -/
theorem isRun_of_inclusion {source raw : List Char} {name : String}
    (h : .marker (.inclusion name) raw ∈ tokenize source) :
    IsRun Marker.isNameChar name.toList := by
  have hread := (Token.isReading_tokenize source).read?_of_mem h
  obtain ⟨written, hwritten, -⟩ := Marker.written_of_read? hread
  obtain ⟨before, inside, after, -, hinside, -, -⟩ := hwritten
  cases hinside with
  | inclusion _ hname => exact hname

/-! ### Inquiries of a class

What an inquiry asks next may depend on the answers, so the class is asked of every continuation. It
is then a property of the inquiry alone, whatever loader it meets. -/

namespace Inquiry

/-- Whether every key that an inquiry asks for is in a class, whatever the answers are. -/
def Asks (P : SourceKey → Prop) : Inquiry α → Prop
  | done _ => True
  | ask key next => P key ∧ ∀ answer, (next answer).Asks P
  | warn _ next => next.Asks P

theorem asks_bind {inquiry : Inquiry α} {next : α → Inquiry β} (h : inquiry.Asks P)
    (hnext : ∀ a, (next a).Asks P) : (inquiry.bind next).Asks P := by
  induction inquiry with
  | done a => exact hnext a
  | ask key more ih => exact ⟨h.1, fun answer => ih answer (h.2 answer)⟩
  | warn warning more ih => exact ih h

/-- Expanded tokens ask for what the expansions of their inclusion markers ask for. -/
theorem asks_expandTokens {expandName : String → Inquiry (List Char)} {tokens : List Token}
    (h : ∀ name raw, .marker (.inclusion name) raw ∈ tokens → (expandName name).Asks P) :
    (expandTokens expandName tokens).Asks P := by
  induction tokens with
  | nil => trivial
  | cons token rest ih =>
    have hrest : (expandTokens expandName rest).Asks P :=
      ih fun name raw hmem => h name raw (List.mem_cons_of_mem _ hmem)
    unfold expandTokens
    split
    · rename_i heq
      cases heq
    · rename_i name raw tail heq
      cases heq
      refine asks_bind (h name raw List.mem_cons_self) fun body => ?_
      exact asks_bind hrest fun _ => trivial
    · rename_i tail _ heq
      cases heq
      exact asks_bind hrest fun _ => trivial

variable {template layout : String}

theorem asks_expandWithin (room : Nat) (chain : List String) (source : List Char) :
    (expandWithin room chain source).Asks (InScope template layout) := by
  induction room generalizing chain source with
  | zero => exact asks_expandTokens fun _ _ _ => trivial
  | succ room ih =>
    refine asks_expandTokens fun name raw hmem => ?_
    split
    · trivial
    · have hname : InScope template layout (.part, name) := .part (isRun_of_inclusion hmem)
      refine asks_bind ⟨hname, fun answer => ?_⟩ fun body => ih _ body
      cases answer with
      | ok body => trivial
      | error e => trivial

theorem asks_showSource (source : List Char) (context : Value) :
    (showSource source context).Asks (InScope template layout) :=
  asks_bind (asks_expandWithin maxDepth [] source) fun _ => trivial

/-- Rendering asks for the template, the layout and partials that a marker can name. -/
theorem asks_render (template : String) (context : Value) (layout : String) :
    (render template context layout).Asks (InScope template layout) := by
  refine ⟨.template, fun answer => ?_⟩
  cases answer with
  | error e => trivial
  | ok source =>
    refine asks_bind (asks_showSource source _) fun page => ⟨.layout, fun answer => ?_⟩
    cases answer with
    | error e => trivial
    | ok layoutSource => exact asks_bind (asks_showSource _ _) fun _ => trivial

end Inquiry

/-! ### What follows for a loader -/

/-- A request calls the loader for its own key, if at all. -/
theorem Session.mem_loads_load {session : Session} {key called : SourceKey}
    (h : called ∈ (session.load loader key.1 key.2).2.loads) :
    called ∈ session.loads ∨ called = key := by
  cases hk : session.body? key with
  | some body =>
    rw [load_of_kept hk] at h
    exact .inl h
  | none =>
    have hloads : (session.load loader key.1 key.2).2.loads = session.loads ++ [key] := by
      rw [load_of_missing hk]
      cases loader.answer key with
      | ok body => rfl
      | error e => rfl
    rw [hloads] at h
    exact (List.mem_append.mp h).imp_right List.mem_singleton.mp

namespace Inquiry

variable {inquiry : Inquiry α}

/-- The loader calls of an inquiry are for keys that it asks for. -/
theorem Asks.of_mem_loads (h : inquiry.Asks P) {session : Session} {key : SourceKey}
    (hkey : key ∈ (inquiry.run loader session).2.loads) : key ∈ session.loads ∨ P key := by
  induction inquiry generalizing session with
  | done a => exact .inl hkey
  | ask asked next ih =>
    rcases ih _ (h.2 _) hkey with hearlier | hlater
    · rcases Session.mem_loads_load hearlier with hbefore | rfl
      · exact .inl hbefore
      · exact .inr h.1
    · exact .inr hlater
  | warn warning next ih =>
    have hlater : key ∈ (session.warn warning).loads ∨ P key := ih h hkey
    exact hlater

/-- Loaders that hold the same for all keys of a class are the same to an inquiry of the class. -/
theorem Asks.run_congr (h : inquiry.Asks P)
    (hsame : ∀ key, P key → loader.answer key = other.answer key) (session : Session) :
    inquiry.run loader session = inquiry.run other session := by
  induction inquiry generalizing session with
  | done a => rfl
  | ask key next ih =>
    have hload : session.load loader key.1 key.2 = session.load other key.1 key.2 := by
      cases hk : session.body? key with
      | some body => rw [Session.load_of_kept hk, Session.load_of_kept hk]
      | none => rw [Session.load_of_missing hk, Session.load_of_missing hk, hsame key h.1]
    simp only [run, hload]
    exact ih _ (h.2 _) _
  | warn warning next ih => exact ih h _

end Inquiry

end StaticSite
