import StaticSite.Proofs.Template.Transparency
/-!
# StaticSite.Proofs.Template.History

**One success for each key.** An engine runs while its loader changes. Its history lists every
request for a body, with what the loader held at that time, the sessions before and after, and the
answer that the use went on with.

How a request goes is decided by the requests for the same key before it (`Request.Follows`). Until
one of them finds a body at the loader, each calls the loader once and answers what it holds; from
then on every request answers that body, and the loader is not called any more. The proof carries
one invariant through requests, uses and events: the bodies kept are the first bodies of the
history (`Session.Remembers`).
-/

set_option autoImplicit false

namespace StaticSite

variable {α : Type}

/-- A request for a body. -/
structure Request where
  key : SourceKey
  /-- What the loader holds for the key at the time of the request. -/
  held : Answer
  before : Session
  answer : Answer
  after : Session

/-- The request for a key of a session. -/
def Session.request (loader : Loader) (session : Session) (key : SourceKey) : Request where
  key := key
  held := loader.answer key
  before := session
  answer := (session.load loader key.1 key.2).1
  after := (session.load loader key.1 key.2).2

/-- The loader calls that a request causes. -/
def Request.calls (r : Request) : List SourceKey := r.after.loads.drop r.before.loads.length

/-- The body that the loader holds at the first request for a key for which it holds one. -/
def firstBody? (key : SourceKey) (requests : List Request) : Option (List Char) :=
  requests.findSome? fun r => if r.key = key then r.held.toOption else none

/-- How a request goes after earlier ones. -/
structure Request.Follows (r : Request) (earlier : List Request) : Prop where
  /-- The bodies kept are the first bodies of the keys. -/
  kept : ∀ key, r.before.body? key = firstBody? key earlier
  /-- Without an earlier success the loader is called once, and it gives the answer. -/
  asks : firstBody? r.key earlier = none → r.calls = [r.key] ∧ r.answer = r.held
  /-- After a success its body is the answer, and nothing else happens. -/
  repeats : ∀ body, firstBody? r.key earlier = some body →
    r.calls = [] ∧ r.answer = .ok body ∧ r.after = r.before
  /-- A failure changes no body. -/
  forgets : ∀ e, r.answer = .error e → r.after.bodies = r.before.bodies
  /-- Other keys keep what they have, also those of the same name. -/
  spares : ∀ key, key ≠ r.key → r.after.body? key = r.before.body? key

/-- Each of the requests goes as those before it say. -/
def Regular : List Request → List Request → Prop
  | _, [] => True
  | earlier, r :: rest => r.Follows earlier ∧ Regular (earlier ++ [r]) rest

theorem regular_append {earlier first second : List Request} (hfirst : Regular earlier first)
    (hsecond : Regular (earlier ++ first) second) : Regular earlier (first ++ second) := by
  induction first generalizing earlier with
  | nil => simpa using hsecond
  | cons r rest ih => exact ⟨hfirst.1, ih hfirst.2 (by simpa using hsecond)⟩

theorem Regular.follows {start earlier later : List Request} {r : Request}
    (h : Regular start (earlier ++ r :: later)) : r.Follows (start ++ earlier) := by
  induction earlier generalizing start with
  | nil => simpa using h.1
  | cons first rest ih => simpa using ih h.2

/-- The bodies kept by a session are the first bodies of a history. -/
def Session.Remembers (session : Session) (history : List Request) : Prop :=
  ∀ key, session.body? key = firstBody? key history

theorem firstBody?_append (key : SourceKey) (first second : List Request) :
    firstBody? key (first ++ second) =
      (firstBody? key first).or (firstBody? key second) := by
  unfold firstBody?
  exact List.findSome?_append

theorem firstBody?_singleton (key : SourceKey) (r : Request) :
    firstBody? key [r] = if r.key = key then r.held.toOption else none := by
  simp [firstBody?]

/-! ### One request

A request looks its key up among the bodies kept. If these are the first bodies of the history, the
look-up tells whether some earlier request has found a body. -/

variable {session : Session} {key : SourceKey} {earlier : List Request}

theorem body?_load_of_ne {loader : Loader} {other : SourceKey} (h : other ≠ key) :
    (session.load loader key.1 key.2).2.body? other = session.body? other := by
  cases hk : session.body? key with
  | some body => rw [Session.load_of_kept hk]
  | none =>
    rw [Session.load_of_missing hk]
    cases loader.answer key with
    | error e => rfl
    | ok body => rw [Session.body?_cons, if_neg h]; rfl

theorem bodies_of_load_error {loader : Loader} {e : LoadError}
    (h : (session.load loader key.1 key.2).1 = .error e) :
    (session.load loader key.1 key.2).2.bodies = session.bodies := by
  cases hk : session.body? key with
  | some body => rw [Session.load_of_kept hk]
  | none =>
    rw [Session.load_of_missing hk] at h ⊢
    rw [show loader.answer key = .error e from h]

/-- A request of a session that remembers its history goes as the history says. -/
theorem Session.Remembers.follows (h : session.Remembers earlier) (loader : Loader)
    (key : SourceKey) :
    (session.request loader key).Follows earlier where
  kept := h
  asks hnone := by
    have hk : session.body? key = none := (h key).trans hnone
    unfold Request.calls Session.request
    rw [Session.load_of_missing hk]
    refine ⟨?_, rfl⟩
    cases loader.answer key with
    | ok body => exact List.drop_left
    | error e => exact List.drop_left
  repeats body hbody := by
    have hk : session.body? key = some body := (h key).trans hbody
    unfold Request.calls Session.request
    rw [Session.load_of_kept hk]
    exact ⟨List.drop_length, rfl, rfl⟩
  forgets e he := bodies_of_load_error he
  spares other hother := body?_load_of_ne hother

/-- After a request the session remembers the request as well. -/
theorem Session.Remembers.after (h : session.Remembers earlier) (loader : Loader)
    (key : SourceKey) :
    (session.request loader key).after.Remembers (earlier ++ [session.request loader key]) := by
  intro other
  rw [firstBody?_append, firstBody?_singleton, ← h other]
  -- only the key of the request can have its first body now
  by_cases hother : other = key
  · subst hother
    simp only [Session.request, if_true]
    cases hk : session.body? other with
    | some body => rw [Session.load_of_kept hk, hk, Option.some_or]
    | none =>
      rw [Session.load_of_missing hk]
      cases loader.answer other with
      | error e => exact hk
      | ok body =>
        rw [Session.body?_cons, if_pos rfl]
        rfl
  · have hkey : (session.request loader key).key ≠ other := Ne.symm hother
    rw [if_neg hkey, Option.or_none]
    exact body?_load_of_ne hother

theorem loads_of_request (loader : Loader) (key : SourceKey) :
    (session.load loader key.1 key.2).2.loads =
      session.loads ++ (session.request loader key).calls := by
  unfold Request.calls Session.request
  cases hk : session.body? key with
  | some body => rw [Session.load_of_kept hk, List.drop_length, List.append_nil]
  | none =>
    rw [Session.load_of_missing hk]
    cases loader.answer key with
    | ok body => rw [List.drop_left]
    | error e => rw [List.drop_left]

/-! ### All requests of a use -/

/-- The requests of an inquiry, in order. Each is followed up with the answer that it has got. -/
def Inquiry.requests (loader : Loader) : Inquiry α → Session → List Request
  | .done _, _ => []
  | .ask key next, session =>
    let r := session.request loader key
    r :: (next r.answer).requests loader r.after
  | .warn warning next, session => next.requests loader (session.warn warning)

/-- What the requests of an inquiry do to a session that remembers its history. -/
theorem Session.Remembers.run (h : session.Remembers earlier) (loader : Loader)
    (inquiry : Inquiry α) :
    Regular earlier (inquiry.requests loader session) ∧
      (inquiry.run loader session).2.Remembers (earlier ++ inquiry.requests loader session) ∧
      (inquiry.run loader session).2.loads =
        session.loads ++ (inquiry.requests loader session).flatMap Request.calls := by
  induction inquiry generalizing session earlier with
  | done a =>
    unfold Inquiry.requests Inquiry.run
    exact ⟨trivial, by simpa using h, by simp⟩
  | ask key next ih =>
    obtain ⟨hregular, hremembers, hloads⟩ :=
      ih (session.request loader key).answer (h.after loader key)
    rw [List.append_assoc] at hremembers
    unfold Inquiry.requests Inquiry.run
    refine ⟨⟨h.follows loader key, hregular⟩, hremembers, ?_⟩
    rw [List.flatMap_cons, ← List.append_assoc, ← loads_of_request]
    exact hloads
  | warn warning next ih => exact ih h

/-! ### All requests of a run

What happens between two uses may change the loader but not the session. So the invariant, which is
about the session and the history, passes over a change of the loader untouched. -/

/-- What happens to an engine. -/
inductive Event where
  /-- From now on the loader holds something else. -/
  | change (loader : Loader)
  | use (use : Use)

/-- An engine: its loader and its session. -/
structure Engine where
  loader : Loader
  session : Session

namespace Engine

/-- The engine after an event. -/
def step (engine : Engine) : Event → Engine
  | .change loader => { engine with loader := loader }
  | .use use => { engine with session := use.perform engine.loader engine.session }

/-- The engine after some events. -/
def run (engine : Engine) (events : List Event) : Engine := events.foldl step engine

/-- The requests of an event. -/
def requests (engine : Engine) : Event → List Request
  | .change _ => []
  | .use use => use.inquiry.requests engine.loader engine.session

/-- The requests of some events. -/
def history (engine : Engine) : List Event → List Request
  | [] => []
  | event :: rest => engine.requests event ++ (engine.step event).history rest

theorem step_remembers (engine : Engine) {earlier : List Request}
    (h : engine.session.Remembers earlier) (event : Event) :
    Regular earlier (engine.requests event) ∧
      (engine.step event).session.Remembers (earlier ++ engine.requests event) ∧
      (engine.step event).session.loads =
        engine.session.loads ++ (engine.requests event).flatMap Request.calls := by
  cases event with
  | change loader =>
    unfold requests step
    exact ⟨trivial, by simpa using h, by simp⟩
  | use use =>
    have hrun := h.run engine.loader use.inquiry
    rw [Use.run_inquiry] at hrun
    exact hrun

theorem run_remembers (engine : Engine) {earlier : List Request}
    (h : engine.session.Remembers earlier) (events : List Event) :
    Regular earlier (engine.history events) ∧
      (engine.run events).session.Remembers (earlier ++ engine.history events) ∧
      (engine.run events).session.loads =
        engine.session.loads ++ (engine.history events).flatMap Request.calls := by
  induction events generalizing engine earlier with
  | nil =>
    unfold Engine.history run
    exact ⟨trivial, by simpa using h, by simp⟩
  | cons event rest ih =>
    obtain ⟨hregular, hremembers, hloads⟩ := step_remembers engine h event
    obtain ⟨hregular', hremembers', hloads'⟩ := ih (engine.step event) hremembers
    refine ⟨regular_append hregular hregular', ?_, ?_⟩
    · rw [List.append_assoc] at hremembers'
      exact hremembers'
    · rw [hloads, List.append_assoc, ← List.flatMap_append] at hloads'
      exact hloads'

/-- **One success for each key.** In every run from an empty cache, however its loader changes, the
loader calls are those of the requests, the bodies kept are the first bodies of their keys, and each
request goes as the requests before it say. -/
theorem requests_follow (loader : Loader) (events : List Event) :
    ((Engine.mk loader .empty).run events).session.loads =
        ((Engine.mk loader .empty).history events).flatMap Request.calls ∧
      (∀ key, ((Engine.mk loader .empty).run events).session.body? key =
        firstBody? key ((Engine.mk loader .empty).history events)) ∧
      ∀ earlier r later,
        (Engine.mk loader .empty).history events = earlier ++ r :: later → r.Follows earlier := by
  have hempty : Session.empty.Remembers [] := fun _ => rfl
  obtain ⟨hregular, hremembers, hloads⟩ :=
    run_remembers ⟨loader, .empty⟩ hempty events
  refine ⟨hloads, hremembers, ?_⟩
  intro earlier r later hsplit
  rw [hsplit] at hregular
  exact hregular.follows

end Engine

end StaticSite
