import StaticSite.Proofs.Template.Transparency
/-!
# StaticSite.Proofs.Template.Inlining

**What an inclusion stands for.** A session has an answer for each key: the body that it keeps, or
else what the loader gives (`Session.seen`). No request and no warning changes an answer, so an
inquiry has the result and the warnings that it has without a cache, at a loader that gives these
answers (`Session.run_eq_plain`).

Expansion is then a function of the answers alone (`expansion`): it puts the tokens of the text one
after the other, and in the place of each inclusion the expansion of the body seen for its name.
-/

set_option autoImplicit false

namespace StaticSite

variable {α β : Type} {loader : Loader} {session : Session}

/-! ### The answers of a session

A body that is kept hides what the loader holds. Asking for a body may keep it, but it is then kept
with the answer that the session would have given anyway. -/

/-- What a session answers about each key. -/
def Session.seen (loader : Loader) (session : Session) : Loader :=
  fun kind name => (session.load loader kind name).1

namespace Session

theorem seen_of_kept {key : SourceKey} {body : List Char} (h : session.body? key = some body) :
    (session.seen loader).answer key = .ok body :=
  congrArg Prod.fst (load_of_kept h)

theorem seen_of_missing {key : SourceKey} (h : session.body? key = none) :
    (session.seen loader).answer key = loader.answer key :=
  congrArg Prod.fst (load_of_missing h)

/-- A new session answers as the loader does. -/
theorem seen_empty (loader : Loader) : empty.seen loader = loader := by
  funext kind name
  exact @seen_of_missing loader empty (kind, name) rfl

/-- The bodies kept decide about the answers. -/
theorem seen_congr {other : Session} {key : SourceKey} (h : other.body? key = session.body? key) :
    (other.seen loader).answer key = (session.seen loader).answer key := by
  cases hkept : session.body? key with
  | some body => rw [seen_of_kept (h.trans hkept), seen_of_kept hkept]
  | none => rw [seen_of_missing (h.trans hkept), seen_of_missing hkept]

theorem seen_warn (warning : Warning) :
    (session.warn warning).seen loader = session.seen loader := by
  funext kind name
  exact @seen_congr loader session (session.warn warning) (kind, name) rfl

/-- A session that is asked for a body gives all answers as before. -/
theorem seen_load (key : SourceKey) :
    (session.load loader key.1 key.2).2.seen loader = session.seen loader := by
  funext kind name
  cases hk : session.body? key with
  | some body => rw [load_of_kept hk]
  | none =>
    rw [load_of_missing hk]
    cases hbody : loader.answer key with
    | error e =>
      exact @seen_congr loader session { session with loads := session.loads ++ [key] }
        (kind, name) rfl
    | ok body =>
      have hcons := body?_cons session.bodies (session.loads ++ [key]) session.warnings key
        (kind, name) body
      by_cases hother : (kind, name) = key
      · -- what is kept from now on is what the loader has answered
        subst hother
        rw [if_pos rfl] at hcons
        exact (seen_of_kept hcons).trans ((seen_of_missing hk).trans hbody).symm
      · rw [if_neg hother] at hcons
        exact @seen_congr loader session _ (kind, name) hcons

/-- An inquiry of a session has the result and the warnings that it has without a cache at what the
session answers, and it changes no answer. -/
theorem run_eq_plain (session : Session) (inquiry : Inquiry α) :
    (inquiry.run loader session).1 = (inquiry.plain (session.seen loader)).1 ∧
      (inquiry.run loader session).2.warnings =
        session.warnings ++ (inquiry.plain (session.seen loader)).2 ∧
      (inquiry.run loader session).2.seen loader = session.seen loader := by
  induction inquiry generalizing session with
  | done a => exact ⟨rfl, (List.append_nil _).symm, rfl⟩
  | ask key next ih =>
    have hnext := ih ((session.seen loader).answer key) (session.load loader key.1 key.2).2
    rw [seen_load, load_warnings] at hnext
    exact hnext
  | warn warning next ih =>
    obtain ⟨hresult, hwarnings, hseen⟩ := ih (session.warn warning)
    rw [seen_warn] at hresult hwarnings hseen
    refine ⟨hresult, hwarnings.trans ?_, hseen⟩
    simp [warn, Inquiry.plain]

end Session

/-! ### Expansion without a session

With all answers fixed, expansion needs neither a cache nor an order of requests. Warnings are left
out here, for they do not show in the text. -/

/-- The body of a partial, which is empty if it cannot be loaded. -/
def Loader.part (loader : Loader) (name : String) : List Char :=
  match loader .part name with
  | .ok body => body
  | .error _ => []

/-- What stands in the place of a token: `expandName` for an inclusion, else the token itself. -/
def Token.replaced (expandName : String → List Char) : Token → List Char
  | .marker (.inclusion name) _ => expandName name
  | token => token.raw

theorem Token.inclusion_or_ne (token : Token) :
    (∃ name raw, token = .marker (.inclusion name) raw) ∨
      ∀ name raw, token ≠ .marker (.inclusion name) raw := by
  by_cases h : ∃ name raw, token = .marker (.inclusion name) raw
  · exact Or.inl h
  · exact Or.inr fun name raw heq => h ⟨name, raw, heq⟩

theorem Token.replaced_of_ne {token : Token}
    (h : ∀ name raw, token ≠ .marker (.inclusion name) raw) (expandName : String → List Char) :
    token.replaced expandName = token.raw := by
  unfold Token.replaced
  split
  · rename_i name raw
    exact absurd rfl (h name raw)
  · rfl

theorem expandTokens_inclusion (expandName : String → Session → List Char × Session)
    (name : String) (raw : List Char) (rest : List Token) (session : Session) :
    expandTokens expandName (.marker (.inclusion name) raw :: rest) session =
      ((expandName name session).1 ++ (expandTokens expandName rest (expandName name session).2).1,
        (expandTokens expandName rest (expandName name session).2).2) := rfl

theorem expandTokens_of_ne {token : Token}
    (h : ∀ name raw, token ≠ .marker (.inclusion name) raw)
    (expandName : String → Session → List Char × Session) (rest : List Token) (session : Session) :
    expandTokens expandName (token :: rest) session =
      (token.raw ++ (expandTokens expandName rest session).1,
        (expandTokens expandName rest session).2) := by
  rw [expandTokens.eq_def]
  split
  · rename_i heq
    cases heq
  · rename_i name raw tail heq
    cases heq
    exact absurd rfl (h name raw)
  · rename_i heq
    cases heq
    rfl

/-- The text with its partials included, where the partials of `chain` are in expansion and `room`
more may be. -/
def expansionWithin (loader : Loader) : Nat → List String → List Char → List Char
  | 0, _, source => (tokenize source).flatMap (Token.replaced fun _ => [])
  | room + 1, chain, source =>
    (tokenize source).flatMap <| Token.replaced fun name =>
      if name ∈ chain then []
      else expansionWithin loader room (chain ++ [name]) (loader.part name)

/-- The text with its partials included. -/
def expansion (loader : Loader) (source : List Char) : List Char :=
  expansionWithin loader maxDepth [] source

namespace Inquiry

theorem plain_bind (loader : Loader) (inquiry : Inquiry α) (next : α → Inquiry β) :
    ((inquiry.bind next).plain loader).1 =
      ((next (inquiry.plain loader).1).plain loader).1 := by
  induction inquiry with
  | done a => rfl
  | ask key more ih => exact ih _
  | warn warning more ih => exact ih

theorem plain_loadPart (loader : Loader) (name : String) :
    ((loadPart name).plain loader).1 = loader.part name := by
  unfold loadPart plain Loader.part Loader.answer
  cases loader .part name with
  | ok body => rfl
  | error e => rfl

theorem plain_expandTokens {asked : String → Inquiry (List Char)}
    {expandName : String → List Char}
    (hname : ∀ name, ((asked name).plain loader).1 = expandName name) (tokens : List Token) :
    ((expandTokens asked tokens).plain loader).1 =
      tokens.flatMap (Token.replaced expandName) := by
  induction tokens with
  | nil => rfl
  | cons token rest ih =>
    unfold expandTokens
    split
    · rename_i heq
      cases heq
    · rename_i name raw tail heq
      cases heq
      rw [plain_bind, plain_bind, hname, ih]
      rfl
    · rename_i tail hplain heq
      cases heq
      rw [plain_bind, ih, List.flatMap_cons, token.replaced_of_ne hplain]
      rfl

theorem plain_expandWithin (loader : Loader) (room : Nat) (chain : List String)
    (source : List Char) :
    ((expandWithin room chain source).plain loader).1 =
      expansionWithin loader room chain source := by
  induction room generalizing chain source with
  | zero =>
    unfold expandWithin expansionWithin
    exact plain_expandTokens (fun _ => rfl) _
  | succ room ih =>
    unfold expandWithin expansionWithin
    refine plain_expandTokens (fun name => ?_) _
    by_cases hname : name ∈ chain
    · rw [if_pos hname, if_pos hname]
      rfl
    · rw [if_neg hname, if_neg hname, plain_bind, plain_loadPart, ih]

end Inquiry

/-- Expansion puts together what the session answers. -/
theorem expand_eq_expansion (loader : Loader) (source : List Char) (session : Session) :
    (expand loader source session).1 = expansion (session.seen loader) source := by
  rw [← Inquiry.run_expand, (session.run_eq_plain _).1]
  exact Inquiry.plain_expandWithin _ _ _ _

end StaticSite
