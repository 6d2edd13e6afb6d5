import StaticSite.Proofs.Template.Positional
/-!
# StaticSite.Proofs.Template.Descent

**Expansion comes to an end.** The rules of expansion (`Expands`) set no bound to the work: an
inclusion is dropped if there is a reason in the chain of the partials in expansion, any other is
entered, and its body is expanded with its name at the end of the chain. Nothing is asked of the
partials, which may include themselves and each other. Still the rules lead to an end from every
text, and to one end only, which is what expansion gives (`expands_iff`): an entered name is new to
the chain, which has room for `maxDepth` names.

The rules record each inclusion that they come to (`Visit`). What holds of the chain in one call
holds in the calls that it makes (`Descent.enter`), whatever has been expanded and loaded in
between. So it holds at every inclusion of an expansion, and the chain decides there what happens
(`expand_visits`).
-/

set_option autoImplicit false

namespace StaticSite

variable {loader answers : Loader} {source text out : List Char} {tokens : List Token}
  {chain : List String} {name : String} {raw : List Char} {session after : Session}

/-! ### The rules of expansion

The program has a bound and counts it down. The rules have none: the reason to drop an inclusion is
read off from the chain, and nothing else limits how far an expansion may go. So there is a
derivation only if the expansion comes to an end. -/

/-- The reason to drop an inclusion, if there is one: its partial is in expansion already, or too
many are. -/
def reasonToDrop? (chain : List String) (name : String) : Option Warning :=
  if name ∈ chain then some (.cycle name chain)
  else if maxDepth ≤ chain.length then some (.tooDeep name)
  else none

theorem reasonToDrop?_of_mem (h : name ∈ chain) :
    reasonToDrop? chain name = some (.cycle name chain) := if_pos h

theorem reasonToDrop?_of_full (h : name ∉ chain) (hfull : maxDepth ≤ chain.length) :
    reasonToDrop? chain name = some (.tooDeep name) := (if_neg h).trans (if_pos hfull)

theorem reasonToDrop?_eq_none_iff :
    reasonToDrop? chain name = none ↔ name ∉ chain ∧ chain.length < maxDepth := by
  unfold reasonToDrop?
  by_cases hname : name ∈ chain
  · simp [hname]
  · simp [hname]

/-- An inclusion that an expansion comes to. -/
structure Visit where
  /-- The partials in expansion, the outermost first. -/
  chain : List String
  name : String
  before : Session
  /-- The body that is expanded in its place, unless it is dropped. -/
  body? : Option (List Char)
  /-- What stands in its place in the end. -/
  shown : List Char
  after : Session

/-- The expansion of tokens inside of a chain: the inclusions that it comes to, in order, the text
that it gives, and the session after it. -/
inductive Expands (loader : Loader) :
    List String → List Token → Session → List Visit → List Char → Session → Prop
  | nil (chain : List String) (session : Session) : Expands loader chain [] session [] [] session
  /-- Any other token stays as it is. -/
  | plain {chain : List String} {token : Token} {rest : List Token} {session after : Session}
      {visits : List Visit} {out : List Char} :
      (∀ name raw, token ≠ .marker (.inclusion name) raw) →
      Expands loader chain rest session visits out after →
      Expands loader chain (token :: rest) session visits (token.raw ++ out) after
  /-- A dropped inclusion leaves a warning and no text. -/
  | drop {chain : List String} {name : String} {raw : List Char} {warning : Warning}
      {rest : List Token} {session after : Session} {visits : List Visit} {out : List Char} :
      reasonToDrop? chain name = some warning →
      Expands loader chain rest (session.warn warning) visits out after →
      Expands loader chain (.marker (.inclusion name) raw :: rest) session
        (⟨chain, name, session, none, [], session.warn warning⟩ :: visits) out after
  /-- The body of a partial is expanded with the partial in the chain, which it leaves again. -/
  | enter {chain : List String} {name : String} {raw body : List Char} {rest : List Token}
      {session loaded within after : Session} {inner visits : List Visit} {inside out : List Char} :
      reasonToDrop? chain name = none → session.loadPart loader name = (body, loaded) →
      Expands loader (chain ++ [name]) (tokenize body) loaded inner inside within →
      Expands loader chain rest within visits out after →
      Expands loader chain (.marker (.inclusion name) raw :: rest) session
        (⟨chain, name, session, some body, inside, within⟩ :: inner ++ visits) (inside ++ out) after

/-- The rules leave no choice. -/
theorem Expands.unique {visits visits' : List Visit} {out' : List Char} {after' : Session}
    (h : Expands loader chain tokens session visits out after)
    (h' : Expands loader chain tokens session visits' out' after') :
    visits' = visits ∧ out' = out ∧ after' = after := by
  induction h generalizing visits' out' after' with
  | nil =>
    cases h'
    exact ⟨rfl, rfl, rfl⟩
  | plain hplain _ ih =>
    cases h' with
    | plain _ hrest =>
      obtain ⟨rfl, rfl, rfl⟩ := ih hrest
      exact ⟨rfl, rfl, rfl⟩
    | drop => exact absurd rfl (hplain _ _)
    | enter => exact absurd rfl (hplain _ _)
  -- the reason decides between dropping and entering, and it is a function of the chain
  | drop hreason _ ih =>
    cases h' with
    | plain hplain => exact absurd rfl (hplain _ _)
    | drop hreason' hrest =>
      rw [hreason] at hreason'
      cases hreason'
      obtain ⟨rfl, rfl, rfl⟩ := ih hrest
      exact ⟨rfl, rfl, rfl⟩
    | enter hreason' =>
      rw [hreason] at hreason'
      cases hreason'
  -- the body is what the session answers, so both derivations go on with the same tokens
  | enter hreason hload _ _ ihinner ihrest =>
    cases h' with
    | plain hplain => exact absurd rfl (hplain _ _)
    | drop hreason' =>
      rw [hreason] at hreason'
      cases hreason'
    | enter _ hload' hinner hrest =>
      rw [hload] at hload'
      cases hload'
      obtain ⟨rfl, rfl, rfl⟩ := ihinner hinner
      obtain ⟨rfl, rfl, rfl⟩ := ihrest hrest
      exact ⟨rfl, rfl, rfl⟩

/-! ### The end of an expansion -/

/-- Tokens come to an end if their inclusions do. -/
theorem exists_expands_tokens {expandName : String → Session → List Char × Session}
    (hdrop : ∀ name warning session, reasonToDrop? chain name = some warning →
      expandName name session = ([], session.warn warning))
    (henter : ∀ name session, reasonToDrop? chain name = none → ∃ inner,
      Expands loader (chain ++ [name]) (tokenize (session.loadPart loader name).1)
        (session.loadPart loader name).2 inner (expandName name session).1
        (expandName name session).2)
    (tokens : List Token) (session : Session) :
    ∃ visits, Expands loader chain tokens session visits (expandTokens expandName tokens session).1
      (expandTokens expandName tokens session).2 := by
  induction tokens generalizing session with
  | nil => exact ⟨[], .nil chain session⟩
  | cons token rest ih =>
    -- an inclusion takes its part of the visits before those of the rest, any other token has none
    rcases token.inclusion_or_ne with ⟨name, raw, rfl⟩ | hplain
    · rw [expandTokens_inclusion]
      obtain ⟨visits, hrest⟩ := ih (expandName name session).2
      cases hreason : reasonToDrop? chain name with
      | some warning =>
        rw [hdrop name warning session hreason] at hrest ⊢
        exact ⟨_, .drop hreason hrest⟩
      | none =>
        obtain ⟨inner, hinner⟩ := henter name session hreason
        exact ⟨_, .enter hreason rfl hinner hrest⟩
    · rw [expandTokens_of_ne hplain]
      obtain ⟨visits, hrest⟩ := ih session
      exact ⟨visits, .plain hplain hrest⟩

/-- Every text comes to an end, inside of every chain that leaves as much room as there is. -/
theorem exists_expands {room : Nat} (hroom : room + chain.length = maxDepth) (source : List Char)
    (session : Session) :
    ∃ visits, Expands loader chain (tokenize source) session visits
      (expandWithin loader room chain source session).1
      (expandWithin loader room chain source session).2 := by
  -- over the room, of which each partial that is entered takes one place
  induction room generalizing chain source session with
  | zero =>
    refine exists_expands_tokens (fun name warning session hreason => ?_)
      (fun name session hreason => ?_) _ _
    · by_cases hname : name ∈ chain
      · rw [reasonToDrop?_of_mem hname] at hreason
        rw [if_pos hname, Option.some.inj hreason]
      · rw [reasonToDrop?_of_full hname (by omega)] at hreason
        rw [if_neg hname, Option.some.inj hreason]
    · obtain ⟨-, hlength⟩ := reasonToDrop?_eq_none_iff.mp hreason
      omega
  | succ room ih =>
    refine exists_expands_tokens (fun name warning session hreason => ?_)
      (fun name session hreason => ?_) _ _
    · by_cases hname : name ∈ chain
      · rw [reasonToDrop?_of_mem hname] at hreason
        rw [if_pos hname, Option.some.inj hreason]
      · rw [reasonToDrop?_eq_none_iff.mpr ⟨hname, by omega⟩] at hreason
        cases hreason
    · obtain ⟨hname, -⟩ := reasonToDrop?_eq_none_iff.mp hreason
      rw [if_neg hname]
      exact ih (by rw [List.length_append, List.length_singleton]; omega) _ _

/-- The rules lead from a text to what expansion gives, and nowhere else. -/
theorem expands_iff (loader : Loader) (source : List Char) (session : Session) :
    ∃ visits, ∀ found out after, Expands loader [] (tokenize source) session found out after ↔
      found = visits ∧ (out, after) = expand loader source session := by
  obtain ⟨visits, h⟩ := @exists_expands loader [] maxDepth rfl source session
  refine ⟨visits, fun found out after => ⟨fun hfound => ?_, ?_⟩⟩
  · obtain ⟨hvisits, hout, hafter⟩ := h.unique hfound
    exact ⟨hvisits, Prod.ext hout hafter⟩
  · rintro ⟨rfl, hexpand⟩
    obtain ⟨rfl, rfl⟩ := Prod.ext_iff.mp hexpand
    exact h

/-! ### What holds at every inclusion

A call of the expansion knows the chain that led to it and the text that it stands in. Both change
only when an inclusion is entered, so what is to be shown of a visit is shown where it is made. -/

/-- Whether a chain of partials leads down from a text to another: each is included by the body of
the one before it, none comes twice, and there are not too many. -/
structure Descent (answers : Loader) (source : List Char) (chain : List String)
    (text : List Char) : Prop where
  leads : Leads answers source chain text
  nodup : chain.Nodup
  length_le : chain.length ≤ maxDepth

theorem descent_start (answers : Loader) (source : List Char) : Descent answers source [] source :=
  ⟨.start, List.nodup_nil, Nat.zero_le _⟩

/-- An inclusion that is entered leads one step down. -/
theorem Descent.enter (h : Descent answers source chain text)
    (hmem : .marker (.inclusion name) raw ∈ tokenize text)
    (hreason : reasonToDrop? chain name = none) :
    Descent answers source (chain ++ [name]) (answers.part name) := by
  obtain ⟨hname, hlength⟩ := reasonToDrop?_eq_none_iff.mp hreason
  refine ⟨h.leads.step hmem, ?_, ?_⟩
  · exact List.nodup_append.mpr ⟨h.nodup, by simp, fun other hother last hlast heq =>
      hname (List.mem_singleton.mp hlast ▸ heq ▸ hother)⟩
  · rw [List.length_append, List.length_singleton]
    exact hlength

/-- What holds of an inclusion that the expansion of a text comes to. -/
structure Visit.Regular (loader answers : Loader) (source : List Char) (visit : Visit) : Prop where
  /-- The inclusion stands in the body to which the chain leads. -/
  place : ∃ text raw, Descent answers source visit.chain text ∧
    .marker (.inclusion visit.name) raw ∈ tokenize text
  /-- It is dropped if its partial is in the chain or the chain is full, and not otherwise. -/
  dropped_iff : visit.body? = none ↔ visit.name ∈ visit.chain ∨ visit.chain.length = maxDepth
  /-- A partial in the chain is reported with the chain. -/
  cycle : visit.name ∈ visit.chain →
    visit.after = visit.before.warn (.cycle visit.name visit.chain)
  /-- A full chain is reported. -/
  tooDeep : visit.name ∉ visit.chain → visit.chain.length = maxDepth →
    visit.after = visit.before.warn (.tooDeep visit.name)
  /-- Nothing stands in the place of a dropped inclusion, and no body is asked for. -/
  dropped : visit.body? = none → visit.shown = [] ∧ visit.after.loads = visit.before.loads ∧
    visit.after.bodies = visit.before.bodies
  /-- The body of any other is expanded one step down. -/
  entered : ∀ body, visit.body? = some body →
    Descent answers source (visit.chain ++ [visit.name]) body ∧
    body = (visit.before.loadPart loader visit.name).1 ∧
    ∃ inner, Expands loader (visit.chain ++ [visit.name]) (tokenize body)
      (visit.before.loadPart loader visit.name).2 inner visit.shown visit.after

theorem Descent.regular_drop (h : Descent answers source chain text)
    (hmem : .marker (.inclusion name) raw ∈ tokenize text) {warning : Warning}
    (hreason : reasonToDrop? chain name = some warning) (session : Session) :
    Visit.Regular loader answers source
      ⟨chain, name, session, none, [], session.warn warning⟩ where
  place := ⟨text, raw, h, hmem⟩
  dropped_iff := by
    have hsome : reasonToDrop? chain name ≠ none := by simp [hreason]
    have hlength := h.length_le
    rw [Ne, reasonToDrop?_eq_none_iff, not_and_or, Decidable.not_not] at hsome
    refine iff_of_true rfl (hsome.imp_right fun hfull => ?_)
    show chain.length = maxDepth
    omega
  cycle hname := by
    rw [reasonToDrop?_of_mem hname] at hreason
    rw [Option.some.inj hreason]
  tooDeep hname hfull := by
    rw [reasonToDrop?_of_full hname (Nat.le_of_eq hfull.symm)] at hreason
    rw [Option.some.inj hreason]
  dropped _ := ⟨rfl, rfl, rfl⟩
  entered body hbody := by cases hbody

theorem Descent.regular_enter (h : Descent answers source chain text)
    (hmem : .marker (.inclusion name) raw ∈ tokenize text)
    (hreason : reasonToDrop? chain name = none) {body inside : List Char}
    {loaded within : Session} {inner : List Visit} (hbody : body = answers.part name)
    (hload : session.loadPart loader name = (body, loaded))
    (hinner : Expands loader (chain ++ [name]) (tokenize body) loaded inner inside within) :
    Visit.Regular loader answers source ⟨chain, name, session, some body, inside, within⟩ := by
  obtain ⟨hname, hlength⟩ := reasonToDrop?_eq_none_iff.mp hreason
  constructor
  · exact ⟨text, raw, h, hmem⟩
  · refine iff_of_false (by simp) ?_
    rintro (hchain | hfull)
    · exact hname hchain
    · exact Nat.ne_of_lt hlength hfull
  · exact fun hchain => absurd hchain hname
  · exact fun _ hfull => absurd hfull (Nat.ne_of_lt hlength)
  · exact fun hnone => by cases hnone
  · rintro _ ⟨rfl⟩
    rw [hload]
    exact ⟨hbody ▸ h.enter hmem hreason, rfl, inner, hinner⟩

theorem Session.seen_loadPart (loader : Loader) (name : String) (session : Session) :
    (session.loadPart loader name).1 = (session.seen loader).part name ∧
      (session.loadPart loader name).2.seen loader = session.seen loader := by
  obtain ⟨hbody, -, hseen⟩ := @Session.run_eq_plain _ loader session (Inquiry.loadPart name)
  rw [Inquiry.run_loadPart] at hbody hseen
  exact ⟨hbody.trans (Inquiry.plain_loadPart _ _), hseen⟩

/-- Expansion changes no answer. -/
theorem Expands.seen {visits : List Visit}
    (h : Expands loader chain tokens session visits out after) :
    after.seen loader = session.seen loader := by
  induction h with
  | nil => rfl
  | plain _ _ ih => exact ih
  | drop _ _ ih => exact ih.trans (Session.seen_warn _)
  | @enter _ name _ _ _ session _ _ _ _ _ _ _ _ hload _ _ ihinner ihrest =>
    have hloaded := (Session.seen_loadPart loader name session).2
    rw [hload] at hloaded
    exact ihrest.trans (ihinner.trans hloaded)

/-- From a descent, all inclusions that an expansion comes to are regular. -/
theorem Expands.regular {visits : List Visit}
    (h : Expands loader chain tokens session visits out after)
    (hdescent : Descent (session.seen loader) source chain text)
    (htokens : ∀ token ∈ tokens, token ∈ tokenize text) :
    ∀ visit ∈ visits, visit.Regular loader (session.seen loader) source := by
  -- over the derivation: what is entered is a descent again, what comes after is in the same text
  induction h generalizing text with
  | nil => exact fun visit hvisit => by cases hvisit
  | plain _ _ ih => exact ih hdescent fun token hmem => htokens token (List.mem_cons_of_mem _ hmem)
  | drop hreason _ ih =>
    rw [Session.seen_warn] at ih
    refine List.forall_mem_cons.mpr ⟨?_, ?_⟩
    · exact hdescent.regular_drop (htokens _ List.mem_cons_self) hreason _
    · exact ih hdescent fun token hmem => htokens token (List.mem_cons_of_mem _ hmem)
  | @enter _ name _ _ _ session _ _ _ _ _ _ _ hreason hload hinner _ ihinner ihrest =>
    have hmem := htokens _ List.mem_cons_self
    obtain ⟨hbody, hloaded⟩ := Session.seen_loadPart loader name session
    rw [hload] at hbody hloaded
    obtain rfl := hbody
    have hwithin := hinner.seen.trans hloaded
    rw [hloaded] at ihinner
    rw [hwithin] at ihrest
    refine List.forall_mem_cons.mpr ⟨?_, List.forall_mem_append.mpr ⟨?_, ?_⟩⟩
    · exact hdescent.regular_enter hmem hreason rfl hload hinner
    · exact ihinner (hdescent.enter hmem hreason) fun _ h => h
    · exact ihrest hdescent fun token hmem => htokens token (List.mem_cons_of_mem _ hmem)

/-- **Expansion comes to an end**, whatever includes what. At each inclusion on the way the chain
has at most `maxDepth` names, none twice, each included by the body of the one before; the chain
alone decides whether the inclusion is dropped, and then the loader is not called for it. -/
theorem expand_visits (loader : Loader) (source : List Char) (session : Session) :
    ∃ visits,
      (∀ found out after, Expands loader [] (tokenize source) session found out after ↔
        found = visits ∧ (out, after) = expand loader source session) ∧
      ∀ visit ∈ visits, visit.Regular loader (session.seen loader) source := by
  obtain ⟨visits, hiff⟩ := expands_iff loader source session
  refine ⟨visits, hiff, ?_⟩
  have hexpands := (hiff visits _ _).mpr ⟨rfl, rfl⟩
  exact hexpands.regular (descent_start _ source) fun _ h => h

/-- Two partials that include each other. -/
def ringLoader : Loader
  | .part, "a" => .ok (templateOf "(«> b»)")
  | .part, "b" => .ok (templateOf "[«> a»]")
  | kind, name => .error (.notFound kind name)

example : (expand ringLoader (templateOf "«> a»«> b»") .empty).1 = "([])[()]".toList ∧
    (expand ringLoader (templateOf "«> a»«> b»") .empty).2.warnings =
      [.cycle "a" ["a", "b"], .cycle "b" ["b", "a"]] := by
  decide +kernel

end StaticSite
