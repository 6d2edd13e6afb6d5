import StaticSite.Proofs.Template.LayoutPass
/-!
# StaticSite.Proofs.Template.Positional

**An inclusion stands for its partial, wherever it is.** What tokens unfold to says nothing of the
chain of partials in expansion, nor of how long it may be (`Unfolds`): each inclusion unfolds to
what the body of its partial unfolds to, and any other token to itself.

Expansion carries the chain along and leaves out inclusions because of it. Where no partial that is
reached includes itself, and none is reached through too many others, the chain is never a reason to
leave one out, so that expansion gives what the text unfolds to (`expand_unfolds`).
-/

set_option autoImplicit false

namespace StaticSite

variable {loader : Loader}

/-! ### What tokens unfold to -/

/-- What tokens unfold to, where an inclusion is its partial, and nothing if that cannot be
loaded. -/
inductive Unfolds (loader : Loader) : List Token → List Char → Prop
  | nil : Unfolds loader [] []
  | plain {token : Token} {rest : List Token} {out : List Char} :
      (∀ name raw, token ≠ .marker (.inclusion name) raw) → Unfolds loader rest out →
      Unfolds loader (token :: rest) (token.raw ++ out)
  | loaded {name : String} {raw body inside : List Char} {rest : List Token} {out : List Char} :
      loader .part name = .ok body → Unfolds loader (tokenize body) inside →
      Unfolds loader rest out →
      Unfolds loader (.marker (.inclusion name) raw :: rest) (inside ++ out)
  | missing {name : String} {raw : List Char} {e : LoadError} {rest : List Token}
      {out : List Char} :
      loader .part name = .error e → Unfolds loader rest out →
      Unfolds loader (.marker (.inclusion name) raw :: rest) out

theorem Unfolds.unique {tokens : List Token} {first second : List Char}
    (h : Unfolds loader tokens first) (hsecond : Unfolds loader tokens second) :
    first = second := by
  induction h generalizing second with
  | nil =>
    cases hsecond
    rfl
  | plain hplain _ ih =>
    cases hsecond with
    | plain _ hrest => rw [ih hrest]
    | loaded => exact absurd rfl (hplain _ _)
    | missing => exact absurd rfl (hplain _ _)
  -- the loader decides between the two rules for an inclusion
  | loaded hbody _ _ ihinside ihrest =>
    cases hsecond with
    | plain hplain => exact absurd rfl (hplain _ _)
    | loaded hbody' hinside hrest =>
      rw [hbody] at hbody'
      cases hbody'
      rw [ihinside hinside, ihrest hrest]
    | missing hnone =>
      rw [hbody] at hnone
      cases hnone
  | missing hnone _ ih =>
    cases hsecond with
    | plain hplain => exact absurd rfl (hplain _ _)
    | loaded hbody =>
      rw [hnone] at hbody
      cases hbody
    | missing _ hrest => exact ih hrest

/-- A partial that cannot be loaded is as good as an empty one. -/
theorem Unfolds.inclusion {name : String} {inside out : List Char} {rest : List Token}
    (hinside : Unfolds loader (tokenize (loader.part name)) inside)
    (hrest : Unfolds loader rest out) (raw : List Char) :
    Unfolds loader (.marker (.inclusion name) raw :: rest) (inside ++ out) := by
  unfold Loader.part at hinside
  cases hpart : loader .part name with
  | ok body =>
    rw [hpart] at hinside
    exact .loaded hpart hinside hrest
  | error e =>
    rw [hpart] at hinside
    cases hinside
    exact .missing hpart hrest

/-! ### Chains of inclusions

A chain lists the partials in the order in which they are entered. Whatever stands in a chain is
included by the source, and it includes all that comes after it, so a partial that came twice would
include itself. -/

/-- Partials of which the first is included in the text `source` and each other in the body of the
one before it; `text` is the last body. -/
inductive Leads (loader : Loader) (source : List Char) : List String → List Char → Prop
  | start : Leads loader source [] source
  | step {chain : List String} {text : List Char} {name : String} {raw : List Char} :
      Leads loader source chain text → .marker (.inclusion name) raw ∈ tokenize text →
      Leads loader source (chain ++ [name]) (loader.part name)

theorem Includes.trans {source : List Char} {name other : String}
    (h : Includes loader source name) (hother : Includes loader (loader.part name) other) :
    Includes loader source other := by
  induction h with
  | itself hmem => exact .through hmem hother
  | through hmem _ ih => exact .through hmem (ih hother)

variable {source text : List Char} {chain : List String} {name : String} {raw : List Char}

theorem Leads.source_includes (h : Leads loader source chain text)
    (hmem : .marker (.inclusion name) raw ∈ tokenize text) : Includes loader source name := by
  induction h generalizing name raw with
  | start => exact .itself hmem
  | step _ hbefore ih => exact (ih hbefore).trans (.itself hmem)

/-- The source includes all partials of a chain, and each of these includes what the last does. -/
theorem Leads.includes (h : Leads loader source chain text) (hname : name ∈ chain) :
    Includes loader source name ∧
      ∀ other, Includes loader text other → Includes loader (loader.part name) other := by
  induction h with
  | start => cases hname
  | @step chain text last raw hleads hmem ih =>
    rcases List.mem_append.mp hname with hname | hname
    · obtain ⟨hsource, hbelow⟩ := ih hname
      exact ⟨hsource, fun other hother => hbelow other (.through hmem hother)⟩
    · obtain rfl := List.mem_singleton.mp hname
      exact ⟨hleads.source_includes hmem, fun other hother => hother⟩

/-- Whether none of the partials that a text includes includes itself. -/
def Acyclic (loader : Loader) (source : List Char) : Prop :=
  ∀ name, Includes loader source name → ¬ Includes loader (loader.part name) name

/-- Without a cycle, a chain does not come back to a partial. -/
theorem Leads.not_mem (h : Leads loader source chain text) (hacyclic : Acyclic loader source)
    (hmem : .marker (.inclusion name) raw ∈ tokenize text) :
    name ∉ chain := by
  intro hname
  obtain ⟨hsource, hbelow⟩ := h.includes hname
  exact hacyclic name hsource (hbelow name (.itself hmem))

theorem Leads.nodup (h : Leads loader source chain text) (hacyclic : Acyclic loader source) :
    chain.Nodup := by
  induction h with
  | start => exact List.nodup_nil
  | step hleads hmem ih =>
    exact List.nodup_append.mpr ⟨ih, by simp, fun name hname last hlast heq =>
      hleads.not_mem hacyclic hmem (List.mem_singleton.mp hlast ▸ heq ▸ hname)⟩

/-! ### Ranks

That no partial includes itself is easiest to see from numbers that go down along every inclusion.
The same numbers bound the length of a chain. -/

section Rank

variable {rank : String → Nat}
  (hrank : ∀ name other raw, .marker (.inclusion other) raw ∈ tokenize (loader.part name) →
    rank other < rank name)

include hrank

theorem Includes.rank_le (h : Includes loader source name) :
    ∃ first raw, .marker (.inclusion first) raw ∈ tokenize source ∧ rank name ≤ rank first := by
  induction h with
  | itself hmem => exact ⟨_, _, hmem, Nat.le_refl _⟩
  | through hmem _ ih =>
    obtain ⟨first, raw, hfirst, hle⟩ := ih
    exact ⟨_, _, hmem, Nat.le_of_lt (Nat.lt_of_le_of_lt hle (hrank _ _ _ hfirst))⟩

/-- Partials that include only partials of lower rank do not include themselves. -/
theorem acyclic_of_rank (source : List Char) : Acyclic loader source := by
  intro name _ hname
  obtain ⟨first, raw, hfirst, hle⟩ := hname.rank_le hrank
  exact absurd (hrank _ _ _ hfirst) (Nat.not_lt.mpr hle)

/-- The ranks that a text reaches bound its chains. -/
theorem Leads.length_le_of_rank {bound : Nat}
    (hsource : ∀ name raw, .marker (.inclusion name) raw ∈ tokenize source → rank name < bound)
    (h : Leads loader source chain text) : chain.length ≤ bound := by
  have hboth : chain.length ≤ bound ∧ ∀ name raw, .marker (.inclusion name) raw ∈ tokenize text →
      rank name + chain.length < bound := by
    induction h with
    | start => exact ⟨Nat.zero_le _, hsource⟩
    | step _ hmem ih =>
      have hlast := ih.2 _ _ hmem
      rw [List.length_append, List.length_singleton]
      refine ⟨by omega, fun other raw hother => ?_⟩
      have hbelow := hrank _ _ _ hother
      omega
  exact hboth.1

end Rank

/-! ### Expansion -/

/-- Whether a warning says that a partial could not be loaded, as is the case. -/
def Warning.IsMissing (loader : Loader) : Warning → Prop
  | .missing name e => loader .part name = .error e
  | .cycle .. => False
  | .tooDeep _ => False

namespace Inquiry

variable {α β : Type}

theorem plain_bind_warnings (inquiry : Inquiry α) (next : α → Inquiry β) :
    ((inquiry.bind next).plain loader).2 =
      (inquiry.plain loader).2 ++ ((next (inquiry.plain loader).1).plain loader).2 := by
  induction inquiry with
  | done a => rfl
  | ask key more ih => exact ih _
  | warn warning more ih => exact congrArg (warning :: ·) ih

theorem isMissing_of_mem_plain_loadPart {name : String} {warning : Warning}
    (h : warning ∈ ((loadPart name).plain loader).2) : warning.IsMissing loader := by
  unfold loadPart plain Loader.answer at h
  cases hpart : loader .part name with
  | ok body =>
    rw [hpart] at h
    cases h
  | error e =>
    rw [hpart] at h
    obtain rfl := List.mem_singleton.mp h
    exact hpart

/-- Whether an inquiry, without a cache, gives what tokens unfold to, and warns of nothing but
missing partials. -/
structure Gives (loader : Loader) (inquiry : Inquiry (List Char)) (tokens : List Token) :
    Prop where
  result : Unfolds loader tokens (inquiry.plain loader).1
  warnings : ∀ warning ∈ (inquiry.plain loader).2, warning.IsMissing loader

theorem gives_expandTokens {asked : String → Inquiry (List Char)} {tokens : List Token}
    (h : ∀ name raw, .marker (.inclusion name) raw ∈ tokens →
      (asked name).Gives loader (tokenize (loader.part name))) :
    (expandTokens asked tokens).Gives loader tokens := by
  induction tokens with
  | nil => exact ⟨.nil, by simp [expandTokens, plain]⟩
  | cons token rest ih =>
    have hrest := ih fun name raw hmem => h name raw (List.mem_cons_of_mem _ hmem)
    rcases token.inclusion_or_ne with ⟨name, raw, rfl⟩ | hplain
    · have hname := h name raw List.mem_cons_self
      constructor
      · rw [expandTokens, plain_bind, plain_bind]
        exact hname.result.inclusion hrest.result raw
      · rw [expandTokens, plain_bind_warnings, plain_bind_warnings]
        simp only [List.forall_mem_append]
        exact ⟨hname.warnings, hrest.warnings, by simp [plain]⟩
    · -- the equation of the function has one case for all tokens that are no inclusion
      have hcons : expandTokens asked (token :: rest) =
          (expandTokens asked rest).bind fun more => done (token.raw ++ more) := by
        rw [expandTokens.eq_def]
        split
        · rename_i heq
          cases heq
        · rename_i name raw tail heq
          cases heq
          exact absurd rfl (hplain name raw)
        · rename_i tail _ heq
          cases heq
          rfl
      rw [hcons]
      constructor
      · rw [plain_bind]
        exact .plain hplain hrest.result
      · rw [plain_bind_warnings]
        simp only [List.forall_mem_append]
        exact ⟨hrest.warnings, by simp [plain]⟩

/-- At the end of a chain, its partials are no reason to leave out an inclusion. -/
theorem gives_expandWithin (hacyclic : Acyclic loader source)
    (hdepth : ∀ chain text, Leads loader source chain text → chain.Nodup →
      chain.length ≤ maxDepth) (h : Leads loader source chain text) :
    (expandWithin (maxDepth - chain.length) chain text).Gives loader (tokenize text) := by
  -- an inclusion in the text makes the chain longer, so there is room for it
  have hlonger : ∀ {chain text}, Leads loader source chain text → ∀ {name raw},
      .marker (.inclusion name) raw ∈ tokenize text → chain.length + 1 ≤ maxDepth := by
    intro chain text hleads name raw hmem
    have hstep := hleads.step hmem
    have hlength := hdepth _ _ hstep (hstep.nodup hacyclic)
    rwa [List.length_append, List.length_singleton] at hlength
  generalize hroom : maxDepth - chain.length = room
  induction room generalizing chain text with
  | zero =>
    refine gives_expandTokens fun name raw hmem => ?_
    have hlength := hlonger h hmem
    omega
  | succ room ih =>
    refine gives_expandTokens fun name raw hmem => ?_
    have hnext := ih (h.step hmem) (by
      rw [List.length_append, List.length_singleton]
      omega)
    rw [if_neg (h.not_mem hacyclic hmem)]
    constructor
    · rw [plain_bind, plain_loadPart]
      exact hnext.result
    · rw [plain_bind_warnings, plain_loadPart]
      simp only [List.forall_mem_append]
      exact ⟨fun warning => isMissing_of_mem_plain_loadPart, hnext.warnings⟩

end Inquiry

/-- **An inclusion stands for its partial, wherever it is.** If no partial that the text reaches
includes itself and no chain has more than `maxDepth` partials, then expansion gives what the text
unfolds to. So does the expansion of a partial at the end of any chain, at any later time; and no
warning speaks of a cycle or of the depth. -/
theorem expand_unfolds (loader : Loader) (source : List Char) (session : Session)
    (hacyclic : Acyclic (session.seen loader) source)
    (hdepth : ∀ chain text, Leads (session.seen loader) source chain text → chain.Nodup →
      chain.length ≤ maxDepth) :
    (∀ out, Unfolds (session.seen loader) (tokenize source) out ↔
      out = (expand loader source session).1) ∧
    (∀ chain text, Leads (session.seen loader) source chain text →
      ∀ later : Session, later.seen loader = session.seen loader →
      ∀ out, Unfolds (session.seen loader) (tokenize text) out ↔
        out = (expandWithin loader (maxDepth - chain.length) chain text later).1) ∧
    ∃ added, (expand loader source session).2.warnings = session.warnings ++ added ∧
      ∀ warning ∈ added, warning.IsMissing (session.seen loader) := by
  -- a later session answers alike, so it may be asked in place of the session of the start
  have hchain : ∀ chain text, Leads (session.seen loader) source chain text →
      ∀ later : Session, later.seen loader = session.seen loader →
      ∀ out, Unfolds (session.seen loader) (tokenize text) out ↔
        out = (expandWithin loader (maxDepth - chain.length) chain text later).1 := by
    intro chain text hleads later hlater out
    have hgives := Inquiry.gives_expandWithin hacyclic hdepth hleads
    have hrun : (expandWithin loader (maxDepth - chain.length) chain text later).1 =
        ((Inquiry.expandWithin (maxDepth - chain.length) chain text).plain
          (session.seen loader)).1 := by
      rw [← Inquiry.run_expandWithin, (later.run_eq_plain _).1, hlater]
    rw [hrun]
    constructor
    · exact fun h => h.unique hgives.result
    · rintro rfl
      exact hgives.result
  refine ⟨hchain [] source .start session rfl, hchain, ?_⟩
  refine ⟨_, ?_, (Inquiry.gives_expandWithin hacyclic hdepth .start).warnings⟩
  rw [← Inquiry.run_expand]
  exact (session.run_eq_plain (Inquiry.expand source)).2.1

/-- A staircase of partials, called by their numbers: each includes the next one, and the last one
none. -/
def stairLoader : Loader
  | .part, name =>
    match (List.range maxDepth).find? fun stair => toString stair == name with
    | some stair =>
      .ok (if stair + 1 < maxDepth then templateOf ("(«> " ++ toString (stair + 1) ++ "»)")
        else ['*'])
    | none => .error (.notFound .part name)
  | kind, name => .error (.notFound kind name)

/-- How many stairs come after a stair. -/
def stairRank (name : String) : Nat :=
  match (List.range maxDepth).find? fun stair => toString stair == name with
  | some stair => maxDepth - (stair + 1)
  | none => 0

theorem stairRank_lt (name other : String) (raw : List Char)
    (h : .marker (.inclusion other) raw ∈ tokenize (stairLoader.part name)) :
    stairRank other < stairRank name := by
  have hstairs : ∀ stair ∈ List.range maxDepth,
      ∀ token ∈ tokenize (stairLoader.part (toString stair)),
        token = .text token.raw ∨
          token = .marker (.inclusion (toString (stair + 1))) token.raw ∧
            stairRank (toString (stair + 1)) < stairRank (toString stair) := by
    decide +kernel
  cases hfind : (List.range maxDepth).find? fun stair => toString stair == name with
  | none =>
    unfold Loader.part stairLoader at h
    simp only [hfind] at h
    cases h
  | some stair =>
    obtain rfl : toString stair = name := by simpa using List.find?_some hfind
    rcases hstairs stair (List.mem_of_find?_eq_some hfind) _ h with htext | ⟨hnext, hlt⟩
    · cases htext
    · cases hnext
      exact hlt

/-- Up all stairs, up the last one only, and to a partial that is missing. -/
theorem expand_unfolds_stairs :
    Unfolds stairLoader (tokenize (templateOf "«> 0»«> 31»«> gone»"))
      (List.replicate 31 '(' ++ '*' :: List.replicate 31 ')' ++ ['*']) := by
  have hsource : ∀ name raw,
      .marker (.inclusion name) raw ∈ tokenize (templateOf "«> 0»«> 31»«> gone»") →
        stairRank name < maxDepth := by
    have htokens : ∀ token ∈ tokenize (templateOf "«> 0»«> 31»«> gone»"),
        ∃ name ∈ ["0", "31", "gone"], token = .marker (.inclusion name) token.raw ∧
          stairRank name < maxDepth := by
      decide +kernel
    intro name raw hmem
    obtain ⟨found, -, htoken, hlt⟩ := htokens _ hmem
    cases htoken
    exact hlt
  have hstairs := expand_unfolds stairLoader (templateOf "«> 0»«> 31»«> gone»") .empty
  rw [Session.seen_empty] at hstairs
  have hexpand := hstairs (acyclic_of_rank stairRank_lt _) fun _ _ hleads _ =>
    hleads.length_le_of_rank stairRank_lt hsource
  exact (hexpand.1 _).mpr (by decide +kernel)

end StaticSite
