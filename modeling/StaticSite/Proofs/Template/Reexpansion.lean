import Mathlib.Data.List.Infix
import StaticSite.Proofs.Template.LayoutPass
/-!
# StaticSite.Proofs.Template.Reexpansion

**Expanding a second time.** Expansion cuts the text, and the partials that it puts in, at every
inclusion. The fragments that are left hold no inclusion, and the result is all of them, one after
the other (`flatMap_raw_fragments`). A fragment is read by itself as it was read in its place, so an
inclusion in the result can only come about where fragments meet.

Where no marker of the result runs across such a seam, no inclusion is left, and a second expansion
changes nothing (`expand_expand`). This is so for all clean text with clean partials
(`expand_expand_of_clean`). It is not so for all text: if an inclusion stands between the two halves
of a marker, the halves come together (`expand_expand_of_halves`).
-/

set_option autoImplicit false

namespace StaticSite

open Token

/-! ### Fragments

Expansion is followed once more, but it keeps apart what it would join. The fragments remember where
a piece of text ended and an inclusion was, even where the inclusion has left nothing. -/

/-- The tokens cut at each inclusion, with the fragments of `expandName` in its place. `fragment`
holds the tokens since the last cut. -/
def Token.cut (expandName : String → List (List Token)) (fragment : List Token) :
    List Token → List (List Token)
  | [] => [fragment]
  | .marker (.inclusion name) _ :: rest => fragment :: expandName name ++ cut expandName [] rest
  | token :: rest => cut expandName (fragment ++ [token]) rest

/-- The fragments of an expansion, where the partials of `chain` are in expansion and `room` more
may be. -/
def fragmentsWithin (loader : Loader) : Nat → List String → List Char → List (List Token)
  | 0, _, source => cut (fun _ => []) [] (tokenize source)
  | room + 1, chain, source =>
    cut (fun name =>
        if name ∈ chain then []
        else fragmentsWithin loader room (chain ++ [name]) (loader.part name))
      [] (tokenize source)

/-- The fragments of an expansion. -/
def fragments (loader : Loader) (source : List Char) : List (List Token) :=
  fragmentsWithin loader maxDepth [] source

/-- The places in an expansion where fragments meet, and its two ends. -/
def seams (loader : Loader) (source : List Char) : List Nat :=
  (fragments loader source).inits.map fun front => (front.flatten.flatMap raw).length

variable {loader : Loader} {expandName : String → List (List Token)} {fragment tokens : List Token}

theorem cut_of_ne {token : Token} (h : ∀ name raw, token ≠ .marker (.inclusion name) raw)
    (expandName : String → List (List Token)) (fragment rest : List Token) :
    cut expandName fragment (token :: rest) = cut expandName (fragment ++ [token]) rest := by
  rw [cut.eq_def]
  split
  · rename_i heq
    cases heq
  · rename_i name raw tail heq
    cases heq
    exact absurd rfl (h name raw)
  · rename_i tail hplain heq
    cases heq
    rfl

/-- Cutting loses nothing but the inclusions. -/
theorem flatMap_raw_cut (expandName : String → List (List Token)) (fragment tokens : List Token) :
    (cut expandName fragment tokens).flatten.flatMap raw =
      fragment.flatMap raw ++
        tokens.flatMap (replaced fun name => (expandName name).flatten.flatMap raw) := by
  induction tokens generalizing fragment with
  | nil => simp [cut]
  | cons token rest ih =>
    rcases token.inclusion_or_ne with ⟨name, written, rfl⟩ | hplain
    · simp [cut, ih, replaced]
    · rw [cut_of_ne hplain, ih, List.flatMap_cons, token.replaced_of_ne hplain]
      simp

theorem flatMap_raw_fragmentsWithin (loader : Loader) (room : Nat) (chain : List String)
    (source : List Char) :
    (fragmentsWithin loader room chain source).flatten.flatMap raw =
      expansionWithin loader room chain source := by
  induction room generalizing chain source with
  | zero => exact flatMap_raw_cut _ _ _
  | succ room ih =>
    unfold fragmentsWithin expansionWithin
    rw [flatMap_raw_cut, List.flatMap_nil, List.nil_append]
    congr 2
    funext name
    split
    · rfl
    · exact ih _ _

/-- The fragments make up the expansion. -/
theorem flatMap_raw_fragments (loader : Loader) (source : List Char) :
    (fragments loader source).flatten.flatMap raw = expansion loader source :=
  flatMap_raw_fragmentsWithin _ _ _ _

/-- There is no inclusion among the tokens. -/
def WithoutInclusion (tokens : List Token) : Prop :=
  ∀ name written, .marker (.inclusion name) written ∉ tokens

theorem mem_cut {piece : List Token} (hfragment : WithoutInclusion fragment)
    (h : piece ∈ cut expandName fragment tokens) :
    (WithoutInclusion piece ∧ piece <:+: fragment ++ tokens) ∨
      ∃ name written, .marker (.inclusion name) written ∈ tokens ∧ piece ∈ expandName name := by
  induction tokens generalizing fragment with
  | nil =>
    rw [cut, List.mem_singleton] at h
    subst h
    exact Or.inl ⟨hfragment, (List.prefix_append _ _).isInfix⟩
  | cons token rest ih =>
    -- an inclusion ends the fragment that is being collected, any other token is added to it
    rcases token.inclusion_or_ne with ⟨name, written, rfl⟩ | hplain
    · rw [cut, List.cons_append, List.mem_cons, List.mem_append] at h
      rcases h with rfl | hname | hrest
      · exact Or.inl ⟨hfragment, (List.prefix_append _ _).isInfix⟩
      · exact Or.inr ⟨name, written, List.mem_cons_self, hname⟩
      · have hnil : WithoutInclusion [] := fun _ _ => List.not_mem_nil
        rcases ih hnil hrest with ⟨hpiece, hinfix⟩ | ⟨name', written', hmem, hname⟩
        · refine Or.inl ⟨hpiece, hinfix.trans ?_⟩
          exact ⟨fragment ++ [.marker (.inclusion name) written], [], by simp⟩
        · exact Or.inr ⟨name', written', List.mem_cons_of_mem _ hmem, hname⟩
    · have hmore : WithoutInclusion (fragment ++ [token]) := by
        intro name written hmem
        rcases List.mem_append.mp hmem with hmem | hmem
        · exact hfragment name written hmem
        · exact hplain name written (List.mem_singleton.mp hmem).symm
      rw [cut_of_ne hplain] at h
      rcases ih hmore h with ⟨hpiece, hinfix⟩ | ⟨name, written, hmem, hname⟩
      · rw [List.append_assoc] at hinfix
        exact Or.inl ⟨hpiece, hinfix⟩
      · exact Or.inr ⟨name, written, List.mem_cons_of_mem _ hmem, hname⟩

/-- A fragment stands without inclusion among the tokens of the text, or among those of a partial
that the text includes. -/
theorem mem_fragmentsWithin {room : Nat} {chain : List String} {source : List Char}
    {piece : List Token} (h : piece ∈ fragmentsWithin loader room chain source) :
    WithoutInclusion piece ∧
      (piece <:+: tokenize source ∨
        ∃ name, Includes loader source name ∧ piece <:+: tokenize (loader.part name)) := by
  have hnil : WithoutInclusion [] := fun _ _ => List.not_mem_nil
  induction room generalizing chain source with
  | zero =>
    rcases mem_cut hnil h with ⟨hpiece, hinfix⟩ | ⟨name, written, -, hname⟩
    · exact ⟨hpiece, Or.inl hinfix⟩
    · cases hname
  | succ room ih =>
    rcases mem_cut hnil h with ⟨hpiece, hinfix⟩ | ⟨name, written, hmem, hname⟩
    · exact ⟨hpiece, Or.inl hinfix⟩
    · split at hname
      · cases hname
      · obtain ⟨hpiece, horigin⟩ := ih hname
        refine ⟨hpiece, Or.inr ?_⟩
        rcases horigin with hinfix | ⟨other, hother, hinfix⟩
        · exact ⟨name, .itself hmem, hinfix⟩
        · exact ⟨other, .through hmem hother, hinfix⟩

theorem isReading_of_mem_fragments {source : List Char} {piece : List Token}
    (h : piece ∈ fragments loader source) : IsReading piece := by
  have hinfix : ∀ {source : List Char}, piece <:+: tokenize source → IsReading piece := by
    rintro source ⟨before, after, htokens⟩
    have hread := isReading_tokenize source
    rw [← htokens] at hread
    exact hread.of_append_left.of_append_right
  rcases (mem_fragmentsWithin h).2 with horigin | ⟨name, -, horigin⟩
  · exact hinfix horigin
  · exact hinfix horigin

/-! ### Where fragments meet

Each fragment is a reading by itself. That they are one together is a question about the seams, and
it is answered seam by seam. -/

/-- Readings that follow each other have the tokens of all, if no marker runs across a place where
two of them meet. -/
theorem tokenize_flatten {readings : List (List Token)} (h : ∀ piece ∈ readings, IsReading piece)
    (hseams : ∀ front, front <+: readings →
      ¬ Crossed (readings.flatten.flatMap raw) (front.flatten.flatMap raw).length) :
    tokenize (readings.flatten.flatMap raw) = merged readings.flatten := by
  induction readings with
  | nil => rfl
  | cons first rest ih =>
    obtain ⟨hfirst, hrest⟩ := List.forall_mem_cons.mp h
    have hseam := hseams [first] ⟨rest, rfl⟩
    simp only [List.flatten_cons, List.flatten_nil, List.append_nil, List.flatMap_append] at hseam
    have htokens : tokenize (first.flatMap raw ++ rest.flatten.flatMap raw) =
        merged (first ++ tokenize (rest.flatten.flatMap raw)) := by
      rw [tokenize_append hseam, tokenize_of_isReading hfirst, merged_merged_append]
    rw [List.flatten_cons, List.flatMap_append, htokens, ih hrest, merged_append_merged]
    -- a seam of the rest is one of the whole
    intro front hfront hcrossed
    refine hseams (first :: front) (List.cons_prefix_cons.mpr ⟨rfl, hfront⟩) ?_
    simp only [List.flatten_cons, List.flatMap_append, List.length_append]
    exact hcrossed.append first htokens

/-! ### The second expansion -/

theorem expandTokens_of_withoutInclusion
    (expandName : String → Session → List Char × Session) (h : WithoutInclusion tokens)
    (session : Session) :
    expandTokens expandName tokens session = (tokens.flatMap raw, session) := by
  induction tokens with
  | nil => rfl
  | cons token rest ih =>
    have hrest : WithoutInclusion rest := fun name written hmem =>
      h name written (List.mem_cons_of_mem _ hmem)
    have hplain : ∀ name written, token ≠ .marker (.inclusion name) written :=
      fun name written heq => h name written (heq ▸ List.mem_cons_self)
    rw [expandTokens_of_ne hplain, ih hrest, List.flatMap_cons]

/-- Without inclusions there is nothing to expand. -/
theorem expand_of_withoutInclusion {source : List Char} (h : WithoutInclusion (tokenize source))
    (loader : Loader) (session : Session) : expand loader source session = (source, session) := by
  have htokens := fun expandName => expandTokens_of_withoutInclusion expandName h session
  rw [flatMap_raw_tokenize] at htokens
  exact htokens _

theorem withoutInclusion_fragments (loader : Loader) (source : List Char) :
    WithoutInclusion (merged (fragments loader source).flatten) := by
  intro name written hmem
  obtain ⟨piece, hpiece, hmarker⟩ := List.mem_flatten.mp (marker_mem_merged.mp hmem)
  exact (mem_fragmentsWithin hpiece).1 name written hmarker

/-- If an expansion has the tokens of its fragments, a second expansion changes nothing. -/
theorem expand_expand_of_tokenize {source : List Char} {session : Session}
    (h : tokenize (expand loader source session).1 =
      merged (fragments (session.seen loader) source).flatten) :
    WithoutInclusion (tokenize (expand loader source session).1) ∧
      ∀ loader' session', expand loader' (expand loader source session).1 session' =
        ((expand loader source session).1, session') := by
  have hnone : WithoutInclusion (tokenize (expand loader source session).1) := by
    rw [h]
    exact withoutInclusion_fragments _ _
  exact ⟨hnone, expand_of_withoutInclusion hnone⟩

/-- Clean text with clean partials is expanded once and for all. -/
theorem expand_expand_of_clean {source : List Char} {session : Session} (hsource : Clean source)
    (hparts : ∀ name, Includes (session.seen loader) source name →
      Clean ((session.seen loader).part name)) :
    WithoutInclusion (tokenize (expand loader source session).1) ∧
      ∀ loader' session', expand loader' (expand loader source session).1 session' =
        ((expand loader source session).1, session') := by
  refine expand_expand_of_tokenize ?_
  rw [expand_eq_expansion, ← flatMap_raw_fragments]
  refine tokenize_of_solid fun token htoken => ?_
  obtain ⟨piece, hpiece, hmem⟩ := List.mem_flatten.mp htoken
  rcases (mem_fragmentsWithin hpiece).2 with horigin | ⟨name, hname, horigin⟩
  · exact clean_iff_solid.mp hsource token (horigin.subset hmem)
  · exact clean_iff_solid.mp (hparts name hname) token (horigin.subset hmem)

/-- **Expanding a second time.** Where no marker of the result runs across a seam, there is no
inclusion left in it, and no expansion changes it any more. -/
theorem expand_expand (loader : Loader) (source : List Char) (session : Session)
    (hseams : ∀ place ∈ seams (session.seen loader) source,
      ¬ Crossed (expand loader source session).1 place) :
    WithoutInclusion (tokenize (expand loader source session).1) ∧
      ∀ loader' session', expand loader' (expand loader source session).1 session' =
        ((expand loader source session).1, session') := by
  refine expand_expand_of_tokenize ?_
  rw [expand_eq_expansion, ← flatMap_raw_fragments] at hseams ⊢
  refine tokenize_flatten (fun piece => isReading_of_mem_fragments) fun front hfront => ?_
  exact hseams _ (List.mem_map.mpr ⟨front, List.mem_inits _ _ |>.mpr hfront, rfl⟩)

/-- A partial that ends with an opening brace and includes one that is missing. -/
def braceLoader : Loader
  | .part, "brace" => .ok (templateOf "«> missing»" ++ ['\x7b'])
  | kind, name => .error (.notFound kind name)

/-- The brace at the end of the partial opens no marker with the text after it. -/
theorem expand_expand_brace :
    expand braceLoader (expand braceLoader (templateOf "«> brace» «> brace»a»") .empty).1 .empty =
      ((expand braceLoader (templateOf "«> brace» «> brace»a»") .empty).1, .empty) :=
  (expand_expand braceLoader (templateOf "«> brace» «> brace»a»") .empty
    (by decide +kernel)).2 braceLoader .empty

/-- An inclusion between the two halves of a marker: without it, the halves are a marker. -/
theorem expand_expand_of_halves :
    tokenize (expand braceLoader (templateOf "« «> missing»> y»") .empty).1 =
        [.marker (.inclusion "y") (templateOf "« > y»")] ∧
      (expand braceLoader (expand braceLoader (templateOf "« «> missing»> y»") .empty).1
        .empty).1 = [] := by
  decide +kernel

end StaticSite
