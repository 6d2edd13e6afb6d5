import Mathlib.Data.List.Infix
import StaticSite.Proofs.Template.Inlining
import StaticSite.Proofs.Template.Showing
/-!
# StaticSite.Proofs.Template.LayoutPass

**A page comes out of its layout as it went in.** The page is put into the layout as text, and the
whole is cut into tokens twice more: for the inclusions, and for the tree. If neither the page, nor
the text between the markers of the layout and of the partials that it includes, has two opening
braces or ends with one (`Inert`, `Clean`), then no marker forms where pieces meet. So the tokens
are those of the layout, with the page as text in the place of each `content` marker and the tokens
of its expansion in the place of each inclusion (`substitute_expand_injectContent`).

All seams are treated alike. Markers that are read to their own end and inert text (`Token.Solid`)
are a reading of what they make up, in whatever order they come (`isReading_of_solid`).
-/

set_option autoImplicit false

namespace StaticSite

/-! ### Inert text -/

/-- Text without two opening braces, and without one at its end: no marker starts in it, whatever
follows. -/
def Inert (s : List Char) : Prop := ¬ Marker.opening <:+: s ∧ ¬ ['\x7b'] <:+ s

instance (s : List Char) : Decidable (Inert s) := instDecidableAnd

theorem Inert.append {s t : List Char} (hs : Inert s) (ht : Inert t) : Inert (s ++ t) := by
  constructor
  · rintro ⟨before, after, h⟩
    rcases List.append_eq_append_iff.mp h with ⟨middle, rfl, -⟩ | ⟨middle, hmiddle, rfl⟩
    · exact hs.1 ⟨before, middle, rfl⟩
    · rcases List.append_eq_append_iff.mp hmiddle with ⟨braces, rfl, hbraces⟩ | ⟨more, -, rfl⟩
      · -- the two braces are divided between the texts in one of three ways
        rcases braces with _ | ⟨first, _ | ⟨second, rest⟩⟩
        · rw [List.nil_append] at hbraces
          exact ht.1 ⟨[], after, by rw [hbraces, List.nil_append]⟩
        · cases hbraces
          exact hs.2 (List.suffix_append _ _)
        · simp only [Marker.opening, List.cons_append, List.cons.injEq, List.nil_eq,
            List.append_eq_nil_iff] at hbraces
          obtain ⟨rfl, rfl, rfl, -⟩ := hbraces
          exact hs.1 (List.suffix_append _ _).isInfix
      · exact ht.1 ⟨more, after, rfl⟩
  · intro h
    rcases List.eq_nil_or_concat' t with rfl | ⟨front, last, rfl⟩
    · rw [List.append_nil] at h
      exact hs.2 h
    · refine ht.2 ?_
      rw [← List.append_assoc] at h
      obtain ⟨more, h⟩ := h
      obtain ⟨-, hlast⟩ := List.append_inj' h rfl
      exact ⟨front, by rw [hlast]⟩

/-- No marker starts in inert text. -/
theorem Inert.readAsText {piece : List Char} (h : Inert piece) (rest : List Char) :
    Token.ReadAsText piece rest := by
  rintro before after rfl hafter
  cases hread : Marker.read? (after ++ rest) with
  | none => rfl
  | some found =>
    obtain ⟨inside, hinside, -⟩ := Marker.read?_suffix hread
    -- the braces that open the marker stand in the text, or the first of them is its end
    rcases after with _ | ⟨first, _ | ⟨second, more⟩⟩
    · exact absurd rfl hafter
    · cases hinside
      exact absurd (List.suffix_append _ _) h.2
    · cases hinside
      exact absurd ⟨before, more, by simp [Marker.opening]⟩ h.1

/-- The text between the markers of a template is inert. -/
def Clean (source : List Char) : Prop := ∀ piece, .text piece ∈ tokenize source → Inert piece

/-! ### Solid tokens

A solid token is read as itself in every surrounding: inert text has no opening in it and none that
could be completed, and a marker that is read to its own end is decided by its own characters. -/

namespace Token

variable {tokens : List Token}

/-- Tokens that stay what they are, whatever stands around them. -/
def Solid : Token → Prop
  | .text piece => Inert piece
  | .marker m written => Marker.read? written = some (m, [])

instance (token : Token) : Decidable token.Solid :=
  match token with
  | .text piece => inferInstanceAs (Decidable (Inert piece))
  | .marker m written => inferInstanceAs (Decidable (Marker.read? written = some (m, [])))

theorem isReading_of_solid (h : ∀ token ∈ tokens, token.Solid) : IsReading tokens := by
  induction tokens with
  | nil => trivial
  | cons token rest ih =>
    obtain ⟨htoken, hrest⟩ := List.forall_mem_cons.mp h
    cases token with
    | text piece => exact ⟨Inert.readAsText htoken _, ih hrest⟩
    | marker m written => exact ⟨Marker.read?_append_iff.mpr htoken, ih hrest⟩

theorem solid_prependText {piece : List Char} (hpiece : Inert piece)
    (h : ∀ token ∈ tokens, token.Solid) : ∀ token ∈ prependText piece tokens, token.Solid := by
  by_cases hnil : piece = []
  · rw [hnil, prependText_nil_left]
    exact h
  · rcases tokens with _ | ⟨more | ⟨m, written⟩, rest⟩
    · rw [prependText_nil hnil]
      exact List.forall_mem_singleton.mpr hpiece
    · obtain ⟨hmore, hrest⟩ := List.forall_mem_cons.mp h
      exact List.forall_mem_cons.mpr ⟨Inert.append hpiece hmore, hrest⟩
    · rw [prependText_marker hnil]
      exact List.forall_mem_cons.mpr ⟨hpiece, h⟩

theorem solid_merged (h : ∀ token ∈ tokens, token.Solid) :
    ∀ token ∈ merged tokens, token.Solid := by
  induction tokens with
  | nil => exact h
  | cons token rest ih =>
    obtain ⟨htoken, hrest⟩ := List.forall_mem_cons.mp h
    cases token with
    | text piece => exact solid_prependText htoken (ih hrest)
    | marker m written => exact List.forall_mem_cons.mpr ⟨htoken, ih hrest⟩

end Token

open Token

theorem clean_iff_solid {source : List Char} :
    Clean source ↔ ∀ token ∈ tokenize source, token.Solid := by
  constructor
  · intro h token hmem
    cases token with
    | text piece => exact h piece hmem
    | marker m written => exact (isReading_tokenize source).read?_of_mem hmem
  · exact fun h piece hmem => h _ hmem

instance (source : List Char) : Decidable (Clean source) := decidable_of_iff' _ clean_iff_solid

/-- Solid tokens are, but for adjacent text, the tokens of what they make up. -/
theorem tokenize_of_solid {tokens : List Token} (h : ∀ token ∈ tokens, token.Solid) :
    tokenize (tokens.flatMap raw) = merged tokens :=
  tokenize_of_isReading (isReading_of_solid h)

theorem clean_of_solid {tokens : List Token} (h : ∀ token ∈ tokens, token.Solid) :
    Clean (tokens.flatMap raw) := by
  rw [clean_iff_solid, tokenize_of_solid h]
  exact solid_merged h

/-! ### Inclusions in clean text

In place of an inclusion stand the tokens of another clean text, so solid tokens are replaced by
solid tokens and no seam has to be looked at. -/

/-- The partials that a text includes, itself or through other partials. -/
inductive Includes (loader : Loader) : List Char → String → Prop where
  | itself {source : List Char} {name : String} {raw : List Char} :
    .marker (.inclusion name) raw ∈ tokenize source → Includes loader source name
  | through {source : List Char} {name other : String} {raw : List Char} :
    .marker (.inclusion name) raw ∈ tokenize source → Includes loader (loader.part name) other →
      Includes loader source other

/-- The tokens that stand in the place of a token: those of `expandName` for an inclusion, else the
token itself. -/
def Token.spread (expandName : String → List Char) : Token → List Token
  | .marker (.inclusion name) _ => tokenize (expandName name)
  | token => [token]

theorem Token.spread_of_ne {token : Token}
    (h : ∀ name raw, token ≠ .marker (.inclusion name) raw) (expandName : String → List Char) :
    token.spread expandName = [token] := by
  unfold Token.spread
  split
  · rename_i name raw
    exact absurd rfl (h name raw)
  · rfl

theorem flatMap_raw_spread (expandName : String → List Char) (token : Token) :
    (token.spread expandName).flatMap raw = token.replaced expandName := by
  unfold Token.spread
  split
  · exact flatMap_raw_tokenize _
  · rename_i hplain
    rw [token.replaced_of_ne hplain]
    exact List.append_nil _

theorem solid_flatMap_spread {tokens : List Token} {expandName : String → List Char}
    (h : ∀ token ∈ tokens, token.Solid)
    (hname : ∀ name raw, .marker (.inclusion name) raw ∈ tokens → Clean (expandName name)) :
    ∀ token ∈ tokens.flatMap (Token.spread expandName), token.Solid := by
  intro token hmem
  obtain ⟨original, horiginal, hspread⟩ := List.mem_flatMap.mp hmem
  unfold Token.spread at hspread
  split at hspread
  · exact clean_iff_solid.mp (hname _ _ horiginal) _ hspread
  · rw [List.mem_singleton.mp hspread]
    exact h _ horiginal

/-- Clean text is clean again when clean text takes the place of its inclusions. -/
theorem clean_flatMap_replaced {tokens : List Token} {expandName : String → List Char}
    (h : ∀ token ∈ tokens, token.Solid)
    (hname : ∀ name raw, .marker (.inclusion name) raw ∈ tokens → Clean (expandName name)) :
    Clean (tokens.flatMap (Token.replaced expandName)) := by
  have hclean := clean_of_solid (solid_flatMap_spread h hname)
  rw [List.flatMap_assoc] at hclean
  simpa only [flatMap_raw_spread] using hclean

/-- The expansion of a clean text with clean partials is clean. -/
theorem clean_expansionWithin {loader : Loader} (room : Nat) (chain : List String)
    {source : List Char} (h : Clean source)
    (hparts : ∀ name, Includes loader source name → Clean (loader.part name)) :
    Clean (expansionWithin loader room chain source) := by
  have hnil : Clean [] := fun piece hmem => by cases hmem
  induction room generalizing chain source with
  | zero => exact clean_flatMap_replaced (clean_iff_solid.mp h) fun _ _ _ => hnil
  | succ room ih =>
    refine clean_flatMap_replaced (clean_iff_solid.mp h) fun name raw hmem => ?_
    by_cases hname : name ∈ chain
    · rw [if_pos hname]
      exact hnil
    · rw [if_neg hname]
      exact ih _ (hparts name (.itself hmem)) fun other hother =>
        hparts other (.through hmem hother)

/-! ### The page inside of the layout

The three passes are the injection of the page, the expansion of the partials and the parsing of the
whole. Each cuts its text into tokens anew, and by the solidity of the tokens each finds those that
the pass before has left. -/

/-- A token of a layout with a page in it: the page, as text, in the place of a `content` marker. -/
def Token.filled (page : List Char) (token : Token) : Token :=
  if token.isContent then .text page else token

theorem injectContent_eq (layout page : List Char) :
    injectContent layout page = ((tokenize layout).map (filled page)).flatMap raw := by
  unfold injectContent
  rw [List.flatMap_map]
  refine List.flatMap_congr fun token _ => ?_
  unfold filled
  split
  · rfl
  · rfl

theorem solid_filled {page : List Char} (hpage : Inert page) {token : Token}
    (htoken : token.Solid) : (token.filled page).Solid := by
  unfold filled
  split
  · exact hpage
  · exact htoken

theorem marker_mem_of_filled {tokens : List Token} {page : List Char} {m : Marker}
    {raw : List Char} (h : .marker m raw ∈ tokens.map (filled page)) : .marker m raw ∈ tokens := by
  obtain ⟨original, horiginal, hmarker⟩ := List.mem_map.mp h
  unfold filled at hmarker
  split at hmarker
  · cases hmarker
  · exact hmarker ▸ horiginal

/-- What stands for an inclusion that is not inside of a partial. -/
def partExpansion (loader : Loader) (name : String) : List Char :=
  expansionWithin loader (maxDepth - 1) [name] (loader.part name)

theorem expansion_eq (loader : Loader) (source : List Char) :
    expansion loader source =
      (tokenize source).flatMap (Token.replaced (partExpansion loader)) := by
  unfold expansion maxDepth expansionWithin
  simp only [List.not_mem_nil, if_false, List.nil_append]
  rfl

/-- An inclusion on its own expands to what stands for it. -/
theorem expand_inclusion {raw : List Char} {name : String}
    (h : Marker.read? raw = some (.inclusion name, [])) (loader : Loader) (session : Session) :
    (expand loader raw session).1 = partExpansion (session.seen loader) name := by
  have htokens : tokenize raw = [.marker (.inclusion name) raw] := by
    have hread : Marker.read? (raw ++ []) = some (.inclusion name, []) := by
      rw [List.append_nil]
      exact h
    have hfirst := tokenize_of_read? hread
    rwa [List.append_nil] at hfirst
  rw [expand_eq_expansion, expansion_eq, htokens]
  exact List.append_nil _

/-- The tokens that a token of a layout stands for: the page, as text, for a `content` marker; the
tokens of its expansion for an inclusion; any other token for itself. -/
def Token.assembled (loader : Loader) (session : Session) (page : List Char) :
    Token → List Token
  | .marker (.inclusion _) raw => tokenize (expand loader raw session).1
  | token => if token.isContent then [.text page] else [token]

theorem assembled_eq_spread {loader : Loader} {session : Session} {page : List Char}
    {token : Token} (h : token.Solid) :
    token.assembled loader session page =
      (token.filled page).spread (partExpansion (session.seen loader)) := by
  unfold Token.assembled
  split
  · rename_i name raw
    rw [expand_inclusion h]
    rfl
  · rename_i hplain
    unfold filled
    split
    · rfl
    · rw [token.spread_of_ne hplain]

/-- **A page comes out of its layout as it went in.** -/
theorem substitute_expand_injectContent (loader : Loader) (session : Session)
    (layout page : List Char) (hlayout : Clean layout)
    (hparts : ∀ name, Includes (session.seen loader) layout name →
      Clean ((session.seen loader).part name))
    (hpage : Inert page) (context : Value) :
    substitute (expand loader (injectContent layout page) session).1 context =
      evalNodes ⟨context, none⟩
        (treeOfTokens ((tokenize layout).flatMap (Token.assembled loader session page))) := by
  have hsolid := clean_iff_solid.mp hlayout
  have hfilled : ∀ token ∈ (tokenize layout).map (filled page), token.Solid := by
    intro token hmem
    obtain ⟨original, horiginal, rfl⟩ := List.mem_map.mp hmem
    exact solid_filled hpage (hsolid original horiginal)
  have hspread : (tokenize layout).flatMap (Token.assembled loader session page) =
      ((tokenize layout).map (filled page)).flatMap
        (Token.spread (partExpansion (session.seen loader))) := by
    rw [List.flatMap_map]
    exact List.flatMap_congr fun token hmem => assembled_eq_spread (hsolid token hmem)
  have hassembled : ∀ token ∈ (tokenize layout).flatMap (Token.assembled loader session page),
      token.Solid := by
    rw [hspread]
    refine solid_flatMap_spread hfilled fun name raw hmem => ?_
    have hlayoutmem := marker_mem_of_filled hmem
    exact clean_expansionWithin _ _ (hparts name (.itself hlayoutmem)) fun other hother =>
      hparts other (.through hlayoutmem hother)
  -- three passes over strings come to one over the tokens of the layout
  have htext : (expand loader (injectContent layout page) session).1 =
      ((tokenize layout).flatMap (Token.assembled loader session page)).flatMap raw := by
    calc (expand loader (injectContent layout page) session).1
        = (tokenize (injectContent layout page)).flatMap
            (Token.replaced (partExpansion (session.seen loader))) := by
          rw [expand_eq_expansion, expansion_eq]
      _ = ((tokenize layout).map (filled page)).flatMap
            (Token.replaced (partExpansion (session.seen loader))) := by
          rw [injectContent_eq, tokenize_of_solid hfilled, flatMap_merged fun _ => rfl]
      _ = ((tokenize layout).flatMap (Token.assembled loader session page)).flatMap raw := by
          rw [hspread, List.flatMap_assoc]
          exact List.flatMap_congr fun token _ => (flatMap_raw_spread _ _).symm
  unfold substitute parseTemplate
  rw [htext, tokenize_of_solid hassembled]
  exact evalNodes_treeOfTokens_merged _ _

/-- A navigation with a logo in it, and no other partial. -/
def navigationLoader : Loader
  | .part, "nav" => .ok (templateOf "<nav>«> logo» «title»</nav>")
  | .part, "logo" => .ok "*".toList
  | kind, name => .error (.notFound kind name)

theorem clean_part_navigationLoader (name : String) : Clean (navigationLoader.part name) := by
  unfold Loader.part navigationLoader
  split
  · rename_i body hbody
    split at hbody
    · cases hbody
      decide +kernel
    · cases hbody
      decide +kernel
    · cases hbody
  · decide +kernel

/-- The page stands in a conditional and by itself, between partials. -/
theorem substitute_expand_injectContent_between_partials :
    substitute (expand navigationLoader (injectContent
        (templateOf "«> nav»«#if x»« content »«/if»«content»«> nav»") (templateOf "a » b"))
        .empty).1 (.mapping [("title", .string "T")]) =
      evalNodes ⟨.mapping [("title", .string "T")], none⟩ (treeOfTokens
        ((tokenize (templateOf "«> nav»«#if x»« content »«/if»«content»«> nav»")).flatMap
          (Token.assembled navigationLoader .empty (templateOf "a » b")))) := by
  refine substitute_expand_injectContent _ _ _ _ (by decide +kernel) (fun name _ => ?_)
    (by decide +kernel) _
  rw [Session.seen_empty]
  exact clean_part_navigationLoader name

end StaticSite
