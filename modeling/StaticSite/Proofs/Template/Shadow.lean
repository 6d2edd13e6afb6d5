import Mathlib.Data.List.TakeWhile
import StaticSite.Proofs.Template.Settlement
/-!
# StaticSite.Proofs.Template.Shadow

**A conditional that is never closed is read like text.** Two trees read the same tokens. In the one
a conditional is open, in the other its opening marker is text. The other may then open conditionals
that the one keeps as text, inside of its conditional. None of them is ever closed, for the marker
that would close it closes the conditional of the one. What is inside of loops, and of conditionals
on elements, is the same in both (`PartialTree.Shadows`).

This goes on until the conditional is closed, or the loop around it is. In the second case both
trees turn the same nodes back into text and are alike from then on (`PartialTree.Shadowed.step`).
So if the conditional is never closed, both come to the same nodes
(`PartialTree.Shadowed.foldl_step`).
-/

set_option autoImplicit false

namespace StaticSite

/-- Whether a token opens or closes a conditional. -/
def Token.isConditional : Token → Bool
  | .marker (.conditionOpen _) _ => true
  | .marker .conditionClose _ => true
  | _ => false

namespace PartialTree

variable {tree tree' base upper side : PartialTree} {block : OpenBlock} {token : Token}

/-! ### The outermost block

In the tree that stands inside of the conditional, the outermost block is a loop or a conditional on
an element. No token changes this while some block is open there. -/

/-- The outermost block is no conditional on the page, if this was so and no conditional is opened
further out. -/
theorem getLast?_kinds_step (h : tree.kinds.getLast? ≠ some .condition)
    (htoken : tree.kinds ≠ [] ∨ token.isConditional = false) :
    (tree.step token).kinds.getLast? ≠ some .condition := by
  rcases kinds_step tree token with hsuffix | hloop | ⟨path, raw, rfl, hopen⟩
  · obtain ⟨front, hfront⟩ := hsuffix
    intro hlast
    rw [← hfront, List.getLast?_append, hlast] at h
    exact h rfl
  · rw [hloop, List.getLast?_cons]
    intro hlast
    cases hkinds : tree.kinds.getLast? with
    | none => simp [hkinds] at hlast
    | some kind =>
      rw [hkinds] at hlast h
      exact h hlast
  · have hkinds : tree.kinds ≠ [] := htoken.resolve_right (by simp [Token.isConditional])
    rw [hopen, List.getLast?_cons_of_ne_nil hkinds]
    exact h

/-! ### An open conditional and its opening marker as text

Both trees are taken apart into what was read before the conditional, what was read right inside of
it, and what is open further in. The first and the last part are the same in both. Only the middle
may differ, and it differs in blocks that nothing can close. -/

/-- A tree with one open block and nothing else. -/
def single (block : OpenBlock) : PartialTree := ⟨[], [block], []⟩

/-- Two trees that have been read alike but for a conditional, which is still open in the first. In
the second its opening marker is text. -/
structure Shadows (base : PartialTree) (block : OpenBlock) (upper side tree tree' : PartialTree) :
    Prop where
  /-- In the first tree the conditional stands on what was read before it. -/
  held : tree.Alike (upper.onto ((single block).onto base))
  /-- In the second tree there is something else in its place. -/
  free : tree'.Alike (upper.onto (side.onto base))
  /-- Both would be the same text. -/
  nodes : side.nodes = (single block).nodes
  /-- The second tree may have opened conditionals that the first keeps as text. -/
  side_kinds : ∀ kind ∈ side.kinds, kind ≠ .loop ∧ (block.kind = .condition → kind = .condition)
  /-- What is open further inside is in a loop or in a conditional on an element. -/
  upper_kinds : upper.kinds.getLast? ≠ some .condition

/-- A conditional that may be opened inside of the open blocks of a tree: the others inside of the
same loop are on the page, and then it is on an element. -/
structure Opens (base : PartialTree) (block : OpenBlock) : Prop where
  ne_loop : block.kind ≠ .loop
  level : ∀ kind ∈ base.kinds.takeWhile (· ≠ .loop),
    kind = .condition ∧ block.kind = .elementCondition

theorem Shadows.loop_not_mem_side (h : Shadows base block upper side tree tree') :
    .loop ∉ side.kinds := fun hmem => (h.side_kinds _ hmem).1 rfl

/-- Where a conditional is read inside of a loop or of a conditional on an element, and the closing
marker of a loop closes one there or none at all, nothing further out has a part in it. -/
theorem readsAlone_of_getLast? {inner outer : List BlockKind}
    (hlast : inner.getLast? ≠ some .condition)
    (htoken : inner ≠ [] ∨ token.isConditional = false)
    (hclose : ∀ raw, token = .marker .loopClose raw → .loop ∈ inner ∨ .loop ∉ outer) :
    ReadsAlone inner outer token := by
  cases token with
  | text raw => trivial
  | marker marker raw =>
    cases marker with
    | interpolation path fallback => trivial
    | inclusion name => trivial
    | loopOpen path => trivial
    | loopClose => exact hclose raw rfl
    | conditionClose =>
      exact fun hnil => absurd hnil (htoken.resolve_right (by simp [Token.isConditional]))
    | conditionOpen path =>
      have hinner : inner ≠ [] := htoken.resolve_right (by simp [Token.isConditional])
      have hmem := List.getLast_mem hinner
      rw [List.getLast?_eq_some_getLast hinner] at hlast
      cases hkind : inner.getLast hinner with
      | condition => exact absurd (congrArg some hkind) hlast
      | elementCondition => exact Or.inr (Or.inl (hkind ▸ hmem))
      | loop => exact Or.inl (hkind ▸ hmem)

/-- A token that has no effect further out is read alike in both trees. -/
theorem Shadows.step_alone (h : Shadows base block upper side tree tree')
    (hheld : ReadsAlone upper.kinds (block.kind :: base.kinds) token)
    (hfree : ReadsAlone upper.kinds (side.kinds ++ base.kinds) token)
    (hlast : (upper.step token).kinds.getLast? ≠ some .condition) :
    Shadows base block (upper.step token) side (tree.step token) (tree'.step token) where
  held := by
    have hbase : ReadsAlone upper.kinds ((single block).onto base).kinds token := by
      rw [kinds_onto]
      exact hheld
    rw [← step_onto hbase]
    exact h.held.step eq_congruence token
  free := by
    have hbase : ReadsAlone upper.kinds (side.onto base).kinds token := by
      rw [kinds_onto]
      exact hfree
    rw [← step_onto hbase]
    exact h.free.step eq_congruence token
  nodes := h.nodes
  side_kinds := h.side_kinds
  upper_kinds := hlast

/-- The loop around the conditional is closed: both trees hold the same again. -/
theorem Shadows.closeLoop (h : Shadows base block upper side tree tree') (hbase : Opens base block)
    (hupper : .loop ∉ upper.kinds) (hloop : .loop ∈ base.kinds) (raw : List Char) :
    (tree.closeLoop raw).Alike (tree'.closeLoop raw) := by
  have hheld := h.held.closeLoop eq_congruence raw
  have hfree := h.free.closeLoop eq_congruence raw
  rw [← onto_onto] at hheld hfree
  have hheldkinds : .loop ∉ (upper.onto (single block)).kinds := by
    rw [kinds_onto, List.mem_append, not_or]
    exact ⟨hupper, fun hmem => hbase.ne_loop (List.mem_singleton.mp hmem).symm⟩
  have hfreekinds : .loop ∉ (upper.onto side).kinds := by
    rw [kinds_onto, List.mem_append, not_or]
    exact ⟨hupper, h.loop_not_mem_side⟩
  have hnodes : (upper.onto side).nodes = (upper.onto (single block)).nodes := by
    rw [nodes_onto, nodes_onto, h.nodes]
  -- what stands on the loop is turned back into text, and that is the same in both trees
  have hheld' := closeLoop_onto_alike hheldkinds hloop raw
  have hfree' := closeLoop_onto_alike hfreekinds hloop raw
  rw [hnodes] at hfree'
  exact (hheld.trans eq_congruence hheld').trans eq_congruence
    ((hfree.trans eq_congruence hfree').symm eq_congruence)

/-- What is read in no block inside of the conditional belongs to its body. -/
theorem Shadows.flatten (h : Shadows base block upper side tree tree') (hupper : upper.kinds = []) :
    Shadows base { block with body := block.body ++ upper.root } .empty (side.add upper.root)
      tree tree' where
  held := by
    rw [empty_onto]
    refine h.held.trans eq_congruence ?_
    have hadd := onto_alike_of_blocks (blocks_eq_nil_of_kinds hupper) ((single block).onto base)
    rw [add_onto] at hadd
    exact hadd
  free := by
    rw [empty_onto]
    refine h.free.trans eq_congruence ?_
    have hadd := onto_alike_of_blocks (blocks_eq_nil_of_kinds hupper) (side.onto base)
    rw [add_onto] at hadd
    exact hadd
  nodes := by
    rw [nodes_add, h.nodes]
    rfl
  side_kinds := by
    rw [kinds_of_add]
    exact h.side_kinds
  upper_kinds := by simp [empty]

/-- The conditional is closed. -/
theorem Shadows.closeCondition (h : Shadows base block .empty side tree tree')
    (hbase : Opens base block) (raw : List Char) :
    (tree.closeCondition raw).nodes = base.nodes ++ [.conditional block.path block.body] := by
  have hheld := h.held.closeCondition eq_congruence raw
  have hsingle : (single block).closeCondition raw =
      ⟨[.conditional block.path block.body], [], []⟩ := by
    simp [PartialTree.closeCondition, single, hbase.ne_loop, PartialTree.add]
  have hkinds : (single block).kinds = [] → base.kinds.takeWhile (· ≠ .loop) = [] :=
    fun hnil => by cases hnil
  rw [empty_onto, closeCondition_onto hkinds, hsingle] at hheld
  rw [hheld.nodes eq_congruence, nodes_onto]
  rfl

/-- Two trees that differ in a conditional, whatever has been read since it was opened. -/
def Shadowed (base : PartialTree) (block : OpenBlock) (tree tree' : PartialTree) : Prop :=
  ∃ body upper side, Shadows base { block with body := body } upper side tree tree'

theorem conditionKind_ne_loop (kinds : List BlockKind) (path : String) :
    conditionKind kinds path ≠ .loop := by
  unfold conditionKind
  split
  · exact BlockKind.noConfusion
  · exact BlockKind.noConfusion

theorem conditionKind_append {inner : List BlockKind} (h : .loop ∉ inner)
    (outer : List BlockKind) (path : String) :
    conditionKind (inner ++ outer) path = conditionKind outer path := by
  unfold conditionKind
  simp only [List.mem_append, h, false_or]

/-- A conditional is kept as text inside of the open one, unless this is on the page and it is on an
element. -/
theorem Opens.keepsAsText_iff (h : Opens base block) (path : String) :
    KeepsAsText (block.kind :: base.kinds) path ↔
      block.kind = .elementCondition ∨ conditionKind base.kinds path = .condition := by
  have hlevel : (block.kind :: base.kinds).takeWhile (· ≠ .loop) =
      block.kind :: base.kinds.takeWhile (· ≠ .loop) :=
    List.takeWhile_cons_of_pos (by simpa using h.ne_loop)
  have hkind : conditionKind (block.kind :: base.kinds) path = conditionKind base.kinds path :=
    @conditionKind_append [block.kind] (by simpa using Ne.symm h.ne_loop) base.kinds path
  unfold KeepsAsText
  rw [hlevel, hkind]
  constructor
  · rintro ⟨kind, hmem, hback⟩
    rcases List.mem_cons.mp hmem with rfl | hmem
    · exact hback.imp id And.left
    · exact Or.inl (h.level kind hmem).2
  · intro hback
    refine ⟨block.kind, List.mem_cons_self, hback.elim Or.inl fun hpage => ?_⟩
    cases hblock : block.kind with
    | condition => exact Or.inr ⟨hpage, rfl⟩
    | elementCondition => exact Or.inl rfl
    | loop => exact absurd hblock h.ne_loop

/-- A conditional on an element is not kept as text where all open conditionals are on the page. -/
theorem Opens.not_keepsAsText (h : Opens base block) {inner : List BlockKind}
    (hinner : ∀ kind ∈ inner, kind = .condition) {path : String}
    (hpath : conditionKind base.kinds path = .elementCondition) :
    ¬ KeepsAsText (inner ++ base.kinds) path := by
  have hloop : .loop ∉ inner := fun hmem => by cases hinner _ hmem
  rintro ⟨kind, hmem, hback⟩
  rw [conditionKind_append hloop, hpath] at hback
  rw [takeWhile_append_of_not_mem_loop hloop] at hmem
  have hkind : kind = .condition := by
    rcases List.mem_append.mp hmem with hmem | hmem
    · exact hinner kind hmem
    · exact (h.level kind hmem).1
  rcases hback with hback | ⟨hback, -⟩
  · rw [hkind] at hback
    cases hback
  · cases hback

/-- Both trees keep the same nodes. -/
theorem Shadows.add (h : Shadows base block .empty side tree tree') (nodes : List Node) :
    Shadows base { block with body := block.body ++ nodes } .empty (side.add nodes)
      (tree.add nodes) (tree'.add nodes) where
  held := by
    have hadd := h.held.addSame eq_congruence nodes
    rw [empty_onto, add_onto] at hadd
    rw [empty_onto]
    exact hadd
  free := by
    have hadd := h.free.addSame eq_congruence nodes
    rw [empty_onto, add_onto] at hadd
    rw [empty_onto]
    exact hadd
  nodes := by
    rw [nodes_add, h.nodes]
    rfl
  side_kinds := by
    rw [kinds_of_add]
    exact h.side_kinds
  upper_kinds := h.upper_kinds

/-- A marker is kept as text in the one tree and opens a conditional in the other. -/
theorem Shadows.openSide (h : Shadows base block .empty side tree tree') {kind : BlockKind}
    (hloop : kind ≠ .loop) (hkind : block.kind = .condition → kind = .condition)
    (path : String) (opener : List Char) :
    Shadows base { block with body := block.body ++ [.text opener] } .empty
      (side.openBlock kind path opener) (tree.add [.text opener])
      (tree'.openBlock kind path opener) where
  held := (h.add [.text opener]).held
  free := by
    have hopen := h.free.openBlock eq_congruence kind path opener
    rw [empty_onto] at hopen
    rw [empty_onto]
    exact hopen
  nodes := by
    rw [nodes_openBlock, h.nodes]
    rfl
  side_kinds := by
    intro other hmem
    rcases List.mem_cons.mp hmem with rfl | hmem
    · exact ⟨hloop, hkind⟩
    · exact h.side_kinds other hmem
  upper_kinds := h.upper_kinds

/-- Both trees open a conditional on an element. -/
theorem Shadows.openElement (h : Shadows base block .empty side tree tree') (path : String)
    (opener : List Char) :
    Shadows base block (empty.openBlock .elementCondition path opener) side
      (tree.openBlock .elementCondition path opener)
      (tree'.openBlock .elementCondition path opener) where
  held := h.held.openBlock eq_congruence _ _ _
  free := h.free.openBlock eq_congruence _ _ _
  nodes := h.nodes
  side_kinds := h.side_kinds
  upper_kinds := by simp [openBlock, empty]

/-- The opening marker of a conditional inside of the open one. -/
theorem Shadows.openCondition (h : Shadows base block .empty side tree tree')
    (hbase : Opens base block) (path : String) (opener : List Char) :
    Shadowed base block (tree.openCondition path opener) (tree'.openCondition path opener) := by
  have hheld : tree.kinds = block.kind :: base.kinds := by
    rw [h.held.kinds, empty_onto, kinds_onto]
    rfl
  have hfree : tree'.kinds = side.kinds ++ base.kinds := by
    rw [h.free.kinds, empty_onto, kinds_onto]
  have hkind : conditionKind tree'.kinds path = conditionKind base.kinds path := by
    rw [hfree, conditionKind_append h.loop_not_mem_side]
  have hdecision := hbase.keepsAsText_iff path
  rw [← hheld] at hdecision
  -- whether the marker is kept is asked of both trees; of the four answers one is impossible
  by_cases hkept : KeepsAsText tree.kinds path
  · rw [openCondition_of_keepsAsText hkept]
    by_cases hkept' : KeepsAsText tree'.kinds path
    · rw [openCondition_of_keepsAsText hkept']
      exact ⟨_, _, _, h.add [.text opener]⟩
    · -- the first tree keeps conditionals on the page as text, or it keeps all of them
      rw [openCondition_of_not_keepsAsText hkept', hkind]
      refine ⟨_, _, _, h.openSide (conditionKind_ne_loop _ _) (fun hblock => ?_) path opener⟩
      refine (hdecision.mp hkept).resolve_left fun helement => ?_
      rw [hblock] at helement
      cases helement
  · -- only a conditional on an element is opened inside of another, and that one is on the page
    obtain ⟨hblock, hpath⟩ := not_or.mp (mt hdecision.mpr hkept)
    have hcondition : block.kind = .condition := by
      cases hother : block.kind with
      | condition => rfl
      | elementCondition => exact absurd hother hblock
      | loop => exact absurd hother hbase.ne_loop
    have helement : conditionKind base.kinds path = .elementCondition := by
      cases hother : conditionKind base.kinds path with
      | condition => exact absurd hother hpath
      | elementCondition => rfl
      | loop => exact absurd hother (conditionKind_ne_loop _ _)
    have hkept' : ¬ KeepsAsText tree'.kinds path := by
      rw [hfree]
      exact hbase.not_keepsAsText (fun kind hmem => (h.side_kinds kind hmem).2 hcondition) helement
    have hkindheld : conditionKind tree.kinds path = .elementCondition := by
      rw [hheld, ← helement]
      exact @conditionKind_append [block.kind] (by simpa using Ne.symm hbase.ne_loop)
        base.kinds path
    rw [openCondition_of_not_keepsAsText hkept, openCondition_of_not_keepsAsText hkept', hkind,
      hkindheld, helement]
    exact ⟨_, _, _, h.openElement path opener⟩

/-- What a token does to an open conditional: it closes it, or it closes the loop around it, or it
leaves it open. -/
theorem Shadowed.step (h : Shadowed base block tree tree') (hbase : Opens base block)
    (token : Token) :
    (∃ body, (tree.step token).nodes = base.nodes ++ [.conditional block.path body]) ∨
      (tree.step token).Alike (tree'.step token) ∨
      Shadowed base block (tree.step token) (tree'.step token) := by
  obtain ⟨body, upper, side, h⟩ := h
  have hbody : ∀ body, Opens base { block with body := body } := fun _ =>
    ⟨hbase.ne_loop, hbase.level⟩
  -- first the token that closes the loop around the conditional, then all that are read further
  -- inside
  by_cases hclose : (∃ raw, token = .marker .loopClose raw) ∧ .loop ∉ upper.kinds ∧
      .loop ∈ base.kinds
  · obtain ⟨⟨raw, rfl⟩, hupper, hloop⟩ := hclose
    exact Or.inr (Or.inl (h.closeLoop (hbody body) hupper hloop raw))
  · -- a loop that is closed now is inside of the conditional, or there is none
    have hheld : ∀ raw, token = .marker .loopClose raw →
        .loop ∈ upper.kinds ∨ .loop ∉ block.kind :: base.kinds := by
      intro raw htoken
      by_cases hupper : .loop ∈ upper.kinds
      · exact Or.inl hupper
      · have hloop : .loop ∉ base.kinds := fun hloop => hclose ⟨⟨raw, htoken⟩, hupper, hloop⟩
        exact Or.inr (List.not_mem_cons_of_ne_of_not_mem (Ne.symm hbase.ne_loop) hloop)
    have hfree : ∀ raw, token = .marker .loopClose raw →
        .loop ∈ upper.kinds ∨ .loop ∉ side.kinds ++ base.kinds := by
      intro raw htoken
      refine (hheld raw htoken).imp id fun hloop => ?_
      rw [List.mem_append, not_or]
      exact ⟨h.loop_not_mem_side, List.not_mem_of_not_mem_cons hloop⟩
    -- inside of a block further in, a token does not look beyond it; so it is read alike
    by_cases htoken : upper.kinds ≠ [] ∨ token.isConditional = false
    · exact Or.inr (Or.inr ⟨body, upper.step token, side, h.step_alone
        (readsAlone_of_getLast? h.upper_kinds htoken hheld)
        (readsAlone_of_getLast? h.upper_kinds htoken hfree)
        (getLast?_kinds_step h.upper_kinds htoken)⟩)
    · -- the token is read right inside of the conditional
      rw [not_or, not_not, Bool.not_eq_false] at htoken
      have hflat := h.flatten htoken.1
      have hconditional := htoken.2
      unfold Token.isConditional at hconditional
      split at hconditional
      · rename_i path raw
        obtain ⟨body', upper', side', hopened⟩ := hflat.openCondition (hbody _) path raw
        exact Or.inr (Or.inr ⟨body', upper', side', hopened⟩)
      · rename_i raw
        exact Or.inl ⟨_, hflat.closeCondition (hbody _) raw⟩
      · cases hconditional

/-- The nodes of both trees are the same as long as the conditional is open. -/
theorem Shadowed.nodes_eq (h : Shadowed base block tree tree') : tree.nodes = tree'.nodes := by
  obtain ⟨body, upper, side, h⟩ := h
  rw [h.held.nodes eq_congruence, h.free.nodes eq_congruence, nodes_onto, nodes_onto, nodes_onto,
    nodes_onto, h.nodes]

/-- A conditional that is never closed is read like text. -/
theorem Shadowed.foldl_step (h : Shadowed base block tree tree') (hbase : Opens base block)
    {tokens : List Token}
    (hopen : ∀ body, ¬ Settled (base.nodes ++ [.conditional block.path body])
      (tokens.foldl PartialTree.step tree).nodes) :
    (tokens.foldl PartialTree.step tree).nodes = (tokens.foldl PartialTree.step tree').nodes := by
  -- over the tokens, up to the one that closes the loop around the conditional
  induction tokens generalizing tree tree' with
  | nil => exact h.nodes_eq
  | cons token rest ih =>
    rcases h.step hbase token with ⟨body, hclosed⟩ | halike | hshadowed
    · have hsettled := settled_foldl_step (tree.step token) rest
      rw [hclosed] at hsettled
      exact absurd hsettled (hopen body)
    · exact (halike.foldl_step eq_congruence rest).nodes eq_congruence
    · exact ih hshadowed hopen

/-- A conditional and its opening marker as text, right after it has been read. -/
theorem shadowed_openCondition (base : PartialTree) (path : String) (opener : List Char)
    (h : ¬ KeepsAsText base.kinds path) :
    Opens base ⟨conditionKind base.kinds path, path, opener, []⟩ ∧
      Shadowed base ⟨conditionKind base.kinds path, path, opener, []⟩
        (base.openCondition path opener) (base.add [.text opener]) := by
  constructor
  · refine ⟨conditionKind_ne_loop _ _, fun kind hmem => ?_⟩
    have hloop : kind ≠ .loop := by simpa using List.mem_takeWhile_imp hmem
    cases kind with
    | loop => exact absurd rfl hloop
    | elementCondition => exact absurd ⟨_, hmem, Or.inl rfl⟩ h
    | condition =>
      cases hkind : conditionKind base.kinds path with
      | loop => exact absurd hkind (conditionKind_ne_loop _ _)
      | elementCondition => exact ⟨rfl, rfl⟩
      | condition => exact absurd ⟨_, hmem, Or.inr ⟨hkind, rfl⟩⟩ h
  · -- the tree with text has that text as the middle part, and nothing is open further in
    rw [openCondition_of_not_keepsAsText h]
    refine ⟨[], .empty, ⟨[.text opener], [], []⟩, ?_, ?_, rfl, ?_, ?_⟩
    · rw [empty_onto]
      have hsingle : (single ⟨conditionKind base.kinds path, path, opener, []⟩).onto base =
          base.openBlock (conditionKind base.kinds path) path opener := by
        simp [onto, single, openBlock, add_nil]
      rw [hsingle]
      exact .refl eq_congruence _
    · rw [empty_onto]
      exact (onto_alike_of_blocks rfl base).symm eq_congruence
    · intro kind hmem
      cases hmem
    · simp [empty]

end PartialTree

end StaticSite
