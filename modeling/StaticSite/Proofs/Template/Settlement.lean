import StaticSite.Proofs.Template.Likeness
/-!
# StaticSite.Proofs.Template.Settlement

**What a token does to the blocks that are open.** It opens one, or it closes some of the innermost
(`PartialTree.kinds_step`). While a tree is read, a marker that is held as text may yet turn out to
open a block. The converse does not happen: a piece that is no text stays where it is and what it is
(`Settled`), whatever tokens follow (`PartialTree.settled_foldl_step`). So a marker that the
finished tree holds as text has been held as text all along.

The closing marker of a loop reaches through all conditionals inside of the loop. What has been read
on top of the loop is then turned back into text as a whole (`PartialTree.closeLoop_onto_alike`).
-/

set_option autoImplicit false

namespace StaticSite

/-- All pieces that are no text are found again in their places. -/
def Settled (nodes nodes' : List Node) : Prop :=
  ∀ (i : Nat) (piece : Piece), (∀ text, piece ≠ .text text) →
    (piecesOf nodes)[i]? = some piece → (piecesOf nodes')[i]? = some piece

variable {nodes nodes' nodes'' : List Node}

theorem Settled.refl (nodes : List Node) : Settled nodes nodes := fun _ _ _ h => h

theorem Settled.trans (h : Settled nodes nodes') (h' : Settled nodes' nodes'') :
    Settled nodes nodes'' := fun i piece hpiece hi => h' i piece hpiece (h i piece hpiece hi)

theorem settled_append (nodes more : List Node) : Settled nodes (nodes ++ more) := by
  intro i piece _ hi
  obtain ⟨hlength, -⟩ := List.getElem?_eq_some_iff.mp hi
  rw [piecesOf_append, List.getElem?_append_left hlength]
  exact hi

/-- When a block is closed, only its opening marker turns from text into something else. -/
theorem settled_block (front body : List Node) (opener : List Char) {block : Node}
    {start finish : Piece} (hblock : block.pieces = start :: piecesOf body ++ [finish]) :
    Settled (front ++ .text opener :: body) (front ++ [block]) := by
  intro i piece hpiece hi
  have hopen : piecesOf (front ++ .text opener :: body) =
      piecesOf front ++ .text opener :: piecesOf body := by
    rw [piecesOf_append]
    rfl
  rw [hopen] at hi
  rw [piecesOf_append, piecesOf_singleton, hblock]
  rcases Nat.lt_or_ge i (piecesOf front).length with hlt | hge
  · rw [List.getElem?_append_left hlt] at hi ⊢
    exact hi
  · rw [List.getElem?_append_right hge] at hi ⊢
    generalize i - (piecesOf front).length = j at hi ⊢
    cases j with
    | zero =>
      -- this is the opening marker
      cases hi
      exact absurd rfl (hpiece opener)
    | succ j =>
      rw [List.getElem?_cons_succ] at hi
      obtain ⟨hlength, -⟩ := List.getElem?_eq_some_iff.mp hi
      rw [List.cons_append, List.getElem?_cons_succ, List.getElem?_append_left hlength]
      exact hi

namespace PartialTree

variable {tree base : PartialTree} {block : OpenBlock} {outer : List OpenBlock}

theorem settled_add (tree : PartialTree) (more : List Node) :
    Settled tree.nodes (tree.add more).nodes := by
  rw [nodes_add]
  exact settled_append _ _

theorem settled_stray (tree : PartialTree) (raw : List Char) :
    Settled tree.nodes ((tree.report (.strayCloser raw)).add [.text raw]).nodes :=
  settled_add (tree.report (.strayCloser raw)) _

theorem settled_openBlock (tree : PartialTree) (kind : BlockKind) (path : String)
    (opener : List Char) : Settled tree.nodes (tree.openBlock kind path opener).nodes := by
  rw [nodes_openBlock]
  exact settled_append _ _

/-- The innermost block is closed. -/
theorem settled_close (hblocks : tree.blocks = block :: outer) {node : Node} {start finish : Piece}
    (hnode : node.pieces = start :: piecesOf block.body ++ [finish]) :
    Settled tree.nodes (({ tree with blocks := outer } : PartialTree).add [node]).nodes := by
  rw [nodes_of_blocks hblocks, nodes_add]
  exact settled_block _ _ _ hnode

theorem settled_openCondition (tree : PartialTree) (path : String) (opener : List Char) :
    Settled tree.nodes (tree.openCondition path opener).nodes := by
  by_cases hkept : KeepsAsText tree.kinds path
  · rw [openCondition_of_keepsAsText hkept]
    exact settled_add _ _
  · rw [openCondition_of_not_keepsAsText hkept]
    exact settled_openBlock _ _ _ _

theorem settled_closeCondition (tree : PartialTree) (raw : List Char) :
    Settled tree.nodes (tree.closeCondition raw).nodes := by
  unfold closeCondition
  split
  · rename_i block outer hblocks
    split
    · exact settled_stray _ _
    · exact settled_close hblocks rfl
  · exact settled_stray _ _

theorem settled_closeInnermostLoop (count : Nat) (tree : PartialTree) :
    Settled tree.nodes (closeInnermostLoop count tree).nodes := by
  induction count generalizing tree with
  | zero => exact .refl _
  | succ count ih =>
    unfold closeInnermostLoop
    split
    · exact .refl _
    · rename_i block outer hblocks
      split
      · exact settled_close hblocks rfl
      · rw [← nodes_abandon hblocks]
        exact ih _

theorem settled_closeLoop (tree : PartialTree) (raw : List Char) :
    Settled tree.nodes (tree.closeLoop raw).nodes := by
  unfold closeLoop
  split
  · exact settled_closeInnermostLoop _ _
  · exact settled_stray _ _

/-- Reading a token leaves all pieces alone that are no text. -/
theorem settled_step (tree : PartialTree) (token : Token) :
    Settled tree.nodes (tree.step token).nodes := by
  cases token with
  | text raw => exact settled_add _ _
  | marker marker raw =>
    cases marker with
    | interpolation path fallback => exact settled_add _ _
    | inclusion name => exact settled_add _ _
    | loopOpen path => exact settled_openBlock _ _ _ _
    | loopClose => exact settled_closeLoop _ _
    | conditionOpen path => exact settled_openCondition _ _ _
    | conditionClose => exact settled_closeCondition _ _

/-- What has been read as a block stays a block, whatever tokens follow. -/
theorem settled_foldl_step (tree : PartialTree) (tokens : List Token) :
    Settled tree.nodes (tokens.foldl step tree).nodes := by
  induction tokens generalizing tree with
  | nil => exact .refl _
  | cons token rest ih => exact (settled_step tree token).trans (ih _)

theorem step_conditionOpen (tree : PartialTree) (path : String) (raw : List Char) :
    tree.step (.marker (.conditionOpen path) raw) = tree.openCondition path raw := rfl

/-! ### The blocks that a token opens and closes

No token does both. What a token closes are the innermost blocks, so the kinds of the blocks that
stay open are an end of the list. -/

theorem kinds_closeInnermostLoop (count : Nat) (tree : PartialTree) :
    (closeInnermostLoop count tree).kinds <:+ tree.kinds := by
  induction count generalizing tree with
  | zero => exact List.suffix_rfl
  | succ count ih =>
    unfold closeInnermostLoop
    split
    · exact List.suffix_rfl
    · rename_i block outer hblocks
      have houter : outer.map OpenBlock.kind <:+ tree.kinds := by
        simp only [kinds, hblocks, List.map_cons]
        exact List.suffix_cons _ _
      split
      · rw [kinds_of_add]
        exact houter
      · refine (ih _).trans ?_
        rw [kinds_of_abandon]
        exact houter

theorem kinds_stray (tree : PartialTree) (raw : List Char) :
    ((tree.report (.strayCloser raw)).add [.text raw]).kinds = tree.kinds := kinds_add _ _

theorem kinds_closeLoop (tree : PartialTree) (raw : List Char) :
    (tree.closeLoop raw).kinds <:+ tree.kinds := by
  unfold closeLoop
  split
  · exact kinds_closeInnermostLoop _ _
  · exact kinds_stray tree raw ▸ List.suffix_rfl

theorem kinds_closeCondition (tree : PartialTree) (raw : List Char) :
    (tree.closeCondition raw).kinds <:+ tree.kinds := by
  unfold closeCondition
  split
  · rename_i block outer hblocks
    split
    · exact kinds_stray tree raw ▸ List.suffix_rfl
    · rw [kinds_of_add]
      simp only [kinds, hblocks, List.map_cons]
      exact List.suffix_cons _ _
  · exact kinds_stray tree raw ▸ List.suffix_rfl

/-- A token closes some of the innermost blocks, or opens one. -/
theorem kinds_step (tree : PartialTree) (token : Token) :
    (tree.step token).kinds <:+ tree.kinds ∨ (tree.step token).kinds = .loop :: tree.kinds ∨
      ∃ path raw, token = .marker (.conditionOpen path) raw ∧
        (tree.step token).kinds = conditionKind tree.kinds path :: tree.kinds := by
  have hadd : ∀ nodes, (tree.add nodes).kinds <:+ tree.kinds := fun nodes =>
    kinds_of_add tree nodes ▸ List.suffix_rfl
  cases token with
  | text raw => exact Or.inl (hadd _)
  | marker marker raw =>
    cases marker with
    | interpolation path fallback => exact Or.inl (hadd _)
    | inclusion name => exact Or.inl (hadd _)
    | loopOpen path => exact Or.inr (Or.inl rfl)
    | loopClose => exact Or.inl (kinds_closeLoop _ _)
    | conditionClose => exact Or.inl (kinds_closeCondition _ _)
    | conditionOpen path =>
      rw [step_conditionOpen]
      by_cases hkept : KeepsAsText tree.kinds path
      · rw [openCondition_of_keepsAsText hkept]
        exact Or.inl (hadd _)
      · rw [openCondition_of_not_keepsAsText hkept]
        exact Or.inr (Or.inr ⟨path, raw, rfl, rfl⟩)

/-! ### Closing a loop from further inside

The blocks between the closing marker and its loop are turned back into text one after the other.
What comes out does not depend on where the cuts were: it is the nodes of all that stands in the
loop. -/

/-- A tree without open blocks only adds nodes to the tree that it stands on. -/
theorem onto_alike_of_blocks (h : tree.blocks = []) (base : PartialTree) :
    (tree.onto base).Alike (base.add tree.root) := by
  have hlike := Like.refl eq_congruence (base.add tree.root)
  refine ⟨hlike.root, ?_⟩
  simp only [onto, h, List.nil_append]
  exact hlike.blocks

theorem blocks_eq_nil_of_kinds (h : tree.kinds = []) : tree.blocks = [] := List.map_eq_nil_iff.mp h

theorem nodes_of_kinds (h : tree.kinds = []) : tree.nodes = tree.root := by
  unfold nodes
  rw [blocks_eq_nil_of_kinds h]
  rfl

/-- On the way to a loop further out, a tree without a loop is turned back into text. -/
theorem closeInnermostLoop_onto_alike (h : .loop ∉ tree.kinds) (base : PartialTree) (count : Nat) :
    (closeInnermostLoop (tree.kinds.length + count) (tree.onto base)).Alike
      (closeInnermostLoop count (base.add tree.nodes)) := by
  induction hlength : tree.kinds.length generalizing tree with
  | zero =>
    have hkinds := List.length_eq_zero_iff.mp hlength
    rw [nodes_of_kinds hkinds, Nat.zero_add]
    exact (onto_alike_of_blocks (blocks_eq_nil_of_kinds hkinds) base).closeInnermostLoop
      eq_congruence count
  | succ length ih =>
    rcases hblocks : tree.blocks with _ | ⟨block, outer⟩
    · simp [kinds, hblocks] at hlength
    · rw [kinds_of_blocks hblocks, ← kinds_of_abandon tree block outer] at h hlength
      rw [List.mem_cons, not_or] at h
      have hnext := ih h.2 (Nat.succ.inj hlength)
      rw [nodes_abandon hblocks] at hnext
      rw [Nat.succ_add, closeInnermostLoop]
      simp only [blocks_onto hblocks, if_neg (Ne.symm h.1), abandon_onto]
      exact hnext

theorem closeLoop_onto_alike (h : .loop ∉ tree.kinds) (hbase : .loop ∈ base.kinds)
    (raw : List Char) :
    ((tree.onto base).closeLoop raw).Alike ((base.add tree.nodes).closeLoop raw) := by
  have honto : .loop ∈ (tree.onto base).kinds := by
    rw [kinds_onto]
    exact List.mem_append_right _ hbase
  have hadd : .loop ∈ (base.add tree.nodes).kinds := by
    rw [kinds_of_add]
    exact hbase
  have hlength : (tree.onto base).blocks.length =
      tree.kinds.length + (base.add tree.nodes).blocks.length := by
    have honto := congrArg List.length (kinds_onto tree base)
    have hadd := congrArg List.length (kinds_add base tree.nodes)
    simp only [kinds, List.length_map, List.length_append] at honto hadd ⊢
    omega
  unfold closeLoop
  rw [if_pos ((any_loop_iff _).mpr honto), if_pos ((any_loop_iff _).mpr hadd), hlength]
  exact closeInnermostLoop_onto_alike h base _

end PartialTree

end StaticSite
