import StaticSite.Proofs.Template.OpenBlocks
/-!
# StaticSite.Proofs.Template.Likeness

**Trees that go on alike.** What the parser does with a token depends on the kinds of the open
blocks; with the nodes that it has read it only makes sequences and blocks. So a relation between
nodes that carries over to sequences and to blocks (`NodeCongruence`) carries over from trees that
have been read in part to whatever the same tokens make of them (`PartialTree.Like.foldl_step`).
-/

set_option autoImplicit false

namespace StaticSite

/-- A relation between nodes that carries over to sequences and to blocks. -/
structure NodeCongruence (r : List Node → List Node → Prop) : Prop where
  equivalence : Equivalence r
  append : ∀ {first first' second second' : List Node},
    r first first' → r second second' → r (first ++ second) (first' ++ second')
  conditional : ∀ (path : String) {body body' : List Node},
    r body body' → r [.conditional path body] [.conditional path body']
  loop : ∀ (path : String) {body body' : List Node},
    r body body' → r [.loop path body] [.loop path body']

/-- Blocks that are opened alike, with related bodies. -/
structure OpenBlock.Like (r : List Node → List Node → Prop) (block block' : OpenBlock) : Prop where
  kind : block.kind = block'.kind
  path : block.path = block'.path
  opener : block.opener = block'.opener
  body : r block.body block'.body

/-- Trees with related nodes outside of blocks and with the same blocks open. The reports do not
count. -/
structure PartialTree.Like (r : List Node → List Node → Prop) (tree tree' : PartialTree) :
    Prop where
  root : r tree.root tree'.root
  blocks : List.Forall₂ (OpenBlock.Like r) tree.blocks tree'.blocks

namespace PartialTree

variable {r : List Node → List Node → Prop} {tree tree' tree'' : PartialTree}

theorem kinds_eq_of_like {blocks blocks' : List OpenBlock}
    (h : List.Forall₂ (OpenBlock.Like r) blocks blocks') :
    blocks.map OpenBlock.kind = blocks'.map OpenBlock.kind := by
  induction h with
  | nil => rfl
  | cons hblock _ ih => rw [List.map_cons, List.map_cons, hblock.kind, ih]

theorem like_blocks_trans (hr : NodeCongruence r) {blocks blocks' blocks'' : List OpenBlock}
    (h : List.Forall₂ (OpenBlock.Like r) blocks blocks')
    (h' : List.Forall₂ (OpenBlock.Like r) blocks' blocks'') :
    List.Forall₂ (OpenBlock.Like r) blocks blocks'' := by
  induction h generalizing blocks'' with
  | nil => exact h'
  | cons hblock _ ih =>
    cases h' with
    | cons hblock' hrest =>
      refine .cons ⟨hblock.kind.trans hblock'.kind, hblock.path.trans hblock'.path,
        hblock.opener.trans hblock'.opener, ?_⟩ (ih hrest)
      exact hr.equivalence.trans hblock.body hblock'.body

theorem nodesOf_congr (hr : NodeCongruence r) {root root' : List Node} (hroot : r root root')
    {blocks blocks' : List OpenBlock} (h : List.Forall₂ (OpenBlock.Like r) blocks blocks') :
    r (nodesOf root blocks) (nodesOf root' blocks') := by
  induction h with
  | nil => exact hroot
  | cons hblock _ ih =>
    unfold nodesOf
    rw [← List.singleton_append, ← List.singleton_append, hblock.opener]
    exact hr.append ih (hr.append (hr.equivalence.refl _) hblock.body)

namespace Like

theorem kinds (h : tree.Like r tree') : tree.kinds = tree'.kinds := kinds_eq_of_like h.blocks

theorem refl (hr : NodeCongruence r) (tree : PartialTree) : tree.Like r tree where
  root := hr.equivalence.refl _
  blocks := List.forall₂_same.mpr fun _ _ => ⟨rfl, rfl, rfl, hr.equivalence.refl _⟩

theorem symm (hr : NodeCongruence r) (h : tree.Like r tree') : tree'.Like r tree where
  root := hr.equivalence.symm h.root
  blocks := h.blocks.flip.imp fun _ _ hblock =>
    ⟨hblock.kind.symm, hblock.path.symm, hblock.opener.symm, hr.equivalence.symm hblock.body⟩

theorem trans (hr : NodeCongruence r) (h : tree.Like r tree') (h' : tree'.Like r tree'') :
    tree.Like r tree'' where
  root := hr.equivalence.trans h.root h'.root
  blocks := like_blocks_trans hr h.blocks h'.blocks

theorem add (hr : NodeCongruence r) (h : tree.Like r tree') {nodes nodes' : List Node}
    (hnodes : r nodes nodes') : (tree.add nodes).Like r (tree'.add nodes') := by
  obtain ⟨root, blocks, lint⟩ := tree
  obtain ⟨root', blocks', lint'⟩ := tree'
  obtain ⟨hroot, hblocks⟩ := h
  cases hblocks with
  | nil => exact ⟨hr.append hroot hnodes, .nil⟩
  | cons hblock hrest =>
    refine ⟨hroot, .cons ⟨hblock.kind, hblock.path, hblock.opener, ?_⟩ hrest⟩
    exact hr.append hblock.body hnodes

theorem addSame (hr : NodeCongruence r) (h : tree.Like r tree') (nodes : List Node) :
    (tree.add nodes).Like r (tree'.add nodes) :=
  h.add hr (hr.equivalence.refl nodes)

theorem report (h : tree.Like r tree') (lint lint' : Lint) :
    (tree.report lint).Like r (tree'.report lint') := ⟨h.root, h.blocks⟩

theorem openBlock (hr : NodeCongruence r) (h : tree.Like r tree') (kind : BlockKind)
    (path : String) (opener : List Char) :
    (tree.openBlock kind path opener).Like r (tree'.openBlock kind path opener) :=
  ⟨h.root, .cons ⟨rfl, rfl, rfl, hr.equivalence.refl []⟩ h.blocks⟩

theorem abandon (hr : NodeCongruence r) (h : tree.Like r tree') {block block' : OpenBlock}
    {outer outer' : List OpenBlock} (hblock : block.Like r block')
    (houter : List.Forall₂ (OpenBlock.Like r) outer outer') :
    (tree.abandon block outer).Like r (tree'.abandon block' outer') := by
  have hnodes : r ([.text block.opener] ++ block.body) ([.text block'.opener] ++ block'.body) := by
    rw [hblock.opener]
    exact hr.append (hr.equivalence.refl _) hblock.body
  have hpopped : ({ tree with blocks := outer } : PartialTree).Like r
      { tree' with blocks := outer' } := ⟨h.root, houter⟩
  exact (hpopped.report _ _).add hr hnodes

/-- A closing marker with nothing to close. -/
theorem stray (hr : NodeCongruence r) (h : tree.Like r tree') (raw : List Char) :
    ((tree.report (.strayCloser raw)).add [.text raw]).Like r
      ((tree'.report (.strayCloser raw)).add [.text raw]) :=
  (h.report _ _).addSame hr _

theorem openCondition (hr : NodeCongruence r) (h : tree.Like r tree') (path : String)
    (opener : List Char) :
    (tree.openCondition path opener).Like r (tree'.openCondition path opener) := by
  by_cases hkept : KeepsAsText tree.kinds path
  · have hkept' : KeepsAsText tree'.kinds path := h.kinds ▸ hkept
    rw [openCondition_of_keepsAsText hkept, openCondition_of_keepsAsText hkept']
    exact h.addSame hr _
  · have hkept' : ¬ KeepsAsText tree'.kinds path := h.kinds ▸ hkept
    rw [openCondition_of_not_keepsAsText hkept, openCondition_of_not_keepsAsText hkept', h.kinds]
    exact h.openBlock hr _ _ _

theorem blocks_eq_nil (h : tree.Like r tree') (hblocks : tree.blocks = []) : tree'.blocks = [] := by
  have hleft := h.blocks
  rw [hblocks] at hleft
  exact List.forall₂_nil_left_iff.mp hleft

/-- Without their innermost blocks like trees are alike. -/
theorem pop (h : tree.Like r tree') {block : OpenBlock} {outer : List OpenBlock}
    (hblocks : tree.blocks = block :: outer) :
    ∃ block' outer', tree'.blocks = block' :: outer' ∧ block.Like r block' ∧
      List.Forall₂ (OpenBlock.Like r) outer outer' ∧
      ({ tree with blocks := outer } : PartialTree).Like r { tree' with blocks := outer' } := by
  have hleft := h.blocks
  rw [hblocks] at hleft
  obtain ⟨block', outer', hblock, houter, hblocks'⟩ := List.forall₂_cons_left_iff.mp hleft
  exact ⟨block', outer', hblocks', hblock, houter, h.root, houter⟩

theorem closeCondition (hr : NodeCongruence r) (h : tree.Like r tree') (raw : List Char) :
    (tree.closeCondition raw).Like r (tree'.closeCondition raw) := by
  unfold PartialTree.closeCondition
  rcases hblocks : tree.blocks with _ | ⟨block, outer⟩
  · rw [h.blocks_eq_nil hblocks]
    exact h.stray hr raw
  · obtain ⟨block', outer', hblocks', hblock, -, hpopped⟩ := h.pop hblocks
    simp only [hblocks', hblock.kind, hblock.path]
    split
    · exact h.stray hr raw
    · exact hpopped.add hr (hr.conditional _ hblock.body)

theorem closeInnermostLoop (hr : NodeCongruence r) (h : tree.Like r tree') (count : Nat) :
    (closeInnermostLoop count tree).Like r (closeInnermostLoop count tree') := by
  -- over the blocks that are abandoned on the way to the loop
  induction count generalizing tree tree' with
  | zero => exact h
  | succ count ih =>
    unfold PartialTree.closeInnermostLoop
    rcases hblocks : tree.blocks with _ | ⟨block, outer⟩
    · simp only [h.blocks_eq_nil hblocks]
      exact h
    · obtain ⟨block', outer', hblocks', hblock, houter, hpopped⟩ := h.pop hblocks
      simp only [hblocks', hblock.kind, hblock.path]
      split
      · exact hpopped.add hr (hr.loop _ hblock.body)
      · exact ih (h.abandon hr hblock houter)

theorem closeLoop (hr : NodeCongruence r) (h : tree.Like r tree') (raw : List Char) :
    (tree.closeLoop raw).Like r (tree'.closeLoop raw) := by
  unfold PartialTree.closeLoop
  by_cases hloop : .loop ∈ tree.kinds
  · have hloop' : .loop ∈ tree'.kinds := h.kinds ▸ hloop
    rw [if_pos ((any_loop_iff _).mpr hloop), if_pos ((any_loop_iff _).mpr hloop'),
      h.blocks.length_eq]
    exact h.closeInnermostLoop hr _
  · have hloop' : .loop ∉ tree'.kinds := h.kinds ▸ hloop
    rw [if_neg (mt (any_loop_iff _).mp hloop), if_neg (mt (any_loop_iff _).mp hloop')]
    exact h.stray hr raw

/-- A token makes like trees of like trees. -/
theorem step (hr : NodeCongruence r) (h : tree.Like r tree') (token : Token) :
    (tree.step token).Like r (tree'.step token) := by
  cases token with
  | text raw => exact h.addSame hr _
  | marker marker raw =>
    cases marker with
    | interpolation path fallback => exact h.addSame hr _
    | inclusion name => exact h.addSame hr _
    | loopOpen path => exact h.openBlock hr _ _ _
    | loopClose => exact h.closeLoop hr raw
    | conditionOpen path => exact h.openCondition hr path raw
    | conditionClose => exact h.closeCondition hr raw

theorem foldl_step (hr : NodeCongruence r) (h : tree.Like r tree') (tokens : List Token) :
    (tokens.foldl PartialTree.step tree).Like r (tokens.foldl PartialTree.step tree') := by
  induction tokens generalizing tree tree' with
  | nil => exact h
  | cons token rest ih => exact ih (h.step hr token)

/-- The nodes of like trees are related. -/
theorem nodes (hr : NodeCongruence r) (h : tree.Like r tree') : r tree.nodes tree'.nodes :=
  nodesOf_congr hr h.root h.blocks

end Like

/-- Trees that differ in their reports only. -/
abbrev Alike (tree tree' : PartialTree) : Prop := tree.Like Eq tree'

end PartialTree

theorem eq_congruence : NodeCongruence Eq where
  equivalence := eq_equivalence
  append := by
    rintro first first' second second' rfl rfl
    rfl
  conditional := by
    rintro path body body' rfl
    rfl
  loop := by
    rintro path body body' rfl
    rfl

end StaticSite
