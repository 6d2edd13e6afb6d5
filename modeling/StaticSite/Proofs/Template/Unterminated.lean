import StaticSite.Proofs.Template.Shadow
/-!
# StaticSite.Proofs.Template.Unterminated

**An opening marker that is never closed.** A block that is still open when its loop closes or the
template ends is turned back into text. It has been open until then, though, and what stands after
it has been read inside of it.

* For a conditional this makes no difference: the tree is the one that the template has with text in
  the place of the marker (`treeOfTokens_openCondition`). While the conditional is open, the tree
  with the text in it may open other conditionals that are kept as text inside of the one. None of
  them is ever closed, for the marker that would close it closes the one as well (`Shadows`).
* For a loop it does: all that follows is read inside of the loop, and no block around it can be
  closed any more. So the loop divides the template into two that are read each on its own
  (`treeOfTokens_openLoop`), and a conditional around it is turned back into text although its
  closing marker is there (`parseTemplate_unterminated_in_condition`).
-/

set_option autoImplicit false

namespace StaticSite

namespace PartialTree

variable {tree base : PartialTree} {block : OpenBlock} {token : Token}

/-! ### A loop that is never closed

No token inside of a loop is read with regard to what is further out. If the loop stays open, every
closing marker of a loop closes one inside of it. -/

/-- Inside of an open loop every token is read in the loop, unless it closes the loop. -/
theorem exists_step_onto_single (hloop : block.kind = .loop)
    (htoken : ∀ raw, token = .marker .loopClose raw → .loop ∈ tree.kinds) :
    ∃ more : PartialTree, (tree.onto (single block)).step token = more.onto (single block) := by
  have hlevel : (single block).kinds.takeWhile (· ≠ .loop) = [] := by
    simp [single, kinds, hloop]
  cases token with
  | text raw => exact ⟨_, add_onto _ _ _⟩
  | marker marker raw =>
    cases marker with
    | interpolation path fallback => exact ⟨_, add_onto _ _ _⟩
    | inclusion name => exact ⟨_, add_onto _ _ _⟩
    | loopOpen path => exact ⟨tree.openBlock .loop path raw, rfl⟩
    | loopClose => exact ⟨_, closeLoop_onto (Or.inl (htoken raw rfl)) raw⟩
    | conditionClose => exact ⟨_, closeCondition_onto (fun _ => hlevel) raw⟩
    | conditionOpen path =>
      rw [step_conditionOpen]
      by_cases hkept : KeepsAsText (tree.onto (single block)).kinds path
      · rw [openCondition_of_keepsAsText hkept]
        exact ⟨_, add_onto _ _ _⟩
      · rw [openCondition_of_not_keepsAsText hkept]
        exact ⟨tree.openBlock (conditionKind (tree.onto (single block)).kinds path) path raw, rfl⟩

theorem nodes_closeLoop_onto_single (hloop : block.kind = .loop) (htree : .loop ∉ tree.kinds)
    (raw : List Char) :
    ((tree.onto (single block)).closeLoop raw).nodes =
      [.loop block.path (block.body ++ tree.nodes)] := by
  have hsingle : .loop ∈ (single block).kinds := List.mem_singleton.mpr hloop.symm
  rw [(closeLoop_onto_alike htree hsingle raw).nodes eq_congruence]
  simp [PartialTree.closeLoop, PartialTree.closeInnermostLoop, single, PartialTree.add, hloop,
    PartialTree.nodes, nodesOf]

/-- No token inside of an open loop is read with regard to what is further out. -/
theorem step_onto_loop (hloop : block.kind = .loop) (tree base : PartialTree) (token : Token) :
    ((tree.onto (single block)).onto base).step token =
      ((tree.onto (single block)).step token).onto base := by
  have hmem : .loop ∈ (tree.onto (single block)).kinds := by
    rw [kinds_onto]
    exact List.mem_append_right _ (List.mem_singleton.mpr hloop.symm)
  refine step_onto ?_
  unfold ReadsAlone
  split
  · exact Or.inl hmem
  · exact fun hnil => absurd hmem (hnil ▸ List.not_mem_nil)
  · exact Or.inl hmem
  · trivial

/-- In a loop that stays open, the closing marker of a loop closes another one. -/
theorem loop_mem_of_open (hloop : block.kind = .loop) {rest : List Token}
    (hopen : ∀ body, ¬ Settled (base.nodes ++ [.loop block.path body])
      (rest.foldl step (((tree.onto (single block)).step token).onto base)).nodes)
    (raw : List Char) (htoken : token = .marker .loopClose raw) : .loop ∈ tree.kinds := by
  by_cases htree : .loop ∈ tree.kinds
  · exact htree
  · have hclosed : ((tree.onto (single block)).step token).nodes =
        [.loop block.path (block.body ++ tree.nodes)] := by
      rw [htoken]
      exact nodes_closeLoop_onto_single hloop htree raw
    have hsettled :=
      settled_foldl_step (((tree.onto (single block)).step token).onto base) rest
    rw [nodes_onto, hclosed] at hsettled
    exact absurd hsettled (hopen _)

/-- Nothing inside of a loop that is never closed has an effect further out. -/
theorem foldl_step_onto_loop (hloop : block.kind = .loop) {tokens : List Token}
    (hopen : ∀ body, ¬ Settled (base.nodes ++ [.loop block.path body])
      (tokens.foldl step ((tree.onto (single block)).onto base)).nodes) :
    tokens.foldl step ((tree.onto (single block)).onto base) =
      (tokens.foldl step (tree.onto (single block))).onto base := by
  induction tokens generalizing tree with
  | nil => rfl
  | cons token rest ih =>
    rw [List.foldl_cons, step_onto_loop hloop] at hopen ⊢
    obtain ⟨more, hmore⟩ := exists_step_onto_single hloop (loop_mem_of_open hloop hopen)
    rw [List.foldl_cons]
    rw [hmore] at hopen ⊢
    exact ih hopen

/-- Without conditionals on an element, what is inside of a loop that is never closed is read as
outside of it. -/
theorem foldl_step_onto_single (hloop : block.kind = .loop) {tokens : List Token}
    (hpage : ∀ path raw, .marker (.conditionOpen path) raw ∈ tokens → elementPath? path = none)
    (hopen : ∀ body, ¬ Settled (base.nodes ++ [.loop block.path body])
      (tokens.foldl step ((tree.onto (single block)).onto base)).nodes) :
    tokens.foldl step ((tree.onto (single block)).onto base) =
      ((tokens.foldl step tree).onto (single block)).onto base := by
  have hlevel : (single block).kinds.takeWhile (· ≠ .loop) = [] := by
    simp [single, kinds, hloop]
  induction tokens generalizing tree with
  | nil => rfl
  | cons token rest ih =>
    rw [List.foldl_cons, step_onto_loop hloop] at hopen ⊢
    have halone : ReadsAlone tree.kinds (single block).kinds token := by
      unfold ReadsAlone
      split
      · rename_i path raw
        exact Or.inr (Or.inr ⟨hlevel, fun _ => hpage path raw List.mem_cons_self⟩)
      · exact fun _ => hlevel
      · exact Or.inl (loop_mem_of_open hloop hopen _ rfl)
      · trivial
    rw [step_onto halone] at hopen ⊢
    exact ih (fun path raw hmem => hpage path raw (List.mem_cons_of_mem _ hmem)) hopen

end PartialTree

/-! ### Templates

That a marker ends up as text is known of the finished tree only. By the settlement of pieces its
block was then never closed, at any time while the rest was read. -/

/-- If the tree of some tokens holds a token as text, then no block starts there at any time. -/
theorem not_settled_of_text {before after : List Token} {text : List Char}
    (hkept : (piecesOf (treeOfTokens (before ++ after)))[before.length]? = some (.text text))
    (block : Node) {start finish : Piece} {body : List Node}
    (hblock : block.pieces = start :: piecesOf body ++ [finish])
    (hstart : ∀ text, start ≠ .text text) :
    ¬ Settled ((before.foldl PartialTree.step .empty).nodes ++ [block])
      (after.foldl PartialTree.step (before.foldl PartialTree.step .empty)).nodes := by
  intro hsettled
  have hlength :
      (piecesOf (before.foldl PartialTree.step .empty).nodes).length = before.length := by
    rw [← treeOfTokens_eq_nodes]
    exact (standFor_treeOfTokens before).length_eq
  have hpiece :
      (piecesOf ((before.foldl PartialTree.step .empty).nodes ++ [block]))[before.length]? =
        some start := by
    rw [piecesOf_append, piecesOf_singleton, hblock, ← hlength,
      List.getElem?_append_right (Nat.le_refl _), Nat.sub_self]
    rfl
  have hfinal := hsettled _ _ hstart hpiece
  rw [treeOfTokens_eq_nodes, List.foldl_append, hfinal] at hkept
  exact hstart text (Option.some.inj hkept)

/-- A conditional that the tree holds as text is read like text. -/
theorem treeOfTokens_openCondition {before after : List Token} {path : String} {raw : List Char}
    (hkept : (piecesOf (treeOfTokens (before ++ .marker (.conditionOpen path) raw :: after)))[
      before.length]? = some (.text raw)) :
    treeOfTokens (before ++ .marker (.conditionOpen path) raw :: after) =
      treeOfTokens (before ++ .text raw :: after) := by
  have hopen := fun body => not_settled_of_text hkept (.conditional path body) rfl
    (fun _ => Piece.noConfusion)
  rw [treeOfTokens_eq_nodes, treeOfTokens_eq_nodes, List.foldl_append, List.foldl_append]
  by_cases htext : PartialTree.KeepsAsText (before.foldl PartialTree.step .empty).kinds path
  · -- the marker does not open a block at all
    rw [List.foldl_cons, PartialTree.step_conditionOpen,
      PartialTree.openCondition_of_keepsAsText htext]
    rfl
  · obtain ⟨hopens, hshadowed⟩ := PartialTree.shadowed_openCondition _ path raw htext
    exact hshadowed.foldl_step hopens hopen

/-- A loop that is never closed divides the tokens. -/
theorem treeOfTokens_openLoop {before after : List Token} {path : String} {raw : List Char}
    (hkept : (piecesOf (treeOfTokens (before ++ .marker (.loopOpen path) raw :: after)))[
      before.length]? = some (.text raw)) :
    treeOfTokens (before ++ .marker (.loopOpen path) raw :: after) =
        treeOfTokens before ++ treeOfTokens (.marker (.loopOpen path) raw :: after) ∧
      ((before.foldl PartialTree.step .empty).blocks = [] →
        (∀ path raw, .marker (.conditionOpen path) raw ∈ after → elementPath? path = none) →
        treeOfTokens (before ++ .marker (.loopOpen path) raw :: after) =
          treeOfTokens (before ++ .text raw :: after)) := by
  have hopen := fun body => not_settled_of_text hkept (.loop path body) rfl
    (fun _ => Piece.noConfusion)
  simp only [treeOfTokens_eq_nodes, List.foldl_append, List.foldl_cons] at hopen ⊢
  generalize before.foldl PartialTree.step .empty = base at hopen ⊢
  -- the loop with nothing in it yet, on top of what comes before it
  have hloop : base.step (.marker (.loopOpen path) raw) =
      (PartialTree.empty.onto (.single ⟨.loop, path, raw, []⟩)).onto base := by
    rw [PartialTree.empty_onto]
    simp [PartialTree.step, PartialTree.openBlock, PartialTree.onto, PartialTree.single,
      PartialTree.add_nil]
  have halone : PartialTree.empty.step (.marker (.loopOpen path) raw) =
      PartialTree.empty.onto (.single ⟨.loop, path, raw, []⟩) := rfl
  rw [hloop] at hopen ⊢
  rw [halone]
  constructor
  · rw [PartialTree.foldl_step_onto_loop rfl hopen, PartialTree.nodes_onto]
  · intro hblocks hpage
    have hbase : (base.add [.text raw]).blocks = [] := by
      refine PartialTree.blocks_eq_nil_of_kinds ?_
      rw [PartialTree.kinds_of_add]
      exact List.map_eq_nil_iff.mpr hblocks
    have htext := PartialTree.foldl_step_onto hbase after .empty
    rw [PartialTree.empty_onto] at htext
    rw [PartialTree.foldl_step_onto_single rfl hpage hopen, PartialTree.nodes_onto,
      PartialTree.nodes_onto]
    show _ = (after.foldl PartialTree.step (base.add [.text raw])).nodes
    rw [htext, PartialTree.nodes_onto, PartialTree.nodes_add, List.append_assoc]
    rfl

/-- **An opening marker that is never closed.** If the tree of a template holds the opening marker
of a block as text, then a conditional is read as if this text had been there. A loop is not: it
divides the template. What comes before it has the tree that it has on its own, and so has what
starts with the loop. The loop is read like text where no block is open and no conditional on an
element follows. -/
theorem parseTemplate_unterminated {source raw : List Char} {before after : List Token}
    {opener : Marker} (htokens : tokenize source = before ++ .marker opener raw :: after)
    (hkept : (piecesOf (parseTemplate source))[before.length]? = some (.text raw)) :
    (∀ path, opener = .conditionOpen path →
      parseTemplate source = treeOfTokens (before ++ .text raw :: after)) ∧
    (∀ path, opener = .loopOpen path →
      parseTemplate source =
          treeOfTokens before ++ treeOfTokens (.marker (.loopOpen path) raw :: after) ∧
        ((before.foldl PartialTree.step .empty).blocks = [] →
          (∀ path raw, .marker (.conditionOpen path) raw ∈ after → elementPath? path = none) →
          parseTemplate source = treeOfTokens (before ++ .text raw :: after))) := by
  have htree : parseTemplate source = treeOfTokens (before ++ .marker opener raw :: after) := by
    unfold parseTemplate
    rw [htokens]
  rw [htree] at hkept ⊢
  constructor
  · rintro path rfl
    exact treeOfTokens_openCondition hkept
  · rintro path rfl
    exact treeOfTokens_openLoop hkept

/-- A conditional that is still open when its loop closes, and a loop that is never closed. -/
theorem parseTemplate_unterminated_in_loop :
    parseTemplate (templateOf "«#each xs»«#if item.a»X«/each»") =
        treeOfTokens ([.marker (.loopOpen "xs") (templateOf "«#each xs»")] ++
          .text (templateOf "«#if item.a»") ::
            [.text ['X'], .marker .loopClose (templateOf "«/each»")]) ∧
      parseTemplate (templateOf "a«#each xs»b") =
        treeOfTokens [.text ['a']] ++
          treeOfTokens [.marker (.loopOpen "xs") (templateOf "«#each xs»"), .text ['b']] := by
  have hcondition : tokenize (templateOf "«#each xs»«#if item.a»X«/each»") =
      [.marker (.loopOpen "xs") (templateOf "«#each xs»")] ++
        .marker (.conditionOpen "item.a") (templateOf "«#if item.a»") ::
          [.text ['X'], .marker .loopClose (templateOf "«/each»")] := by decide +kernel
  have hloop : tokenize (templateOf "a«#each xs»b") =
      [.text ['a']] ++ .marker (.loopOpen "xs") (templateOf "«#each xs»") :: [.text ['b']] := by
    decide +kernel
  exact ⟨(parseTemplate_unterminated hcondition (by decide +kernel)).1 "item.a" rfl,
    ((parseTemplate_unterminated hloop (by decide +kernel)).2 "xs" rfl).1⟩

/-- A loop that is never closed keeps the conditional around it from being closed. -/
theorem parseTemplate_unterminated_in_condition :
    tokenize (templateOf "«#if a»A«#each xs»B«/if»") =
        [.marker (.conditionOpen "a") (templateOf "«#if a»"), .text ['A']] ++
          .marker (.loopOpen "xs") (templateOf "«#each xs»") ::
            [.text ['B'], .marker .conditionClose (templateOf "«/if»")] ∧
      (piecesOf (parseTemplate (templateOf "«#if a»A«#each xs»B«/if»")))[2]? =
        some (.text (templateOf "«#each xs»")) ∧
      parseTemplate (templateOf "«#if a»A«#each xs»B«/if»") ≠
        treeOfTokens ([.marker (.conditionOpen "a") (templateOf "«#if a»"), .text ['A']] ++
          .text (templateOf "«#each xs»") ::
            [.text ['B'], .marker .conditionClose (templateOf "«/if»")]) := by
  refine ⟨by decide +kernel, by decide +kernel, fun h => ?_⟩
  have hpieces := congrArg piecesOf h
  revert hpieces
  decide +kernel

end StaticSite
