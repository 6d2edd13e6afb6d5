import StaticSite.Proofs.Template.Locality
import StaticSite.Proofs.Template.Pieces
/-!
# StaticSite.Proofs.Template.OpenBlocks

**Reading inside of open blocks.** What a tree that has been read in part does with the next token
depends on the kinds of its open blocks alone (`openCondition_of_keepsAsText` and the lemmas after
it). If no more tokens come, its open blocks are turned back into text; `PartialTree.nodes` are the
nodes that it has then.

A tree can be read on top of another one, with its open blocks inside of those of the other
(`PartialTree.onto`). The inner tree is read as on its own until a token has an effect further out
(`step_onto`), and the nodes of both follow each other (`nodes_onto`).
-/

set_option autoImplicit false

namespace StaticSite

namespace PartialTree

variable {tree base : PartialTree} {block : OpenBlock} {outer : List OpenBlock}

/-! ### The nodes of a tree that is not read any further -/

/-- Nodes outside of all blocks and those of open blocks, the innermost block first, when each block
is turned back into text. -/
def nodesOf (root : List Node) : List OpenBlock → List Node
  | [] => root
  | block :: outer => nodesOf root outer ++ .text block.opener :: block.body

/-- The nodes of a tree when its open blocks are turned back into text. -/
def nodes (tree : PartialTree) : List Node := nodesOf tree.root tree.blocks

theorem nodesOf_append (root : List Node) (inner outer : List OpenBlock) :
    nodesOf root (inner ++ outer) = nodesOf root outer ++ nodesOf [] inner := by
  induction inner with
  | nil => simp [nodesOf]
  | cons block inner ih => simp [nodesOf, ih]

theorem nodesOf_root_append (first second : List Node) (blocks : List OpenBlock) :
    nodesOf (first ++ second) blocks = first ++ nodesOf second blocks := by
  induction blocks with
  | nil => rfl
  | cons block outer ih => simp [nodesOf, ih]

@[simp]
theorem nodes_add (tree : PartialTree) (more : List Node) :
    (tree.add more).nodes = tree.nodes ++ more := by
  unfold nodes PartialTree.add
  cases tree.blocks with
  | nil => rfl
  | cons block outer => simp [nodesOf]

@[simp]
theorem nodes_openBlock (tree : PartialTree) (kind : BlockKind) (path : String)
    (opener : List Char) :
    (tree.openBlock kind path opener).nodes = tree.nodes ++ [.text opener] := rfl

theorem nodes_of_blocks (hblocks : tree.blocks = block :: outer) :
    tree.nodes =
      ({ tree with blocks := outer } : PartialTree).nodes ++ .text block.opener :: block.body := by
  unfold nodes
  rw [hblocks]
  rfl

theorem nodes_abandon (hblocks : tree.blocks = block :: outer) :
    (tree.abandon block outer).nodes = tree.nodes := by
  rw [nodes_of_blocks hblocks]
  exact nodes_add _ _

/-- The kinds of the open blocks, the innermost first. -/
abbrev kinds (tree : PartialTree) : List BlockKind := tree.blocks.map OpenBlock.kind

theorem kinds_of_add (tree : PartialTree) (more : List Node) :
    (tree.add more).kinds = tree.kinds := kinds_add tree more

theorem kinds_of_abandon (tree : PartialTree) (block : OpenBlock) (outer : List OpenBlock) :
    (tree.abandon block outer).kinds = outer.map OpenBlock.kind := kinds_abandon tree block outer

theorem kinds_of_blocks (hblocks : tree.blocks = block :: outer) :
    tree.kinds = block.kind :: outer.map OpenBlock.kind := congrArg _ hblocks

theorem root_finish {count : Nat} (hcount : tree.kinds.length ≤ count) :
    (finish count tree).root = tree.nodes := by
  induction count generalizing tree with
  | zero =>
    have hblocks : tree.blocks = [] := by simpa using hcount
    simp [finish, nodes, hblocks, nodesOf]
  | succ count ih =>
    unfold finish
    split
    · rename_i hblocks
      simp [nodes, hblocks, nodesOf]
    · rename_i block outer hblocks
      rw [kinds_of_blocks hblocks, ← kinds_of_abandon tree block outer, List.length_cons] at hcount
      rw [ih (Nat.le_of_succ_le_succ hcount), nodes_abandon hblocks]

/-- The report about a block that is never closed. -/
def unterminated (block : OpenBlock) : Lint := .unterminated block.kind block.opener

theorem map_unterminated_add (tree : PartialTree) (more : List Node) :
    (tree.add more).blocks.map unterminated = tree.blocks.map unterminated := by
  unfold PartialTree.add
  cases tree.blocks with
  | nil => rfl
  | cons block outer => rfl

/-- At the end every block that is still open is reported. -/
theorem lint_finish {count : Nat} (hcount : tree.kinds.length ≤ count) :
    (finish count tree).lint = tree.lint ++ tree.blocks.map unterminated := by
  induction count generalizing tree with
  | zero =>
    have hblocks : tree.blocks = [] := by simpa using hcount
    simp [finish, hblocks]
  | succ count ih =>
    unfold finish
    split
    · rename_i hblocks
      simp [hblocks]
    · rename_i block outer hblocks
      have hlint : (tree.abandon block outer).lint = tree.lint ++ [unterminated block] := by
        simp only [abandon, PartialTree.add]
        split
        · rfl
        · rfl
      have hblocks' : (tree.abandon block outer).blocks.map unterminated =
          outer.map unterminated := map_unterminated_add _ _
      rw [kinds_of_blocks hblocks, ← kinds_of_abandon tree block outer, List.length_cons] at hcount
      rw [ih (Nat.le_of_succ_le_succ hcount), hlint, hblocks', hblocks, List.append_assoc]
      rfl

end PartialTree

theorem lint_ofTokens (tokens : List Token) :
    (PartialTree.ofTokens tokens).lint =
      (tokens.foldl PartialTree.step .empty).lint ++
        (tokens.foldl PartialTree.step .empty).blocks.map PartialTree.unterminated :=
  PartialTree.lint_finish (Nat.le_of_eq (List.length_map _))

theorem treeOfTokens_eq_nodes (tokens : List Token) :
    treeOfTokens tokens = (tokens.foldl PartialTree.step .empty).nodes :=
  PartialTree.root_finish (Nat.le_of_eq (List.length_map _))

namespace PartialTree

variable {tree base : PartialTree} {block : OpenBlock} {outer : List OpenBlock}

/-! ### Decisions

The reader asks its open blocks three questions: of which kind a conditional is, whether it is kept
as text, and whether there is a conditional to close. All of them are questions about the list of
kinds. -/

/-- The kind of block that a conditional opens inside of open blocks. -/
def conditionKind (kinds : List BlockKind) (path : String) : BlockKind :=
  if .loop ∈ kinds ∧ (elementPath? path).isSome then .elementCondition else .condition

/-- Whether the opening marker of a conditional is kept as text inside of open blocks. -/
def KeepsAsText (kinds : List BlockKind) (path : String) : Prop :=
  ∃ kind ∈ kinds.takeWhile (· ≠ .loop),
    kind = .elementCondition ∨ (conditionKind kinds path = .condition ∧ kind = .condition)

theorem conditionKind_kinds (tree : PartialTree) (path : String) :
    (if tree.blocks.any (·.kind = .loop) && (elementPath? path).isSome then
      BlockKind.elementCondition else .condition) = conditionKind tree.kinds path := by
  unfold conditionKind
  simp

theorem keepsAsText_kinds (tree : PartialTree) (path : String) :
    (tree.conditionals.any fun block => block.kind = .elementCondition ||
      (conditionKind tree.kinds path = .condition && block.kind = .condition)) = true ↔
      KeepsAsText tree.kinds path := by
  have hconditionals : tree.kinds.takeWhile (· ≠ .loop) =
      tree.conditionals.map OpenBlock.kind := List.takeWhile_map
  unfold KeepsAsText
  rw [hconditionals]
  simp

theorem openCondition_of_keepsAsText {path : String} (h : KeepsAsText tree.kinds path)
    (opener : List Char) : tree.openCondition path opener = tree.add [.text opener] := by
  unfold openCondition
  simp only [conditionKind_kinds]
  rw [if_pos ((keepsAsText_kinds tree path).mpr h)]

theorem openCondition_of_not_keepsAsText {path : String} (h : ¬ KeepsAsText tree.kinds path)
    (opener : List Char) :
    tree.openCondition path opener =
      tree.openBlock (conditionKind tree.kinds path) path opener := by
  unfold openCondition
  simp only [conditionKind_kinds]
  rw [if_neg fun hkept => h ((keepsAsText_kinds tree path).mp hkept)]

/-- Where no conditional is open inside of the innermost loop, there is none to close. -/
theorem closeCondition_of_takeWhile_eq_nil (h : tree.kinds.takeWhile (· ≠ .loop) = [])
    (raw : List Char) :
    tree.closeCondition raw = (tree.report (.strayCloser raw)).add [.text raw] := by
  unfold closeCondition
  split
  · rename_i block outer hblocks
    split
    · rfl
    · rename_i hkind
      simp [kinds, hblocks, hkind] at h
  · rfl

/-! ### A tree on top of another

The nodes outside of the inner tree's blocks belong to the innermost block of the outer tree, and
the blocks of the inner tree stand inside of it. A token that opens or closes inside of the inner
tree does not see the outer one. -/

theorem add_nil (tree : PartialTree) : tree.add [] = tree := by
  rcases tree with ⟨root, _ | ⟨block, outer⟩, lint⟩
  · simp [PartialTree.add]
  · simp [PartialTree.add]

theorem add_add (tree : PartialTree) (first second : List Node) :
    (tree.add first).add second = tree.add (first ++ second) := by
  rcases tree with ⟨root, _ | ⟨block, outer⟩, lint⟩
  · simp [PartialTree.add]
  · simp [PartialTree.add]

/-- A tree that has been read after another one, with its open blocks inside of the blocks that the
other has left open. -/
def onto (tree base : PartialTree) : PartialTree where
  root := (base.add tree.root).root
  blocks := tree.blocks ++ (base.add tree.root).blocks
  lint := base.lint ++ tree.lint

theorem blocks_onto (hblocks : tree.blocks = block :: outer) (base : PartialTree) :
    (tree.onto base).blocks = block :: (outer ++ (base.add tree.root).blocks) := by
  unfold onto
  rw [hblocks, List.cons_append]

theorem kinds_onto (tree base : PartialTree) :
    (tree.onto base).kinds = tree.kinds ++ base.kinds := by
  unfold kinds onto
  rw [List.map_append, kinds_add]

theorem nodes_onto (tree base : PartialTree) :
    (tree.onto base).nodes = base.nodes ++ tree.nodes := by
  have hroot : tree.nodes = tree.root ++ nodesOf [] tree.blocks := by
    unfold nodes
    rw [← nodesOf_root_append, List.append_nil]
  calc (tree.onto base).nodes
      = (base.add tree.root).nodes ++ nodesOf [] tree.blocks := nodesOf_append _ _ _
    _ = base.nodes ++ tree.nodes := by rw [nodes_add, List.append_assoc, ← hroot]

theorem empty_onto (base : PartialTree) : empty.onto base = base := by
  unfold onto empty
  simp [add_nil]

theorem add_onto (tree base : PartialTree) (more : List Node) :
    (tree.onto base).add more = (tree.add more).onto base := by
  rcases tree with ⟨root, _ | ⟨block, outer⟩, lint⟩
  · rcases base with ⟨root', _ | ⟨block', outer'⟩, lint'⟩
    · simp [onto, PartialTree.add]
    · simp [onto, PartialTree.add]
  · rfl

theorem onto_onto (upper tree base : PartialTree) :
    (upper.onto tree).onto base = upper.onto (tree.onto base) := by
  have hadd := add_onto tree base upper.root
  have hroot := congrArg root hadd
  have hblocks := congrArg blocks hadd
  unfold onto at hroot hblocks ⊢
  simp only at hroot hblocks ⊢
  rw [hroot, hblocks, List.append_assoc, List.append_assoc]

theorem report_onto (tree base : PartialTree) (lint : Lint) :
    (tree.onto base).report lint = (tree.report lint).onto base := by
  simp [onto, report]

theorem abandon_onto (tree base : PartialTree) (block : OpenBlock) (outer : List OpenBlock) :
    (tree.onto base).abandon block (outer ++ (base.add tree.root).blocks) =
      (tree.abandon block outer).onto base := by
  unfold abandon
  rw [← add_onto, ← report_onto]
  rfl

theorem stray_onto (tree base : PartialTree) (raw : List Char) :
    ((tree.onto base).report (.strayCloser raw)).add [.text raw] =
      ((tree.report (.strayCloser raw)).add [.text raw]).onto base := by
  rw [report_onto, add_onto]

/-- A loop of the inner tree is closed there. -/
theorem closeInnermostLoop_onto {count count' : Nat} (hcount : tree.kinds.length ≤ count)
    (hcount' : tree.kinds.length ≤ count') (hloop : .loop ∈ tree.kinds) (base : PartialTree) :
    closeInnermostLoop count (tree.onto base) = (closeInnermostLoop count' tree).onto base := by
  induction count generalizing tree count' with
  | zero =>
    rw [List.length_eq_zero_iff.mp (Nat.le_zero.mp hcount)] at hloop
    cases hloop
  | succ count ih =>
    rcases hblocks : tree.blocks with _ | ⟨block, outer⟩
    · simp [kinds, hblocks] at hloop
    · rw [kinds_of_blocks hblocks, ← kinds_of_abandon tree block outer] at hcount hcount' hloop
      rw [List.length_cons] at hcount hcount'
      obtain ⟨count', rfl⟩ := Nat.exists_eq_add_one_of_ne_zero (Nat.ne_zero_of_lt hcount')
      unfold closeInnermostLoop
      simp only [hblocks, blocks_onto hblocks]
      by_cases hkind : block.kind = .loop
      · rw [if_pos hkind, if_pos hkind, ← add_onto]
        rfl
      · rw [if_neg hkind, if_neg hkind, abandon_onto]
        exact ih (Nat.le_of_succ_le_succ hcount) (Nat.le_of_succ_le_succ hcount')
          (List.mem_of_ne_of_mem (Ne.symm hkind) hloop)

theorem any_loop_iff (tree : PartialTree) :
    tree.blocks.any (·.kind = .loop) = true ↔ .loop ∈ tree.kinds := by
  simp [kinds]

theorem closeLoop_onto (hloop : .loop ∈ tree.kinds ∨ .loop ∉ base.kinds) (raw : List Char) :
    (tree.onto base).closeLoop raw = (tree.closeLoop raw).onto base := by
  have hkinds := kinds_onto tree base
  unfold closeLoop
  by_cases hinner : .loop ∈ tree.kinds
  · have houter : .loop ∈ (tree.onto base).kinds := by
      rw [hkinds]
      exact List.mem_append_left _ hinner
    rw [if_pos ((any_loop_iff _).mpr houter), if_pos ((any_loop_iff _).mpr hinner)]
    refine closeInnermostLoop_onto ?_ (Nat.le_of_eq (List.length_map _)) hinner base
    simp [onto, kinds]
  · have houter : .loop ∉ (tree.onto base).kinds := by
      rw [hkinds, List.mem_append, not_or]
      exact ⟨hinner, hloop.resolve_left hinner⟩
    rw [if_neg (mt (any_loop_iff _).mp houter), if_neg (mt (any_loop_iff _).mp hinner), stray_onto]

theorem closeCondition_onto
    (hempty : tree.kinds = [] → base.kinds.takeWhile (· ≠ .loop) = []) (raw : List Char) :
    (tree.onto base).closeCondition raw = (tree.closeCondition raw).onto base := by
  rcases hblocks : tree.blocks with _ | ⟨block, outer⟩
  · have hinner : tree.kinds = [] := by simp [kinds, hblocks]
    have houter : (tree.onto base).kinds.takeWhile (· ≠ .loop) = [] := by
      rw [kinds_onto, hinner]
      exact hempty hinner
    rw [closeCondition_of_takeWhile_eq_nil houter,
      closeCondition_of_takeWhile_eq_nil (by rw [hinner]; rfl), stray_onto]
  · unfold closeCondition
    simp only [hblocks, blocks_onto hblocks]
    by_cases hkind : block.kind = .loop
    · rw [if_pos hkind, if_pos hkind, stray_onto]
    · rw [if_neg hkind, if_neg hkind, ← add_onto]
      rfl

/-- Inside of open blocks of some kinds, a token is read without regard to blocks further out. -/
def ReadsAlone (inner outer : List BlockKind) : Token → Prop
  | .marker (.conditionOpen path) _ =>
    .loop ∈ inner ∨ .elementCondition ∈ inner ∨
      (outer.takeWhile (· ≠ .loop) = [] ∧ (.loop ∈ outer → elementPath? path = none))
  | .marker .conditionClose _ => inner = [] → outer.takeWhile (· ≠ .loop) = []
  | .marker .loopClose _ => .loop ∈ inner ∨ .loop ∉ outer
  | _ => True

theorem takeWhile_append_of_not_mem_loop {inner : List BlockKind} (h : .loop ∉ inner)
    (outer : List BlockKind) :
    (inner ++ outer).takeWhile (· ≠ .loop) = inner ++ outer.takeWhile (· ≠ .loop) := by
  refine List.takeWhile_append_of_pos fun kind hkind => ?_
  simpa using fun heq : kind = .loop => h (heq ▸ hkind)

/-- The blocks further out have no part in what becomes of a conditional. -/
theorem decisions_append {inner outer : List BlockKind} {path : String} {opener : List Char}
    (h : ReadsAlone inner outer (.marker (.conditionOpen path) opener)) :
    (KeepsAsText (inner ++ outer) path ↔ KeepsAsText inner path) ∧
      (¬ KeepsAsText inner path →
        conditionKind (inner ++ outer) path = conditionKind inner path) := by
  -- inside of a loop both questions end at the loop; else they reach further out, and it has been
  -- assumed that they find nothing there
  by_cases hloop : .loop ∈ inner
  · have hkind : conditionKind (inner ++ outer) path = conditionKind inner path := by
      simp [conditionKind, hloop]
    have hlevel : (inner ++ outer).takeWhile (· ≠ .loop) = inner.takeWhile (· ≠ .loop) :=
      takeWhile_append_of_mem hloop (by decide)
    unfold KeepsAsText
    rw [hkind, hlevel]
    exact ⟨Iff.rfl, fun _ => rfl⟩
  · have hlevel := takeWhile_append_of_not_mem_loop hloop outer
    have hinner : inner.takeWhile (· ≠ .loop) = inner := by
      simpa using takeWhile_append_of_not_mem_loop hloop []
    rcases h.resolve_left hloop with helement | ⟨houter, hpath⟩
    · have hkept : KeepsAsText inner path := ⟨.elementCondition, by rwa [hinner], Or.inl rfl⟩
      have hkept' : KeepsAsText (inner ++ outer) path :=
        ⟨.elementCondition, by rw [hlevel]; exact List.mem_append_left _ helement, Or.inl rfl⟩
      exact ⟨iff_of_true hkept' hkept, fun hnot => absurd hkept hnot⟩
    · have hkind : conditionKind (inner ++ outer) path = conditionKind inner path := by
        by_cases houterloop : .loop ∈ outer
        · simp [conditionKind, hpath houterloop]
        · simp [conditionKind, hloop, houterloop]
      unfold KeepsAsText
      rw [hkind, hlevel, houter, hinner, List.append_nil]
      exact ⟨Iff.rfl, fun _ => rfl⟩

theorem openCondition_onto {path : String} {opener : List Char}
    (h : ReadsAlone tree.kinds base.kinds (.marker (.conditionOpen path) opener)) :
    (tree.onto base).openCondition path opener = (tree.openCondition path opener).onto base := by
  obtain ⟨hkeeps, hkind⟩ := decisions_append h
  rw [← kinds_onto] at hkeeps hkind
  by_cases hkept : KeepsAsText tree.kinds path
  · rw [openCondition_of_keepsAsText hkept, openCondition_of_keepsAsText (hkeeps.mpr hkept),
      add_onto]
  · rw [openCondition_of_not_keepsAsText hkept,
      openCondition_of_not_keepsAsText (mt hkeeps.mp hkept), hkind hkept]
    rfl

/-- A token that is read without regard to the blocks further out leaves them alone. -/
theorem step_onto {token : Token} (h : ReadsAlone tree.kinds base.kinds token) :
    (tree.onto base).step token = (tree.step token).onto base := by
  cases token with
  | text raw => exact add_onto tree base _
  | marker marker raw =>
    cases marker with
    | interpolation path fallback => exact add_onto tree base _
    | inclusion name => exact add_onto tree base _
    | loopOpen path => rfl
    | loopClose => exact closeLoop_onto h raw
    | conditionOpen path => exact openCondition_onto h
    | conditionClose => exact closeCondition_onto h raw

theorem readsAlone_nil (inner : List BlockKind) (token : Token) : ReadsAlone inner [] token := by
  unfold ReadsAlone
  split
  · exact Or.inr (Or.inr ⟨rfl, by simp⟩)
  · exact fun _ => rfl
  · exact Or.inr (by simp)
  · trivial

/-- With no block open further out, all tokens are read as on their own. -/
theorem foldl_step_onto (hbase : base.blocks = []) (tokens : List Token) (tree : PartialTree) :
    tokens.foldl step (tree.onto base) = (tokens.foldl step tree).onto base := by
  induction tokens generalizing tree with
  | nil => rfl
  | cons token rest ih =>
    have halone : ReadsAlone tree.kinds base.kinds token := by
      rw [show base.kinds = [] by simp [kinds, hbase]]
      exact readsAlone_nil _ _
    rw [List.foldl_cons, List.foldl_cons, step_onto halone, ih]

end PartialTree

/-- Where no block is open, the tokens that follow are read as on their own. -/
theorem treeOfTokens_append {tokens : List Token}
    (h : (tokens.foldl PartialTree.step .empty).blocks = []) (more : List Token) :
    treeOfTokens (tokens ++ more) = treeOfTokens tokens ++ treeOfTokens more := by
  simp only [treeOfTokens_eq_nodes]
  rw [List.foldl_append, ← PartialTree.nodes_onto, ← PartialTree.foldl_step_onto h,
    PartialTree.empty_onto]

end StaticSite
