import StaticSite.Proofs.Template.Grammar
import StaticSite.Proofs.Template.OpenBlocks
/-!
# StaticSite.Proofs.Template.Steps

**What reading a token does**, in one relation with a case for each of its outcomes
(`PartialTree.Reads`, `PartialTree.reads_step`). The closing marker of a loop is one step in it,
even though it turns all blocks back into text that are open inside of the loop.
-/

set_option autoImplicit false

namespace StaticSite

namespace PartialTree

variable {tree base : PartialTree} {block : OpenBlock} {inner outer blocks : List OpenBlock}

/-! ### Reports -/

theorem lint_add (tree : PartialTree) (more : List Node) : (tree.add more).lint = tree.lint := by
  rcases tree with ⟨root, _ | ⟨block, outer⟩, lint⟩
  · rfl
  · rfl

/-- The reports about a tree when its open blocks are turned back into text. -/
def reports (tree : PartialTree) : List Lint := tree.lint ++ tree.blocks.map unterminated

theorem reports_abandon (hblocks : tree.blocks = block :: outer) :
    (tree.abandon block outer).reports = tree.reports := by
  have hlint : (tree.abandon block outer).lint = tree.lint ++ [unterminated block] := lint_add _ _
  have hrest : (tree.abandon block outer).blocks.map unterminated = outer.map unterminated :=
    map_unterminated_add _ _
  simp [reports, hlint, hrest, hblocks]

/-! ### Steps

The relation names what a token can do, together with what has to be the case for it. Invariants are
shown by cases on it and do not open the parser. -/

/-- What reading a token does to a tree. -/
inductive Reads (tree : PartialTree) : Token → PartialTree → Prop
  | text (raw : List Char) : Reads tree (.text raw) (tree.add [.text raw])
  | interpolation (path : String) (fallback : Option Fallback) (raw : List Char) :
      Reads tree (.marker (.interpolation path fallback) raw)
        (tree.add [.interpolation path fallback])
  | inclusion (name : String) (raw : List Char) :
      Reads tree (.marker (.inclusion name) raw) (tree.add [.text raw])
  | openLoop (path : String) (raw : List Char) :
      Reads tree (.marker (.loopOpen path) raw) (tree.openBlock .loop path raw)
  | openCondition {path : String} (raw : List Char) : ¬ KeepsAsText tree.kinds path →
      Reads tree (.marker (.conditionOpen path) raw)
        (tree.openBlock (conditionKind tree.kinds path) path raw)
  /-- The marker is left for the next pass. -/
  | keepCondition {path : String} (raw : List Char) : KeepsAsText tree.kinds path →
      Reads tree (.marker (.conditionOpen path) raw) (tree.add [.text raw])
  | closeCondition {block : OpenBlock} {outer : List OpenBlock} (raw : List Char) :
      tree.blocks = block :: outer → block.kind ≠ .loop →
      Reads tree (.marker .conditionClose raw)
        ({ tree with blocks := outer }.add [.conditional block.path block.body])
  /-- The blocks inside of the loop are abandoned, and their nodes become nodes of the loop. -/
  | closeLoop {inner : List OpenBlock} {block : OpenBlock} {outer : List OpenBlock}
      (raw : List Char) :
      tree.blocks = inner ++ block :: outer → .loop ∉ inner.map OpenBlock.kind →
      block.kind = .loop →
      Reads tree (.marker .loopClose raw)
        (PartialTree.add ⟨tree.root, outer, tree.lint ++ inner.map unterminated⟩
          [.loop block.path (nodesOf block.body inner)])
  | strayCondition (raw : List Char) : tree.kinds.takeWhile (· ≠ .loop) = [] →
      Reads tree (.marker .conditionClose raw) ((tree.report (.strayCloser raw)).add [.text raw])
  | strayLoop (raw : List Char) : .loop ∉ tree.kinds →
      Reads tree (.marker .loopClose raw) ((tree.report (.strayCloser raw)).add [.text raw])

/-- A tree that stands in a loop and is closed with it becomes the end of the loop, open blocks and
all. -/
theorem closeInnermostLoop_onto_loop (hblocks : base.blocks = block :: outer)
    (hkind : block.kind = .loop) (htree : .loop ∉ tree.kinds) {count : Nat}
    (hcount : tree.kinds.length < count) :
    closeInnermostLoop count (tree.onto base) =
      PartialTree.add ⟨base.root, outer, base.lint ++ tree.reports⟩
        [.loop block.path (block.body ++ tree.nodes)] := by
  induction count generalizing tree with
  | zero => cases hcount
  | succ count ih =>
    rcases hinner : tree.blocks with _ | ⟨first, rest⟩
    · simp [closeInnermostLoop, onto, PartialTree.add, hblocks, hkind, nodes, nodesOf, reports,
        hinner]
    · have hfirst : first.kind ≠ .loop := by
        rintro heq
        exact htree (by simp [kinds, hinner, heq])
      rw [kinds_of_blocks hinner, ← kinds_of_abandon tree first rest] at htree hcount
      rw [closeInnermostLoop, blocks_onto hinner]
      simp only [if_neg hfirst]
      rw [abandon_onto, ih (fun hmem => htree (List.mem_cons_of_mem _ hmem))
        (Nat.lt_of_succ_lt_succ hcount), nodes_abandon hinner, reports_abandon hinner]

theorem reads_closeLoop (hloop : .loop ∈ tree.kinds) (raw : List Char) :
    Reads tree (.marker .loopClose raw) (tree.closeLoop raw) := by
  obtain ⟨block, hfind⟩ : ∃ block, tree.blocks.find? (·.kind = .loop) = some block := by
    rw [← Option.isSome_iff_exists, List.find?_isSome]
    simpa [kinds, eq_comm] using hloop
  obtain ⟨hkind, inner, outer, hblocks, hinner⟩ := List.find?_eq_some_iff_append.mp hfind
  have hkind : block.kind = .loop := of_decide_eq_true hkind
  have hinner : .loop ∉ inner.map OpenBlock.kind := by simpa using hinner
  have htree : tree =
      (⟨[], inner, []⟩ : PartialTree).onto ⟨tree.root, block :: outer, tree.lint⟩ := by
    simp [onto, add_nil, ← hblocks]
  have hbody : block.body ++ nodesOf [] inner = nodesOf block.body inner := by
    rw [← nodesOf_root_append, List.append_nil]
  have hclosed : tree.closeLoop raw =
      PartialTree.add ⟨tree.root, outer, tree.lint ++ inner.map unterminated⟩
        [.loop block.path (nodesOf block.body inner)] := by
    rw [closeLoop, if_pos ((any_loop_iff tree).mpr hloop)]
    conv_lhs => rw [htree]
    rw [closeInnermostLoop_onto_loop rfl hkind hinner (by simp [onto, add_nil]), ← hbody]
    rfl
  show Reads tree _ (tree.closeLoop raw)
  rw [hclosed]
  exact .closeLoop raw hblocks hinner hkind

theorem reads_step (tree : PartialTree) (token : Token) : Reads tree token (tree.step token) := by
  cases token with
  | text raw => exact .text raw
  | marker marker raw =>
    cases marker with
    | interpolation path fallback => exact .interpolation path fallback raw
    | inclusion name => exact .inclusion name raw
    | loopOpen path => exact .openLoop path raw
    | loopClose =>
      by_cases hloop : .loop ∈ tree.kinds
      · exact reads_closeLoop hloop raw
      · show Reads tree _ (tree.closeLoop raw)
        rw [closeLoop, if_neg (mt (any_loop_iff tree).mp hloop)]
        exact .strayLoop raw hloop
    | conditionOpen path =>
      show Reads tree _ (tree.openCondition path raw)
      by_cases hkept : KeepsAsText tree.kinds path
      · rw [openCondition_of_keepsAsText hkept]
        exact .keepCondition raw hkept
      · rw [openCondition_of_not_keepsAsText hkept]
        exact .openCondition raw hkept
    | conditionClose =>
      show Reads tree _ (tree.closeCondition raw)
      -- with no conditional in reach the marker is stray, else the innermost block is one
      by_cases hlevel : tree.kinds.takeWhile (· ≠ .loop) = []
      · rw [closeCondition_of_takeWhile_eq_nil hlevel]
        exact .strayCondition raw hlevel
      · rcases hblocks : tree.blocks with _ | ⟨block, outer⟩
        · simp [kinds, hblocks] at hlevel
        · have hkind : block.kind ≠ .loop := by
            intro heq
            simp [kinds, hblocks, heq] at hlevel
          rw [closeCondition, hblocks]
          simp only [if_neg hkind]
          exact .closeCondition raw hblocks hkind

/-! ### Open blocks

What is known of an open block is how it came to be open: by a marker that was read inside of the
blocks around it. These are the blocks that are still open after it in the list, so nothing has to
be remembered. -/

/-- Whether a block has been opened inside of blocks of some kinds: by a marker that says so, and as
the kind of block that the marker opens there. -/
def OpensIn (kinds : List BlockKind) (block : OpenBlock) : Prop :=
  (block.kind = .loop ∧ Marker.ofText? block.opener = some (.loopOpen block.path)) ∨
    (¬ KeepsAsText kinds block.path ∧ block.kind = conditionKind kinds block.path ∧
      Marker.ofText? block.opener = some (.conditionOpen block.path))

/-- Each block has been opened inside of the blocks after it. -/
def Nested : List OpenBlock → Prop
  | [] => True
  | block :: outer => OpensIn (outer.map OpenBlock.kind) block ∧ Nested outer

theorem nested_add (h : Nested tree.blocks) (more : List Node) : Nested (tree.add more).blocks := by
  rcases tree with ⟨root, _ | ⟨block, outer⟩, lint⟩
  · exact h
  · exact h

theorem nested_stray (h : Nested tree.blocks) (raw : List Char) :
    Nested ((tree.report (.strayCloser raw)).add [.text raw]).blocks := by
  have hreport : Nested (tree.report (.strayCloser raw)).blocks := h
  exact nested_add hreport _

theorem Nested.of_append_right (h : Nested (inner ++ outer)) : Nested outer := by
  induction inner with
  | nil => exact h
  | cons block inner ih => exact ih h.2

/-- Reading a token keeps open blocks nested. -/
theorem Nested.reads {token : Token} {next : PartialTree} (h : Nested tree.blocks)
    (htoken : token.IsGenuine) (hreads : Reads tree token next) : Nested next.blocks := by
  cases hreads with
  | text raw => exact nested_add h _
  | interpolation path fallback raw => exact nested_add h _
  | inclusion name raw => exact nested_add h _
  | openLoop path raw => exact ⟨Or.inl ⟨rfl, htoken⟩, h⟩
  | openCondition raw hkept => exact ⟨Or.inr ⟨hkept, rfl, htoken⟩, h⟩
  | keepCondition raw hkept => exact nested_add h _
  | closeCondition raw hblocks hkind =>
    rw [hblocks] at h
    exact nested_add h.2 _
  | closeLoop raw hblocks hinner hkind =>
    rw [hblocks] at h
    exact nested_add h.of_append_right.2 _
  | strayCondition raw hlevel => exact nested_stray h raw
  | strayLoop raw hloop => exact nested_stray h raw

/-- What holds before the first token of a template and is kept by reading a token holds after the
last one. -/
theorem reading_induction {motive : PartialTree → Prop} (hempty : motive .empty)
    (hreads : ∀ {tree next : PartialTree} {token : Token}, Nested tree.blocks → motive tree →
      token.IsGenuine → Reads tree token next → motive next) (source : List Char) :
    motive ((tokenize source).foldl step .empty) := by
  suffices h : ∀ (tokens : List Token) (tree : PartialTree), (∀ token ∈ tokens, token.IsGenuine) →
      Nested tree.blocks → motive tree → motive (tokens.foldl step tree) from
    h _ _ (fun _ => isGenuine_of_mem_tokenize) trivial hempty
  intro tokens
  induction tokens with
  | nil => exact fun tree _ _ htree => htree
  | cons token rest ih =>
    intro tree htokens hnested htree
    have htoken := htokens token List.mem_cons_self
    have hstep := reads_step tree token
    exact ih (tree.step token) (fun other hmem => htokens other (List.mem_cons_of_mem _ hmem))
      (hnested.reads htoken hstep) (hreads hnested htree htoken hstep)

/-! ### The nodes of open blocks -/

/-- Whether the nodes outside of all blocks and the nodes of each open block have a property that
may depend on the blocks around them, the innermost first, as far as `view` shows these. -/
def Throughout {α : Type} (view : OpenBlock → α) (P : List α → List Node → Prop)
    (root : List Node) : List OpenBlock → Prop
  | [] => P [] root
  | block :: outer => P ((block :: outer).map view) block.body ∧ Throughout view P root outer

variable {α : Type} {view : OpenBlock → α} {P : List α → List Node → Prop}

theorem Throughout.add (h : Throughout view P tree.root tree.blocks)
    (hview : ∀ (block : OpenBlock) body, view { block with body := body } = view block)
    {more : List Node}
    (hmore : ∀ nodes, P (tree.blocks.map view) nodes → P (tree.blocks.map view) (nodes ++ more)) :
    Throughout view P (tree.add more).root (tree.add more).blocks := by
  rcases tree with ⟨root, _ | ⟨block, outer⟩, lint⟩
  · exact hmore root h
  · refine ⟨?_, h.2⟩
    rw [List.map_cons, hview]
    exact hmore block.body h.1

theorem Throughout.of_append_right {root : List Node}
    (h : Throughout view P root (inner ++ outer)) : Throughout view P root outer := by
  induction inner with
  | nil => exact h
  | cons block inner ih => exact ih h.2

end PartialTree

end StaticSite
