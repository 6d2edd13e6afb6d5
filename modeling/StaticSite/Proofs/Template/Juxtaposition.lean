import StaticSite.Proofs.Template.Showing
/-!
# StaticSite.Proofs.Template.Juxtaposition

**A template can be read in parts.** Cut a text where no marker runs across the cut and where no
block of the first part is left open. Then the tree of the text is the tree of the first part
followed by that of the second, but for text that the cut has divided (`mergeTexts`), and the text
shows what its parts show, one after the other (`substitute_append`).

The tokens of the text are those of its parts by `tokenize_append`. The first part leaves the parser
with no open block, and there it reads the second part as it does at the start
(`treeOfTokens_append`).
-/

set_option autoImplicit false

namespace StaticSite

/-- The nodes with adjacent text merged. -/
def mergeTexts : List Node → List Node
  | [] => []
  | .text text :: rest =>
    match mergeTexts rest with
    | .text more :: others => .text (text ++ more) :: others
    | others => .text text :: others
  | node :: rest => node :: mergeTexts rest

/-- Merging starts at the end, so only what has become of the end counts. -/
theorem mergeTexts_append_congr {first second : List Node}
    (h : mergeTexts first = mergeTexts second) (front : List Node) :
    mergeTexts (front ++ first) = mergeTexts (front ++ second) := by
  induction front with
  | nil => exact h
  | cons node rest ih =>
    cases node with
    | text text => simp only [List.cons_append, mergeTexts, ih]
    | interpolation path fallback => simp only [List.cons_append, mergeTexts, ih]
    | conditional path body => simp only [List.cons_append, mergeTexts, ih]
    | loop path body => simp only [List.cons_append, mergeTexts, ih]

theorem mergeTexts_text_append (text more : List Char) (rest : List Node) :
    mergeTexts (.text (text ++ more) :: rest) = mergeTexts (.text text :: .text more :: rest) := by
  simp only [mergeTexts]
  split
  · simp
  · rfl

/-- Merged text shows the same. -/
theorem evalNodes_mergeTexts (scope : Scope) (nodes : List Node) :
    evalNodes scope (mergeTexts nodes) = evalNodes scope nodes := by
  induction nodes with
  | nil => rfl
  | cons node rest ih =>
    cases node with
    | text text =>
      rw [evalNodes, ← ih, mergeTexts]
      split
      · rename_i more others hmerged
        simp only [hmerged, evalNodes, Node.eval, List.append_assoc]
      · rfl
    | interpolation path fallback => simp only [mergeTexts, evalNodes, ih]
    | conditional path body => simp only [mergeTexts, evalNodes, ih]
    | loop path body => simp only [mergeTexts, evalNodes, ih]

/-- A template that leaves no block unterminated leaves none open at its end. -/
theorem blocks_eq_nil_of_lint {source : List Char}
    (h : ∀ kind raw, Lint.unterminated kind raw ∉ lintTemplate source) :
    ((tokenize source).foldl PartialTree.step .empty).blocks = [] := by
  refine List.eq_nil_iff_forall_not_mem.mpr fun block hblock => ?_
  refine h block.kind block.opener ?_
  unfold lintTemplate
  rw [lint_ofTokens]
  exact List.mem_append_right _ (List.mem_map_of_mem hblock)

/-- The tree of merged tokens is that of the tokens, but for divided text. -/
theorem mergeTexts_treeOfTokens_append {first second : List Token}
    (hclosed : (first.foldl PartialTree.step .empty).blocks = [])
    (hfirst : Token.TextsApart first) (hsecond : Token.TextsApart second) :
    mergeTexts (treeOfTokens (Token.merged (first ++ second))) =
      mergeTexts (treeOfTokens first ++ treeOfTokens second) := by
  rcases Token.merged_append hfirst hsecond with heq | ⟨front, text, more, back, rfl, rfl, heq⟩
  · rw [heq, treeOfTokens_append hclosed]
  · -- text opens no block, so none is open before it
    have hfront : (front.foldl PartialTree.step .empty).blocks = [] := by
      rw [List.foldl_append] at hclosed
      have hkinds := PartialTree.kinds_add (front.foldl PartialTree.step .empty) [.text text]
      rw [show ((front.foldl PartialTree.step .empty).add [.text text]).blocks = [] from hclosed]
        at hkinds
      exact List.map_eq_nil_iff.mp hkinds.symm
    have hnode : ∀ text rest, treeOfTokens (.text text :: rest) = .text text :: treeOfTokens rest :=
      fun text rest => @treeOfTokens_append [.text text] rfl rest
    rw [heq, treeOfTokens_append hfront, treeOfTokens_append hfront, hnode, hnode, hnode,
      List.append_assoc]
    exact mergeTexts_append_congr (mergeTexts_text_append _ _ _) _

/-- **A template can be read in parts.** Where no marker runs across the cut, and no block of the
first part is left unterminated, the tree and what it shows are put together from those of the
parts. -/
theorem substitute_append (first second : List Char)
    (hcut : ¬ Crossed (first ++ second) first.length)
    (hclosed : ∀ kind raw, Lint.unterminated kind raw ∉ lintTemplate first) (context : Value) :
    mergeTexts (parseTemplate (first ++ second)) =
        mergeTexts (parseTemplate first ++ parseTemplate second) ∧
      substitute (first ++ second) context =
        substitute first context ++ substitute second context := by
  have htree : mergeTexts (parseTemplate (first ++ second)) =
      mergeTexts (parseTemplate first ++ parseTemplate second) := by
    unfold parseTemplate
    rw [tokenize_append hcut]
    exact mergeTexts_treeOfTokens_append (blocks_eq_nil_of_lint hclosed)
      (textsApart_tokenize first) (textsApart_tokenize second)
  refine ⟨htree, ?_⟩
  calc substitute (first ++ second) context
      = evalNodes ⟨context, none⟩ (mergeTexts (parseTemplate (first ++ second))) :=
        (evalNodes_mergeTexts _ _).symm
    _ = evalNodes ⟨context, none⟩ (parseTemplate first ++ parseTemplate second) := by
        rw [htree, evalNodes_mergeTexts]
    _ = substitute first context ++ substitute second context := evalNodes_append _ _ _

/-- A closing marker that closes nothing before the cut, and a block that is left open after it. -/
theorem substitute_append_between_blocks :
    substitute (templateOf "«#if a»«x»«/if»«/each» and " ++ templateOf "or «#if b»«y»")
        (.mapping [("a", .bool true), ("x", .string "1")]) =
      substitute (templateOf "«#if a»«x»«/if»«/each» and ")
          (.mapping [("a", .bool true), ("x", .string "1")]) ++
        substitute (templateOf "or «#if b»«y»")
          (.mapping [("a", .bool true), ("x", .string "1")]) := by
  have hlint : lintTemplate (templateOf "«#if a»«x»«/if»«/each» and ") =
      [.strayCloser (templateOf "«/each»")] := by decide +kernel
  have hclosed : ∀ kind raw,
      Lint.unterminated kind raw ∉ lintTemplate (templateOf "«#if a»«x»«/if»«/each» and ") := by
    intro kind raw hmem
    rw [hlint, List.mem_singleton] at hmem
    cases hmem
  exact (substitute_append _ _ (by decide +kernel) hclosed _).2

end StaticSite
