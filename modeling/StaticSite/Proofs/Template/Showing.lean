import StaticSite.Proofs.Template.Likeness
import StaticSite.Proofs.Template.Segmentation
import StaticSite.Template.Evaluation
/-!
# StaticSite.Proofs.Template.Showing

**How text is divided does not show.** Nodes show what their parts show, so it does not matter where
a text is cut into nodes, inside of blocks or outside (`ShowSame`). Tokens with adjacent text merged
therefore show what the tokens themselves show (`evalNodes_treeOfTokens_merged`), although their
trees differ.
-/

set_option autoImplicit false

namespace StaticSite

theorem evalNodes_append (scope : Scope) (first second : List Node) :
    evalNodes scope (first ++ second) = evalNodes scope first ++ evalNodes scope second := by
  induction first with
  | nil => rfl
  | cons node rest ih => simp only [List.cons_append, evalNodes, ih, List.append_assoc]

/-- Nodes that show the same in every scope. -/
def ShowSame (nodes nodes' : List Node) : Prop :=
  ∀ scope, evalNodes scope nodes = evalNodes scope nodes'

theorem showSame_congruence : NodeCongruence ShowSame where
  equivalence := ⟨fun _ _ => rfl, fun h scope => (h scope).symm,
    fun h h' scope => (h scope).trans (h' scope)⟩
  append h h' scope := by rw [evalNodes_append, evalNodes_append, h scope, h' scope]
  conditional path _ _ h scope := by simp only [evalNodes, Node.eval, h scope]
  loop path body body' h scope := by
    have hbody : (fun item => evalNodes ⟨scope.root, some item⟩ body) =
        fun item => evalNodes ⟨scope.root, some item⟩ body' := funext fun _ => h _
    simp only [evalNodes, Node.eval, hbody]

theorem showSame_text_nil : ShowSame [] [.text []] := fun _ => rfl

theorem showSame_text_append (piece more : List Char) :
    ShowSame [.text (piece ++ more)] [.text piece, .text more] := by
  intro scope
  simp [evalNodes, Node.eval]

namespace PartialTree

open Token

/-- Text in front of tokens shows like a piece of text that is read before them. -/
theorem foldl_step_prependText (piece : List Char) (tokens : List Token) (tree : PartialTree) :
    ((prependText piece tokens).foldl step tree).Like ShowSame
      (tokens.foldl step (tree.add [.text piece])) := by
  have hsame : (tree.add [.text piece]).Like ShowSame (tree.add [.text piece]) :=
    .refl showSame_congruence _
  by_cases hpiece : piece = []
  · subst hpiece
    have hadd : (tree.add []).Like ShowSame (tree.add [.text []]) :=
      (Like.refl showSame_congruence tree).add showSame_congruence showSame_text_nil
    rw [add_nil] at hadd
    rw [prependText_nil_left]
    exact hadd.foldl_step showSame_congruence tokens
  · rcases tokens with _ | ⟨more | ⟨m, written⟩, rest⟩
    · rw [prependText_nil hpiece]
      exact hsame
    · have hadd : (tree.add [.text (piece ++ more)]).Like ShowSame
          (tree.add ([.text piece] ++ [.text more])) :=
        (Like.refl showSame_congruence tree).add showSame_congruence (showSame_text_append _ _)
      rw [← add_add tree [.text piece]] at hadd
      exact hadd.foldl_step showSame_congruence rest
    · rw [prependText_marker hpiece]
      exact hsame.foldl_step showSame_congruence _

theorem foldl_step_merged (tokens : List Token) (tree : PartialTree) :
    ((merged tokens).foldl step tree).Like ShowSame (tokens.foldl step tree) := by
  induction tokens generalizing tree with
  | nil => exact .refl showSame_congruence _
  | cons token rest ih =>
    cases token with
    | text piece => exact (foldl_step_prependText _ _ _).trans showSame_congruence (ih _)
    | marker m written => exact ih _

end PartialTree

/-- Merged text shows the same. -/
theorem evalNodes_treeOfTokens_merged (scope : Scope) (tokens : List Token) :
    evalNodes scope (treeOfTokens (Token.merged tokens)) =
      evalNodes scope (treeOfTokens tokens) := by
  rw [treeOfTokens_eq_nodes, treeOfTokens_eq_nodes]
  exact (PartialTree.foldl_step_merged tokens .empty).nodes showSame_congruence scope

end StaticSite
