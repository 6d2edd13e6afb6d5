import Mathlib.Data.List.Forall2
import StaticSite.Proofs.Template.Tokens
import StaticSite.Template.Tree
/-!
# StaticSite.Proofs.Template.Pieces

**A tree is its tokens in order.** Written out from left to right (`piecesOf`), the tree of a
template has one piece for each token, and the pieces match the tokens one by one
(`Piece.Matches`).

The proof follows the tokens. A tree that has been read in part consists of nodes outside of all
blocks and of open blocks, each with its opening marker and the nodes after it; `ReadsAs` says which
tokens these stand for. The opening marker of an open block matches in two ways, as the start of the
block and as text, so the invariant survives both the closing and the abandoning of a block.
-/

set_option autoImplicit false

namespace StaticSite

/-- A piece of a tree that is written out from left to right. -/
inductive Piece where
  | text (text : List Char)
  | interpolation (path : String) (fallback : Option Fallback)
  | conditionOpen (path : String)
  | conditionClose
  | loopOpen (path : String)
  | loopClose
deriving DecidableEq

mutual

/-- A node from left to right: a block as its start, its body and its end. -/
def Node.pieces : Node → List Piece
  | .text text => [.text text]
  | .interpolation path fallback => [.interpolation path fallback]
  | .conditional path body => .conditionOpen path :: piecesOf body ++ [.conditionClose]
  | .loop path body => .loopOpen path :: piecesOf body ++ [.loopClose]

/-- Nodes from left to right. -/
def piecesOf : List Node → List Piece
  | [] => []
  | node :: rest => node.pieces ++ piecesOf rest

end

/-- Whether a piece stands for a token: text for any token that is written like it, all else for the
marker that says the same. -/
inductive Piece.Matches : Piece → Token → Prop where
  | text (token : Token) : Matches (.text token.raw) token
  | interpolation (path : String) (fallback : Option Fallback) (raw : List Char) :
    Matches (.interpolation path fallback) (.marker (.interpolation path fallback) raw)
  | conditionOpen (path : String) (raw : List Char) :
    Matches (.conditionOpen path) (.marker (.conditionOpen path) raw)
  | conditionClose (raw : List Char) : Matches .conditionClose (.marker .conditionClose raw)
  | loopOpen (path : String) (raw : List Char) :
    Matches (.loopOpen path) (.marker (.loopOpen path) raw)
  | loopClose (raw : List Char) : Matches .loopClose (.marker .loopClose raw)

theorem piecesOf_append (first second : List Node) :
    piecesOf (first ++ second) = piecesOf first ++ piecesOf second := by
  induction first with
  | nil => rfl
  | cons node rest ih => simp only [List.cons_append, piecesOf, ih, List.append_assoc]

theorem piecesOf_singleton (node : Node) : piecesOf [node] = node.pieces := by
  simp only [piecesOf, List.append_nil]

/-- Nodes stand for tokens: their pieces match them one by one. -/
def StandFor (nodes : List Node) (tokens : List Token) : Prop :=
  List.Forall₂ Piece.Matches (piecesOf nodes) tokens

theorem StandFor.append {first second : List Node} {tokens more : List Token}
    (hfirst : StandFor first tokens) (hsecond : StandFor second more) :
    StandFor (first ++ second) (tokens ++ more) := by
  unfold StandFor
  rw [piecesOf_append]
  exact List.rel_append hfirst hsecond

theorem standFor_text (token : Token) : StandFor [.text token.raw] [token] :=
  .cons (.text token) .nil

/-- A block stands for its opening marker, the tokens of its body and its closing marker. -/
theorem standFor_conditional {path : String} {body : List Node} {tokens : List Token}
    (h : StandFor body tokens) (opener closer : List Char) :
    StandFor [.conditional path body]
      (.marker (.conditionOpen path) opener :: tokens ++ [.marker .conditionClose closer]) := by
  unfold StandFor
  rw [piecesOf_singleton, Node.pieces]
  exact .cons (.conditionOpen path opener)
    (List.rel_append h (.cons (.conditionClose closer) .nil))

theorem standFor_loop {path : String} {body : List Node} {tokens : List Token}
    (h : StandFor body tokens) (opener closer : List Char) :
    StandFor [.loop path body]
      (.marker (.loopOpen path) opener :: tokens ++ [.marker .loopClose closer]) := by
  unfold StandFor
  rw [piecesOf_singleton, Node.pieces]
  exact .cons (.loopOpen path opener) (List.rel_append h (.cons (.loopClose closer) .nil))

/-! ### Trees that have been read in part

The tokens of a tree fall into the stretches that its open blocks begin. Closing a block turns the
stretch into one node, which has the closing marker as its last piece; abandoning it joins the
stretch to the one before. -/

/-- The marker that opens a block. -/
def OpenBlock.openerToken (block : OpenBlock) : Token :=
  if block.kind = .loop then .marker (.loopOpen block.path) block.opener
  else .marker (.conditionOpen block.path) block.opener

theorem OpenBlock.raw_openerToken (block : OpenBlock) :
    block.openerToken.raw = block.opener := by
  unfold openerToken
  split
  · rfl
  · rfl

/-- The tokens that open blocks stand for, the innermost block first, after nodes outside of
them. -/
def BlocksReadAs (root : List Node) : List OpenBlock → List Token → Prop
  | [], tokens => StandFor root tokens
  | block :: outer, tokens =>
    ∃ before body, tokens = before ++ block.openerToken :: body ∧
      BlocksReadAs root outer before ∧ StandFor block.body body

namespace PartialTree

/-- The tokens that a tree stands for that has been read in part. -/
def ReadsAs (tree : PartialTree) (tokens : List Token) : Prop :=
  BlocksReadAs tree.root tree.blocks tokens

variable {tree : PartialTree} {tokens : List Token}

theorem ReadsAs.add (h : tree.ReadsAs tokens) {nodes : List Node} {more : List Token}
    (hmore : StandFor nodes more) : (tree.add nodes).ReadsAs (tokens ++ more) := by
  unfold ReadsAs PartialTree.add at *
  cases hblocks : tree.blocks with
  | nil =>
    rw [hblocks] at h
    exact StandFor.append h hmore
  | cons block outer =>
    rw [hblocks] at h
    obtain ⟨before, body, rfl, houter, hbody⟩ := h
    exact ⟨before, body ++ more, by simp [OpenBlock.openerToken], houter, hbody.append hmore⟩

theorem ReadsAs.addText (h : tree.ReadsAs tokens) (token : Token) :
    (tree.add [.text token.raw]).ReadsAs (tokens ++ [token]) :=
  h.add (standFor_text token)

/-- A marker with nothing to close is reported and kept as text. -/
theorem ReadsAs.addStray (h : tree.ReadsAs tokens) (token : Token) :
    ((tree.report (.strayCloser token.raw)).add [.text token.raw]).ReadsAs
      (tokens ++ [token]) := by
  have hreported : (tree.report (.strayCloser token.raw)).ReadsAs tokens := h
  exact hreported.addText token

/-- Without its innermost block a tree stands for the tokens before that block. -/
theorem ReadsAs.pop {block : OpenBlock} {outer : List OpenBlock} (h : tree.ReadsAs tokens)
    (hblocks : tree.blocks = block :: outer) :
    ∃ before body, tokens = before ++ block.openerToken :: body ∧
      ({ tree with blocks := outer } : PartialTree).ReadsAs before ∧
      StandFor block.body body := by
  unfold ReadsAs at h
  rw [hblocks] at h
  exact h

theorem ReadsAs.openBlock (h : tree.ReadsAs tokens) (kind : BlockKind) (path : String)
    (opener : List Char) :
    (tree.openBlock kind path opener).ReadsAs
      (tokens ++ [OpenBlock.openerToken ⟨kind, path, opener, []⟩]) :=
  ⟨tokens, [], rfl, h, .nil⟩

/-- A block that is abandoned stands for the same tokens: its opening marker for text. -/
theorem ReadsAs.abandon {block : OpenBlock} {outer : List OpenBlock} (h : tree.ReadsAs tokens)
    (hblocks : tree.blocks = block :: outer) : (tree.abandon block outer).ReadsAs tokens := by
  obtain ⟨before, body, rfl, houter, hbody⟩ := h.pop hblocks
  have hopener : StandFor [.text block.opener] [block.openerToken] := by
    rw [← block.raw_openerToken]
    exact standFor_text _
  have hreported : (({ tree with blocks := outer } : PartialTree).report
      (.unterminated block.kind block.opener)).ReadsAs before := houter
  exact hreported.add (hopener.append hbody)

theorem kinds_add (tree : PartialTree) (nodes : List Node) :
    (tree.add nodes).blocks.map OpenBlock.kind = tree.blocks.map OpenBlock.kind := by
  unfold PartialTree.add
  cases tree.blocks with
  | nil => rfl
  | cons block outer => rfl

theorem kinds_abandon (tree : PartialTree) (block : OpenBlock) (outer : List OpenBlock) :
    (tree.abandon block outer).blocks.map OpenBlock.kind = outer.map OpenBlock.kind :=
  kinds_add _ _

theorem ReadsAs.closeInnermostLoop (closer : List Char) {count : Nat}
    (hcount : (tree.blocks.map OpenBlock.kind).length ≤ count)
    (hloop : .loop ∈ tree.blocks.map OpenBlock.kind) (h : tree.ReadsAs tokens) :
    (PartialTree.closeInnermostLoop count tree).ReadsAs
      (tokens ++ [.marker .loopClose closer]) := by
  induction count generalizing tree with
  | zero =>
    rw [List.length_eq_zero_iff.mp (Nat.le_zero.mp hcount)] at hloop
    cases hloop
  | succ count ih =>
    unfold PartialTree.closeInnermostLoop
    split
    · rename_i hblocks
      rw [hblocks] at hloop
      cases hloop
    · rename_i block outer hblocks
      rw [hblocks] at hcount hloop
      split
      · rename_i hkind
        obtain ⟨before, body, rfl, houter, hbody⟩ := h.pop hblocks
        have hopener : block.openerToken = .marker (.loopOpen block.path) block.opener := by
          unfold OpenBlock.openerToken
          rw [if_pos hkind]
        rw [hopener, List.append_assoc]
        exact houter.add (standFor_loop hbody block.opener closer)
      · rename_i hkind
        -- the loop that is to be closed lies further out
        have houter : .loop ∈ outer.map OpenBlock.kind := by
          rcases List.mem_cons.mp hloop with heq | hmem
          · exact absurd heq.symm hkind
          · exact hmem
        refine ih ?_ ?_ (h.abandon hblocks)
        · rw [kinds_abandon]
          exact Nat.le_of_succ_le_succ hcount
        · rw [kinds_abandon]
          exact houter

theorem ReadsAs.closeLoop (h : tree.ReadsAs tokens) (closer : List Char) :
    (tree.closeLoop closer).ReadsAs (tokens ++ [.marker .loopClose closer]) := by
  unfold PartialTree.closeLoop
  split
  · rename_i hany
    obtain ⟨block, hmem, hkind⟩ := List.any_eq_true.mp hany
    refine h.closeInnermostLoop closer (Nat.le_of_eq (List.length_map _)) ?_
    exact List.mem_map.mpr ⟨block, hmem, of_decide_eq_true hkind⟩
  · exact h.addStray (.marker .loopClose closer)

theorem ReadsAs.openCondition (h : tree.ReadsAs tokens) (path : String) (opener : List Char) :
    (tree.openCondition path opener).ReadsAs
      (tokens ++ [.marker (.conditionOpen path) opener]) := by
  have htext := h.addText (.marker (.conditionOpen path) opener)
  unfold PartialTree.openCondition
  dsimp only
  split
  · split
    · exact htext
    · exact h.openBlock .elementCondition path opener
  · split
    · exact htext
    · exact h.openBlock .condition path opener

theorem ReadsAs.closeCondition (h : tree.ReadsAs tokens) (closer : List Char) :
    (tree.closeCondition closer).ReadsAs (tokens ++ [.marker .conditionClose closer]) := by
  unfold PartialTree.closeCondition
  split
  · rename_i block outer hblocks
    split
    · exact h.addStray (.marker .conditionClose closer)
    · rename_i hkind
      obtain ⟨before, body, rfl, houter, hbody⟩ := h.pop hblocks
      have hopener : block.openerToken = .marker (.conditionOpen block.path) block.opener := by
        unfold OpenBlock.openerToken
        rw [if_neg hkind]
      rw [hopener, List.append_assoc]
      exact houter.add (standFor_conditional hbody block.opener closer)
  · exact h.addStray (.marker .conditionClose closer)

/-- Reading a token adds this token to those that a tree stands for. -/
theorem ReadsAs.step (h : tree.ReadsAs tokens) (token : Token) :
    (tree.step token).ReadsAs (tokens ++ [token]) := by
  cases token with
  | text raw => exact h.addText (.text raw)
  | marker marker raw =>
    cases marker with
    | interpolation path fallback =>
      exact h.add (.cons (.interpolation path fallback raw) .nil)
    | inclusion name => exact h.addText (.marker (.inclusion name) raw)
    | loopOpen path => exact h.openBlock .loop path raw
    | loopClose => exact h.closeLoop raw
    | conditionOpen path => exact h.openCondition path raw
    | conditionClose => exact h.closeCondition raw

theorem ReadsAs.foldl_step (h : tree.ReadsAs tokens) (more : List Token) :
    (more.foldl PartialTree.step tree).ReadsAs (tokens ++ more) := by
  induction more generalizing tree tokens with
  | nil => simpa using h
  | cons token more ih =>
    rw [List.foldl_cons, List.append_cons]
    exact ih (h.step token)

/-- At the end no block is open, and the nodes stand for all tokens. -/
theorem ReadsAs.finish {count : Nat} (hcount : (tree.blocks.map OpenBlock.kind).length ≤ count)
    (h : tree.ReadsAs tokens) : StandFor (PartialTree.finish count tree).root tokens := by
  induction count generalizing tree with
  | zero =>
    have hblocks : tree.blocks = [] :=
      List.map_eq_nil_iff.mp (List.length_eq_zero_iff.mp (Nat.le_zero.mp hcount))
    unfold ReadsAs at h
    rw [hblocks] at h
    exact h
  | succ count ih =>
    unfold PartialTree.finish
    split
    · rename_i hblocks
      unfold ReadsAs at h
      rw [hblocks] at h
      exact h
    · rename_i block outer hblocks
      refine ih ?_ (h.abandon hblocks)
      rw [kinds_abandon]
      rw [hblocks] at hcount
      exact Nat.le_of_succ_le_succ hcount

end PartialTree

/-- The tree of tokens stands for them. -/
theorem standFor_treeOfTokens (tokens : List Token) : StandFor (treeOfTokens tokens) tokens := by
  have hempty : PartialTree.empty.ReadsAs [] := .nil
  exact (hempty.foldl_step tokens).finish (Nat.le_of_eq (List.length_map _))

/-! ### Trees of text -/

/-- Nodes that are text all through, as they are written. -/
def textOf? : List Node → Option (List Char)
  | [] => some []
  | .text text :: rest => (textOf? rest).map (text ++ ·)
  | _ :: _ => none

/-- Text that stands for tokens is what the tokens are made of. -/
theorem StandFor.textOf?_eq {nodes : List Node} {tokens : List Token} {text : List Char}
    (h : StandFor nodes tokens) (htext : textOf? nodes = some text) :
    tokens.flatMap Token.raw = text := by
  induction nodes generalizing tokens text with
  | nil =>
    cases h
    cases htext
    rfl
  | cons node rest ih =>
    cases node with
    | text first =>
      simp only [textOf?, Option.map_eq_some_iff] at htext
      obtain ⟨more, hmore, rfl⟩ := htext
      unfold StandFor piecesOf Node.pieces at h
      cases h with
      | cons hfirst hrest =>
        cases hfirst
        rw [List.flatMap_cons, ih hrest hmore]
    | interpolation path fallback => cases htext
    | conditional path body => cases htext
    | loop path body => cases htext

/-- **A tree is its tokens in order.** From left to right, the tree of a template matches the tokens
one by one; and if it is text all through, then that text is the template. -/
theorem parseTemplate_in_order (source : List Char) :
    List.Forall₂ Piece.Matches (piecesOf (parseTemplate source)) (tokenize source) ∧
      ∀ text, textOf? (parseTemplate source) = some text → text = source := by
  have h : StandFor (parseTemplate source) (tokenize source) :=
    standFor_treeOfTokens (tokenize source)
  refine ⟨h, fun text htext => ?_⟩
  rw [← h.textOf?_eq htext, flatMap_raw_tokenize]

end StaticSite
