import Mathlib.Data.List.TakeWhile
import StaticSite.Proofs.Template.Steps
/-!
# StaticSite.Proofs.Template.NormalForm

**The form of a finished tree.** Markers that have been kept as text, and conditionals, stand in a
tree at certain places only, whatever the template (`normalForm_parseTemplate`).

The rules of the reader are about open blocks. A tree that has been read in part is therefore seen
as if all blocks were closed where they are open now: the nodes of each then have a place inside of
the blocks around it, where they may stand (`MayStand`). A block that is abandoned takes its nodes
further out. They may stand there as well, for fewer blocks around a node allow more
(`MayStand.looser`).
-/

set_option autoImplicit false

namespace StaticSite

/-! ### Places in a tree

A node is found by going down from the top of a tree through the bodies of blocks. The blocks that
are passed on the way are all that the rules ask about. -/

/-- A block around a node. -/
inductive Enclosure where
  | conditional (path : String)
  | loop (path : String)
deriving DecidableEq

/-- A node as a block around the nodes of its body. -/
def Node.asBlock? : Node → Option (Enclosure × List Node)
  | conditional path body => some (.conditional path, body)
  | loop path body => some (.loop path, body)
  | text _ | interpolation _ _ => none

/-- Whether a node stands somewhere in a tree, inside of some blocks, the innermost first. -/
inductive Stands (nodes : List Node) : List Enclosure → Node → Prop
  | outside {node : Node} : node ∈ nodes → Stands nodes [] node
  | inside {around : List Enclosure} {block node : Node} {enclosure : Enclosure}
      {body : List Node} : Stands nodes around block → block.asBlock? = some (enclosure, body) →
      node ∈ body → Stands nodes (enclosure :: around) node

/-- The paths of the conditionals around a node inside of the innermost loop; of all conditionals
around it outside of loops. -/
def levelOf : List Enclosure → List String
  | .conditional path :: outer => path :: levelOf outer
  | _ => []

/-- Whether a node may stand inside of some blocks. -/
structure MayStand (around : List Enclosure) (node : Node) : Prop where
  /-- The opening marker of a loop is text outside of all blocks only. -/
  loopOpen : ∀ text path, node = .text text → Marker.Written (.loopOpen path) text → around = []
  /-- The closing marker of a loop is text outside of all loops only. -/
  loopClose : ∀ text, node = .text text → Marker.Written .loopClose text →
    ∀ path, .loop path ∉ around
  /-- The closing marker of a conditional is text only where there is no conditional to close, so
  that a conditional goes no further than to the first such marker. -/
  conditionClose : ∀ text, node = .text text → Marker.Written .conditionClose text →
    levelOf around = []
  /-- Inside of another conditional, with no loop between them, stands only a conditional on an
  element in one on the page. -/
  conditional : ∀ path body, node = .conditional path body →
    levelOf around = [] ∨
      ∃ outer, levelOf around = [outer] ∧ elementPath? outer = none ∧ (elementPath? path).isSome

/-- Whether all nodes of a tree stand where they may. -/
def NormalForm (nodes : List Node) : Prop :=
  ∀ around node, Stands nodes around node → MayStand around node

theorem not_stands_nil (around : List Enclosure) (node : Node) : ¬ Stands [] around node := by
  intro h
  induction h with
  | outside hmem => cases hmem
  | inside _ _ _ ih => exact ih

theorem Stands.append_cases {first second : List Node} {around : List Enclosure} {node : Node}
    (h : Stands (first ++ second) around node) :
    Stands first around node ∨ Stands second around node := by
  induction h with
  | outside hmem => exact (List.mem_append.mp hmem).imp .outside .outside
  | inside _ hblock hmem ih => exact ih.imp (.inside · hblock hmem) (.inside · hblock hmem)

theorem Stands.singleton_cases {single node : Node} {around : List Enclosure}
    (h : Stands [single] around node) :
    (around = [] ∧ node = single) ∨
      ∃ enclosure body inner, single.asBlock? = some (enclosure, body) ∧
        around = inner ++ [enclosure] ∧ Stands body inner node := by
  induction h with
  | outside hmem => exact Or.inl ⟨rfl, List.mem_singleton.mp hmem⟩
  | inside _ hblock hmem ih =>
    obtain ⟨rfl, rfl⟩ | ⟨enclosure, body, inner, hsingle, rfl, h⟩ := ih
    · exact Or.inr ⟨_, _, [], hblock, rfl, .outside hmem⟩
    · exact Or.inr ⟨_, _, _, hsingle, rfl, .inside h hblock hmem⟩

/-! ### Fewer blocks around a node

All rules forbid something inside of blocks. What is allowed stays allowed when some of the blocks
are gone, unless a loop is gone and a conditional around it is not: then nothing stands between this
conditional and the node any more. -/

/-- Whether some blocks are part of others, also with regard to the conditionals inside of the
innermost loop. -/
structure Looser (around tighter : List Enclosure) : Prop where
  sublist : around.Sublist tighter
  level : (levelOf around).Sublist (levelOf tighter)

theorem nil_looser (around : List Enclosure) : Looser [] around :=
  ⟨List.nil_sublist _, List.nil_sublist _⟩

/-- The blocks around some conditionals, without these. -/
theorem looser_append (around : List Enclosure) {inner : List Enclosure}
    (h : ∀ path, .loop path ∉ inner) : Looser around (inner ++ around) := by
  refine ⟨List.sublist_append_right _ _, ?_⟩
  induction inner with
  | nil => exact List.Sublist.refl _
  | cons first rest ih =>
    have hrest := ih fun path hmem => h path (List.mem_cons_of_mem _ hmem)
    cases first with
    | conditional path => exact hrest.cons path
    | loop path => exact absurd List.mem_cons_self (h path)

theorem Looser.append {around tighter : List Enclosure} (h : Looser around tighter)
    (inner : List Enclosure) : Looser (inner ++ around) (inner ++ tighter) := by
  refine ⟨List.Sublist.append_left h.sublist _, ?_⟩
  induction inner with
  | nil => exact h.level
  | cons first rest ih =>
    cases first with
    | conditional path => exact ih.cons_cons path
    | loop path => exact List.Sublist.refl _

/-- Fewer blocks allow more. -/
theorem MayStand.looser {around tighter : List Enclosure} {node : Node} (h : MayStand tighter node)
    (hlooser : Looser around tighter) : MayStand around node where
  loopOpen text path htext hwritten :=
    List.sublist_nil.mp (h.loopOpen text path htext hwritten ▸ hlooser.sublist)
  loopClose text htext hwritten path hmem :=
    h.loopClose text htext hwritten path (hlooser.sublist.subset hmem)
  conditionClose text htext hwritten :=
    List.sublist_nil.mp (h.conditionClose text htext hwritten ▸ hlooser.level)
  conditional path body hnode := by
    rcases h.conditional path body hnode with hlevel | ⟨outer, hlevel, hpaths⟩
    · exact Or.inl (List.sublist_nil.mp (hlevel ▸ hlooser.level))
    · rcases List.sublist_singleton.mp (hlevel ▸ hlooser.level) with hnone | hsame
      · exact Or.inl hnone
      · exact Or.inr ⟨outer, hsame, hpaths⟩

/-! ### Trees inside of blocks -/

/-- Whether all nodes of a tree may stand where they do if the tree stands inside of some blocks. -/
def FormedIn (around : List Enclosure) (nodes : List Node) : Prop :=
  ∀ inner node, Stands nodes inner node → MayStand (inner ++ around) node

theorem formedIn_nil (around : List Enclosure) : FormedIn around [] :=
  fun inner node h => absurd h (not_stands_nil inner node)

theorem FormedIn.append {around : List Enclosure} {first second : List Node}
    (hfirst : FormedIn around first) (hsecond : FormedIn around second) :
    FormedIn around (first ++ second) :=
  fun inner node h => h.append_cases.elim (hfirst inner node) (hsecond inner node)

theorem FormedIn.looser {around tighter : List Enclosure} {nodes : List Node}
    (h : FormedIn tighter nodes) (hlooser : Looser around tighter) : FormedIn around nodes :=
  fun inner node hstands => (h inner node hstands).looser (hlooser.append inner)

/-- A node that may stand where it does, and whose body is formed in it. -/
theorem formedIn_singleton {around : List Enclosure} {node : Node} (h : MayStand around node)
    (hbody : ∀ enclosure body, node.asBlock? = some (enclosure, body) →
      FormedIn (enclosure :: around) body) : FormedIn around [node] := by
  intro inner other hstands
  rcases hstands.singleton_cases with ⟨rfl, rfl⟩ | ⟨enclosure, body, inner, hnode, rfl, hinner⟩
  · exact h
  · rw [List.append_assoc]
    exact hbody enclosure body hnode inner other hinner

/-- A text may stand where the marker may that it is. -/
theorem mayStand_text {around : List Enclosure} {text : List Char}
    (hloopOpen : ∀ path, Marker.ofText? text = some (.loopOpen path) → around = [])
    (hloopClose : Marker.ofText? text = some .loopClose → ∀ path, .loop path ∉ around)
    (hconditionClose : Marker.ofText? text = some .conditionClose → levelOf around = []) :
    MayStand around (.text text) where
  loopOpen := by
    rintro _ path ⟨⟩ hwritten
    exact hloopOpen path (Marker.ofText?_eq_some_iff.mpr hwritten)
  loopClose := by
    rintro _ ⟨⟩ hwritten
    exact hloopClose (Marker.ofText?_eq_some_iff.mpr hwritten)
  conditionClose := by
    rintro _ ⟨⟩ hwritten
    exact hconditionClose (Marker.ofText?_eq_some_iff.mpr hwritten)
  conditional := by
    rintro path body ⟨⟩

/-- Nodes that are neither text nor conditionals may stand everywhere. -/
theorem mayStand_of_ne {around : List Enclosure} {node : Node}
    (htext : ∀ text, node ≠ .text text)
    (hconditional : ∀ path body, node ≠ .conditional path body) : MayStand around node where
  loopOpen text _ h := absurd h (htext text)
  loopClose text h := absurd h (htext text)
  conditionClose text h := absurd h (htext text)
  conditional path body h := absurd h (hconditional path body)

theorem formedIn_text {around : List Enclosure} {text : List Char}
    (h : MayStand around (.text text)) : FormedIn around [.text text] :=
  formedIn_singleton h nofun

/-! ### Open blocks

What the reader may do is decided by the kinds of the open blocks, and where a node may stand is
decided by the enclosures. Once the blocks are closed where they are, the one list is the image of
the other. -/

/-- What an open block is around its nodes once it is closed. -/
def OpenBlock.enclosure (block : OpenBlock) : Enclosure :=
  if block.kind = .loop then .loop block.path else .conditional block.path

theorem enclosure_of_loop {block : OpenBlock} (h : block.kind = .loop) :
    block.enclosure = .loop block.path := if_pos h

theorem enclosure_of_ne_loop {block : OpenBlock} (h : block.kind ≠ .loop) :
    block.enclosure = .conditional block.path := if_neg h

theorem loop_not_mem_enclosures {blocks : List OpenBlock}
    (h : .loop ∉ blocks.map OpenBlock.kind) (path : String) :
    .loop path ∉ blocks.map OpenBlock.enclosure := by
  intro hmem
  obtain ⟨block, hblock, henclosure⟩ := List.mem_map.mp hmem
  by_cases hkind : block.kind = .loop
  · exact h (List.mem_map.mpr ⟨block, hblock, hkind⟩)
  · rw [enclosure_of_ne_loop hkind] at henclosure
    cases henclosure

/-- Where there is no conditional to close, no conditional is open inside of the innermost loop. -/
theorem levelOf_enclosures {blocks : List OpenBlock}
    (h : (blocks.map OpenBlock.kind).takeWhile (· ≠ .loop) = []) :
    levelOf (blocks.map OpenBlock.enclosure) = [] := by
  cases blocks with
  | nil => rfl
  | cons block outer =>
    have hkind : block.kind = .loop := by
      by_contra hne
      simp [hne] at h
    rw [List.map_cons, enclosure_of_loop hkind]
    rfl

namespace PartialTree

variable {tree : PartialTree} {block : OpenBlock} {inner outer blocks : List OpenBlock}

theorem conditionKind_eq_condition_iff {kinds : List BlockKind} {path : String} :
    conditionKind kinds path = .condition ↔ (.loop ∈ kinds → elementPath? path = none) := by
  unfold conditionKind
  split
  · rename_i h
    exact iff_of_false BlockKind.noConfusion fun hnone => by simp [hnone h.1] at h
  · rename_i h
    simpa using h

/-- A conditional on the page is opened only where no other conditional is open inside of the
innermost loop. -/
theorem takeWhile_eq_nil_of_opens {kinds : List BlockKind} {path : String}
    (hopens : ¬ KeepsAsText kinds path) (hkind : conditionKind kinds path = .condition) :
    kinds.takeWhile (· ≠ .loop) = [] := by
  refine List.eq_nil_iff_forall_not_mem.mpr fun kind hmem => ?_
  cases kind with
  | condition => exact hopens ⟨_, hmem, Or.inr ⟨hkind, rfl⟩⟩
  | elementCondition => exact hopens ⟨_, hmem, Or.inl rfl⟩
  | loop => simpa using List.mem_takeWhile_imp hmem

/-- Directly inside of a conditional a conditional is opened only if it is one on an element of a
loop, and the one around it is on the page. -/
theorem kinds_of_opens {next : BlockKind} {rest : List BlockKind} {path : String}
    (hopens : ¬ KeepsAsText (next :: rest) path) (hnext : next ≠ .loop) :
    next = .condition ∧ .loop ∈ rest ∧ (elementPath? path).isSome := by
  have hmem : next ∈ (next :: rest).takeWhile (· ≠ .loop) := by simp [hnext]
  have hcondition : next = .condition := by
    cases next with
    | condition => rfl
    | elementCondition => exact absurd ⟨_, hmem, Or.inl rfl⟩ hopens
    | loop => exact absurd rfl hnext
  have helement : conditionKind (next :: rest) path ≠ .condition :=
    fun hpage => hopens ⟨_, hmem, Or.inr ⟨hpage, hcondition⟩⟩
  rw [Ne, conditionKind_eq_condition_iff, Classical.not_imp, ← ne_eq, ← Option.isSome_iff_ne_none]
    at helement
  exact ⟨hcondition, List.mem_of_ne_of_mem hnext.symm helement.1, helement.2⟩

/-- A conditional that is open may be closed where it is. -/
theorem Nested.mayStand (h : Nested (block :: outer)) (hkind : block.kind ≠ .loop)
    (body : List Node) :
    MayStand (outer.map OpenBlock.enclosure) (.conditional block.path body) where
  loopOpen := by rintro text path ⟨⟩
  loopClose := by rintro text ⟨⟩
  conditionClose := by rintro text ⟨⟩
  conditional := by
    rintro path body ⟨⟩
    obtain ⟨hopens, -, -⟩ := h.1.resolve_left fun hloop => hkind hloop.1
    rcases outer with _ | ⟨next, rest⟩
    · exact Or.inl rfl
    by_cases hnext : next.kind = .loop
    · exact Or.inl (levelOf_enclosures (by simp [hnext]))
    obtain ⟨hcondition, hloop, hpath⟩ := kinds_of_opens hopens hnext
    -- the block around it is a conditional on the page, in the same loop
    obtain ⟨hopens', hkind', -⟩ := h.2.1.resolve_left fun hloop => hnext hloop.1
    have hpage := hkind'.symm.trans hcondition
    refine Or.inr ⟨next.path, ?_, conditionKind_eq_condition_iff.mp hpage hloop, hpath⟩
    rw [List.map_cons, enclosure_of_ne_loop hnext, levelOf,
      levelOf_enclosures (takeWhile_eq_nil_of_opens hopens' hpage)]

theorem Nested.ofText?_opener (h : Nested blocks) (hmem : block ∈ blocks) :
    (block.kind = .loop ∧ Marker.ofText? block.opener = some (.loopOpen block.path)) ∨
      Marker.ofText? block.opener = some (.conditionOpen block.path) := by
  induction blocks with
  | nil => cases hmem
  | cons first rest ih =>
    rcases List.mem_cons.mp hmem with rfl | hmem
    · exact h.1.imp_right fun hcondition => hcondition.2.2
    · exact ih h.2 hmem

/-! ### Trees that have been read in part

The invariant is about every stretch of nodes: those outside of all blocks and those in each open
block, each under the blocks around it. Adding a node and opening a block keep it at sight; closing
a block moves the nodes of the blocks inside of it further out. -/

/-- Whether all nodes may stand where they do if every block is closed where it is open. -/
def Formed (tree : PartialTree) : Prop :=
  Throughout OpenBlock.enclosure FormedIn tree.root tree.blocks

theorem Formed.add (h : tree.Formed) {more : List Node}
    (hmore : FormedIn (tree.blocks.map OpenBlock.enclosure) more) : (tree.add more).Formed :=
  Throughout.add h (fun _ _ => rfl) fun _ hnodes => hnodes.append hmore

theorem Formed.add_text (h : tree.Formed) {text : List Char}
    (htext : MayStand (tree.blocks.map OpenBlock.enclosure) (.text text)) :
    (tree.add [.text text]).Formed := h.add (formedIn_text htext)

theorem Formed.openBlock (h : tree.Formed) (kind : BlockKind) (path : String)
    (opener : List Char) : (tree.openBlock kind path opener).Formed := ⟨formedIn_nil _, h⟩

/-- Blocks may be turned back into text where fewer blocks are around them. -/
theorem formedIn_nodesOf {around : List Enclosure} {root nodes : List Node}
    (hnodes : FormedIn around nodes)
    (hblocks : Throughout OpenBlock.enclosure FormedIn root (inner ++ outer))
    (hlooser : ∀ heads, heads <:+ inner → Looser around ((heads ++ outer).map OpenBlock.enclosure))
    (hopeners : ∀ block ∈ inner, MayStand around (.text block.opener)) :
    FormedIn around (nodesOf nodes inner) := by
  induction inner with
  | nil => exact hnodes
  | cons first rest ih =>
    have hrest := ih hblocks.2
      (fun heads hheads => hlooser heads (hheads.trans (List.suffix_cons first rest)))
      fun block hmem => hopeners block (List.mem_cons_of_mem _ hmem)
    have hbody := hblocks.1.looser (hlooser (first :: rest) (List.suffix_refl _))
    have hopener := formedIn_text (hopeners first List.mem_cons_self)
    exact hrest.append (hopener.append hbody)

/-- A block that is closed holds the blocks inside of it, turned back into text. -/
theorem Formed.close (h : tree.Formed) (hnested : Nested tree.blocks)
    (hblocks : tree.blocks = inner ++ block :: outer) (hinner : .loop ∉ inner.map OpenBlock.kind)
    {node : Node} (hnode : MayStand (outer.map OpenBlock.enclosure) node)
    (hbody : node.asBlock? = some (block.enclosure, nodesOf block.body inner)) (lint : List Lint) :
    (PartialTree.add ⟨tree.root, outer, lint⟩ [node]).Formed := by
  unfold Formed at h
  rw [hblocks] at h hnested
  have hopen := h.of_append_right
  have houter : Formed ⟨tree.root, outer, lint⟩ := hopen.2
  have hnodes : FormedIn ((block :: outer).map OpenBlock.enclosure) (nodesOf block.body inner) := by
    refine formedIn_nodesOf hopen.1 h (fun heads hheads => ?_) fun other hmem => ?_
    · rw [List.map_append]
      refine looser_append _ (loop_not_mem_enclosures fun hmem => hinner ?_)
      exact (hheads.map OpenBlock.kind).subset hmem
    · have hopener := (hnested.ofText?_opener (List.mem_append_left _ hmem)).resolve_left
        fun hloop => hinner (List.mem_map.mpr ⟨other, hmem, hloop.1⟩)
      exact mayStand_text (by simp [hopener]) (by simp [hopener]) (by simp [hopener])
  refine houter.add (formedIn_singleton hnode fun enclosure body hother => ?_)
  cases hbody.symm.trans hother
  exact hnodes

/-- Outside of all blocks every text may stand. -/
theorem Formed.nodes (h : tree.Formed) : FormedIn [] tree.nodes := by
  have hblocks : Throughout OpenBlock.enclosure FormedIn tree.root (tree.blocks ++ []) := by
    rw [List.append_nil]
    exact h
  exact formedIn_nodesOf hblocks.of_append_right hblocks (fun _ _ => nil_looser _) fun _ _ =>
    mayStand_text (fun _ _ => rfl) (fun _ _ => List.not_mem_nil) fun _ => rfl

/-- Reading a token puts no node where it may not stand. -/
theorem Formed.reads {token : Token} {next : PartialTree} (hnested : Nested tree.blocks)
    (h : tree.Formed) (htoken : token.IsGenuine) (hreads : Reads tree token next) :
    next.Formed := by
  cases hreads with
  | text raw =>
    have hnone : Marker.ofText? raw = none := htoken
    exact h.add_text (mayStand_text (by simp [hnone]) (by simp [hnone]) (by simp [hnone]))
  | interpolation path fallback raw =>
    exact h.add (formedIn_singleton (mayStand_of_ne nofun nofun) nofun)
  | inclusion name raw =>
    have hmarker : Marker.ofText? raw = some (.inclusion name) := htoken
    exact h.add_text (mayStand_text (by simp [hmarker]) (by simp [hmarker]) (by simp [hmarker]))
  | openLoop path raw => exact h.openBlock _ _ _
  | openCondition raw hkept => exact h.openBlock _ _ _
  | @keepCondition path raw hkept =>
    have hmarker : Marker.ofText? raw = some (.conditionOpen path) := htoken
    exact h.add_text (mayStand_text (by simp [hmarker]) (by simp [hmarker]) (by simp [hmarker]))
  -- the innermost block becomes a conditional, and no block has to be turned back
  | @closeCondition block outer raw hblocks hkind =>
    have hnode := (hblocks ▸ hnested).mayStand hkind block.body
    refine h.close hnested (List.nil_append (block :: outer) ▸ hblocks) List.not_mem_nil hnode ?_ _
    rw [enclosure_of_ne_loop hkind]
    rfl
  -- the conditionals inside of the loop are turned back into text within its body
  | closeLoop raw hblocks hinner hkind =>
    refine h.close hnested hblocks hinner ?_ ?_ _
    · exact mayStand_of_ne nofun nofun
    · rw [enclosure_of_loop hkind]
      rfl
  -- closing markers that close nothing become text where the rules allow that
  | strayCondition raw hlevel =>
    have hmarker : Marker.ofText? raw = some .conditionClose := htoken
    have hreport : (tree.report (.strayCloser raw)).Formed := h
    exact hreport.add_text (mayStand_text (by simp [hmarker]) (by simp [hmarker])
      fun _ => levelOf_enclosures hlevel)
  | strayLoop raw hloop =>
    have hmarker : Marker.ofText? raw = some .loopClose := htoken
    have hreport : (tree.report (.strayCloser raw)).Formed := h
    exact hreport.add_text (mayStand_text (by simp [hmarker])
      (fun _ => loop_not_mem_enclosures hloop) (by simp [hmarker]))

end PartialTree

/-- **The form of a finished tree.** In the tree of a template the opening marker of a loop is text
outside of all blocks only, and its closing marker is never text inside of a loop. The closing
marker of a conditional is never text in a conditional, unless there is a loop between them. And
where a conditional stands in another one, with no loop between them, it is one on an element, the
one around it is not, and there is no third. -/
theorem normalForm_parseTemplate (source : List Char) : NormalForm (parseTemplate source) := by
  have hformed : ((tokenize source).foldl PartialTree.step .empty).Formed :=
    PartialTree.reading_induction (formedIn_nil []) PartialTree.Formed.reads source
  have hnodes : FormedIn [] (parseTemplate source) := by
    rw [parseTemplate, treeOfTokens_eq_nodes]
    exact hformed.nodes
  intro around node hstands
  rw [← List.append_nil around]
  exact hnodes around node hstands

end StaticSite
