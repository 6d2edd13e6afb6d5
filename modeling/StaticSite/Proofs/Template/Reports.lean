import StaticSite.Proofs.Template.Steps
import StaticSite.Template.Lint
/-!
# StaticSite.Proofs.Template.Reports

**What is reported about a template, and what is not.** A marker of a block that is text in the
finished tree ought to be reported, unless it is the opening marker of a conditional and stands in
the body of another, where it is kept for the next pass (`dueReports`). Every report is due, and
almost every report that is due is made. What is missing are the reports about some opening markers:
those that were kept as text inside of a conditional which then turned back into text itself
(`heldBackReports`). The two together are what is due (`perm_dueReports`).
-/

set_option autoImplicit false

namespace StaticSite

/-! ### Levels of a tree

What is due is read off from the finished tree, level by level: a level is a list of nodes next to
each other, and it matters only what these are the nodes of. -/

/-- What nodes next to each other are the nodes of. -/
inductive Level where
  | outside
  | conditional
  | loop
deriving DecidableEq

mutual

/-- The bodies of a node and of all nodes in it. -/
def Node.levels : Node → List (Level × List Node)
  | .text _ => []
  | .interpolation _ _ => []
  | .conditional _ body => (.conditional, body) :: levelsBelow body
  | .loop _ body => (.loop, body) :: levelsBelow body

/-- The bodies of all nodes of a tree. -/
def levelsBelow : List Node → List (Level × List Node)
  | [] => []
  | node :: rest => node.levels ++ levelsBelow rest

end

/-- A tree, taken apart into lists of nodes that stand next to each other. -/
def levels (nodes : List Node) : List (Level × List Node) := (.outside, nodes) :: levelsBelow nodes

/-- A node as a marker that is text, with the text. -/
def Node.textMarker? : Node → Option (Marker × List Char)
  | .text raw => (Marker.ofText? raw).map (·, raw)
  | _ => none

/-- The markers among the texts at a level. -/
def textMarkers (nodes : List Node) : List (Marker × List Char) := nodes.filterMap Node.textMarker?

/-- The report that is due about a marker that is text at some level. -/
def Level.dueAbout (level : Level) : Marker × List Char → Option Lint
  | (.loopOpen _, raw) => some (.unterminated .loop raw)
  | (.conditionOpen _, raw) =>
    if level = .conditional then none else some (.unterminated .condition raw)
  | (.loopClose, raw) => some (.strayCloser raw)
  | (.conditionClose, raw) => some (.strayCloser raw)
  | (.interpolation _ _, _) => none
  | (.inclusion _, _) => none

/-- The reports that are due about a tree. -/
def dueReports (nodes : List Node) : List Lint :=
  (levels nodes).flatMap fun (level, nodes) => (textMarkers nodes).filterMap level.dueAbout

/-! ### Markers that were kept as text inside of a conditional

Which marker was kept as text can be read off from the finished tree as well. The markers at a level
are gone through in order, and the blocks that they opened are counted in until the level ends: none
of them has been closed, else it would not be text. -/

namespace PartialTree

instance (kinds : List BlockKind) (path : String) : Decidable (KeepsAsText kinds path) :=
  inferInstanceAs (Decidable (∃ kind ∈ kinds.takeWhile (· ≠ .loop),
    kind = .elementCondition ∨ (conditionKind kinds path = .condition ∧ kind = .condition)))

/-- The blocks that are open after a marker that is text in the end. An opening marker has opened a
block that was turned back into text later, unless the marker was kept as text at once. -/
def kindsAfter (kinds : List BlockKind) : Marker → List BlockKind
  | .loopOpen _ => .loop :: kinds
  | .conditionOpen path =>
    if KeepsAsText kinds path then kinds else conditionKind kinds path :: kinds
  | _ => kinds

/-- The report that is missing about a marker: an opening marker that was kept as text at once. -/
def heldBackAbout (kinds : List BlockKind) : Marker × List Char → Option Lint
  | (.conditionOpen path, raw) =>
    if KeepsAsText kinds path then some (.unterminated .condition raw) else none
  | _ => none

/-- The reports that `about` gives for markers that are text in the end, one after the other. -/
def reportsAlong (about : List BlockKind → Marker × List Char → Option Lint) :
    List BlockKind → List (Marker × List Char) → List Lint
  | _, [] => []
  | kinds, marker :: rest =>
    (about kinds marker).toList ++ reportsAlong about (kindsAfter kinds marker.1) rest

end PartialTree

open PartialTree

/-- The reports that are missing at a level. -/
def Level.heldBack (markers : List (Marker × List Char)) : Level → List Lint
  | .outside => reportsAlong heldBackAbout [] markers
  | .conditional => []
  | .loop => reportsAlong heldBackAbout [.loop] markers

/-- The reports that are missing about a tree. -/
def heldBackReports (nodes : List Node) : List Lint :=
  (levels nodes).flatMap fun (level, nodes) => level.heldBack (textMarkers nodes)

/-! ### Reports that are made

At each level the reports that are due are divided between those that are made and those that are
held back, marker by marker. A permutation is all that can be said, since a report is made when its
block is given up and not in the order of the text. -/

namespace PartialTree

/-- The report that is made about a marker. -/
def toldAbout (kinds : List BlockKind) : Marker × List Char → Option Lint
  | (.conditionOpen path, raw) =>
    if KeepsAsText kinds path then none else some (.unterminated (conditionKind kinds path) raw)
  | marker => Level.outside.dueAbout marker

end PartialTree

/-- The reports that are made at a level. -/
def Level.told (markers : List (Marker × List Char)) : Level → List Lint
  | .outside => reportsAlong toldAbout [] markers
  | .conditional => markers.filterMap (dueAbout .conditional)
  | .loop => reportsAlong toldAbout [.loop] markers

/-- The reports that are made about all levels of a tree but its own. -/
def toldBelow (nodes : List Node) : List Lint :=
  (levelsBelow nodes).flatMap fun (level, nodes) => level.told (textMarkers nodes)

/-- The reports that are made about a tree which stands inside of open blocks. -/
def toldWithin (kinds : List BlockKind) (nodes : List Node) : List Lint :=
  reportsAlong toldAbout kinds (textMarkers nodes) ++ toldBelow nodes

theorem message_unterminated_conditionKind (kinds : List BlockKind) (path : String)
    (raw : List Char) :
    (Lint.unterminated (conditionKind kinds path) raw).message =
      (Lint.unterminated .condition raw).message := by
  unfold conditionKind
  split
  · rfl
  · rfl

theorem told_append_heldBack_about (kinds : List BlockKind) (marker : Marker × List Char) :
    ((toldAbout kinds marker).toList ++ (heldBackAbout kinds marker).toList).map Lint.message =
      (Level.outside.dueAbout marker).toList.map Lint.message := by
  obtain ⟨marker, raw⟩ := marker
  cases marker with
  | conditionOpen path =>
    by_cases hkept : KeepsAsText kinds path
    · simp [toldAbout, heldBackAbout, hkept, Level.dueAbout]
    · simp [toldAbout, heldBackAbout, hkept, Level.dueAbout, message_unterminated_conditionKind]
  | _ => simp [toldAbout, heldBackAbout, Level.dueAbout]

/-- Two divisions in two parts, put together part by part. -/
theorem perm_append_append {α : Type} {first second whole first' second' whole' : List α}
    (h : (first ++ second).Perm whole) (h' : (first' ++ second').Perm whole') :
    ((first ++ first') ++ (second ++ second')).Perm (whole ++ whole') := by
  classical
  rw [List.perm_iff_count] at h h' ⊢
  intro a
  have ha := h a
  have ha' := h' a
  simp only [List.count_append] at ha ha' ⊢
  omega

theorem told_append_heldBack_along (kinds : List BlockKind) (markers : List (Marker × List Char)) :
    ((reportsAlong toldAbout kinds markers ++ reportsAlong heldBackAbout kinds markers).map
      Lint.message).Perm ((markers.filterMap Level.outside.dueAbout).map Lint.message) := by
  induction markers generalizing kinds with
  | nil => exact .refl _
  | cons marker rest ih =>
    have hfirst := told_append_heldBack_about kinds marker
    have hrest := ih (kindsAfter kinds marker.1)
    have hdue : (marker :: rest).filterMap Level.outside.dueAbout =
        (Level.outside.dueAbout marker).toList ++ rest.filterMap Level.outside.dueAbout := by
      cases h : Level.outside.dueAbout marker with
      | none => simp [h]
      | some due => simp [h]
    rw [hdue, reportsAlong, reportsAlong]
    simp only [List.map_append] at hfirst hrest ⊢
    exact perm_append_append (.of_eq hfirst) hrest

/-- At each level, what is reported and what is missing are what is due. -/
theorem Level.told_append_heldBack (level : Level) (markers : List (Marker × List Char)) :
    ((level.told markers ++ level.heldBack markers).map Lint.message).Perm
      ((markers.filterMap level.dueAbout).map Lint.message) := by
  cases level with
  | outside => exact told_append_heldBack_along [] markers
  | conditional => simp [told, heldBack]
  | loop => exact told_append_heldBack_along [.loop] markers

theorem told_append_heldBack (nodes : List Node) :
    ((toldWithin [] nodes ++ heldBackReports nodes).map Lint.message).Perm
      ((dueReports nodes).map Lint.message) := by
  have hlevels : toldWithin [] nodes =
      (levels nodes).flatMap fun (level, nodes) => level.told (textMarkers nodes) := rfl
  rw [hlevels]
  unfold heldBackReports dueReports
  induction levels nodes with
  | nil => exact .refl _
  | cons level rest ih =>
    have hfirst := level.1.told_append_heldBack (textMarkers level.2)
    simp only [List.flatMap_cons, List.map_append] at hfirst ih ⊢
    exact perm_append_append hfirst ih

/-! ### The nodes of a tree, put together

Reading adds nodes at the end. So the functions on trees have to be told for a list of nodes with
more nodes after it, and this is where the blocks that the first nodes have opened come in. -/

theorem textMarkers_append (first second : List Node) :
    textMarkers (first ++ second) = textMarkers first ++ textMarkers second :=
  List.filterMap_append

theorem levelsBelow_append (first second : List Node) :
    levelsBelow (first ++ second) = levelsBelow first ++ levelsBelow second := by
  induction first with
  | nil => rfl
  | cons node rest ih => simp [levelsBelow, ih]

theorem toldBelow_append (first second : List Node) :
    toldBelow (first ++ second) = toldBelow first ++ toldBelow second := by
  unfold toldBelow
  rw [levelsBelow_append, List.flatMap_append]

namespace PartialTree

/-- The blocks that are open after markers that are text in the end. -/
def kindsAlong (kinds : List BlockKind) (markers : List (Marker × List Char)) : List BlockKind :=
  markers.foldl (fun kinds marker => kindsAfter kinds marker.1) kinds

theorem kindsAlong_cons (kinds : List BlockKind) (marker : Marker × List Char)
    (rest : List (Marker × List Char)) :
    kindsAlong kinds (marker :: rest) = kindsAlong (kindsAfter kinds marker.1) rest := rfl

theorem kindsAlong_append (kinds : List BlockKind) (first second : List (Marker × List Char)) :
    kindsAlong kinds (first ++ second) = kindsAlong (kindsAlong kinds first) second :=
  List.foldl_append

theorem reportsAlong_append (about : List BlockKind → Marker × List Char → Option Lint)
    (kinds : List BlockKind) (first second : List (Marker × List Char)) :
    reportsAlong about kinds (first ++ second) =
      reportsAlong about kinds first ++ reportsAlong about (kindsAlong kinds first) second := by
  induction first generalizing kinds with
  | nil => rfl
  | cons marker rest ih => simp [reportsAlong, kindsAlong_cons, ih]

end PartialTree

theorem toldWithin_append (kinds : List BlockKind) (first second : List Node) :
    (toldWithin kinds (first ++ second)).Perm
      (toldWithin kinds first ++ toldWithin (kindsAlong kinds (textMarkers first)) second) := by
  unfold toldWithin
  rw [textMarkers_append, reportsAlong_append, toldBelow_append]
  exact (perm_append_append (.refl _) (.refl _)).symm

/-! ### Open blocks

In the middle of a template the reports about open blocks have not been made yet. They are counted
as if the template ended here, and then the account is right after every token. -/

namespace PartialTree

variable {tree : PartialTree} {block : OpenBlock} {inner outer blocks : List OpenBlock}

/-- The opening marker of a block that is turned back into text says which block was open. -/
theorem OpensIn.opener {kinds : List BlockKind} (h : OpensIn kinds block) :
    kindsAlong kinds (textMarkers [.text block.opener]) = block.kind :: kinds ∧
      toldWithin kinds [.text block.opener] = [unterminated block] := by
  rcases h with ⟨hkind, hopener⟩ | ⟨hopens, hkind, hopener⟩
  · simp [kindsAlong, toldWithin, textMarkers, Node.textMarker?, hopener, kindsAfter, reportsAlong,
      toldAbout, Level.dueAbout, toldBelow, levelsBelow, Node.levels, unterminated, hkind]
  · simp [kindsAlong, toldWithin, textMarkers, Node.textMarker?, hopener, kindsAfter, reportsAlong,
      toldAbout, toldBelow, levelsBelow, Node.levels, unterminated, hkind, hopens]

/-- Whether no node of an open block has opened a block. -/
abbrev BodiesKept (root : List Node) (blocks : List OpenBlock) : Prop :=
  Throughout OpenBlock.kind (fun kinds nodes => kindsAlong kinds (textMarkers nodes) = kinds) root
    blocks

/-- The open blocks can be told from the nodes that the tree has when they are turned back into
text. -/
theorem kindsAlong_nodesOf {root : List Node} (hnested : Nested blocks)
    (hbodies : BodiesKept root blocks) :
    kindsAlong [] (textMarkers (nodesOf root blocks)) = blocks.map OpenBlock.kind := by
  induction blocks with
  | nil => exact hbodies
  | cons block outer ih =>
    have hbody : kindsAlong (block.kind :: outer.map OpenBlock.kind) (textMarkers block.body) =
        block.kind :: outer.map OpenBlock.kind := hbodies.1
    have hnodes : nodesOf root (block :: outer) =
        nodesOf root outer ++ ([.text block.opener] ++ block.body) := rfl
    rw [hnodes, textMarkers_append, textMarkers_append, kindsAlong_append, kindsAlong_append,
      ih hnested.2 hbodies.2, hnested.1.opener.1, hbody, List.map_cons]

/-- Whether the reports about a tree are those that are made about its nodes. -/
structure Accounted (tree : PartialTree) : Prop where
  bodies : BodiesKept tree.root tree.blocks
  reports : tree.reports.Perm (toldWithin [] tree.nodes)

theorem reports_add (tree : PartialTree) (more : List Node) :
    (tree.add more).reports = tree.reports := by
  unfold reports
  rw [lint_add, map_unterminated_add]

theorem reports_report (tree : PartialTree) (lint : Lint) :
    (tree.report lint).reports.Perm (tree.reports ++ [lint]) := by
  show (tree.lint ++ [lint] ++ tree.blocks.map unterminated).Perm
    (tree.lint ++ tree.blocks.map unterminated ++ [lint])
  rw [List.append_assoc, List.append_assoc]
  exact .append_left _ List.perm_append_comm

/-- Nodes that open no block are added with the reports about them. -/
theorem Accounted.add {base : PartialTree} (hnested : Nested tree.blocks) (h : tree.Accounted)
    (hroot : base.root = tree.root) (hblocks : base.blocks = tree.blocks) {more : List Node}
    (hkinds : kindsAlong tree.kinds (textMarkers more) = tree.kinds)
    (hreports : base.reports.Perm (tree.reports ++ toldWithin tree.kinds more)) :
    (base.add more).Accounted where
  bodies := by
    have hbase : BodiesKept base.root base.blocks := hroot ▸ hblocks ▸ h.bodies
    refine hbase.add (fun _ _ => rfl) fun nodes hnodes => ?_
    rw [hblocks] at hnodes ⊢
    rw [textMarkers_append, kindsAlong_append, hnodes, hkinds]
  reports := by
    have hnodes : base.nodes = tree.nodes := by rw [nodes, nodes, hroot, hblocks]
    have hopen : kindsAlong [] (textMarkers tree.nodes) = tree.kinds :=
      kindsAlong_nodesOf hnested h.bodies
    rw [reports_add, nodes_add, hnodes]
    refine hreports.trans ((h.reports.append_right _).trans ?_)
    rw [← hopen]
    exact (toldWithin_append [] tree.nodes more).symm

/-! ### Blocks that are closed

A block that is closed takes back the report about its opening marker. Its body becomes a level of
its own, and the reports about the body stay what they are. -/

theorem kindsAfter_eq_or (kinds : List BlockKind) (marker : Marker) :
    kindsAfter kinds marker = kinds ∨ ∃ kind, kindsAfter kinds marker = kind :: kinds := by
  unfold kindsAfter
  split
  · exact Or.inr ⟨_, rfl⟩
  · split
    · exact Or.inl rfl
    · exact Or.inr ⟨_, rfl⟩
  · exact Or.inl rfl

theorem suffix_kindsAlong (kinds : List BlockKind) (markers : List (Marker × List Char)) :
    kinds <:+ kindsAlong kinds markers := by
  induction markers generalizing kinds with
  | nil => exact List.suffix_refl _
  | cons marker rest ih =>
    have hrest := ih (kindsAfter kinds marker.1)
    rw [kindsAlong_cons]
    rcases kindsAfter_eq_or kinds marker.1 with hsame | ⟨kind, hopened⟩
    · rwa [hsame] at hrest ⊢
    · exact (hopened ▸ List.suffix_cons kind kinds).trans hrest

/-- Where no marker has opened a block, the reports are those that are due in a conditional. -/
theorem reportsAlong_toldAbout_of_kept {kinds : List BlockKind}
    {markers : List (Marker × List Char)}
    (h : kindsAlong kinds markers = kinds) :
    reportsAlong toldAbout kinds markers = markers.filterMap Level.conditional.dueAbout := by
  induction markers with
  | nil => rfl
  | cons marker rest ih =>
    -- a block that a marker opens stays to the end, so the first marker has opened none
    have hsame : kindsAfter kinds marker.1 = kinds := by
      refine (kindsAfter_eq_or kinds marker.1).resolve_right fun ⟨kind, hopened⟩ => ?_
      have hsuffix := (suffix_kindsAlong (kindsAfter kinds marker.1) rest).length_le
      rw [← kindsAlong_cons, h, hopened, List.length_cons] at hsuffix
      omega
    rw [kindsAlong_cons, hsame] at h
    -- the two reports differ only about the opening marker of a conditional that is not kept as
    -- text
    have habout : toldAbout kinds marker = Level.conditional.dueAbout marker := by
      obtain ⟨marker, raw⟩ := marker
      cases marker with
      | loopOpen path => simp [kindsAfter] at hsame
      | conditionOpen path =>
        by_cases hkept : KeepsAsText kinds path
        · simp [toldAbout, Level.dueAbout, hkept]
        · simp [kindsAfter, hkept] at hsame
      | _ => rfl
    rw [reportsAlong, hsame, habout, ih h]
    cases hdue : Level.conditional.dueAbout marker with
    | none => simp [hdue]
    | some due => simp [hdue]

/-- Inside of a loop, what is open further out has no part in the reports. -/
theorem reportsAlong_toldAbout_append {inner : List BlockKind} (h : .loop ∈ inner)
    (outer : List BlockKind) (markers : List (Marker × List Char)) :
    reportsAlong toldAbout (inner ++ outer) markers = reportsAlong toldAbout inner markers := by
  induction markers generalizing inner with
  | nil => rfl
  | cons marker rest ih =>
    obtain ⟨marker, raw⟩ := marker
    have hafter : kindsAfter (inner ++ outer) marker = kindsAfter inner marker ++ outer ∧
        toldAbout (inner ++ outer) (marker, raw) = toldAbout inner (marker, raw) := by
      cases marker with
      | conditionOpen path =>
        have halone : ReadsAlone inner outer (.marker (.conditionOpen path) raw) := Or.inl h
        obtain ⟨hkeeps, hkind⟩ := decisions_append halone
        by_cases hkept : KeepsAsText inner path
        · simp [kindsAfter, toldAbout, hkeeps, hkept]
        · simp [kindsAfter, toldAbout, hkeeps, hkept, hkind hkept]
      | _ => exact ⟨rfl, rfl⟩
    have hloop : .loop ∈ kindsAfter inner marker := by
      rcases kindsAfter_eq_or inner marker with hsame | ⟨kind, hopened⟩
      · rwa [hsame]
      · rw [hopened]
        exact List.mem_cons_of_mem _ h
    rw [reportsAlong, reportsAlong, hafter.1, hafter.2, ih hloop]

/-- The nodes of a tree with an open block, with the blocks in it turned back into text. -/
theorem nodes_of_append (hblocks : tree.blocks = inner ++ block :: outer) :
    tree.nodes =
      nodesOf tree.root outer ++ ([.text block.opener] ++ nodesOf block.body inner) := by
  have hopen : nodesOf tree.root (block :: outer) =
      nodesOf tree.root outer ++ ([.text block.opener] ++ block.body) := rfl
  rw [nodes, hblocks, nodesOf_append, hopen, List.append_assoc, List.append_assoc,
    ← nodesOf_root_append, List.append_nil]

/-- A block that is closed is not reported any more. -/
theorem reports_of_append (hblocks : tree.blocks = inner ++ block :: outer) (nodes : List Node) :
    tree.reports.Perm
      (unterminated block ::
        (PartialTree.add ⟨tree.root, outer, tree.lint ++ inner.map unterminated⟩
          nodes).reports) := by
  rw [reports_add, PartialTree.reports, PartialTree.reports, hblocks]
  simp only [List.map_append, List.map_cons, List.append_assoc]
  rw [← List.append_assoc, ← List.append_assoc]
  exact List.perm_middle

/-- A node that takes the place of an opening marker and of what comes after it. -/
theorem toldWithin_close {before body : List Node} {kinds : List BlockKind} {node : Node}
    (hbefore : kindsAlong [] (textMarkers before) = kinds) (hopens : OpensIn kinds block)
    (hnode : node.textMarker? = none)
    (hbelow : toldBelow [node] = toldWithin (block.kind :: kinds) body) :
    (toldWithin [] (before ++ ([.text block.opener] ++ body))).Perm
      (unterminated block :: toldWithin [] (before ++ [node])) := by
  obtain ⟨hkinds, hopener⟩ := hopens.opener
  have hsingle : toldWithin kinds [node] = toldBelow [node] := by
    simp [toldWithin, textMarkers, hnode, reportsAlong]
  have hopened := toldWithin_append kinds [.text block.opener] body
  rw [hkinds, hopener, ← hbelow, ← hsingle] at hopened
  have hwhole := toldWithin_append [] before ([.text block.opener] ++ body)
  have hclosed := toldWithin_append [] before [node]
  rw [hbefore] at hwhole hclosed
  have hparts := hwhole.trans (hopened.append_left (toldWithin [] before))
  exact hparts.trans (List.perm_middle.trans (hclosed.symm.cons _))

/-- Closing a block takes the report about its opening marker away, and puts its body, with the
blocks in it that are turned back into text, one level deeper. -/
theorem Accounted.close (hnested : Nested tree.blocks) (h : tree.Accounted)
    (hblocks : tree.blocks = inner ++ block :: outer) {node : Node}
    (hnode : node.textMarker? = none)
    (hbelow : toldBelow [node] =
      toldWithin (block.kind :: outer.map OpenBlock.kind) (nodesOf block.body inner)) :
    (PartialTree.add ⟨tree.root, outer, tree.lint ++ inner.map unterminated⟩ [node]).Accounted := by
  obtain ⟨hbodies, hreports⟩ := h
  rw [hblocks] at hnested hbodies
  obtain ⟨hopens, hnested⟩ := hnested.of_append_right
  obtain ⟨-, hbodies⟩ := hbodies.of_append_right
  have hmarkers : textMarkers [node] = [] := by simp [textMarkers, hnode]
  refine ⟨hbodies.add (fun _ _ => rfl) fun nodes hkept => ?_, ?_⟩
  · rwa [textMarkers_append, hmarkers, List.append_nil]
  · have htold := toldWithin_close (kindsAlong_nodesOf hnested hbodies) hopens hnode hbelow
    rw [← nodes_of_append hblocks] at htold
    rw [nodes_add]
    exact ((reports_of_append hblocks [node]).symm.trans (hreports.trans htold)).cons_inv

theorem Accounted.closeCondition (hnested : Nested tree.blocks) (h : tree.Accounted)
    (hblocks : tree.blocks = block :: outer) :
    ({ tree with blocks := outer }.add [.conditional block.path block.body]).Accounted := by
  have hbody : kindsAlong (block.kind :: outer.map OpenBlock.kind) (textMarkers block.body) =
      block.kind :: outer.map OpenBlock.kind := by
    have hbodies := h.bodies
    rw [hblocks] at hbodies
    exact hbodies.1
  have hbelow : toldBelow [.conditional block.path block.body] =
      toldWithin (block.kind :: outer.map OpenBlock.kind) (nodesOf block.body []) := by
    rw [nodesOf, toldWithin, reportsAlong_toldAbout_of_kept hbody]
    simp [toldBelow, levelsBelow, Node.levels, Level.told]
  have hclosed := Accounted.close hnested h (List.nil_append (block :: outer) ▸ hblocks) rfl hbelow
  rw [List.map_nil, List.append_nil] at hclosed
  exact hclosed

theorem Accounted.closeLoop (hnested : Nested tree.blocks) (h : tree.Accounted)
    (hblocks : tree.blocks = inner ++ block :: outer) (hkind : block.kind = .loop) :
    (PartialTree.add ⟨tree.root, outer, tree.lint ++ inner.map unterminated⟩
      [.loop block.path (nodesOf block.body inner)]).Accounted := by
  have hbelow : toldBelow [.loop block.path (nodesOf block.body inner)] =
      toldWithin (block.kind :: outer.map OpenBlock.kind) (nodesOf block.body inner) := by
    have houter := reportsAlong_toldAbout_append (List.mem_singleton_self BlockKind.loop)
      (outer.map OpenBlock.kind) (textMarkers (nodesOf block.body inner))
    rw [List.singleton_append] at houter
    rw [toldWithin, hkind, houter]
    simp [toldBelow, levelsBelow, Node.levels, Level.told]
  exact Accounted.close hnested h hblocks rfl hbelow

/-! ### Tokens

Each way to read a token adds nodes, opens a block or closes one. The invariant has a lemma for each
of these, and the induction over the tokens is that of the reader. -/

/-- A text that opens no block, with the report that is made about it. -/
theorem quiet_text {kinds : List BlockKind} {raw : List Char} {marker : Marker}
    (hmarker : Marker.ofText? raw = some marker) (hafter : kindsAfter kinds marker = kinds) :
    kindsAlong kinds (textMarkers [.text raw]) = kinds ∧
      toldWithin kinds [.text raw] = (toldAbout kinds (marker, raw)).toList := by
  simp [kindsAlong, textMarkers, Node.textMarker?, hmarker, hafter, toldWithin, reportsAlong,
    toldBelow, levelsBelow, Node.levels]

/-- Nodes that are no markers and hold none. -/
theorem Accounted.add_plain (hnested : Nested tree.blocks) (h : tree.Accounted) {node : Node}
    (hnode : node.textMarker? = none) (hlevels : node.levels = []) :
    (tree.add [node]).Accounted := by
  have hmarkers : textMarkers [node] = [] := by simp [textMarkers, hnode]
  have hbelow : toldBelow [node] = [] := by simp [toldBelow, levelsBelow, hlevels]
  refine h.add hnested rfl rfl ?_ ?_
  · rw [hmarkers]
    rfl
  · rw [toldWithin, hmarkers, hbelow]
    simp [reportsAlong]

/-- A closing marker with nothing to close is reported once and for all. -/
theorem Accounted.stray (hnested : Nested tree.blocks) (h : tree.Accounted) {raw : List Char}
    {marker : Marker} (hmarker : Marker.ofText? raw = some marker)
    (hafter : kindsAfter tree.kinds marker = tree.kinds)
    (habout : toldAbout tree.kinds (marker, raw) = some (.strayCloser raw)) :
    ((tree.report (.strayCloser raw)).add [.text raw]).Accounted := by
  obtain ⟨hkinds, htold⟩ := quiet_text hmarker hafter
  refine h.add hnested ?_ ?_ hkinds ?_
  · rfl
  · rfl
  · rw [htold, habout]
    exact reports_report tree _

/-- A block that is opened is reported until it is closed. -/
theorem Accounted.openBlock (hnested : Nested tree.blocks) (h : tree.Accounted) {kind : BlockKind}
    {path : String} {opener : List Char} (hopens : OpensIn tree.kinds ⟨kind, path, opener, []⟩) :
    (tree.openBlock kind path opener).Accounted where
  bodies := ⟨rfl, h.bodies⟩
  reports := by
    have htold := toldWithin_append [] tree.nodes [.text opener]
    have hkinds : kindsAlong [] (textMarkers tree.nodes) = tree.kinds :=
      kindsAlong_nodesOf hnested h.bodies
    have hopener : toldWithin tree.kinds [.text opener] =
        [unterminated ⟨kind, path, opener, []⟩] := hopens.opener.2
    rw [hkinds, hopener] at htold
    refine List.perm_middle.trans ((h.reports.cons _).trans ?_)
    rw [nodes_openBlock]
    exact List.perm_append_comm.trans htold.symm

/-- Reading a token keeps the reports and the nodes in accord. -/
theorem Accounted.reads {token : Token} {next : PartialTree} (hnested : Nested tree.blocks)
    (h : tree.Accounted) (htoken : token.IsGenuine) (hreads : Reads tree token next) :
    next.Accounted := by
  cases hreads with
  | text raw =>
    have hnone : Marker.ofText? raw = none := htoken
    exact h.add_plain hnested (by simp [Node.textMarker?, hnone]) rfl
  | interpolation path fallback raw => exact h.add_plain hnested rfl rfl
  | inclusion name raw =>
    obtain ⟨hkinds, htold⟩ := quiet_text htoken rfl
    exact h.add hnested rfl rfl hkinds (by simp [htold, toldAbout, Level.dueAbout])
  | openLoop path raw => exact h.openBlock hnested (Or.inl ⟨rfl, htoken⟩)
  | openCondition raw hkept => exact h.openBlock hnested (Or.inr ⟨hkept, rfl, htoken⟩)
  | keepCondition raw hkept =>
    obtain ⟨hkinds, htold⟩ := quiet_text htoken (if_pos hkept)
    exact h.add hnested rfl rfl hkinds (by simp [htold, toldAbout, hkept])
  | closeCondition raw hblocks hkind => exact h.closeCondition hnested hblocks
  | closeLoop raw hblocks hinner hkind => exact h.closeLoop hnested hblocks hkind
  | strayCondition raw hlevel => exact h.stray hnested htoken rfl rfl
  | strayLoop raw hloop => exact h.stray hnested htoken rfl rfl

end PartialTree

/-- The reports about a template are those that are made about its tree. -/
theorem perm_toldWithin_parseTemplate (source : List Char) :
    (lintTemplate source).Perm (toldWithin [] (parseTemplate source)) := by
  have hempty : PartialTree.Accounted .empty := ⟨rfl, .refl _⟩
  have hread : ((tokenize source).foldl PartialTree.step .empty).Accounted :=
    PartialTree.reading_induction hempty PartialTree.Accounted.reads source
  rw [lintTemplate, lint_ofTokens, parseTemplate, treeOfTokens_eq_nodes]
  exact hread.reports

/-- **What is reported about a template.** The reports about a template and those that are missing
are together the reports that are due about its tree, each as often as it is due. So exactly those
are made that are due if none is missing. -/
theorem perm_dueReports (source : List Char) :
    ((lintTemplate source).map Lint.message ++
        (heldBackReports (parseTemplate source)).map Lint.message).Perm
      ((dueReports (parseTemplate source)).map Lint.message) ∧
    (((lintTemplate source).map Lint.message).Perm
        ((dueReports (parseTemplate source)).map Lint.message) ↔
      heldBackReports (parseTemplate source) = []) := by
  have hall : ((lintTemplate source).map Lint.message ++
        (heldBackReports (parseTemplate source)).map Lint.message).Perm
      ((dueReports (parseTemplate source)).map Lint.message) := by
    have htold := (perm_toldWithin_parseTemplate source).map Lint.message
    have hdue := told_append_heldBack (parseTemplate source)
    rw [List.map_append] at hdue
    exact (htold.append_right _).trans hdue
  refine ⟨hall, fun hlint => ?_, fun hnone => ?_⟩
  · have hlength := hall.length_eq
    rw [List.length_append, hlint.length_eq] at hlength
    rw [List.length_map Lint.message, List.length_map] at hlength
    exact List.length_eq_zero_iff.mp (by omega)
  · rwa [hnone, List.map_nil, List.append_nil] at hall

/-- An opening marker that is kept as text inside of a conditional which is never closed is not
reported, although it ends up outside of all blocks. -/
theorem not_perm_dueReports :
    parseTemplate (templateOf "«#if a»«#if b»x") =
        [.text (templateOf "«#if a»"), .text (templateOf "«#if b»"), .text ['x']] ∧
      lintTemplate (templateOf "«#if a»«#if b»x") =
        [.unterminated .condition (templateOf "«#if a»")] ∧
      dueReports (parseTemplate (templateOf "«#if a»«#if b»x")) =
        [.unterminated .condition (templateOf "«#if a»"),
          .unterminated .condition (templateOf "«#if b»")] ∧
      ¬ ((lintTemplate (templateOf "«#if a»«#if b»x")).map Lint.message).Perm
        ((dueReports (parseTemplate (templateOf "«#if a»«#if b»x"))).map Lint.message) := by
  have htokens : tokenize (templateOf "«#if a»«#if b»x") =
      [.marker (.conditionOpen "a") (templateOf "«#if a»"),
        .marker (.conditionOpen "b") (templateOf "«#if b»"), .text ['x']] := by decide +kernel
  have hnodes : parseTemplate (templateOf "«#if a»«#if b»x") =
      [.text (templateOf "«#if a»"), .text (templateOf "«#if b»"), .text ['x']] := by
    rw [parseTemplate, htokens]
    rfl
  have hlint : lintTemplate (templateOf "«#if a»«#if b»x") =
      [.unterminated .condition (templateOf "«#if a»")] := by
    rw [lintTemplate, htokens]
    rfl
  have hdue : dueReports (parseTemplate (templateOf "«#if a»«#if b»x")) =
      [.unterminated .condition (templateOf "«#if a»"),
        .unterminated .condition (templateOf "«#if b»")] := by
    rw [hnodes]
    decide +kernel
  -- one report is made and two are due
  refine ⟨hnodes, hlint, hdue, fun hperm => ?_⟩
  have hlength := hperm.length_eq
  rw [hlint, hdue] at hlength
  cases hlength

end StaticSite
