import Vicinity.Graph.Delete
import Vicinity.Proofs.Graph.Insertion
import Vicinity.Proofs.LabelMap

/-!
Marking a node deleted keeps a graph well-formed.

Only the mark, the list of the node's label and, when searches started at the node, the entry point
change (`Marks`). A new entry point is either a neighbour on the top layer, which is as high as the
old one, or the tallest live node, so that the top layer comes down to it (`tallest?_spec`).
-/

namespace Vicinity.Graph

variable {α : Type}

/-- What a graph looks like once a node was marked deleted. -/
structure Marks (g : Graph α) (id : Nat) (h : Graph α) : Prop where
  config_eq : h.config = g.config
  capacity_eq : h.capacity = g.capacity
  journal_eq : h.journal = g.journal
  nextGeneration_eq : h.nextGeneration = g.nextGeneration
  nodeCount_eq : h.nodeCount = g.nodeCount
  vectors_eq : h.vectors = g.vectors
  markedCount_eq : h.markedCount = g.markedCount + 1
  countDeleted_eq : h.nodes.countP (·.deleted) = g.nodes.countP (·.deleted) + 1
  links_eq (j layer : Nat) : h.links j layer = g.links j layer
  layerCount_eq (j : Nat) : h.layerCount j = g.layerCount j
  label?_eq (j : Nat) : h.label? j = g.label? j
  generation?_eq (j : Nat) : h.generation? j = g.generation? j
  isLive_eq (j : Nat) : h.isLive j = (decide (j ≠ id) && g.isLive j)
  isDeleted_eq (j : Nat) : h.isDeleted j = (decide (j = id) || g.isDeleted j)
  idsOf_eq (l : Label) : h.idsOf l = (g.idsOf l).filter (· != id)

/-! ### The label map -/

/-- The node disappears from the list of its label. -/
theorem idsOf_dropId (g : Graph α) (label : Label) (id : Nat) (l : Label) :
    (g.dropId label id).idsOf l =
      if label = l then (g.idsOf l).filter (· != id) else g.idsOf l :=
  LabelMap.getD_find?_unlist g.labels label id l

/-! ### The tallest node -/

/-- The best node among those passed: a tallest live one, or none when none of them is live. -/
structure BestOf (g : Graph α) (passed : List Nat) (best : Option (Nat × Nat)) : Prop where
  none_live : best = none → ∀ j ∈ passed, g.isLive j = false
  live : ∀ id level, best = some (id, level) → g.isLive id = true ∧ g.layerCount id = level + 1
  tallest : ∀ id level, best = some (id, level) →
    ∀ j ∈ passed, g.isLive j = true → g.layerCount j ≤ level + 1

/-- A node that is not taller changes nothing. -/
theorem BestOf.keep {g : Graph α} {passed : List Nat} {best : Option (Nat × Nat)}
    (so_far : g.BestOf passed best) {id : Nat}
    (no_taller : g.isLive id = true →
      ∃ other level, best = some (other, level) ∧ g.layerCount id ≤ level + 1) :
    g.BestOf (passed ++ [id]) best where
  none_live none j mem := by
    rcases List.mem_append.1 mem with old | new
    · exact so_far.none_live none j old
    · cases live : g.isLive j with
      | false => rfl
      | true =>
          obtain ⟨_, _, some, _⟩ := no_taller (List.mem_singleton.1 new ▸ live)
          rw [none] at some
          cases some
  live := so_far.live
  tallest i level some j mem live := by
    rcases List.mem_append.1 mem with old | new
    · exact so_far.tallest i level some j old live
    · cases List.mem_singleton.1 new
      obtain ⟨_, _, same, le⟩ := no_taller live
      rw [some] at same
      cases same
      exact le

/-- A live node that is taller than the best one takes its place. -/
theorem BestOf.replace {g : Graph α} {passed : List Nat} {best : Option (Nat × Nat)}
    (so_far : g.BestOf passed best) {id level : Nat} (live : g.isLive id = true)
    (top : g.layerCount id = level + 1)
    (taller : ∀ other height, best = some (other, height) → height < level) :
    g.BestOf (passed ++ [id]) (some (id, level)) where
  none_live none := by cases none
  live i l some := by
    cases some
    exact ⟨live, top⟩
  tallest i l some j mem live_j := by
    cases some
    rcases List.mem_append.1 mem with old | new
    · cases best with
      | none =>
          rw [so_far.none_live rfl j old] at live_j
          cases live_j
      | some other =>
          have below := so_far.tallest other.1 other.2 rfl j old live_j
          have lt := taller other.1 other.2 rfl
          omega
    · rw [List.mem_singleton.1 new]
      exact Nat.le_of_eq top

theorem BestOf.taller {g : Graph α} (layered : ∀ id, id < g.nodeCount → 0 < g.layerCount id)
    {passed : List Nat} {best : Option (Nat × Nat)} (so_far : g.BestOf passed best) (id : Nat) :
    g.BestOf (passed ++ [id]) (g.taller best id) := by
  unfold Graph.taller
  cases at_id : g.nodes[id]? with
  | none =>
      refine so_far.keep fun live => ?_
      simp [isLive, at_id] at live
  | some node =>
      have top : g.layerCount id = node.topLevel + 1 := by
        have positive := layered id (Array.getElem?_eq_some_iff.1 at_id).1
        rw [layerCount_of_getElem? at_id] at positive ⊢
        rw [Node.topLevel]
        omega
      dsimp only
      split
      case isTrue deleted =>
        refine so_far.keep fun live => ?_
        simp [isLive, at_id, deleted] at live
      case isFalse kept =>
        have live : g.isLive id = true := by simp [isLive, at_id, kept]
        cases best with
        | none => exact so_far.replace live top fun _ _ some => (by cases some)
        | some other =>
            obtain ⟨other, height⟩ := other
            dsimp only
            split
            case isTrue higher =>
              refine so_far.replace live top fun _ _ some => ?_
              cases some
              exact higher
            case isFalse lower => exact so_far.keep fun _ => ⟨other, height, rfl, by omega⟩

theorem tallest?_spec {g : Graph α} (layered : ∀ id, id < g.nodeCount → 0 < g.layerCount id) :
    g.BestOf (List.range g.nodeCount) g.tallest? := by
  suffices ∀ (rest passed : List Nat) (best : Option (Nat × Nat)), g.BestOf passed best →
      g.BestOf (passed ++ rest) (rest.foldl g.taller best) by
    exact this (List.range g.nodeCount) [] none
      ⟨fun _ _ mem => (by cases mem), fun _ _ some => (by cases some),
        fun _ _ some => (by cases some)⟩
  intro rest
  induction rest with
  | nil => exact fun passed best so_far => (List.append_nil passed).symm ▸ so_far
  | cons id rest ih =>
      intro passed best so_far
      have := ih (passed ++ [id]) _ (so_far.taller layered id)
      rwa [List.append_assoc] at this

/-! ### Marking -/

/-- The graph with the mark set and the label's list shortened, before the entry point is seen to.
-/
def setMark (g : Graph α) (id : Nat) (label : Label) : Graph α :=
  ({ g with
    nodes := g.nodes.modify id ({ · with deleted := true })
    markedCount := g.markedCount + 1 } : Graph α).dropId label id

theorem getElem?_setMark (g : Graph α) (id : Nat) (label : Label) (j : Nat) :
    (g.setMark id label).nodes[j]? =
      if id = j then g.nodes[j]?.map ({ · with deleted := true }) else g.nodes[j]? :=
  Array.getElem?_modify

/-- What does not depend on the mark is the same in every slot. -/
theorem getElem?_setMark_map {β : Type} (g : Graph α) (id : Nat) (label : Label)
    {f : Node → β} (blind : ∀ node : Node, f { node with deleted := true } = f node) (j : Nat) :
    (g.setMark id label).nodes[j]?.map f = g.nodes[j]?.map f := by
  rw [getElem?_setMark]
  split
  · rw [Option.map_map]
    exact congrArg (g.nodes[j]?.map ·) (funext blind)
  · rfl

/-- One more node is deleted. -/
theorem countDeleted_setMark {g : Graph α} {id : Nat} {node : Node}
    (at_id : g.nodes[id]? = some node) (kept : node.deleted = false) (label : Label) :
    (g.setMark id label).nodes.countP (·.deleted) = g.nodes.countP (·.deleted) + 1 := by
  obtain ⟨lt, here⟩ := Array.getElem?_eq_some_iff.1 at_id
  have written : (g.setMark id label).nodes = g.nodes.set id { node with deleted := true } lt := by
    refine Array.ext_getElem? fun j => ?_
    rw [getElem?_setMark, Array.getElem?_set]
    split
    case isTrue same => rw [← same, at_id, Option.map_some]
    case isFalse => rfl
  rw [written, Array.countP_set lt, here, kept]
  rfl

theorem marks_setMark {g : Graph α} (listed : g.Listed) {id : Nat} {node : Node}
    (at_id : g.nodes[id]? = some node) (kept : node.deleted = false) :
    g.Marks id (g.setMark id node.label) where
  config_eq := rfl
  capacity_eq := rfl
  journal_eq := rfl
  nextGeneration_eq := rfl
  nodeCount_eq := Array.size_modify
  vectors_eq := rfl
  markedCount_eq := rfl
  countDeleted_eq := countDeleted_setMark at_id kept node.label
  links_eq j layer := by
    have same := g.getElem?_setMark_map id node.label (f := fun n => n.layers) (fun _ => rfl) j
    have := congrArg (fun layers => (layers.bind (·[layer]?)).getD {}) same
    simpa only [links, Option.bind_map, Function.comp_def] using this
  layerCount_eq j := by
    have same := g.getElem?_setMark_map id node.label (f := fun n => n.layers.length)
      (fun _ => rfl) j
    rw [layerCount, same, layerCount]
  label?_eq j := g.getElem?_setMark_map id node.label (fun _ => rfl) j
  generation?_eq j := g.getElem?_setMark_map id node.label (fun _ => rfl) j
  isLive_eq j := by
    rw [isLive, getElem?_setMark]
    by_cases here : id = j
    · subst here
      simp [at_id]
    · simp [here, isLive, Ne.symm here]
  isDeleted_eq j := by
    rw [isDeleted, getElem?_setMark]
    by_cases here : id = j
    · subst here
      simp [at_id]
    · simp [here, isDeleted, Ne.symm here]
  idsOf_eq l := by
    rw [setMark, idsOf_dropId]
    show (if node.label = l then (g.idsOf l).filter (· != id) else g.idsOf l) = _
    split
    · rfl
    case isFalse other =>
      -- The node is listed under its own label only.
      refine (List.filter_eq_self.2 fun j mem => ?_).symm
      simp only [bne_iff_ne, ne_eq]
      rintro rfl
      have own := (listed l j mem).2
      rw [label?, at_id] at own
      cases own
      exact other rfl

namespace Marks

variable {g h : Graph α} {id : Nat} (marks : g.Marks id h)

include marks

theorem paired (paired : g.Paired) : h.Paired := paired.congr marks.links_eq

theorem linked (linked : g.Linked) : h.Linked := linked.congr marks.links_eq

theorem withinDegree (within : g.WithinDegree) : h.WithinDegree := fun j layer => by
  rw [marks.links_eq, marks.config_eq]
  exact within j layer

theorem vector?_eq (j : Nat) : h.vector? j = g.vector? j := by
  rw [vector?, vector?, marks.config_eq, marks.vectors_eq]

theorem filled (filled : g.Filled) : h.Filled where
  aligned := by
    rw [marks.vectors_eq, marks.nodeCount_eq, marks.config_eq]
    exact filled.aligned
  tallied := by rw [marks.markedCount_eq, marks.countDeleted_eq, filled.tallied]
  layered j lt := by
    rw [marks.layerCount_eq]
    exact filled.layered j (marks.nodeCount_eq ▸ lt)

theorem stocked (stocked : g.Stocked) : h.Stocked where
  toFilled := marks.filled stocked.toFilled
  few_layers j := by
    rw [marks.layerCount_eq]
    exact stocked.few_layers j
  generation_lt j x there := by
    rw [marks.nextGeneration_eq]
    exact stocked.generation_lt j x (marks.generation?_eq j ▸ there)
  generation_inj a b x at_a at_b :=
    stocked.generation_inj a b x (marks.generation?_eq a ▸ at_a) (marks.generation?_eq b ▸ at_b)
  fits := by
    rw [marks.nodeCount_eq, marks.capacity_eq]
    exact stocked.fits
  whole_blocks := by
    rw [marks.config_eq, marks.capacity_eq]
    exact stocked.whole_blocks

/-- The live nodes are those from before without the marked one. -/
theorem isLive_iff (j : Nat) : h.isLive j = true ↔ j ≠ id ∧ g.isLive j = true := by
  simp [marks.isLive_eq]

theorem listed (listed : g.Listed) : h.Listed := by
  intro l j mem
  rw [marks.idsOf_eq, List.mem_filter] at mem
  obtain ⟨live, own⟩ := listed l j mem.1
  rw [marks.isLive_iff, marks.label?_eq]
  exact ⟨⟨by simpa using mem.2, live⟩, own⟩

/-- Another choice of the entry point does not show. -/
theorem reroot (entry : Option Nat) (level : Nat) :
    g.Marks id { h with entryPoint := entry, maxLevel := level } :=
  ⟨marks.config_eq, marks.capacity_eq, marks.journal_eq, marks.nextGeneration_eq,
    marks.nodeCount_eq, marks.vectors_eq, marks.markedCount_eq, marks.countDeleted_eq,
    marks.links_eq, marks.layerCount_eq, marks.label?_eq, marks.generation?_eq, marks.isLive_eq,
    marks.isDeleted_eq, marks.idsOf_eq⟩

end Marks

theorem Labelled.setMark {g : Graph α} (labelled : g.Labelled) {id : Nat} {node : Node}
    (at_id : g.nodes[id]? = some node) (kept : node.deleted = false) :
    (g.setMark id node.label).Labelled where
  mem_idsOf l j := by
    have marks := marks_setMark labelled.listed at_id kept
    rw [marks.idsOf_eq, marks.isLive_iff, marks.label?_eq, List.mem_filter, labelled.mem_idsOf]
    simp only [bne_iff_ne, ne_eq]
    constructor
    · rintro ⟨⟨live, own⟩, ne⟩
      exact ⟨⟨ne, live⟩, own⟩
    · rintro ⟨⟨ne, live⟩, own⟩
      exact ⟨⟨live, own⟩, ne⟩
  nodup l := by
    rw [(marks_setMark labelled.listed at_id kept).idsOf_eq]
    exact (labelled.nodup l).filter _
  nonempty := LabelMap.unlist_ne_nil labelled.nonempty node.label id
  single one l := by
    have marks := marks_setMark labelled.listed at_id kept
    rw [marks.idsOf_eq]
    rw [marks.config_eq] at one
    exact Nat.le_trans (List.length_filter_le ..) (labelled.single one l)

theorem entryPoint_setMark (g : Graph α) (id : Nat) (label : Label) :
    (g.setMark id label).entryPoint = g.entryPoint := rfl

theorem maxLevel_setMark (g : Graph α) (id : Nat) (label : Label) :
    (g.setMark id label).maxLevel = g.maxLevel := rfl

/-- Live nodes stand no higher than before. -/
theorem Anchored.below_setMark {g : Graph α} (anchored : g.Anchored) (listed : g.Listed) {id : Nat}
    {node : Node} (at_id : g.nodes[id]? = some node) (kept : node.deleted = false) (j : Nat)
    (live : (g.setMark id node.label).isLive j = true) :
    (g.setMark id node.label).layerCount j ≤ (g.setMark id node.label).maxLevel + 1 := by
  have marks := marks_setMark listed at_id kept
  rw [marks.layerCount_eq, maxLevel_setMark]
  exact anchored.below j ((marks.isLive_iff j).1 live).2

/-- When searches started elsewhere, they go on to do so. -/
theorem Anchored.setMark {g : Graph α} (anchored : g.Anchored) (listed : g.Listed) {id : Nat}
    {node : Node} (at_id : g.nodes[id]? = some node) (kept : node.deleted = false)
    (elsewhere : g.entryPoint ≠ some id) :
    (g.setMark id node.label).Anchored := by
  have marks := marks_setMark listed at_id kept
  refine ⟨fun e entry => ?_, fun e entry => ?_, fun absent j => ?_,
    anchored.below_setMark listed at_id kept⟩
  · rw [entryPoint_setMark] at entry
    refine (marks.isLive_iff e).2 ⟨?_, anchored.live e entry⟩
    rintro rfl
    exact elsewhere entry
  · rw [entryPoint_setMark] at entry
    rw [marks.layerCount_eq, maxLevel_setMark]
    exact anchored.level e entry
  · rw [entryPoint_setMark] at absent
    rw [marks.isLive_eq, anchored.absent absent j, Bool.and_false]

/-- The new start of searches is on the top layer, whichever way it was chosen. -/
theorem anchored_replaceEntry {g : Graph α} (paired : g.Paired)
    (layered : ∀ id, id < g.nodeCount → 0 < g.layerCount id) {id : Nat}
    (below : ∀ j, g.isLive j = true → g.layerCount j ≤ g.maxLevel + 1) :
    (g.replaceEntry id).Anchored := by
  unfold replaceEntry
  split
  case h_1 n found =>
    -- A neighbour on the top layer stands there, and live nodes do not stand higher.
    have live : g.isLive n = true := List.find?_some found
    have stands := paired.stands_target (List.mem_of_find?_eq_some found)
    refine ⟨fun e entry => ?_, fun e entry => ?_, fun absent => ?_, below⟩
    · cases entry
      exact live
    · cases entry
      exact Nat.le_antisymm (below n live) stands
    · cases absent
  case h_2 =>
    have best := tallest?_spec layered
    split
    case h_1 n level tallest =>
      obtain ⟨live, top⟩ := best.live n level tallest
      refine ⟨fun e entry => ?_, fun e entry => ?_, fun absent => ?_, fun j live_j => ?_⟩
      · cases entry
        exact live
      · cases entry
        exact top
      · cases absent
      · exact best.tallest n level tallest j (List.mem_range.2 (lt_nodeCount_of_isLive live_j))
          live_j
    case h_2 none =>
      have dead : ∀ j, g.isLive j = false := fun j => by
        by_cases lt : j < g.nodeCount
        · exact best.none_live none j (List.mem_range.2 lt)
        · simp [isLive, Array.getElem?_eq_none (Nat.not_lt.1 lt)]
      refine ⟨fun e entry => ?_, fun e entry => ?_, fun _ => dead, fun j live => ?_⟩
      · cases entry
      · cases entry
      · have live : g.isLive j = true := live
        rw [dead j] at live
        cases live

/-- Without a node to start from the top layer is the lowest one. -/
theorem ground_replaceEntry {g : Graph α} {id : Nat}
    (absent : (g.replaceEntry id).entryPoint = none) : (g.replaceEntry id).maxLevel = 0 := by
  unfold replaceEntry at absent ⊢
  split at absent
  · cases absent
  · split at absent
    · cases absent
    · rfl

/-- Only the start of searches is replaced. -/
theorem replaceEntry_eq (g : Graph α) (id : Nat) :
    g.replaceEntry id = { g with
      entryPoint := (g.replaceEntry id).entryPoint
      maxLevel := (g.replaceEntry id).maxLevel } := by
  unfold replaceEntry
  split
  · rfl
  · split <;> rfl

/-- What a mark that succeeds has done. -/
theorem eq_of_markDeleted {g h : Graph α} {id : Nat} (marked : g.markDeleted id = .ok h) :
    ∃ node, g.nodes[id]? = some node ∧ node.deleted = false ∧
      h = if g.entryPoint = some id then (g.setMark id node.label).replaceEntry id
        else g.setMark id node.label := by
  unfold Graph.markDeleted at marked
  split at marked
  · contradiction
  case h_2 node at_id =>
    split at marked
    · contradiction
    case isFalse kept =>
      simp only [Except.ok.injEq] at marked
      exact ⟨node, at_id, Bool.eq_false_iff.2 kept, marked.symm⟩

theorem Sturdy.markDeleted {g h : Graph α} (sturdy : g.Sturdy) {id : Nat}
    (marked : g.markDeleted id = .ok h) : h.Sturdy ∧ g.Marks id h ∧ g.isLive id = true := by
  obtain ⟨node, at_id, kept, rfl⟩ := eq_of_markDeleted marked
  have live := isLive_eq_true_iff.2 ⟨node, at_id, kept⟩
  have marks := marks_setMark sturdy.listed at_id kept
  have paired := marks.paired sturdy.paired
  have within := marks.withinDegree sturdy.within
  have listed := marks.listed sturdy.listed
  have filled := marks.filled sturdy.filled
  split
  case isTrue =>
    have anchored : ((g.setMark id node.label).replaceEntry id).Anchored :=
      anchored_replaceEntry paired filled.layered
        (sturdy.anchored.below_setMark sturdy.listed at_id kept)
    rw [replaceEntry_eq] at anchored ⊢
    exact ⟨sturdy_reroot paired within listed filled anchored, marks.reroot _ _, live⟩
  case isFalse elsewhere =>
    have anchored := sturdy.anchored.setMark sturdy.listed at_id kept elsewhere
    exact ⟨⟨paired, within, listed, anchored, filled⟩, marks, live⟩

theorem Labelled.markDeleted {g h : Graph α} (labelled : g.Labelled) {id : Nat}
    (marked : g.markDeleted id = .ok h) : h.Labelled := by
  obtain ⟨node, at_id, live, rfl⟩ := eq_of_markDeleted marked
  have kept := labelled.setMark at_id live
  split
  · rw [replaceEntry_eq]
    exact ⟨kept.mem_idsOf, kept.nodup, kept.nonempty, kept.single⟩
  · exact kept

theorem WellFormed.markDeleted {g h : Graph α} (wf : g.WellFormed) {id : Nat}
    (marked : g.markDeleted id = .ok h) : h.WellFormed ∧ g.Marks id h ∧ g.isLive id = true := by
  obtain ⟨sturdy, marks, live⟩ := wf.sturdy.markDeleted marked
  have ground : h.entryPoint = none → h.maxLevel = 0 := by
    obtain ⟨node, _, _, rfl⟩ := eq_of_markDeleted marked
    split
    · exact ground_replaceEntry
    · rw [entryPoint_setMark, maxLevel_setMark]
      exact wf.rooted.ground
  refine ⟨⟨?_, marks.linked wf.linked, sturdy.within, wf.labelled.markDeleted marked,
    ⟨sturdy.anchored, ground⟩, marks.stocked wf.stocked⟩, marks, live⟩
  rw [marks.config_eq]
  exact wf.usable

/-- Exactly the live nodes can be marked. -/
theorem markDeleted_eq_ok {g : Graph α} {id : Nat} (live : g.isLive id = true) :
    ∃ h, g.markDeleted id = .ok h := by
  obtain ⟨node, at_id, kept⟩ := isLive_eq_true_iff.1 live
  simp only [markDeleted, at_id, kept]
  exact ⟨_, rfl⟩

end Vicinity.Graph
