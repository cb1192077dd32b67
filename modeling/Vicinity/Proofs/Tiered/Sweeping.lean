import Vicinity.Proofs.Graph.Renaming
import Vicinity.Proofs.Tiered.Contents
import Vicinity.Proofs.Tiered.SwapJobs

/-!
What a pass does to the nodes that are ready.

A pass takes the ready nodes from the highest slot down and frees one slot after the other. Only a
live node moves, so each of them stands where it stood when its turn comes (`Vacates.stays`), and
what is gone in the end are exactly the nodes whose slots were freed (`Vacates.nodes_perm`). The
first slot that is not freed is refused because the last slot holds a deleted node; from then on
nothing changes, so all the others are refused for the same reason (`Tended.swapAll_splits`). The
nodes ready before are therefore those that went and those that are ready after (`Sweeps`).
-/

namespace Vicinity

namespace Graph

variable {α : Type}

/-! ### Nodes apart from their edges -/

/-- A node apart from its edges, with its vector. -/
structure Occupant (α : Type) where
  node : Node
  vector : Option (List α)

/-- The label and the vector, unless the node is deleted. -/
def Occupant.held? (occupant : Occupant α) : Option (Label × List α) :=
  if occupant.node.deleted then none
  else occupant.vector.map fun vector => (occupant.node.label, vector)

/-- What stands in a slot. -/
def bare? (g : Graph α) (id : Nat) : Option (Occupant α) :=
  g.nodes[id]?.map fun node => ⟨node.bare, g.vector? id⟩

/-- What stands in all slots, in order. -/
def bareNodes (g : Graph α) : List (Occupant α) := (List.range g.nodeCount).filterMap g.bare?

theorem isSome_bare? {g : Graph α} {id : Nat} (lt : id < g.nodeCount) :
    (g.bare? id).isSome = true := by
  rw [bare?, Option.isSome_map, Array.getElem?_eq_getElem lt]
  rfl

theorem length_bareNodes (g : Graph α) : g.bareNodes.length = g.nodeCount := by
  rw [bareNodes, List.length_filterMap_eq_countP, List.countP_eq_length.2, List.length_range]
  exact fun id mem => isSome_bare? (List.mem_range.1 mem)

/-- What is held depends on what stands in the slot. -/
theorem held?_eq_bare? (g : Graph α) (id : Nat) :
    g.held? id = (g.bare? id).bind Occupant.held? := by
  rw [held?, isLive, label?, bare?]
  cases g.nodes[id]? with
  | none => rfl
  | some node => cases deleted : node.deleted <;> simp [Occupant.held?, Node.bare, deleted]

theorem holdings_eq_bareNodes (g : Graph α) :
    g.holdings = g.bareNodes.filterMap Occupant.held? := by
  rw [holdings, bareNodes, List.filterMap_filterMap]
  exact List.filterMap_congr fun id _ => g.held?_eq_bare? id

theorem generation?_eq_bare? (g : Graph α) (id : Nat) :
    g.generation? id = (g.bare? id).map (·.node.generation) := by
  rw [generation?, bare?, Option.map_map]
  rfl

/-- No two slots hold a node of the same serial number. -/
theorem WellFormed.nodup_generations {g : Graph α} (wf : g.WellFormed) :
    (g.bareNodes.map (·.node.generation)).Nodup := by
  rw [bareNodes, List.map_filterMap]
  refine List.Nodup.filterMap (fun a b x at_a at_b => ?_) List.nodup_range
  rw [← generation?_eq_bare?] at at_a at_b
  exact wf.stocked.generation_inj a b x at_a at_b

/-! ### One slot is freed -/

/-- What stood in a slot stands where it is now. -/
theorem Frees.bare?_eq {g h : Graph α} {id j : Nat} (frees : g.Frees id h)
    (lt : j < h.nodeCount) : h.bare? j = g.bare? (rename id h.nodeCount j) := by
  have same := congrArg (Option.map fun node : Node => (⟨node, h.vector? j⟩ : Occupant α))
    (frees.bare_eq j lt)
  rw [Option.map_map, Option.map_map, frees.vector?_eq lt] at same
  rw [bare?, frees.vector?_eq lt]
  exact same

/-- One node is gone, and no other. -/
theorem Frees.perm_bareNodes {g h : Graph α} {id : Nat} (frees : g.Frees id h) :
    ((g.bare? id).toList ++ h.bareNodes).Perm g.bareNodes := by
  have moved : h.bareNodes =
      ((List.range h.nodeCount).map (rename id h.nodeCount)).filterMap g.bare? := by
    rw [bareNodes, List.filterMap_map]
    exact List.filterMap_congr fun j mem => frees.bare?_eq (List.mem_range.1 mem)
  have all := frees.perm_slots.filterMap g.bare?
  rw [← bareNodes, List.filterMap_cons, ← moved] at all
  cases here : g.bare? id <;> simpa [here] using all

/-- A deleted node keeps its slot. -/
theorem bare?_swapRemove {g h : Graph α} (sturdy : g.Sturdy) {id : Nat}
    (removed : g.swapRemove id = .ok h) {j : Nat} (deleted : h.isDeleted j = true) :
    h.bare? j = g.bare? j := by
  obtain ⟨_, frees⟩ := sturdy.swapRemove removed
  have ne := ((isDeleted_swapRemove sturdy removed j).1 deleted).1
  rw [frees.bare?_eq (lt_nodeCount_of_isDeleted deleted), rename, if_neg ne]

/-- The slot of a repaired node is refused for the deleted node in the last slot. -/
theorem swapRemove_of_lastPending {g : Graph α} {id : Nat} (deleted : g.isDeleted id = true)
    (alone : g.Isolated id) (other : id ≠ g.nodeCount - 1)
    (pending : g.isDeleted (g.nodeCount - 1) = true) :
    g.swapRemove id = .error (.node (g.nodeCount - 1) .lastSlotPending) := by
  obtain ⟨node, at_id, marked⟩ := isDeleted_eq_true_iff.1 deleted
  have isolated : g.isIsolated id = true :=
    isIsolated_iff.2 ⟨lt_nodeCount_of_isDeleted deleted, alone⟩
  have isolated : node.isIsolated = true := by simpa [isIsolated, at_id] using isolated
  simp [swapRemove, at_id, marked, isolated, other, pending]

/-! ### Slots are freed one after the other -/

/-- What a graph is once the slots of deleted nodes were freed. -/
structure Vacates (g : Graph α) (ids : List Nat) (h : Graph α) : Prop where
  wf : h.WellFormed
  config_eq : h.config = g.config
  capacity_eq : h.capacity = g.capacity
  nodes_perm : (ids.filterMap g.bare? ++ h.bareNodes).Perm g.bareNodes
  isDeleted_iff (j : Nat) : h.isDeleted j = true ↔ j ∉ ids ∧ g.isDeleted j = true
  stays (j : Nat) : h.isDeleted j = true → h.bare? j = g.bare? j
  labels_eq : h.labels.labels = g.labels.labels
  unlisted_eq (l : Label) : (h.idsOf l).isEmpty = (g.idsOf l).isEmpty

theorem Vacates.refl {g : Graph α} (wf : g.WellFormed) : g.Vacates [] g :=
  ⟨wf, rfl, rfl, .refl _, fun _ => by simp, fun _ _ => rfl, rfl, fun _ => rfl⟩

/-- One more slot, freed before the others. -/
theorem Vacates.cons {g g₁ h : Graph α} {id : Nat} {ids : List Nat} (wf : g.WellFormed)
    (removed : g.swapRemove id = .ok g₁) (deleted : ∀ j ∈ ids, g₁.isDeleted j = true)
    (rest : g₁.Vacates ids h) : g.Vacates (id :: ids) h where
  wf := rest.wf
  config_eq := rest.config_eq.trans (wf.swapRemove removed).2.config_eq
  capacity_eq := rest.capacity_eq.trans (wf.swapRemove removed).2.capacity_eq
  nodes_perm := by
    have same : ids.filterMap g₁.bare? = ids.filterMap g.bare? :=
      List.filterMap_congr fun j mem => bare?_swapRemove wf.sturdy removed (deleted j mem)
    have split : (id :: ids).filterMap g.bare? =
        (g.bare? id).toList ++ ids.filterMap g.bare? := by
      cases here : g.bare? id <;> simp [here]
    have perm := rest.nodes_perm
    rw [same] at perm
    rw [split, List.append_assoc]
    exact (perm.append_left _).trans (wf.swapRemove removed).2.perm_bareNodes
  isDeleted_iff j := by
    rw [rest.isDeleted_iff, isDeleted_swapRemove wf.sturdy removed, List.mem_cons, not_or]
    tauto
  stays j there := by
    have before := ((rest.isDeleted_iff j).1 there).2
    exact (rest.stays j there).trans (bare?_swapRemove wf.sturdy removed before)
  labels_eq := by
    rw [rest.labels_eq, (wf.swapRemove removed).2.labels_eq, LabelMap.labels, LabelMap.map,
      List.map_map]
    rfl
  unlisted_eq l := by
    rw [rest.unlisted_eq, (wf.swapRemove removed).2.idsOf_eq, List.isEmpty_map]

theorem WellFormed.vacates {ids : List Nat} {g h : Graph α} (wf : g.WellFormed)
    (nodup : ids.Nodup) (deleted : ∀ id ∈ ids, g.isDeleted id = true)
    (freed : g.forEachId Graph.swapRemove ids = (h, .ok ())) : g.Vacates ids h := by
  induction ids generalizing g with
  | nil =>
      cases freed
      exact .refl wf
  | cons id ids ih =>
      obtain ⟨once, nodup⟩ := List.nodup_cons.1 nodup
      rw [forEachId] at freed
      split at freed
      · cases freed
      case h_2 g₁ removed =>
        have others : ∀ j ∈ ids, g₁.isDeleted j = true := by
          intro j mem
          refine (isDeleted_swapRemove wf.sturdy removed j).2
            ⟨?_, deleted j (List.mem_cons_of_mem _ mem)⟩
          rintro rfl
          exact once mem
        exact .cons wf removed others (ih (wf.swapRemove removed).1 nodup others freed)

namespace Vacates

variable {g h : Graph α} {ids : List Nat} (vacates : g.Vacates ids h)

include vacates

theorem nodeCount_eq (deleted : ∀ id ∈ ids, g.isDeleted id = true) :
    h.nodeCount + ids.length = g.nodeCount := by
  have there : (ids.filterMap g.bare?).length = ids.length := by
    rw [List.length_filterMap_eq_countP, List.countP_eq_length]
    exact fun id mem => isSome_bare? (lt_nodeCount_of_isDeleted (deleted id mem))
  have total := vacates.nodes_perm.length_eq
  rw [List.length_append, there, length_bareNodes, length_bareNodes] at total
  omega

/-- What goes is deleted, so what is held stays. -/
theorem holdings_perm (deleted : ∀ id ∈ ids, g.isDeleted id = true) :
    h.holdings.Perm g.holdings := by
  have nothing : (ids.filterMap g.bare?).filterMap Occupant.held? = [] := by
    rw [List.filterMap_filterMap, List.filterMap_eq_nil_iff]
    intro id mem
    obtain ⟨node, at_id, marked⟩ := isDeleted_eq_true_iff.1 (deleted id mem)
    simp [bare?, at_id, Occupant.held?, Node.bare, marked]
  have perm := vacates.nodes_perm.filterMap Occupant.held?
  rwa [List.filterMap_append, nothing, List.nil_append, ← holdings_eq_bareNodes,
    ← holdings_eq_bareNodes] at perm

/-- The nodes whose slots were freed are nowhere. -/
theorem gone (wf : g.WellFormed) {id x : Nat} (mem : id ∈ ids) (own : g.generation? id = some x)
    (j : Nat) : h.generation? j ≠ some x := by
  intro there
  have nodup := (vacates.nodes_perm.map (·.node.generation)).nodup_iff.2 wf.nodup_generations
  rw [List.map_append] at nodup
  rw [generation?_eq_bare?, Option.map_eq_some_iff] at own there
  obtain ⟨node, at_id, own⟩ := own
  obtain ⟨other, at_j, same⟩ := there
  refine List.disjoint_of_nodup_append nodup (a := x) ?_ ?_
  · exact List.mem_map.2 ⟨node, List.mem_filterMap.2 ⟨id, mem, at_id⟩, own⟩
  · refine List.mem_map.2 ⟨other, ?_, same⟩
    refine List.mem_filterMap.2 ⟨j, List.mem_range.2 ?_, at_j⟩
    rw [bare?, Option.map_eq_some_iff] at at_j
    obtain ⟨_, found, _⟩ := at_j
    exact (Array.getElem?_eq_some_iff.1 found).1

end Vacates

/-! ### The capacity -/

/-- Whole blocks that hold some slots hold the fewest blocks that do. -/
theorem wholeBlocks_le {count block capacity : Nat} (positive : 0 < block)
    (fits : count ≤ capacity) (whole : block ∣ capacity) : wholeBlocks count block ≤ capacity := by
  obtain ⟨blocks, rfl⟩ := whole
  rw [wholeBlocks, Nat.mul_comm block]
  refine Nat.mul_le_mul_right _ (Nat.lt_succ_iff.1 ((Nat.div_lt_iff_lt_mul positive).2 ?_))
  rw [Nat.succ_mul, Nat.mul_comm blocks]
  omega

/-- Shrinking leaves the fewest blocks that hold the nodes. -/
theorem WellFormed.capacity_shrinkToFit {g : Graph α} (wf : g.WellFormed) :
    g.shrinkToFit.capacity.toNat = wholeBlocks g.nodeCount g.config.blockSize.toNat := by
  have least := wholeBlocks_le (blockSize_pos wf.usable) wf.stocked.fits wf.stocked.whole_blocks
  unfold Graph.shrinkToFit
  dsimp only
  split
  case isTrue smaller =>
    exact UInt64.toNat_ofNat_of_lt' (Nat.lt_trans smaller g.capacity.toNat_lt)
  case isFalse larger => exact Nat.le_antisymm (Nat.not_lt.1 larger) least

end Graph

namespace Tiered

variable {α : Type}

/-! ### One pass -/

/-- A pass from the highest slot down frees slots one after the other until one is refused; then the
last slot holds a deleted node that is not ready, and the others are refused for it, too. -/
theorem Tended.swapAll_splits {ids : List Nat} (descending : ids.Pairwise (· > ·)) {g h : Graph α}
    {executed freed : Nat} {left : List Nat} {awaited : List (Nat × Nat)} (sturdy : g.Sturdy)
    (tended : Tended g ids awaited)
    (swapped : Tiered.swapAll g executed [] ids = (h, freed, left)) :
    ∃ removed, ids = removed ++ left ∧ freed = executed + removed.length ∧
      g.forEachId Graph.swapRemove removed = (h, .ok ()) ∧
      (∀ id ∈ left, h.swapRemove id = .error (.node (h.nodeCount - 1) .lastSlotPending)) ∧
      (left ≠ [] → h.isDeleted (h.nodeCount - 1) = true ∧ h.nodeCount - 1 ∉ left) := by
  induction ids generalizing g executed with
  | nil =>
      cases swapped
      exact ⟨[], rfl, rfl, rfl, fun _ mem => (by cases mem), fun some_left => absurd rfl some_left⟩
  | cons id ids ih =>
      obtain ⟨above, descending⟩ := List.pairwise_cons.1 descending
      cases removed : g.swapRemove id with
      | ok g₁ =>
          rw [Tiered.swapAll, removed] at swapped
          obtain ⟨rest, rfl, total, freed_each, stuck⟩ :=
            ih descending (sturdy.swapRemove removed).1 (tended.swapRemove sturdy removed) swapped
          refine ⟨id :: rest, rfl, ?_, ?_, stuck⟩
          · rw [total, List.length_cons, Nat.add_assoc, Nat.add_comm 1]
          · rw [Graph.forEachId, removed]
            exact freed_each
      | error failure =>
          obtain ⟨not_last, pending⟩ := tended.swapRemove_error removed
          have lt := Graph.lt_nodeCount_of_isDeleted (tended.ready_deleted id List.mem_cons_self)
          have other : g.nodeCount - 1 ∉ id :: ids := by
            intro mem
            rcases List.mem_cons.1 mem with same | later
            · exact not_last same.symm
            · have := above _ later
              omega
          rw [swapAll_of_blocked pending other] at swapped
          cases swapped
          refine ⟨[], rfl, rfl, rfl, fun j mem => ?_, fun _ => ⟨pending, other⟩⟩
          refine Graph.swapRemove_of_lastPending (tended.ready_deleted j mem)
            (tended.ready_isolated j mem) ?_ pending
          rintro rfl
          exact other mem

/-- The labels that only the buffer has are counted by what the graph lists. -/
theorem labelCount_congr [Element α] {t t' : Tiered α} (flat : t'.flat = t.flat)
    (labels : t'.graph.labels.labels = t.graph.labels.labels)
    (unlisted : ∀ l, (t'.graph.idsOf l).isEmpty = (t.graph.idsOf l).isEmpty) :
    t'.graph.labelCount = t.graph.labelCount ∧ t'.info.labelCount = t.info.labelCount := by
  have same : t'.graph.labelCount = t.graph.labelCount := by
    have count : ∀ g : Graph α, g.labelCount = g.labels.labels.length := fun g => by
      rw [Graph.labelCount, LabelMap.size, LabelMap.labels, List.length_map]
    rw [count, count, labels]
  refine ⟨same, ?_⟩
  simp only [info, flat, same, unlisted]

/-- A pass over any index takes its ready nodes in one order and stops freeing at one of them. -/
theorem Tracked.runGc_splits {t t' : Tiered α} {tasks : List Task} (tracked : Tracked t tasks)
    {freed : Nat} (passed : t.runGc = (t', freed)) :
    ∃ removed g, t.passOrder = removed ++ t'.ready ∧ removed.length = freed ∧
      t.graph.forEachId Graph.swapRemove removed = (g, .ok ()) ∧
      (∀ id ∈ t'.ready, g.swapRemove id = .error (.node (g.nodeCount - 1) .lastSlotPending)) ∧
      (t'.ready ≠ [] → g.isDeleted (g.nodeCount - 1) = true ∧ g.nodeCount - 1 ∉ t'.ready) ∧
      t'.graph = { g with capacity := t'.graph.capacity, journal := t'.graph.journal } ∧
      (t.ready ≠ [] → t'.graph.capacity = g.shrinkToFit.capacity) ∧ t'.flat = t.flat := by
  cases none_ready : t.ready.isEmpty with
  | true =>
      have nothing : t.ready = [] := List.isEmpty_iff.1 none_ready
      simp only [Tiered.runGc, none_ready, if_true] at passed
      cases passed
      refine ⟨[], t.graph, ?_, rfl, rfl, fun id mem => ?_, absurd nothing, rfl, absurd nothing, rfl⟩
      · rw [passOrder, nothing]
        rfl
      · rw [nothing] at mem
        cases mem
  | false =>
      obtain ⟨g, n, kept, swapped⟩ : ∃ g n kept,
          swapAll t.graph 0 [] t.passOrder = (g, n, kept) := ⟨_, _, _, rfl⟩
      obtain ⟨journal, own, eq⟩ := runGc_eq none_ready swapped
      rw [eq] at passed
      cases passed
      obtain ⟨removed, split, total, freed_each, refused, blocked⟩ := Tended.swapAll_splits
        (pairwise_passOrder tracked.tended.ready_nodup) tracked.graph_wf.sturdy
        (tracked.tended.perm (Sorting.sortBy_perm ..) (.refl _)) swapped
      refine ⟨removed, g, split, (total.trans (Nat.zero_add _)).symm, freed_each, refused, blocked,
        ?_, fun _ => rfl, rfl⟩
      dsimp only
      rw [Graph.shrinkToFit_eq]

namespace World

section Passes

variable [Element α]

/-- What a pass does: the nodes that went, in order, and the graph after their slots were freed. -/
structure Sweeps (w : World α) (t : Tiered α) (freed : Nat) (removed : List Nat) (g : Graph α) :
    Prop where
  /-- What was ready went or is still ready. -/
  ready_perm : w.index.ready.Perm (removed ++ t.ready)
  length_removed : removed.length = freed
  /-- The slots are freed from the highest down, and those that are left come after. -/
  descending : (removed ++ t.ready).Pairwise (· > ·)
  freed_each : w.index.graph.forEachId Graph.swapRemove removed = (g, .ok ())
  /-- No slot is freed after the first that is refused. -/
  refused : ∀ id ∈ t.ready, g.swapRemove id = .error (.node (g.nodeCount - 1) .lastSlotPending)
  graph_eq : t.graph = { g with capacity := t.graph.capacity, journal := t.graph.journal }
  /-- The nodes before, with their vectors, are those that went and those after. -/
  nodes_perm : (removed.filterMap w.index.graph.bare? ++ t.graph.bareNodes).Perm
    w.index.graph.bareNodes
  nodeCount_eq : t.graph.nodeCount + freed = w.index.graph.nodeCount
  gone : ∀ id ∈ removed, ∀ x, w.index.graph.generation? id = some x →
    ∀ j, t.graph.generation? j ≠ some x
  /-- A node is left only while the last slot waits for a repair of its own. -/
  blocked : t.ready ≠ [] → t.graph.isDeleted (t.graph.nodeCount - 1) = true ∧
    ∃ x, t.graph.generation? (t.graph.nodeCount - 1) = some x ∧
      Task.repair (t.graph.nodeCount - 1) x ∈ w.outstanding
  ready_stays : ∀ id ∈ t.ready,
    t.graph.isDeleted id = true ∧ t.graph.bare? id = w.index.graph.bare? id
  awaited_stays : ∀ id x, Task.repair id x ∈ w.outstanding →
    t.graph.isDeleted id = true ∧ t.graph.generation? id = some x ∧
      t.graph.bare? id = w.index.graph.bare? id
  flat_eq : t.flat = w.index.flat
  holdings_perm : t.graph.holdings.Perm w.index.graph.holdings
  size_eq : t.size = w.index.size
  labelCount_eq : t.graph.labelCount = w.index.graph.labelCount ∧
    t.info.labelCount = w.index.info.labelCount
  capacity_eq : w.index.ready ≠ [] → t.graph.capacity.toNat =
    Graph.wholeBlocks t.graph.nodeCount w.index.config.graph.blockSize.toNat

/-- A pass, made at any point between calls and jobs, takes nodes that were ready out of the graph
and leaves everything else as it was. -/
theorem Reachable.sweeps {config : Config} {w : World α} (reachable : Reachable config w)
    {t : Tiered α} {freed : Nat} (passed : w.index.runGc = (t, freed)) :
    ∃ removed g, Sweeps w t freed removed g := by
  obtain ⟨_, tracked, _, _⟩ := reachable.consistent
  have wf := tracked.graph_wf
  obtain ⟨removed, g, order, length_removed, freed_each, refused, blocked, graph_eq, capacity,
    flat_eq⟩ := tracked.runGc_splits passed
  obtain ⟨tracked', _⟩ := tracked.runGc passed
  have perm : w.index.ready.Perm (removed ++ t.ready) := by
    rw [← order]
    exact (Sorting.sortBy_perm ..).symm
  have descending : (removed ++ t.ready).Pairwise (· > ·) := by
    rw [← order]
    exact pairwise_passOrder tracked.tended.ready_nodup
  have deleted : ∀ id ∈ removed, w.index.graph.isDeleted id = true := fun id mem =>
    tracked.tended.ready_deleted id (perm.mem_iff.2 (List.mem_append_left _ mem))
  have vacates : w.index.graph.Vacates removed g := by
    refine wf.vacates ?_ deleted freed_each
    exact (perm.nodup_iff.1 tracked.tended.ready_nodup).sublist (List.sublist_append_left ..)
  -- The capacity and the log aside, the graph after the pass is the one with the slots freed.
  have bare?_eq : t.graph.bare? = g.bare? := (congrArg Graph.bare? graph_eq :)
  have bareNodes_eq : t.graph.bareNodes = g.bareNodes := (congrArg Graph.bareNodes graph_eq :)
  have nodeCount_eq : t.graph.nodeCount = g.nodeCount := (congrArg Graph.nodeCount graph_eq :)
  have isDeleted_eq : t.graph.isDeleted = g.isDeleted := (congrArg Graph.isDeleted graph_eq :)
  have generation?_eq : t.graph.generation? = g.generation? :=
    (congrArg Graph.generation? graph_eq :)
  have stays : ∀ id, t.graph.isDeleted id = true →
      t.graph.bare? id = w.index.graph.bare? id := by
    intro id there
    rw [bare?_eq]
    exact vacates.stays id (isDeleted_eq ▸ there)
  have held : t.graph.holdings.Perm w.index.graph.holdings := by
    rw [show t.graph.holdings = g.holdings from (congrArg Graph.holdings graph_eq :)]
    exact vacates.holdings_perm deleted
  refine ⟨removed, g, ?_⟩
  constructor
  case ready_perm => exact perm
  case length_removed => exact length_removed
  case descending => exact descending
  case freed_each => exact freed_each
  case refused => exact refused
  case graph_eq => exact graph_eq
  case nodes_perm =>
    rw [bareNodes_eq]
    exact vacates.nodes_perm
  case nodeCount_eq =>
    rw [nodeCount_eq, ← length_removed]
    exact vacates.nodeCount_eq deleted
  case gone =>
    intro id mem x own j
    rw [generation?_eq]
    exact vacates.gone wf mem own j
  case blocked =>
    intro some_left
    obtain ⟨pending, other⟩ := blocked some_left
    rw [← nodeCount_eq, ← isDeleted_eq] at pending
    rw [← nodeCount_eq] at other
    obtain ⟨x, named⟩ := (tracked'.tended.covered _ pending).resolve_left other
    exact ⟨pending, x, tracked'.tended.awaited_generation _ named, mem_repairsOf.1 named⟩
  case ready_stays =>
    intro id mem
    have there := tracked'.tended.ready_deleted id mem
    exact ⟨there, stays id there⟩
  case awaited_stays =>
    intro id x mem
    have there := tracked'.tended.awaited_deleted _ (mem_repairsOf.2 mem)
    exact ⟨there, tracked'.tended.awaited_generation _ (mem_repairsOf.2 mem), stays id there⟩
  case flat_eq => exact flat_eq
  case holdings_perm => exact held
  case size_eq =>
    rw [Tiered.size_eq tracked'.graph_wf.stocked.toFilled, Tiered.size_eq wf.stocked.toFilled,
      holdings, holdings, flat_eq]
    exact (held.append_left _).length_eq
  case labelCount_eq =>
    have labels : t.graph.labels = g.labels := (congrArg Graph.labels graph_eq :)
    have idsOf_eq : t.graph.idsOf = g.idsOf := (congrArg Graph.idsOf graph_eq :)
    refine labelCount_congr flat_eq ?_ fun l => ?_
    · rw [labels, vacates.labels_eq]
    · rw [idsOf_eq, vacates.unlisted_eq]
  case capacity_eq =>
    intro some_ready
    rw [capacity some_ready, vacates.wf.capacity_shrinkToFit, nodeCount_eq, vacates.config_eq,
      tracked.graph_config]

end Passes

/-- One of two deleted nodes is ready while the other one waits for its repair in the slot above. -/
theorem sweeps_before_second_repair :
    ∃ (w : World Binary64) (y : Nat), Reachable eager w ∧ 0 ∈ w.index.ready ∧
      .repair 1 y ∈ w.outstanding ∧
      ∃ removed g, Sweeps w w.index.runGc.1 w.index.runGc.2 removed g := by
  obtain ⟨w, x, y, reachable, _, _, first, second⟩ := both_await_repair
  obtain ⟨front, back, parts⟩ := List.append_of_mem first
  have handed := reachable.step (.submit front back (.repair 0 x) parts)
  obtain ⟨t, outcome, next?, done⟩ : ∃ t outcome next?,
      ((w.index.submit (.repair 0 x)).begin (.repair 0 x)).perform (.repair 0 x) =
        (t, outcome, next?) := ⟨_, _, _, rfl⟩
  have ran := handed.step (.run w.handed [] (.repair 0 x) rfl done)
  obtain ⟨_, _, _, _, ready, _⟩ := (handed.consistent.begun rfl).repairNode done
  refine ⟨_, y, ran, ?_, ?_, ran.sweeps rfl⟩
  · dsimp only
    rw [ready]
    exact List.mem_append_right _ List.mem_cons_self
  · rw [parts, List.mem_append, List.mem_cons] at second
    simp only [outstanding, List.mem_append]
    rcases second with mem | same | mem
    · exact .inl (.inl (.inl mem))
    · cases same
    · exact .inl (.inl (.inr mem))

end World

end Tiered

end Vicinity
