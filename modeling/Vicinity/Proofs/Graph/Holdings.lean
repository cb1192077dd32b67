import Vicinity.Proofs.Graph.Integrity
import Vicinity.Proofs.Graph.Replacement
import Vicinity.Proofs.Holdings

/-!
The vectors that a graph holds.

`holdings` lists the live nodes with their labels in the order of the slots. Everything that counts
vectors or labels of a well-formed graph counts them (`length_holdings`, `length_idsOf`,
`contains_iff`). Rewiring leaves them alone, an insertion adds one at the end, marking a node takes
its vector out, and freeing the slot of a deleted node only changes the order.
-/

namespace Vicinity.Graph

variable {α : Type}

/-- What is held in a slot: the label and the vector of a live node. -/
def held? (g : Graph α) (id : Nat) : Option (Label × List α) :=
  if g.isLive id then (g.label? id).bind fun label =>
    (g.vector? id).map fun vector => (label, vector)
  else none

/-- The live vectors in the order of their slots. -/
def holdings (g : Graph α) : Holdings α := (List.range g.nodeCount).filterMap g.held?

/-! ### Slot by slot -/

theorem held?_eq_some_iff {g : Graph α} {id : Nat} {label : Label} {vector : List α} :
    g.held? id = some (label, vector) ↔
      g.isLive id = true ∧ g.label? id = some label ∧ g.vector? id = some vector := by
  unfold held?
  cases g.isLive id with
  | false => simp
  | true => cases g.label? id <;> simp [and_comm]

theorem held?_eq_none {g : Graph α} {id : Nat} (dead : g.isLive id = false) :
    g.held? id = none := by
  rw [held?, dead]
  rfl

/-- A live node has a label and a vector. -/
theorem Filled.exists_held {g : Graph α} (filled : g.Filled) {id : Nat}
    (live : g.isLive id = true) : ∃ label vector, g.label? id = some label ∧
      g.vector? id = some vector ∧ g.held? id = some (label, vector) := by
  obtain ⟨node, at_id, _⟩ := isLive_eq_true_iff.1 live
  obtain ⟨vector, there⟩ := filled.exists_vector (lt_nodeCount_of_isLive live)
  have own : g.label? id = some node.label := by rw [label?, at_id, Option.map_some]
  exact ⟨node.label, vector, own, there, held?_eq_some_iff.2 ⟨live, own, there⟩⟩

theorem Filled.isSome_held? {g : Graph α} (filled : g.Filled) (id : Nat) :
    (g.held? id).isSome = g.isLive id := by
  cases live : g.isLive id with
  | false => rw [held?_eq_none live, Option.isSome_none]
  | true =>
      obtain ⟨_, _, _, _, held⟩ := filled.exists_held live
      rw [held, Option.isSome_some]

/-- What a slot holds is its live node's label and vector. -/
theorem held?_congr {g h : Graph α} {a b : Nat} (live : h.isLive a = g.isLive b)
    (label : h.label? a = g.label? b) (vector : h.vector? a = g.vector? b) :
    h.held? a = g.held? b := by
  rw [held?, held?, live, label, vector]

/-! ### Counting -/

theorem length_holdings {g : Graph α} (filled : g.Filled) : g.holdings.length = g.size := by
  rw [← length_liveIds filled.tallied, liveIds, ← List.countP_eq_length_filter, holdings,
    List.length_filterMap_eq_countP]
  exact List.countP_congr fun id _ => by rw [filled.isSome_held?]

/-- A label lists the slots that hold its vectors. -/
theorem perm_idsOf {g : Graph α} (labelled : g.Labelled) (filled : g.Filled) (label : Label) :
    (g.idsOf label).Perm
      ((List.range g.nodeCount).filter fun id => (g.held? id).any (·.1 == label)) := by
  refine (List.perm_ext_iff_of_nodup (labelled.nodup label) (List.nodup_range.filter _)).2
    fun id => ?_
  rw [labelled.mem_idsOf, List.mem_filter, List.mem_range, Option.any_eq_true]
  constructor
  · rintro ⟨live, own⟩
    obtain ⟨l, vector, own', there, held⟩ := filled.exists_held live
    rw [own, Option.some.injEq] at own'
    exact ⟨lt_nodeCount_of_isLive live, (l, vector), held, by simp [own']⟩
  · rintro ⟨_, ⟨l, vector⟩, held, same⟩
    obtain ⟨live, own, _⟩ := held?_eq_some_iff.1 held
    rw [beq_iff_eq] at same
    exact ⟨live, same ▸ own⟩

/-- A label lists as many ids as it has vectors. -/
theorem length_idsOf {g : Graph α} (labelled : g.Labelled) (filled : g.Filled) (label : Label) :
    (g.idsOf label).length = g.holdings.count label := by
  rw [(perm_idsOf labelled filled label).length_eq, ← List.countP_eq_length_filter, Holdings.count,
    holdings, List.countP_filterMap]
  refine List.countP_congr fun id _ => ?_
  cases g.held? id <;> rfl

/-- A label has as many vectors as it has nodes that are not deleted. -/
theorem count_holdings {g : Graph α} (filled : g.Filled) (label : Label) :
    g.holdings.count label = g.nodes.countP fun node => !node.deleted && node.label == label := by
  rw [Holdings.count, holdings, List.countP_filterMap, ← Array.countP_toList,
    ← countP_range_getElem? _ g.nodes.toList, Array.length_toList, nodeCount]
  refine List.countP_congr fun id mem => ?_
  have lt : id < g.nodes.size := List.mem_range.1 mem
  have at_id : g.nodes[id]? = some g.nodes[id] := Array.getElem?_eq_getElem lt
  have live : g.isLive id = !g.nodes[id].deleted := by rw [isLive, at_id, Option.any_some]
  rw [Array.getElem?_toList, at_id, Option.any_some]
  cases deleted : g.nodes[id].deleted with
  | true =>
      rw [deleted] at live
      rw [held?_eq_none live]
      simp
  | false =>
      rw [deleted] at live
      obtain ⟨l, vector, own, _, held⟩ := filled.exists_held live
      rw [label?, at_id, Option.map_some, Option.some.injEq] at own
      rw [held, own]
      simp

theorem contains_iff {g : Graph α} (labelled : g.Labelled) (filled : g.Filled) (label : Label) :
    g.contains label = true ↔ 0 < g.holdings.count label := by
  rw [← length_idsOf labelled filled, List.length_pos_iff, Ne, ← contains_eq_false_iff labelled,
    Bool.not_eq_false]

/-! ### What operations do -/

theorem holdings_of_nodes_eq {g h : Graph α} (config : h.config = g.config)
    (nodes : h.nodes = g.nodes) (vectors : h.vectors = g.vectors) : h.holdings = g.holdings := by
  have held : h.held? = g.held? := by
    funext id
    rw [held?, held?, isLive, isLive, label?, label?, vector?, vector?, config, nodes, vectors]
  rw [holdings, held, nodeCount, nodes, holdings, nodeCount]

theorem Rewired.holdings_eq {g h : Graph α} (rewired : Rewired g h) : h.holdings = g.holdings := by
  rw [holdings, holdings, rewired.nodeCount_eq]
  refine List.filterMap_congr fun id _ => ?_
  exact held?_congr (rewired.isLive_eq id) (rewired.label?_eq id) (rewired.vector?_eq id)

theorem Stores.holdings_eq {g h : Graph α} {label : Label} {vector : List α}
    (stores : g.Stores label vector h) : h.holdings = g.holdings ++ [(label, vector)] := by
  rw [holdings, holdings, stores.nodeCount_eq, List.range_succ,
    List.filterMap_append]
  congr 1
  · refine List.filterMap_congr fun id mem => ?_
    have old : id ≠ g.nodeCount := Nat.ne_of_lt (List.mem_range.1 mem)
    refine held?_congr ?_ ?_ ?_
    · rw [stores.isLive_eq, decide_eq_false old, Bool.false_or]
    · rw [stores.label?_eq, if_neg old]
    · rw [stores.vector?_eq, if_neg old]
  · have new : h.held? g.nodeCount = some (label, vector) := by
      refine held?_eq_some_iff.2 ⟨?_, ?_, ?_⟩
      · rw [stores.isLive_eq, decide_eq_true rfl, Bool.true_or]
      · rw [stores.label?_eq, if_pos rfl]
      · rw [stores.vector?_eq, if_pos rfl]
    rw [List.filterMap_cons, new, List.filterMap_nil]

/-- A marked node's slot holds nothing, and the others what they held. -/
theorem Marks.held?_eq {g h : Graph α} {id : Nat} (marks : g.Marks id h) (j : Nat) :
    h.held? j = if j = id then none else g.held? j := by
  split
  case isTrue same =>
    refine held?_eq_none ?_
    rw [marks.isLive_eq, same]
    simp
  case isFalse other =>
    refine held?_congr ?_ (marks.label?_eq j) (marks.vector?_eq j)
    rw [marks.isLive_eq, decide_eq_true other, Bool.true_and]

/-- When the slots of a label fall empty, the vectors of the label are gone. -/
theorem holdings_eq_delete {g h : Graph α} (labelled : g.Labelled) {label : Label}
    (nodeCount_eq : h.nodeCount = g.nodeCount)
    (held : ∀ j, h.held? j = if j ∈ g.idsOf label then none else g.held? j) :
    h.holdings = g.holdings.delete label := by
  rw [holdings, holdings, Holdings.delete, List.filter_filterMap, nodeCount_eq]
  refine List.filterMap_congr fun j _ => ?_
  rw [held]
  cases here : g.held? j with
  | none => simp
  | some pair =>
      obtain ⟨l, vector⟩ := pair
      obtain ⟨live, own, _⟩ := held?_eq_some_iff.1 here
      have listed : j ∈ g.idsOf label ↔ l = label := by
        rw [labelled.mem_idsOf, own, Option.some.injEq, and_iff_right live]
      by_cases same : l = label <;> simp [listed, same, Option.filter]

/-- Once a slot is freed, the others are read, each where its node stood before. -/
theorem Frees.perm_slots {g h : Graph α} {id : Nat} (frees : g.Frees id h) :
    (id :: (List.range h.nodeCount).map (rename id h.nodeCount)).Perm (List.range g.nodeCount) := by
  have le := frees.id_le
  have fresh : h.nodeCount ∉ List.range h.nodeCount := List.not_mem_range_self
  have free : id ∉ (List.range h.nodeCount).map (rename id h.nodeCount) := by
    intro mem
    obtain ⟨j, at_j, same⟩ := List.mem_map.1 mem
    have lt := List.mem_range.1 at_j
    unfold rename at same
    split at same
    · omega
    · contradiction
  refine (List.perm_ext_iff_of_nodup (List.nodup_cons.2 ⟨free, ?_⟩)
    List.nodup_range).2 fun j => ?_
  · exact nodup_map_rename fresh List.nodup_range
  · rw [List.mem_cons, List.mem_range, frees.nodeCount_eq]
    constructor
    · rintro (rfl | mem)
      · omega
      · obtain ⟨x, at_x, rfl⟩ := List.mem_map.1 mem
        have := @rename_le h.nodeCount id x (List.mem_range.1 at_x)
        omega
    · intro lt
      by_cases here : j = id
      · exact .inl here
      · refine .inr (List.mem_map.2 ⟨rename h.nodeCount id j, ?_, rename_rename here⟩)
        exact List.mem_range.2 (Graph.rename_lt here le lt)

/-- Freeing the slot of a deleted node moves one vector and loses none. -/
theorem Frees.perm_holdings {g h : Graph α} {id : Nat} (frees : g.Frees id h)
    (dead : g.isLive id = false) : h.holdings.Perm g.holdings := by
  have moved : h.holdings =
      ((List.range h.nodeCount).map (rename id h.nodeCount)).filterMap g.held? := by
    rw [holdings, List.filterMap_map]
    refine List.filterMap_congr fun j mem => ?_
    have lt := List.mem_range.1 mem
    exact held?_congr (frees.isLive_eq lt) (frees.label?_eq lt) (frees.vector?_eq lt)
  rw [moved, holdings]
  have all := frees.perm_slots.filterMap g.held?
  rwa [List.filterMap_cons, held?_eq_none dead] at all

end Vicinity.Graph
