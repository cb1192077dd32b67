import Mathlib.Data.Set.Card
import Vicinity.Proofs.Graph.Guarded.Insertion
import Vicinity.Proofs.Graph.Integrity
import Vicinity.Proofs.Graph.Ranking

/-!
What a search of one layer returns.

Of a graph that passes the integrity check nothing else is needed: a search of a layer from a node
of it returns different live nodes within reach, at their distances and in order, and as many of
them as the beam and the layer allow (`searchLayer_layerReply`). Deleted nodes lead on and are not
returned, so reaching is by edges alone (`liveWithin`). When distances are numbers, no neighbour of
a node that is returned was missed for a farther one.
-/

namespace Vicinity.Graph

variable {α : Type}

/-- The live nodes to which edges of the layer lead. -/
def liveWithin (g : Graph α) (layer start : Nat) : Set Nat :=
  { id | g.Reaches layer start id ∧ g.isLive id = true }

theorem finite_liveWithin (g : Graph α) (layer start : Nat) : (g.liveWithin layer start).Finite :=
  (Set.finite_lt_nat g.nodeCount).subset fun _ within => lt_nodeCount_of_isLive within.2

/-- Some different nodes within reach, no more than fit, are as many as there can be when a list
with room to spare has all of them. -/
theorem length_eq_min_ncard {g : Graph α} {layer start ef : Nat} {ids : List Nat}
    (nodup : ids.Nodup) (within : ∀ id ∈ ids, id ∈ g.liveWithin layer start)
    (narrow : ids.length ≤ ef)
    (complete : ids.length < ef → ∀ id ∈ g.liveWithin layer start, id ∈ ids) :
    ids.length = min ef (g.liveWithin layer start).ncard := by
  classical
  have card : (ids.toFinset : Set Nat).ncard = ids.length := by
    rw [Set.ncard_coe_finset, List.toFinset_card_of_nodup nodup]
  have finite := finite_liveWithin g layer start
  have few : ids.length ≤ (g.liveWithin layer start).ncard := by
    rw [← card]
    exact Set.ncard_le_ncard (fun id mem => within id (List.mem_toFinset.1 mem)) finite
  rcases narrow.lt_or_eq with room | full
  · have all : (g.liveWithin layer start).ncard ≤ ids.length := by
      rw [← card]
      exact Set.ncard_le_ncard (fun id mem => List.mem_toFinset.2 (complete room id mem))
        (Finset.finite_toSet _)
    omega
  · omega

variable [Element α]

/-- What a search of a layer owes to a query, from a node and with a width. -/
structure LayerReply (g : Graph α) (query : List α) (start ef layer : Nat)
    (found : List Candidate) : Prop where
  nodup : (found.map (·.id)).Nodup
  live : ∀ c ∈ found, g.isLive c.id = true
  reached : ∀ c ∈ found, g.Reaches layer start c.id
  measured : ∀ c ∈ found, c.distance = g.distanceTo query c.id
  sorted : found.Pairwise fun a b => a.precedes b = true
  length_eq : found.length = min ef (g.liveWithin layer start).ncard
  nearest : g.Comparable query → ∀ c ∈ found, ∀ next ∈ (g.links c.id layer).out,
    g.isLive next = true → next ∉ found.map (·.id) →
      ∀ d ∈ found, d.distance.le (g.distanceTo query next) = true

variable {g : Graph α}

/-- Different nodes in order come strictly one after the other. -/
theorem precedes_searchLayer {query : List α} {place : Candidate} {ef layer : Nat}
    (nodup : ((g.searchLayer query place ef layer).map (·.id)).Nodup) :
    (g.searchLayer query place ef layer).Pairwise fun a b => a.precedes b = true := by
  have different := List.pairwise_map.1 nodup
  refine (different.and (queued_searchLayer g query place ef layer)).imp ?_
  rintro a b ⟨other, le⟩
  refine Candidate.precedes_iff.2 (lt_of_le_of_ne le fun same => other ?_)
  exact congrArg (fun rank => (ofLex rank).2) same

/-- A search of a layer of a graph that passes the check returns what it should, and it looks for no
node and no layer that is not there. -/
theorem searchLayer_layerReply (passed : g.integrity = .ok ()) {layer : Nat} {place : Candidate}
    (stands : g.Stands place.id layer) {query : List α}
    (place_true : place.distance = g.distanceTo query place.id) {ef : Nat} (positive : 0 < ef) :
    Guarded.searchLayer g query place ef layer = some (g.searchLayer query place ef layer) ∧
      g.LayerReply query place.id ef layer (g.searchLayer query place ef layer) := by
  have sound := integrity_eq_ok_iff.1 passed
  have paired := sound.paired
  have vectored := sound.sturdy.filled.vectored
  have inside := lt_nodeCount_of_stands stands
  obtain ⟨nodup, narrow, complete⟩ := searchLayer_complete paired inside positive query layer
  have within : ∀ c ∈ g.searchLayer query place ef layer, c.id ∈ g.liveWithin layer place.id :=
    fun c found => reaches_of_found paired inside found
  refine ⟨Guarded.searchLayer_eq_some vectored paired query ef stands, ?_⟩
  constructor
  case nodup => exact nodup
  case live => exact fun c found => (within c found).2
  case reached => exact fun c found => (within c found).1
  case measured => exact fun c found => distance_searchLayer paired inside positive place_true found
  case sorted => exact precedes_searchLayer nodup
  case length_eq =>
    have length : ((g.searchLayer query place ef layer).map (·.id)).length =
        (g.searchLayer query place ef layer).length := List.length_map _
    rw [← length] at narrow complete ⊢
    apply length_eq_min_ncard nodup
    · intro id mem
      obtain ⟨c, found, rfl⟩ := List.mem_map.1 mem
      exact within c found
    · exact narrow
    · intro room id mem
      exact complete room id mem.1 (not_isDeleted_of_isLive mem.2)
  case nearest =>
    intro comparable c found next edge live left_out
    have settled := searchLayer_nearest paired comparable inside positive place_true layer c.id
      (List.mem_map_of_mem found) next edge (not_isDeleted_of_isLive live)
    exact (settled.resolve_left left_out).2

/-- A live node, a deleted one and a live one, in a row. -/
def relay : Graph Binary64 where
  config := { dim := 1, metric := .l2 }
  nodes := #[
    { label := 1, generation := 0, layers := [⟨[1], []⟩] },
    { label := 2, deleted := true, generation := 1, layers := [⟨[2], [0]⟩] },
    { label := 3, generation := 2, layers := [⟨[], [1]⟩] }]
  vectors := #[.zero, .one, .one + .one]
  markedCount := 1
  labels := (LabelMap.empty.insert 1 [0]).insert 3 [2]
  entryPoint := some 0
  capacity := 1024
  nextGeneration := 3

/-- A search may go through the deleted node to the live one behind it. -/
theorem layerReply_relay :
    let place : Candidate := ⟨relay.distanceTo [.one] 0, 0⟩
    relay.integrity = .ok () ∧ relay.Stands place.id 0 ∧ 2 ∈ relay.liveWithin 0 place.id ∧
      Guarded.searchLayer relay [.one] place 2 0 = some (relay.searchLayer [.one] place 2 0) ∧
      relay.LayerReply [.one] place.id 2 0 (relay.searchLayer [.one] place 2 0) := by
  intro place
  have passed : relay.integrity = .ok () := by decide +kernel
  have stands : relay.Stands place.id 0 := by decide
  have way : relay.Reaches 0 place.id 2 :=
    (Relation.ReflTransGen.single (List.mem_singleton_self 1)).tail (List.mem_singleton_self 2)
  exact ⟨passed, stands, ⟨way, by decide⟩, searchLayer_layerReply passed stands rfl Nat.two_pos⟩

end Vicinity.Graph
