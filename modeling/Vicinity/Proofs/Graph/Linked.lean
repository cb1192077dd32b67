import Vicinity.Proofs.Graph.Links

/-!
The structure of the edges of a graph.

`Paired` is what searches and repairs rely on: each edge is recorded at both ends and no node links
to itself. That the ends of an edge stand on its layer follows (`Paired.stands_target`), since there
are no links where a node does not stand. `Linked` asks besides that an edge is recorded once, which
the lists of a graph from elsewhere need not do. Adding an edge between nodes that stand on the
layer and taking an edge away keep both; whatever an operation does to the edges is a run of such
edits (`Edits`), so it keeps both as well.
-/

namespace Vicinity.Graph

variable {α : Type}

/-- Every edge is recorded at both ends, once among the out-neighbours, and none is a loop. -/
structure Paired (g : Graph α) : Prop where
  out_nodup : ∀ id layer, (g.links id layer).out.Nodup
  mirrored : ∀ a b layer, b ∈ (g.links a layer).out ↔ a ∈ (g.links b layer).incoming
  irreflexive : ∀ id layer, id ∉ (g.links id layer).out

/-- Every edge is recorded at both ends, once at each, and none is a loop. -/
structure Linked (g : Graph α) : Prop extends Paired g where
  incoming_nodup : ∀ id layer, (g.links id layer).incoming.Nodup

/-- No node has more out-neighbours on a layer than the layer allows. -/
def WithinDegree (g : Graph α) : Prop :=
  ∀ id layer, (g.links id layer).out.length ≤ g.config.maxDegree layer

namespace Paired

variable {g h : Graph α}

/-- The structure depends on the links alone. -/
theorem congr (paired : g.Paired) (same : ∀ id layer, h.links id layer = g.links id layer) :
    h.Paired where
  out_nodup id layer := by rw [same]; exact paired.out_nodup id layer
  mirrored a b layer := by rw [same, same]; exact paired.mirrored a b layer
  irreflexive id layer := by rw [same]; exact paired.irreflexive id layer

theorem stands_target (paired : g.Paired) {id layer target : Nat}
    (edge : target ∈ (g.links id layer).out) : g.Stands target layer :=
  stands_of_mem_incoming ((paired.mirrored id target layer).1 edge)

theorem target_lt (paired : g.Paired) {id layer target : Nat}
    (edge : target ∈ (g.links id layer).out) : target < g.nodeCount :=
  lt_nodeCount_of_stands (paired.stands_target edge)

theorem stands_source (paired : g.Paired) {id layer source : Nat}
    (edge : source ∈ (g.links id layer).incoming) : g.Stands source layer :=
  stands_of_mem_out ((paired.mirrored source id layer).2 edge)

/-- No edge leads to a node without edges. -/
theorem not_mem_out (paired : g.Paired) {id : Nat} (alone : g.Isolated id) (j layer : Nat) :
    id ∉ (g.links j layer).out := by
  intro edge
  have back := (paired.mirrored j id layer).1 edge
  rw [alone layer] at back
  cases back

/-- No edge leads from a node without edges. -/
theorem not_mem_incoming (paired : g.Paired) {id : Nat} (alone : g.Isolated id) (j layer : Nat) :
    id ∉ (g.links j layer).incoming := by
  intro edge
  have back := (paired.mirrored id j layer).2 edge
  rw [alone layer] at back
  cases back

end Paired

theorem Linked.congr {g h : Graph α} (linked : g.Linked)
    (same : ∀ id layer, h.links id layer = g.links id layer) : h.Linked where
  toPaired := linked.toPaired.congr same
  incoming_nodup id layer := by rw [same]; exact linked.incoming_nodup id layer

/-! ### Adding an edge -/

theorem mem_out_addEdge {g : Graph α} {source target layer : Nat}
    (stands : g.Stands source layer) (a b k : Nat) :
    b ∈ ((g.addEdge source target layer).links a k).out ↔
      b ∈ (g.links a k).out ∨ (source = a ∧ target = b ∧ layer = k ∧ source ≠ target) := by
  rw [out_addEdge stands]
  split
  case isTrue added =>
    obtain ⟨rfl, rfl, ne, _⟩ := added
    simp [ne, eq_comm]
  case isFalse kept =>
    constructor
    · exact Or.inl
    · rintro (old | ⟨rfl, rfl, rfl, ne⟩)
      · exact old
      · by_cases there : target ∈ (g.links source layer).out
        · exact there
        · exact absurd ⟨rfl, rfl, ne, there⟩ kept

theorem Paired.mem_incoming_addEdge {g : Graph α} (paired : g.Paired) {source target layer : Nat}
    (stands : g.Stands target layer) (a b k : Nat) :
    a ∈ ((g.addEdge source target layer).links b k).incoming ↔
      a ∈ (g.links b k).incoming ∨
        (source = a ∧ target = b ∧ layer = k ∧ source ≠ target) := by
  rw [incoming_addEdge stands]
  split
  case isTrue added =>
    obtain ⟨rfl, rfl, ne, _⟩ := added
    simp [ne, eq_comm]
  case isFalse kept =>
    constructor
    · exact Or.inl
    · rintro (old | ⟨rfl, rfl, rfl, ne⟩)
      · exact old
      · by_cases there : target ∈ (g.links source layer).out
        · exact (paired.mirrored source target layer).1 there
        · exact absurd ⟨rfl, rfl, ne, there⟩ kept

theorem Paired.addEdge {g : Graph α} (paired : g.Paired) {source target layer : Nat}
    (source_stands : g.Stands source layer) (target_stands : g.Stands target layer) :
    (g.addEdge source target layer).Paired where
  out_nodup j k := by
    rw [out_addEdge source_stands]
    split
    case isTrue added =>
      obtain ⟨rfl, rfl, _, fresh⟩ := added
      refine List.nodup_append.2 ⟨paired.out_nodup .., List.pairwise_singleton .., ?_⟩
      rintro a mem b single rfl
      rw [List.mem_singleton] at single
      exact fresh (single ▸ mem)
    case isFalse => exact paired.out_nodup j k
  mirrored a b k := by
    rw [mem_out_addEdge source_stands, paired.mem_incoming_addEdge target_stands,
      paired.mirrored]
  irreflexive j k loop := by
    rcases (mem_out_addEdge source_stands j j k).1 loop with old | ⟨rfl, rfl, _, ne⟩
    · exact paired.irreflexive j k old
    · exact ne rfl

theorem Linked.addEdge {g : Graph α} (linked : g.Linked) {source target layer : Nat}
    (source_stands : g.Stands source layer) (target_stands : g.Stands target layer) :
    (g.addEdge source target layer).Linked where
  toPaired := linked.toPaired.addEdge source_stands target_stands
  incoming_nodup j k := by
    rw [incoming_addEdge target_stands]
    split
    case isTrue added =>
      obtain ⟨rfl, rfl, _, fresh⟩ := added
      refine List.nodup_append.2 ⟨linked.incoming_nodup .., List.pairwise_singleton .., ?_⟩
      rintro a mem b single rfl
      rw [List.mem_singleton] at single
      exact fresh ((linked.mirrored ..).2 (single ▸ mem))
    case isFalse => exact linked.incoming_nodup j k

/-- Only the ends of a new edge, on its layer, have other links than before. -/
theorem links_addEdge_of_off (g : Graph α) {source target layer j k : Nat}
    (off : (source ≠ j ∧ target ≠ j) ∨ layer ≠ k) :
    (g.addEdge source target layer).links j k = g.links j k := by
  unfold Graph.addEdge
  split
  · rfl
  · rw [links_modifyLinks, links_modifyLinks, if_neg, if_neg]
    · rintro ⟨rfl, rfl, _⟩
      exact off.elim (fun h => h.1 rfl) (fun h => h rfl)
    · rintro ⟨rfl, rfl, _⟩
      exact off.elim (fun h => h.2 rfl) (fun h => h rfl)

theorem length_out_addEdge_le {g : Graph α} {source layer : Nat}
    (stands : g.Stands source layer) (target j k : Nat) :
    ((g.addEdge source target layer).links j k).out.length ≤
      (g.links j k).out.length + if source = j ∧ layer = k then 1 else 0 := by
  rw [out_addEdge stands]
  split
  case isTrue added => simp [added.1, added.2.1]
  case isFalse => exact Nat.le_add_right ..

/-! ### Taking an edge away -/

theorem mem_out_removeEdge (g : Graph α) (source target layer a b k : Nat) :
    b ∈ ((g.removeEdge source target layer).links a k).out ↔
      b ∈ (g.links a k).out ∧ ¬ (source = a ∧ target = b ∧ layer = k) := by
  rw [links_removeEdge]
  dsimp only
  split
  case isTrue here =>
    obtain ⟨rfl, rfl⟩ := here
    simp [eq_comm (a := target)]
  case isFalse away =>
    exact ⟨fun mem => ⟨mem, fun h => away ⟨h.1, h.2.2⟩⟩, fun h => h.1⟩

theorem mem_incoming_removeEdge (g : Graph α) (source target layer a b k : Nat) :
    a ∈ ((g.removeEdge source target layer).links b k).incoming ↔
      a ∈ (g.links b k).incoming ∧ ¬ (source = a ∧ target = b ∧ layer = k) := by
  rw [links_removeEdge]
  dsimp only
  split
  case isTrue here =>
    obtain ⟨rfl, rfl⟩ := here
    simp [eq_comm (a := source)]
  case isFalse away =>
    exact ⟨fun mem => ⟨mem, fun h => away h.2⟩, fun h => h.1⟩

theorem out_removeEdge_sublist (g : Graph α) (source target layer j k : Nat) :
    List.Sublist ((g.removeEdge source target layer).links j k).out (g.links j k).out := by
  rw [links_removeEdge]
  dsimp only
  split
  · exact List.filter_sublist
  · exact List.Sublist.refl _

theorem incoming_removeEdge_sublist (g : Graph α) (source target layer j k : Nat) :
    List.Sublist ((g.removeEdge source target layer).links j k).incoming
      (g.links j k).incoming := by
  rw [links_removeEdge]
  dsimp only
  split
  · exact List.filter_sublist
  · exact List.Sublist.refl _

theorem Paired.removeEdge {g : Graph α} (paired : g.Paired) (source target layer : Nat) :
    (g.removeEdge source target layer).Paired where
  out_nodup j k := (paired.out_nodup j k).sublist (out_removeEdge_sublist ..)
  mirrored a b k := by
    rw [mem_out_removeEdge, mem_incoming_removeEdge, paired.mirrored]
  irreflexive j k loop := paired.irreflexive j k ((out_removeEdge_sublist ..).subset loop)

theorem Linked.removeEdge {g : Graph α} (linked : g.Linked) (source target layer : Nat) :
    (g.removeEdge source target layer).Linked where
  toPaired := linked.toPaired.removeEdge source target layer
  incoming_nodup j k := (linked.incoming_nodup j k).sublist (incoming_removeEdge_sublist ..)

theorem WithinDegree.removeEdge {g : Graph α} (within : g.WithinDegree)
    (source target layer : Nat) : (g.removeEdge source target layer).WithinDegree :=
  fun j k => Nat.le_trans (out_removeEdge_sublist ..).length_le (within j k)

/-- Edges on other layers stay as they are. -/
theorem links_removeEdge_of_ne (g : Graph α) (source target : Nat) {layer j k : Nat}
    (ne : layer ≠ k) : (g.removeEdge source target layer).links j k = g.links j k := by
  rw [links_removeEdge, if_neg fun h => ne h.2, if_neg fun h => ne h.2]

/-! ### Runs of edits -/

/-- The second graph is made from the first by adding edges between nodes that stand on their layer
and by taking edges away. -/
inductive Edits (g : Graph α) : Graph α → Prop where
  | refl : Edits g g
  | addEdge {h : Graph α} {source target layer : Nat} : Edits g h → h.Stands source layer →
      h.Stands target layer → Edits g (h.addEdge source target layer)
  | removeEdge {h : Graph α} (source target layer : Nat) :
      Edits g h → Edits g (h.removeEdge source target layer)

namespace Edits

variable {g h k : Graph α}

theorem trans (first : g.Edits h) (second : h.Edits k) : g.Edits k := by
  induction second with
  | refl => exact first
  | addEdge _ here there ih => exact ih.addEdge here there
  | removeEdge source target layer _ ih => exact ih.removeEdge source target layer

theorem rewired (edits : g.Edits h) : Rewired g h := by
  induction edits with
  | refl => exact .refl g
  | addEdge _ _ _ ih => exact ih.trans (rewired_addEdge ..)
  | removeEdge _ _ _ _ ih => exact ih.trans (rewired_removeEdge ..)

theorem paired (edits : g.Edits h) (paired : g.Paired) : h.Paired := by
  induction edits with
  | refl => exact paired
  | addEdge _ here there ih => exact ih.addEdge here there
  | removeEdge source target layer _ ih => exact ih.removeEdge source target layer

theorem linked (edits : g.Edits h) (linked : g.Linked) : h.Linked := by
  induction edits with
  | refl => exact linked
  | addEdge _ here there ih => exact ih.addEdge here there
  | removeEdge source target layer _ ih => exact ih.removeEdge source target layer

end Edits

/-! ### Nodes without edges -/

theorem Isolated.addEdge {g : Graph α} {id : Nat} (isolated : g.Isolated id)
    {source target : Nat} (source_ne : source ≠ id) (target_ne : target ≠ id) (layer : Nat) :
    (g.addEdge source target layer).Isolated id := fun k => by
  rw [links_addEdge_of_off g (.inl ⟨source_ne, target_ne⟩)]
  exact isolated k

theorem Isolated.removeEdge {g : Graph α} {id : Nat} (isolated : g.Isolated id)
    (source target layer : Nat) : (g.removeEdge source target layer).Isolated id := fun k => by
  rw [links_removeEdge, isolated k]
  simp

end Vicinity.Graph
