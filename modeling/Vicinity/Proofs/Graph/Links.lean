import Vicinity.Graph.Basic

/-!
What the edge operations do to the links of a graph, and what they leave alone.

`Rewired g h` says that `h` differs from `g` in its edges only: the nodes are the same apart from
the contents of their layers, and so is everything that is not a node. Every operation that adds,
takes away or renames edges is a rewiring, so the rest of the graph carries over by this one
relation. The links themselves are described one operation at a time (`links_modifyLinks`,
`mem_out_addEdge`, `links_removeEdge`).
-/

namespace Vicinity.Graph

section Views

variable {α : Type}

/-- A node with the contents of its layers removed. -/
def Node.bare (node : Node) : Node :=
  { node with layers := List.replicate node.layers.length {} }

/-- The node stands on the layer. -/
def Stands (g : Graph α) (id layer : Nat) : Prop := layer < g.layerCount id

instance (g : Graph α) (id layer : Nat) : Decidable (g.Stands id layer) :=
  inferInstanceAs (Decidable (layer < g.layerCount id))

/-- No edge leads to or from the node on any layer. -/
def Isolated (g : Graph α) (id : Nat) : Prop := ∀ layer, g.links id layer = {}

theorem Stands.mono {g : Graph α} {id high low : Nat} (stands : g.Stands id high)
    (le : low ≤ high) : g.Stands id low := Nat.lt_of_le_of_lt le stands

theorem layerCount_of_getElem? {g : Graph α} {id : Nat} {node : Node}
    (at_id : g.nodes[id]? = some node) : g.layerCount id = node.layers.length := by
  simp [layerCount, at_id]

theorem links_of_getElem? {g : Graph α} {id : Nat} {node : Node}
    (at_id : g.nodes[id]? = some node) (layer : Nat) :
    g.links id layer = node.layers[layer]?.getD {} := by
  simp [links, at_id]

/-- There are no links where a node does not stand. -/
theorem links_eq_empty {g : Graph α} {id layer : Nat} (absent : ¬ g.Stands id layer) :
    g.links id layer = {} := by
  unfold Stands layerCount at absent
  cases h : g.nodes[id]? with
  | none => simp [links, h]
  | some node =>
      rw [h] at absent
      simp only [Option.map_some, Option.getD_some, Nat.not_lt] at absent
      simp [links, h, List.getElem?_eq_none absent]

theorem stands_of_mem_out {g : Graph α} {id layer target : Nat}
    (edge : target ∈ (g.links id layer).out) : g.Stands id layer := by
  apply Classical.byContradiction
  intro absent
  rw [links_eq_empty absent] at edge
  cases edge

theorem stands_of_mem_incoming {g : Graph α} {id layer source : Nat}
    (edge : source ∈ (g.links id layer).incoming) : g.Stands id layer := by
  apply Classical.byContradiction
  intro absent
  rw [links_eq_empty absent] at edge
  cases edge

/-- Only a node in a slot stands on a layer. -/
theorem lt_nodeCount_of_stands {g : Graph α} {id layer : Nat} (stands : g.Stands id layer) :
    id < g.nodeCount := by
  apply Classical.byContradiction
  intro beyond
  have none : g.nodes[id]? = none := Array.getElem?_eq_none (Nat.not_lt.1 beyond)
  simp [Stands, layerCount, none] at stands

theorem Links.isEmpty_iff {links : Links} : links.isEmpty = true ↔ links = {} := by
  cases links
  simp [Links.isEmpty]

theorem isIsolated_iff {g : Graph α} {id : Nat} :
    g.isIsolated id = true ↔ id < g.nodeCount ∧ g.Isolated id := by
  unfold isIsolated Isolated
  cases h : g.nodes[id]? with
  | none =>
      have beyond : g.nodeCount ≤ id := Array.getElem?_eq_none_iff.1 h
      simp only [Option.any_none, Bool.false_eq_true, false_iff, not_and]
      intro lt
      omega
  | some node =>
      have lt : id < g.nodeCount := (Array.getElem?_eq_some_iff.1 h).1
      simp only [Option.any_some, lt, true_and, Node.isIsolated, List.all_eq_true]
      constructor
      · intro empty layer
        rw [links_of_getElem? h]
        cases at_layer : node.layers[layer]? with
        | none => rfl
        | some links => exact Links.isEmpty_iff.1 (empty links (List.mem_of_getElem? at_layer))
      · intro empty links mem
        obtain ⟨layer, at_layer⟩ := List.getElem?_of_mem mem
        have := empty layer
        rw [links_of_getElem? h, at_layer] at this
        exact Links.isEmpty_iff.2 this

end Views

/-! ### Rewiring -/

section Rewiring

variable {α : Type}

/-- The second graph differs from the first in its edges only. -/
structure Rewired (g h : Graph α) : Prop where
  frame : h = { g with nodes := h.nodes }
  bare : h.nodes.map Node.bare = g.nodes.map Node.bare

namespace Rewired

theorem refl (g : Graph α) : Rewired g g := ⟨rfl, rfl⟩

theorem trans {g h k : Graph α} (first : Rewired g h) (second : Rewired h k) : Rewired g k :=
  ⟨second.frame.trans (by rw [first.frame]), second.bare.trans first.bare⟩

/-- Operations that rewire do so one after the other. -/
theorem foldl {β : Type} {step : Graph α → β → Graph α} (each : ∀ g b, Rewired g (step g b))
    (g : Graph α) (bs : List β) : Rewired g (bs.foldl step g) := by
  induction bs generalizing g with
  | nil => exact refl g
  | cons b bs ih => exact (each g b).trans (ih (step g b))

variable {g h : Graph α} (rewired : Rewired g h)

include rewired

theorem config_eq : h.config = g.config := by rw [rewired.frame]

theorem labels_eq : h.labels = g.labels := by rw [rewired.frame]

theorem entryPoint_eq : h.entryPoint = g.entryPoint := by rw [rewired.frame]

theorem maxLevel_eq : h.maxLevel = g.maxLevel := by rw [rewired.frame]

theorem capacity_eq : h.capacity = g.capacity := by rw [rewired.frame]

theorem nextGeneration_eq : h.nextGeneration = g.nextGeneration := by rw [rewired.frame]

theorem journal_eq : h.journal = g.journal := by rw [rewired.frame]

theorem getElem?_bare (id : Nat) : h.nodes[id]?.map Node.bare = g.nodes[id]?.map Node.bare := by
  rw [← Array.getElem?_map, rewired.bare, Array.getElem?_map]

/-- A rewired graph gives every answer that does not depend on the contents of layers. -/
theorem getElem?_map {β : Type} {f : Node → β} (blind : ∀ node, f node.bare = f node)
    (id : Nat) : h.nodes[id]?.map f = g.nodes[id]?.map f := by
  have same := congrArg (Option.map f) (rewired.getElem?_bare id)
  have comp : f ∘ Node.bare = f := funext blind
  rwa [Option.map_map, Option.map_map, comp] at same

theorem nodeCount_eq : h.nodeCount = g.nodeCount := by
  have := congrArg Array.size rewired.bare
  simpa [nodeCount] using this

theorem label?_eq (id : Nat) : h.label? id = g.label? id := rewired.getElem?_map (fun _ => rfl) id

theorem vectors_eq : h.vectors = g.vectors := by rw [rewired.frame]

theorem markedCount_eq : h.markedCount = g.markedCount := by rw [rewired.frame]

theorem vector?_eq (id : Nat) : h.vector? id = g.vector? id := by
  rw [vector?, vector?, rewired.config_eq, rewired.vectors_eq]

theorem generation?_eq (id : Nat) : h.generation? id = g.generation? id :=
  rewired.getElem?_map (fun _ => rfl) id

theorem isDeleted_eq (id : Nat) : h.isDeleted id = g.isDeleted id := by
  have same := rewired.getElem?_map (f := fun node => node.deleted) (fun _ => rfl) id
  have := congrArg (Option.any fun deleted => deleted) same
  simpa only [isDeleted, Option.any_map] using this

theorem isLive_eq (id : Nat) : h.isLive id = g.isLive id := by
  have same := rewired.getElem?_map (f := fun node => node.deleted) (fun _ => rfl) id
  have := congrArg (Option.any fun deleted => !deleted) same
  simpa only [isLive, Option.any_map] using this

theorem layerCount_eq (id : Nat) : h.layerCount id = g.layerCount id := by
  have := rewired.getElem?_map (f := fun node => node.layers.length)
    (fun node => by simp [Node.bare]) id
  simp only [layerCount, this]

theorem stands_iff (id layer : Nat) : h.Stands id layer ↔ g.Stands id layer := by
  rw [Stands, Stands, rewired.layerCount_eq]

theorem countDeleted_eq : h.nodes.countP (·.deleted) = g.nodes.countP (·.deleted) := by
  have same := congrArg (Array.countP fun node : Node => node.deleted) rewired.bare
  rwa [Array.countP_map, Array.countP_map] at same

theorem idsOf_eq (label : Label) : h.idsOf label = g.idsOf label := by
  rw [idsOf, idsOf, rewired.labels_eq]

end Rewired

/-! ### Single edges -/

theorem rewired_modifyLinks (g : Graph α) (id layer : Nat) (f : Links → Links) :
    Rewired g (g.modifyLinks id layer f) := by
  refine ⟨rfl, Array.ext_getElem? fun j => ?_⟩
  simp only [modifyLinks, Array.getElem?_map, Array.getElem?_modify]
  split
  · cases g.nodes[j]? <;> simp [Node.bare, Node.modifyLayer]
  · rfl

/-- Changed links are those of the node, on the layer, when it stands there. -/
theorem links_modifyLinks (g : Graph α) (id layer : Nat) (f : Links → Links) (j k : Nat) :
    (g.modifyLinks id layer f).links j k =
      if id = j ∧ layer = k ∧ g.Stands j k then f (g.links j k) else g.links j k := by
  by_cases stands : g.Stands j k
  · have lt := lt_nodeCount_of_stands stands
    have at_j : g.nodes[j]? = some g.nodes[j] := Array.getElem?_eq_getElem lt
    have on_layer : k < g.nodes[j].layers.length := by
      rwa [Stands, layerCount_of_getElem? at_j] at stands
    simp only [stands, and_true, links, modifyLinks, Array.getElem?_modify, at_j]
    by_cases same : id = j
    · by_cases here : layer = k <;> simp [same, here, Node.modifyLayer, on_layer]
    · simp [same]
  · have rewired := rewired_modifyLinks g id layer f
    rw [links_eq_empty (mt (rewired.stands_iff j k).1 stands), if_neg fun h => stands h.2.2,
      links_eq_empty stands]

/-- A change that makes nothing out of no links needs no node to stand anywhere. -/
theorem links_modifyLinks_of_empty (g : Graph α) (id layer : Nat) {f : Links → Links}
    (empty : f {} = {}) (j k : Nat) :
    (g.modifyLinks id layer f).links j k =
      if id = j ∧ layer = k then f (g.links j k) else g.links j k := by
  rw [links_modifyLinks]
  by_cases stands : g.Stands j k
  · simp [stands]
  · simp [stands, links_eq_empty stands, empty]

theorem rewired_addEdge (g : Graph α) (source target layer : Nat) :
    Rewired g (g.addEdge source target layer) := by
  unfold addEdge
  split
  · exact .refl g
  · exact (rewired_modifyLinks ..).trans (rewired_modifyLinks ..)

theorem rewired_removeEdge (g : Graph α) (source target layer : Nat) :
    Rewired g (g.removeEdge source target layer) :=
  (rewired_modifyLinks ..).trans (rewired_modifyLinks ..)

/-- An edge that can be added is the last one of its source. -/
theorem out_addEdge {g : Graph α} {source target layer : Nat} (stands : g.Stands source layer)
    (j k : Nat) :
    ((g.addEdge source target layer).links j k).out =
      if source = j ∧ layer = k ∧ source ≠ target ∧ target ∉ (g.links source layer).out then
        (g.links j k).out ++ [target]
      else (g.links j k).out := by
  unfold addEdge
  by_cases old : source = target ∨ target ∈ (g.links source layer).out
  · rw [if_pos old, if_neg fun h => old.elim h.2.2.1 h.2.2.2]
  · obtain ⟨ne, fresh⟩ := not_or.1 old
    rw [if_neg old, links_modifyLinks, links_modifyLinks]
    by_cases here : source = j ∧ layer = k
    · obtain ⟨rfl, rfl⟩ := here
      have apart : ¬ target = source := fun eq => ne eq.symm
      simp [stands, apart, ne, fresh]
    · rw [if_neg fun h : source = j ∧ layer = k ∧ g.Stands j k => here ⟨h.1, h.2.1⟩,
        if_neg fun h : source = j ∧ layer = k ∧ source ≠ target ∧ _ => here ⟨h.1, h.2.1⟩]
      split <;> rfl

/-- A new edge is one of its source only. -/
theorem out_addEdge_of_ne (g : Graph α) {source j : Nat} (ne : source ≠ j) (target layer k : Nat) :
    ((g.addEdge source target layer).links j k).out = (g.links j k).out := by
  unfold addEdge
  split
  · rfl
  · rw [links_modifyLinks, links_modifyLinks, if_neg fun here : source = j ∧ _ => ne here.1]
    split <;> rfl

/-- An edge that can be added is the last one that its target records. -/
theorem incoming_addEdge {g : Graph α} {source target layer : Nat}
    (stands : g.Stands target layer) (j k : Nat) :
    ((g.addEdge source target layer).links j k).incoming =
      if target = j ∧ layer = k ∧ source ≠ target ∧ target ∉ (g.links source layer).out then
        (g.links j k).incoming ++ [source]
      else (g.links j k).incoming := by
  unfold addEdge
  by_cases old : source = target ∨ target ∈ (g.links source layer).out
  · rw [if_pos old, if_neg fun h => old.elim h.2.2.1 h.2.2.2]
  · obtain ⟨ne, fresh⟩ := not_or.1 old
    rw [if_neg old, links_modifyLinks, links_modifyLinks]
    by_cases here : target = j ∧ layer = k
    · obtain ⟨rfl, rfl⟩ := here
      have stands := ((rewired_modifyLinks g source layer
        fun l => { l with out := l.out ++ [target] }).stands_iff target layer).2 stands
      simp [stands, ne, fresh]
    · rw [if_neg fun h : target = j ∧ layer = k ∧ _ => here ⟨h.1, h.2.1⟩,
        if_neg fun h : target = j ∧ layer = k ∧ source ≠ target ∧ _ => here ⟨h.1, h.2.1⟩]
      split <;> rfl

/-- Both lists of an edge lose it, and nothing else changes. -/
theorem links_removeEdge (g : Graph α) (source target layer j k : Nat) :
    (g.removeEdge source target layer).links j k =
      { out := if source = j ∧ layer = k then (g.links j k).out.filter (· != target)
          else (g.links j k).out
        incoming := if target = j ∧ layer = k then (g.links j k).incoming.filter (· != source)
          else (g.links j k).incoming } := by
  unfold removeEdge
  rw [links_modifyLinks_of_empty _ _ _ rfl, links_modifyLinks_of_empty _ _ _ rfl]
  by_cases leaves : source = j ∧ layer = k
  · by_cases arrives : target = j ∧ layer = k
    · simp only [if_pos leaves, if_pos arrives]
    · simp only [if_pos leaves, if_neg arrives]
  · by_cases arrives : target = j ∧ layer = k
    · simp only [if_neg leaves, if_pos arrives]
    · simp only [if_neg leaves, if_neg arrives]

end Rewiring

end Vicinity.Graph
