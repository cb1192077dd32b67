import Vicinity.Proofs.Arena
import Vicinity.Proofs.Graph.Growth

/-!
Well-formed graphs.

`WellFormed` is the invariant of all operations on a graph. Beside the structure of its edges it
says what the label map lists (`Labelled`), where searches start (`Rooted`) and how the slots are
filled (`Stocked`). Deleted nodes may stand above the top layer, and nothing is asked of how far
their deletion has come. An operation that only rewires edges has to keep their structure and no
more (`WellFormed.rewire`).

Each of the three has a part that operations keep on its own (`Listed`, `Anchored`, `Filled`). It is
all that can be said of a graph from elsewhere.
-/

namespace Vicinity.Graph

variable {α : Type}

/-- The label map lists the live nodes, each under its label and once. -/
structure Labelled (g : Graph α) : Prop where
  mem_idsOf : ∀ label id, id ∈ g.idsOf label ↔ g.isLive id = true ∧ g.label? id = some label
  nodup : ∀ label, (g.idsOf label).Nodup
  nonempty : ∀ label ids, g.labels.find? label = some ids → ids ≠ []
  single : g.config.multi = false → ∀ label, (g.idsOf label).length ≤ 1

/-- What the labels list depends on the nodes and on how many vectors a label may have. -/
theorem Labelled.congr {g h : Graph α} (labelled : g.Labelled) (config : h.config = g.config)
    (labels : h.labels = g.labels) (nodes : h.nodes = g.nodes) : h.Labelled where
  mem_idsOf := by
    simp only [idsOf, isLive, label?, labels, nodes]
    exact labelled.mem_idsOf
  nodup := by
    simp only [idsOf, labels]
    exact labelled.nodup
  nonempty := labels ▸ labelled.nonempty
  single := by
    simp only [idsOf, labels, config]
    exact labelled.single

/-- Whatever is listed under a label is a live node of that label. -/
def Listed (g : Graph α) : Prop :=
  ∀ label, ∀ id ∈ g.idsOf label, g.isLive id = true ∧ g.label? id = some label

theorem Labelled.listed {g : Graph α} (labelled : g.Labelled) : g.Listed :=
  fun label id mem => (labelled.mem_idsOf label id).1 mem

/-- Searches start at a live node on the top layer, and there is one when a node is live. -/
structure Anchored (g : Graph α) : Prop where
  live : ∀ id, g.entryPoint = some id → g.isLive id = true
  level : ∀ id, g.entryPoint = some id → g.layerCount id = g.maxLevel + 1
  absent : g.entryPoint = none → ∀ id, g.isLive id = false
  below : ∀ id, g.isLive id = true → g.layerCount id ≤ g.maxLevel + 1

/-- The top layer is the lowest one when no node is live. -/
structure Rooted (g : Graph α) : Prop extends Anchored g where
  ground : g.entryPoint = none → g.maxLevel = 0

/-- Every node has a place for its vector and stands on at least one layer, and the counter of the
deleted nodes is their number. -/
structure Filled (g : Graph α) : Prop where
  aligned : g.vectors.size = g.nodeCount * g.config.dim.toNat
  tallied : g.markedCount = g.nodes.countP (·.deleted)
  layered : ∀ id, id < g.nodeCount → 0 < g.layerCount id

/-- The slots are filled, with nodes on no more layers than a draw gives and under serial numbers of
their own; they come in whole blocks. -/
structure Stocked (g : Graph α) : Prop extends Filled g where
  few_layers : ∀ id, g.layerCount id ≤ Level.highest + 1
  generation_lt : ∀ id x, g.generation? id = some x → x < g.nextGeneration
  generation_inj : ∀ a b x, g.generation? a = some x → g.generation? b = some x → a = b
  fits : g.nodeCount ≤ g.capacity.toNat
  whole_blocks : g.config.blockSize.toNat ∣ g.capacity.toNat

/-- What every operation on a graph keeps. -/
structure WellFormed (g : Graph α) : Prop where
  usable : g.config.fault? = none
  linked : g.Linked
  within : g.WithinDegree
  labelled : g.Labelled
  rooted : g.Rooted
  stocked : g.Stocked

/-- What every operation keeps even on a graph that comes from elsewhere and with labels that were
inserted twice. -/
structure Sturdy (g : Graph α) : Prop where
  paired : g.Paired
  within : g.WithinDegree
  listed : g.Listed
  anchored : g.Anchored
  filled : g.Filled

theorem WellFormed.sturdy {g : Graph α} (wf : g.WellFormed) : g.Sturdy :=
  ⟨wf.linked.toPaired, wf.within, wf.labelled.listed, wf.rooted.toAnchored, wf.stocked.toFilled⟩

/-! ### Slots -/

/-- Stored vectors have as many components as the index asks for. -/
theorem length_of_vector? {g : Graph α} {id : Nat} {vector : List α}
    (there : g.vector? id = some vector) : vector.length = g.config.dim.toNat :=
  Arena.length_of_read? there

/-- Every slot has a vector. -/
theorem Filled.exists_vector {g : Graph α} (filled : g.Filled) {id : Nat}
    (lt : id < g.nodeCount) : ∃ vector, g.vector? id = some vector := by
  exact ⟨_, Arena.read?_of_lt filled.aligned lt⟩

theorem isLive_eq_true_iff {g : Graph α} {id : Nat} :
    g.isLive id = true ↔ ∃ node, g.nodes[id]? = some node ∧ node.deleted = false := by
  unfold isLive
  cases g.nodes[id]? <;> simp

theorem isDeleted_eq_true_iff {g : Graph α} {id : Nat} :
    g.isDeleted id = true ↔ ∃ node, g.nodes[id]? = some node ∧ node.deleted = true := by
  unfold isDeleted
  cases g.nodes[id]? <;> simp

theorem lt_nodeCount_of_isLive {g : Graph α} {id : Nat} (live : g.isLive id = true) :
    id < g.nodeCount := by
  obtain ⟨node, at_id, _⟩ := isLive_eq_true_iff.1 live
  exact (Array.getElem?_eq_some_iff.1 at_id).1

theorem lt_nodeCount_of_isDeleted {g : Graph α} {id : Nat} (deleted : g.isDeleted id = true) :
    id < g.nodeCount := by
  obtain ⟨node, at_id, _⟩ := isDeleted_eq_true_iff.1 deleted
  exact (Array.getElem?_eq_some_iff.1 at_id).1

theorem isLive_eq_decide (g : Graph α) (id : Nat) :
    g.isLive id = (decide (id < g.nodeCount) && !g.isDeleted id) := by
  rw [isLive, isDeleted, nodeCount]
  by_cases lt : id < g.nodes.size
  · simp [lt]
  · simp [lt]

/-- A slot holds a live node or a deleted one, and not both. -/
theorem isLive_eq_false_iff {g : Graph α} {id : Nat} (lt : id < g.nodeCount) :
    g.isLive id = false ↔ g.isDeleted id = true := by
  have at_id : g.nodes[id]? = some g.nodes[id] := Array.getElem?_eq_getElem lt
  simp [isLive, isDeleted, at_id]

theorem isLive_of_not_isDeleted {g : Graph α} {id : Nat} (lt : id < g.nodeCount)
    (kept : g.isDeleted id = false) : g.isLive id = true := by
  rw [← Bool.not_eq_false, isLive_eq_false_iff lt, kept]
  exact Bool.noConfusion

theorem not_isDeleted_of_isLive {g : Graph α} {id : Nat} (live : g.isLive id = true) :
    g.isDeleted id = false := by
  obtain ⟨node, at_id, kept⟩ := isLive_eq_true_iff.1 live
  simp [isDeleted, at_id, kept]

/-- A descent ends at a node of the graph. -/
theorem Sturdy.lt_nodeCount_of_entryOn? [Element α] {g : Graph α} (sturdy : g.Sturdy)
    {query : List α} {layer : Nat} {place : Candidate}
    (arrives : g.entryOn? query layer = some place) : place.id < g.nodeCount := by
  obtain ⟨entry, start, keeps⟩ := entryOn?_keeps arrives
  apply keeps (· < g.nodeCount)
  · exact fun _ _ _ _ edge => sturdy.paired.target_lt edge
  · exact lt_nodeCount_of_isLive (sturdy.anchored.live entry start)

/-- Where a node is deleted the counter is not zero. -/
theorem Filled.markedCount_pos {g : Graph α} (filled : g.Filled) {id : Nat}
    (deleted : g.isDeleted id = true) : 0 < g.markedCount := by
  obtain ⟨node, at_id, marked⟩ := isDeleted_eq_true_iff.1 deleted
  rw [filled.tallied, Array.countP_pos_iff]
  exact ⟨node, Array.mem_of_getElem? at_id, marked⟩

/-! ### Rewiring -/

theorem Labelled.rewire {g h : Graph α} (labelled : g.Labelled) (rewired : Rewired g h) :
    h.Labelled where
  mem_idsOf label id := by
    rw [rewired.idsOf_eq, rewired.isLive_eq, rewired.label?_eq]
    exact labelled.mem_idsOf label id
  nodup label := by
    rw [rewired.idsOf_eq]
    exact labelled.nodup label
  nonempty label ids found := labelled.nonempty label ids (rewired.labels_eq ▸ found)
  single one label := by
    rw [rewired.idsOf_eq]
    exact labelled.single (rewired.config_eq ▸ one) label

theorem Listed.rewire {g h : Graph α} (listed : g.Listed) (rewired : Rewired g h) : h.Listed := by
  intro label id mem
  rw [rewired.idsOf_eq] at mem
  rw [rewired.isLive_eq, rewired.label?_eq]
  exact listed label id mem

theorem Anchored.rewire {g h : Graph α} (anchored : g.Anchored) (rewired : Rewired g h) :
    h.Anchored where
  live id entry := by
    rw [rewired.isLive_eq]
    exact anchored.live id (rewired.entryPoint_eq ▸ entry)
  level id entry := by
    rw [rewired.layerCount_eq, rewired.maxLevel_eq]
    exact anchored.level id (rewired.entryPoint_eq ▸ entry)
  absent none id := by
    rw [rewired.isLive_eq]
    exact anchored.absent (rewired.entryPoint_eq ▸ none) id
  below id live := by
    rw [rewired.layerCount_eq, rewired.maxLevel_eq]
    exact anchored.below id (rewired.isLive_eq id ▸ live)

theorem Rooted.rewire {g h : Graph α} (rooted : g.Rooted) (rewired : Rewired g h) :
    h.Rooted where
  toAnchored := rooted.toAnchored.rewire rewired
  ground none := by
    rw [rewired.maxLevel_eq]
    exact rooted.ground (rewired.entryPoint_eq ▸ none)

theorem Filled.rewire {g h : Graph α} (filled : g.Filled) (rewired : Rewired g h) :
    h.Filled where
  aligned := by
    rw [rewired.vectors_eq, rewired.nodeCount_eq, rewired.config_eq]
    exact filled.aligned
  tallied := by
    rw [rewired.markedCount_eq, rewired.countDeleted_eq]
    exact filled.tallied
  layered id lt := by
    rw [rewired.layerCount_eq]
    exact filled.layered id (rewired.nodeCount_eq ▸ lt)

theorem Stocked.rewire {g h : Graph α} (stocked : g.Stocked) (rewired : Rewired g h) :
    h.Stocked where
  toFilled := stocked.toFilled.rewire rewired
  few_layers id := by
    rw [rewired.layerCount_eq]
    exact stocked.few_layers id
  generation_lt id x there := by
    rw [rewired.nextGeneration_eq]
    exact stocked.generation_lt id x (rewired.generation?_eq id ▸ there)
  generation_inj a b x at_a at_b :=
    stocked.generation_inj a b x (rewired.generation?_eq a ▸ at_a)
      (rewired.generation?_eq b ▸ at_b)
  fits := by
    rw [rewired.nodeCount_eq, rewired.capacity_eq]
    exact stocked.fits
  whole_blocks := by
    rw [rewired.config_eq, rewired.capacity_eq]
    exact stocked.whole_blocks

theorem Sturdy.rewire {g h : Graph α} (sturdy : g.Sturdy) (rewired : Rewired g h)
    (paired : h.Paired) (within : h.WithinDegree) : h.Sturdy where
  paired := paired
  within := within
  listed := sturdy.listed.rewire rewired
  anchored := sturdy.anchored.rewire rewired
  filled := sturdy.filled.rewire rewired

theorem WellFormed.rewire {g h : Graph α} (wf : g.WellFormed) (rewired : Rewired g h)
    (linked : h.Linked) (within : h.WithinDegree) : h.WellFormed where
  usable := by
    rw [rewired.config_eq]
    exact wf.usable
  linked := linked
  within := within
  labelled := wf.labelled.rewire rewired
  rooted := wf.rooted.rewire rewired
  stocked := wf.stocked.rewire rewired

/-! ### The empty graph -/

theorem wellFormed_empty {config : Config} (usable : config.fault? = none) :
    ({ config } : Graph α).WellFormed where
  usable := usable
  linked :=
    { out_nodup := fun _ _ => List.nodup_nil
      incoming_nodup := fun _ _ => List.nodup_nil
      mirrored := fun _ _ _ => iff_of_false List.not_mem_nil List.not_mem_nil
      irreflexive := fun _ _ loop => by cases loop }
  within _ _ := Nat.zero_le _
  labelled :=
    { mem_idsOf := fun label id => by simp [idsOf, isLive]
      nodup := fun _ => List.nodup_nil
      nonempty := fun _ _ found => by cases found
      single := fun _ _ => Nat.zero_le _ }
  rooted :=
    { live := fun _ entry => by cases entry
      level := fun _ entry => by cases entry
      absent := fun _ _ => rfl
      ground := fun _ => rfl
      below := fun _ live => by cases live }
  stocked :=
    { aligned := (Nat.zero_mul _).symm
      tallied := rfl
      layered := fun _ lt => absurd lt (Nat.not_lt_zero _)
      few_layers := fun _ => Nat.zero_le _
      generation_lt := fun _ _ there => by cases there
      generation_inj := fun _ _ _ there => by cases there
      fits := Nat.le_refl _
      whole_blocks := ⟨0, rfl⟩ }

end Vicinity.Graph
