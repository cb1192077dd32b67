import Mathlib.Algebra.BigOperators.Group.List.Basic
import Mathlib.Data.List.Perm.Subperm
import Vicinity.Proofs.Graph.Reachability
import Vicinity.Proofs.Image.Fields

/-!
A stored graph comes back.

What an image does not hold is the serial numbers of the nodes and the messages: a loaded graph has
its nodes numbered in the order of their slots and an empty journal (`Graph.renumbered`). Everything
else is as it was, the order of every list included, when the image is of the current version; the
version without an epsilon field loses that parameter and nothing more (`Graph.restored`).

The numbers of a well-formed graph fit their fields because its lists of ids repeat nothing and name
slots (`fits_of_slots`). The check at the end of loading passes because a restored graph is
well-formed again (`WellFormed.restored`). So every graph that calls lead to can be stored and
loaded (`Reachable.readFrom_write`), in the middle of a deletion too.
-/

namespace Vicinity

open Image

namespace Graph

variable {α : Type}

/-- The graph with its nodes numbered afresh and its messages forgotten. -/
def renumbered (g : Graph α) : Graph α :=
  { g with
    nodes := g.nodes.mapIdx fun id node => { node with generation := id }
    nextGeneration := g.nodeCount
    journal := [] }

/-- The graph that is read from an image in a version of the format. -/
def restored (g : Graph α) (version : UInt32) : Graph α :=
  { g.renumbered with config := storedConfig g.config version }

/-! ### What a restored graph keeps -/

section Restored

variable (g : Graph α) (version : UInt32)

theorem getElem?_nodes_restored (id : Nat) :
    (g.restored version).nodes[id]? =
      g.nodes[id]?.map fun node => { node with generation := id } := by
  simp [restored, renumbered]

theorem nodeCount_restored : (g.restored version).nodeCount = g.nodeCount := by
  simp [nodeCount, restored, renumbered]

theorem isLive_restored (id : Nat) : (g.restored version).isLive id = g.isLive id := by
  unfold isLive
  rw [getElem?_nodes_restored]
  cases g.nodes[id]? <;> rfl

theorem isDeleted_restored (id : Nat) : (g.restored version).isDeleted id = g.isDeleted id := by
  unfold isDeleted
  rw [getElem?_nodes_restored]
  cases g.nodes[id]? <;> rfl

theorem countDeleted_restored :
    (g.restored version).nodes.countP (·.deleted) = g.nodes.countP (·.deleted) := by
  have deleted : (g.restored version).isDeleted = g.isDeleted :=
    funext (isDeleted_restored g version)
  rw [countDeleted_eq, countDeleted_eq, nodeCount_restored, deleted]

theorem label?_restored (id : Nat) : (g.restored version).label? id = g.label? id := by
  unfold label?
  rw [getElem?_nodes_restored]
  cases g.nodes[id]? <;> rfl

theorem links_restored (id layer : Nat) :
    (g.restored version).links id layer = g.links id layer := by
  unfold links
  rw [getElem?_nodes_restored]
  cases g.nodes[id]? <;> rfl

theorem layerCount_restored (id : Nat) :
    (g.restored version).layerCount id = g.layerCount id := by
  unfold layerCount
  rw [getElem?_nodes_restored]
  cases g.nodes[id]? <;> rfl

theorem generation?_restored {id x : Nat} (there : (g.restored version).generation? id = some x) :
    x = id ∧ id < g.nodeCount := by
  unfold generation? at there
  rw [getElem?_nodes_restored] at there
  cases at_id : g.nodes[id]? with
  | none => simp [at_id] at there
  | some node =>
      simp only [at_id, Option.map_some, Option.some.injEq] at there
      exact ⟨there.symm, (Array.getElem?_eq_some_iff.1 at_id).1⟩

end Restored

/-- A restored graph is well-formed again. -/
theorem WellFormed.restored {g : Graph α} (wf : g.WellFormed) (version : UInt32) :
    (g.restored version).WellFormed where
  usable := (fault?_storedConfig g.config version).trans wf.usable
  linked := wf.linked.congr (links_restored g version)
  within id layer := by
    rw [links_restored]
    exact wf.within id layer
  labelled :=
    { mem_idsOf := fun label id => by
        rw [isLive_restored, label?_restored]
        exact wf.labelled.mem_idsOf label id
      nodup := wf.labelled.nodup
      nonempty := wf.labelled.nonempty
      single := wf.labelled.single }
  rooted :=
    { live := fun id entry => by
        rw [isLive_restored]
        exact wf.rooted.live id entry
      level := fun id entry => by
        rw [layerCount_restored]
        exact wf.rooted.level id entry
      absent := fun none id => (isLive_restored g version id).trans (wf.rooted.absent none id)
      ground := wf.rooted.ground
      below := fun id live => by
        rw [layerCount_restored]
        exact wf.rooted.below id (isLive_restored g version id ▸ live) }
  stocked :=
    { aligned := by
        rw [nodeCount_restored]
        exact wf.stocked.aligned
      tallied := by
        rw [countDeleted_restored]
        exact wf.stocked.tallied
      layered := fun id lt => by
        rw [layerCount_restored]
        exact wf.stocked.layered id (nodeCount_restored g version ▸ lt)
      few_layers := fun id => by
        rw [layerCount_restored]
        exact wf.stocked.few_layers id
      generation_lt := fun id x there => by
        obtain ⟨rfl, lt⟩ := generation?_restored g version there
        exact lt
      generation_inj := fun a b x at_a at_b => by
        obtain ⟨rfl, _⟩ := generation?_restored g version at_a
        obtain ⟨same, _⟩ := generation?_restored g version at_b
        exact same
      fits := by
        rw [nodeCount_restored]
        exact wf.stocked.fits
      whole_blocks := wf.stocked.whole_blocks }

/-! ### The numbers fit their fields -/

/-- A list of different slots fits. -/
theorem fits_of_slots {g : Graph α} (few : g.nodeCount < noEntry) {ids : List Nat}
    (nodup : ids.Nodup) (slots : ∀ id ∈ ids, id < g.nodeCount) : Fits ids := by
  have room : noEntry < UInt32.size := by decide
  have among : ids ⊆ List.range g.nodeCount := fun id mem => List.mem_range.2 (slots id mem)
  have length_le : ids.length ≤ g.nodeCount := by
    have := (nodup.subperm among).length_le
    rwa [List.length_range] at this
  constructor
  · omega
  · intro id mem
    have := slots id mem
    omega

theorem WellFormed.nodeFits {g : Graph α} (wf : g.WellFormed) (few : g.nodeCount < noEntry)
    {node : Node} (mem : node ∈ g.nodes.toList) : NodeFits node := by
  obtain ⟨id, at_id⟩ := List.getElem?_of_mem mem
  rw [Array.getElem?_toList] at at_id
  have lt : id < g.nodeCount := (Array.getElem?_eq_some_iff.1 at_id).1
  have count := layerCount_of_getElem? at_id
  have on_layer : ∀ l ∈ node.layers, ∃ layer, g.links id layer = l := by
    intro l mem_l
    obtain ⟨layer, at_layer⟩ := List.getElem?_of_mem mem_l
    exact ⟨layer, by rw [links_of_getElem? at_id, at_layer, Option.getD_some]⟩
  constructor
  case layered =>
    have pos := wf.stocked.layered id lt
    intro none
    rw [count, none] at pos
    cases pos
  case few_layers =>
    have few_layers := wf.stocked.few_layers id
    have highest : Level.highest + 1 < UInt32.size := by decide
    omega
  case out =>
    intro l mem_l
    obtain ⟨layer, rfl⟩ := on_layer l mem_l
    refine fits_of_slots few (wf.linked.out_nodup id layer) fun target edge => ?_
    exact wf.linked.target_lt edge
  case incoming =>
    intro l mem_l
    obtain ⟨layer, rfl⟩ := on_layer l mem_l
    refine fits_of_slots few (wf.linked.incoming_nodup id layer) fun source edge => ?_
    exact lt_nodeCount_of_stands (wf.linked.stands_source edge)

theorem WellFormed.maxLevel_le {g : Graph α} (wf : g.WellFormed) : g.maxLevel ≤ Level.highest := by
  cases start : g.entryPoint with
  | none =>
      rw [wf.rooted.ground start]
      exact Nat.zero_le _
  | some id =>
      have level := wf.rooted.level id start
      have few_layers := wf.stocked.few_layers id
      omega

theorem WellFormed.parametersFit {g : Graph α} (wf : g.WellFormed) (few : g.nodeCount < noEntry) :
    ParametersFit g where
  usable := wf.usable
  room := wf.stocked.fits
  few := few
  level := Nat.lt_of_le_of_lt wf.maxLevel_le (by decide)
  entry id start := Nat.lt_trans (lt_nodeCount_of_isLive (wf.rooted.live id start)) few

theorem WellFormed.labelsFit {g : Graph α} (wf : g.WellFormed) (few : g.nodeCount < noEntry) :
    ∀ entry ∈ g.labels.entries, Fits entry.2 := by
  rintro ⟨label, ids⟩ mem
  have ids_eq : g.idsOf label = ids := by
    rw [idsOf, LabelMap.find?_eq_some_iff.2 mem]
    rfl
  subst ids_eq
  refine fits_of_slots few (wf.labelled.nodup label) fun id listed => ?_
  exact lt_nodeCount_of_isLive ((wf.labelled.mem_idsOf label id).1 listed).1

/-- There are no more labels than nodes, since every label has one. -/
theorem WellFormed.labels_size_le {g : Graph α} (wf : g.WellFormed) :
    g.labels.size ≤ g.nodeCount := by
  have listed : g.mappedIds.length = g.size := by
    rw [(perm_mappedIds wf.labelled).length_eq, length_liveIds wf.stocked.tallied]
  have one_each : ∀ n ∈ g.labels.entries.map (·.2.length), 1 ≤ n := by
    intro n mem
    obtain ⟨⟨label, ids⟩, at_label, rfl⟩ := List.mem_map.1 mem
    have nonempty := wf.labelled.nonempty label ids (LabelMap.find?_eq_some_iff.2 at_label)
    exact List.length_pos_iff.2 nonempty
  have size_le : g.labels.size ≤ g.mappedIds.length := by
    have := List.length_le_sum_of_one_le _ one_each
    rw [List.length_map] at this
    rw [mappedIds, List.length_flatMap]
    exact this
  have : g.size ≤ g.nodeCount := Nat.sub_le _ _
  omega

/-! ### Reading a whole image -/

/-- Nodes are numbered as they are read. -/
theorem nodes_restored (g : Graph α) (version : UInt32) :
    ((g.nodes.toList.zipIdx 0).map fun c => bareNode c.2 c.1).toArray =
      (g.restored version).nodes := by
  refine Array.ext_getElem? fun id => ?_
  rw [List.getElem?_toArray, List.getElem?_map, List.getElem?_zipIdx, Array.getElem?_toList,
    getElem?_nodes_restored, Nat.zero_add]
  cases g.nodes[id]? <;> rfl

/-- A graph that passes the check is handed on. -/
theorem reads_checked {g : Graph α} (passes : g.integrity = .ok ()) :
    Reads (match g.integrity with
      | .error violation => Scan.reject (.structural violation)
      | .ok () => pure g) [] g := by
  rw [passes]
  exact .pure _

variable [Element α]

theorem WellFormed.reads_payload {g : Graph α} (wf : g.WellFormed) (few : g.nodeCount < noEntry)
    (version : UInt32) :
    Reads (scanPayload ⟨version, .hnsw, Element.dataType α, g.config.dim⟩)
      (parameters g version ++ (g.nodes.toList.flatMap node ++
        (Element.encodeAll g.vectors.toList ++ Image.labels g)))
      (g.restored version) := by
  have nodes := Reads.times bareNode (fun n mem => reads_node (wf.nodeFits few mem)) 0
  have laid := Arena.flatten_reads wf.stocked.aligned
  have vectors := Reads.times_of_each (Arena.read g.config.dim.toNat g.vectors)
    (List.range g.nodeCount) fun id mem => by
      obtain ⟨vector, there⟩ := wf.stocked.exists_vector (List.mem_range.1 mem)
      obtain ⟨_, here⟩ := Arena.read?_eq_some_iff.1 there
      exact reads_vector (here ▸ length_of_vector? there)
  rw [← List.flatMap_map, ← encodeAll_flatten, laid, List.length_range] at vectors
  rw [Array.length_toList] at nodes
  have size_small : g.labels.size < UInt64.size :=
    Nat.lt_trans (Nat.lt_of_le_of_lt wf.labels_size_le few) (by decide)
  have passes := (wf.restored version).integrity
  refine (reads_parameters (wf.parametersFit few) version).bind ?_
  refine nodes.bind (vectors.bind ?_)
  refine (reads_unsigned_word64 size_small).bind ?_
  refine (reads_labels (wf.labelsFit few)).bind_pure ?_
  have counted : ((g.nodes.toList.zipIdx 0).map fun c => bareNode c.2 c.1).countP (·.deleted) =
      g.markedCount := by
    rw [← List.countP_toArray, nodes_restored g version, countDeleted_restored, wf.stocked.tallied]
  rw [nodes_restored g version, laid, counted]
  exact reads_checked passes

/-- A well-formed graph is read back from its image in any version that is read, and nothing that
follows the image is touched. -/
theorem WellFormed.readFrom_writeVersion {g : Graph α} (wf : g.WellFormed)
    (narrow : g.config.dim.toNat ≤ maxDimension) (few : g.nodeCount < noEntry) {version : UInt32}
    (supported : Supported version) (rest : List UInt8) :
    readFrom (writeVersion g version ++ rest) = .ok (g.restored version, rest) := by
  have dim_ne : g.config.dim ≠ 0 := fun zero => dim_pos wf.usable (by rw [zero]; rfl)
  have reads := (reads_header supported dim_ne narrow).bind (wf.reads_payload few version)
  exact reads rest

/-- A graph that calls lead to comes back from its image as it was, apart from the serial numbers
and the messages. From an image of the oldest version it comes back with the usual epsilon, 0.01. -/
theorem Reachable.readFrom_write {config : Config} {g : Graph α} (reachable : Reachable config g)
    (narrow : config.dim.toNat ≤ maxDimension) (few : g.nodeCount < idLimit) :
    (∀ rest, readFrom (write g ++ rest) = .ok (g.renumbered, rest)) ∧
      (∀ rest, readFrom (writeVersion g 3 ++ rest) =
        .ok ({ g.renumbered with config := { config with epsilon := ⟨0x3f847ae147ae147b⟩ } },
          rest)) ∧
      g.renumbered.config = config ∧ g.renumbered.markedCount = g.markedCount := by
  obtain ⟨wf, rfl⟩ := reachable.wellFormed
  refine ⟨fun rest => ?_, fun rest => ?_, rfl, rfl⟩
  · exact wf.readFrom_writeVersion narrow few ⟨by decide, by decide⟩ rest
  · exact wf.readFrom_writeVersion narrow few ⟨by decide, by decide⟩ rest

/-- A graph with a deletion under way is stored and comes back. -/
theorem readFrom_write_after_marking :
    firstMarked.isDeleted 0 = true ∧ 0 ∈ (firstMarked.links 1 0).out ∧
      (∀ rest, readFrom (write firstMarked ++ rest) = .ok (firstMarked.renumbered, rest)) ∧
      (∀ rest, readFrom (writeVersion firstMarked 3 ++ rest) =
        .ok ({ firstMarked.renumbered with
          config := { planeConfig with epsilon := ⟨0x3f847ae147ae147b⟩ } }, rest)) ∧
      firstMarked.renumbered.config = planeConfig ∧
      firstMarked.renumbered.markedCount = firstMarked.markedCount := by
  obtain ⟨within, count, deleted, _, edge⟩ := firstMarked_spec
  have narrow : planeConfig.dim.toNat ≤ maxDimension := by decide
  have few : firstMarked.nodeCount < idLimit := count ▸ (by decide : 2 < idLimit)
  exact ⟨deleted, edge, within.reachable.readFrom_write narrow few⟩

end Graph

end Vicinity
