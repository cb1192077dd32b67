import Mathlib.Data.List.Nodup
import Mathlib.Data.List.Perm.Subperm
import Vicinity.Graph.Integrity
import Vicinity.Proofs.Graph.WellFormed
import Vicinity.Proofs.LabelMap

/-!
What a passed integrity check means.

`Sound` lists the conditions that the check goes through, read off the graph and not off the order
in which they are tested; `integrity_eq_ok_iff` says that the check passes exactly when they hold. A
well-formed graph is sound (`WellFormed.integrity`). The one condition that is not a part of
well-formedness is that the labels list as many ids as there are live nodes: both are listings of
the live nodes without repetition (`perm_mappedIds`).

The other way round a sound graph has all that searches and repairs rely on (`Sound.sturdy`). Its
label map lists every live node once when no list repeats an id (`Sound.labelled`), which the check
does not ask.
-/

namespace Vicinity.Graph

variable {α : Type}

/-! ### Running checks -/

theorem demand_eq_ok_iff {condition : Bool} {violation : Violation} :
    demand condition violation = .ok () ↔ condition = true := by
  unfold demand
  cases condition <;> simp

theorem checkEach_eq_ok_iff {β : Type} {check : β → Except Violation Unit} {bs : List β} :
    checkEach check bs = .ok () ↔ ∀ b ∈ bs, check b = .ok () := by
  induction bs with
  | nil => simp [checkEach]
  | cons b bs ih =>
      simp only [checkEach, List.forall_mem_cons]
      cases check b with
      | error violation => simp
      | ok _ => simpa using ih

/-- One check after another passes when both do. -/
theorem bind_eq_ok_iff {first second : Except Violation Unit} :
    (do first; second) = .ok () ↔ first = .ok () ∧ second = .ok () := by
  cases first with
  | error violation => simp [bind, Except.bind]
  | ok _ => simp [bind, Except.bind]

/-! ### Links -/

/-- The target of a link passes when it has the link recorded. -/
theorem checkTarget_eq_ok_iff {g : Graph α} {id layer target : Nat} :
    checkTarget g id layer target = .ok () ↔ id ∈ (g.links target layer).incoming := by
  unfold checkTarget
  cases at_target : g.nodes[target]? with
  | none => simp [links, at_target]
  | some node =>
      cases on_layer : node.layers[layer]? with
      | none => simp [links, at_target, on_layer]
      | some l => simp [links, at_target, on_layer, demand_eq_ok_iff]

theorem checkOut_eq_ok_iff {g : Graph α} {id layer : Nat} {seen targets : List Nat} :
    checkOut g id layer seen targets = .ok () ↔
      targets.Nodup ∧ ∀ target ∈ targets,
        target ≠ id ∧ target ∉ seen ∧ id ∈ (g.links target layer).incoming := by
  induction targets generalizing seen with
  | nil => simp [checkOut]
  | cons target targets ih =>
      simp only [checkOut, bind_eq_ok_iff, demand_eq_ok_iff, checkTarget_eq_ok_iff, ih,
        List.nodup_cons, List.forall_mem_cons]
      constructor
      · rintro ⟨ne, fresh, recorded, nodup, rest⟩
        refine ⟨⟨fun again => ?_, nodup⟩, ⟨by simpa using ne, by simpa using fresh, recorded⟩,
          fun t mem => ?_⟩
        · exact (rest target again).2.1 List.mem_cons_self
        · obtain ⟨t_ne, unseen, t_recorded⟩ := rest t mem
          exact ⟨t_ne, fun old => unseen (List.mem_cons_of_mem _ old), t_recorded⟩
      · rintro ⟨⟨once, nodup⟩, ⟨ne, fresh, recorded⟩, rest⟩
        refine ⟨by simpa using ne, by simpa using fresh, recorded, nodup, fun t mem => ?_⟩
        obtain ⟨t_ne, unseen, t_recorded⟩ := rest t mem
        refine ⟨t_ne, fun seen_before => ?_, t_recorded⟩
        rcases List.mem_cons.1 seen_before with rfl | old
        · exact once mem
        · exact unseen old

theorem checkIncoming_eq_ok_iff {g : Graph α} {id layer source : Nat} :
    checkIncoming g id layer source = .ok () ↔ id ∈ (g.links source layer).out := by
  simp [checkIncoming, demand_eq_ok_iff]

theorem checkLinks_eq_ok_iff {g : Graph α} {id layer : Nat} {l : Links} :
    checkLinks g id layer l = .ok () ↔
      l.out.length ≤ g.config.maxDegree layer ∧ l.out.Nodup ∧
        (∀ target ∈ l.out, target ≠ id ∧ id ∈ (g.links target layer).incoming) ∧
          ∀ source ∈ l.incoming, id ∈ (g.links source layer).out := by
  simp [checkLinks, bind_eq_ok_iff, demand_eq_ok_iff, checkOut_eq_ok_iff, checkEach_eq_ok_iff,
    checkIncoming_eq_ok_iff, and_assoc]

theorem checkNode_eq_ok_iff {g : Graph α} {id : Nat} {node : Node}
    (at_id : g.nodes[id]? = some node) :
    checkNode g id node = .ok () ↔
      0 < g.layerCount id ∧ (g.isLive id = true → g.layerCount id ≤ g.maxLevel + 1) ∧
        ∀ layer, g.Stands id layer → checkLinks g id layer (g.links id layer) = .ok () := by
  have live : g.isLive id = !node.deleted := by simp [isLive, at_id]
  simp only [checkNode, bind_eq_ok_iff, demand_eq_ok_iff, checkEach_eq_ok_iff, live,
    layerCount_of_getElem? at_id, Node.topLevel]
  refine and_congr ?_ (and_congr ?_ ?_)
  · cases node.layers <;> simp
  · cases node.deleted
    · simp
    · simp
  · constructor
    · intro each layer stands
      rw [Stands, layerCount_of_getElem? at_id] at stands
      rw [links_of_getElem? at_id, List.getElem?_eq_getElem stands]
      exact each (node.layers[layer], layer)
        (List.mk_mem_zipIdx_iff_getElem?.2 (List.getElem?_eq_getElem stands))
    · rintro each ⟨l, layer⟩ mem
      have on_layer := List.mk_mem_zipIdx_iff_getElem?.1 mem
      have stands : g.Stands id layer := by
        rw [Stands, layerCount_of_getElem? at_id]
        exact (List.getElem?_eq_some_iff.1 on_layer).1
      have := each layer stands
      rwa [links_of_getElem? at_id, on_layer] at this

/-! ### Where searches start -/

theorem checkEntry_eq_ok_iff {g : Graph α} {live : Nat} :
    checkEntry g live = .ok () ↔
      (g.entryPoint = none → live = 0) ∧
        ∀ id, g.entryPoint = some id → g.isLive id = true ∧ g.layerCount id - 1 = g.maxLevel := by
  unfold checkEntry
  cases g.entryPoint with
  | none => simp [demand_eq_ok_iff]
  | some entry =>
      cases at_entry : g.nodes[entry]? with
      | none => simp [isLive, at_entry]
      | some node =>
          simp [bind_eq_ok_iff, demand_eq_ok_iff, isLive, layerCount, at_entry, Node.topLevel]

/-! ### Labels -/

theorem checkLabelledId_eq_ok_iff {g : Graph α} {label : Label} {id : Nat} :
    checkLabelledId g label id = .ok () ↔ g.isLive id = true ∧ g.label? id = some label := by
  unfold checkLabelledId
  cases at_id : g.nodes[id]? with
  | none => simp [isLive, at_id]
  | some node => simp [bind_eq_ok_iff, demand_eq_ok_iff, isLive, label?, at_id]

theorem checkLabel_eq_ok_iff {g : Graph α} {label : Label} {ids : List Nat} :
    checkLabel g (label, ids) = .ok () ↔
      ids ≠ [] ∧ (g.config.multi = false → ids.length ≤ 1) ∧
        ∀ id ∈ ids, g.isLive id = true ∧ g.label? id = some label := by
  simp only [checkLabel, bind_eq_ok_iff, demand_eq_ok_iff, checkEach_eq_ok_iff,
    checkLabelledId_eq_ok_iff]
  cases g.config.multi <;> simp

/-- The live nodes in the order of their ids. -/
def liveIds (g : Graph α) : List Nat := (List.range g.nodeCount).filter g.isLive

theorem mem_liveIds {g : Graph α} {id : Nat} : id ∈ g.liveIds ↔ g.isLive id = true := by
  rw [liveIds, List.mem_filter, List.mem_range]
  exact ⟨fun h => h.2, fun live => ⟨lt_nodeCount_of_isLive live, live⟩⟩

/-- Without an entry point there are no live nodes. -/
theorem Anchored.liveIds_eq_nil {g : Graph α} (anchored : g.Anchored)
    (absent : g.entryPoint = none) : g.liveIds = [] := by
  refine List.filter_eq_nil_iff.2 fun id _ live => ?_
  rw [anchored.absent absent id] at live
  cases live

theorem nodup_liveIds (g : Graph α) : g.liveIds.Nodup := List.nodup_range.filter _

theorem countP_range_getElem? {β : Type} (p : β → Bool) (bs : List β) :
    (List.range bs.length).countP (fun i => bs[i]?.any p) = bs.countP p := by
  induction bs with
  | nil => rfl
  | cons b bs ih =>
      rw [List.length_cons, List.range_succ_eq_map, List.countP_cons, List.countP_map,
        List.countP_cons, ← ih]
      rfl

/-- Where the deleted nodes are counted right, so are the live ones. -/
theorem length_liveIds {g : Graph α} (tallied : g.markedCount = g.nodes.countP (·.deleted)) :
    g.liveIds.length = g.size := by
  have live : g.liveIds.length = g.nodes.toList.countP (fun node => !node.deleted) := by
    rw [liveIds, ← List.countP_eq_length_filter,
      ← countP_range_getElem? (fun node => !node.deleted) g.nodes.toList]
    simp only [nodeCount, Array.length_toList, Array.getElem?_toList]
    rfl
  have split := List.length_eq_countP_add_countP (fun node : Node => node.deleted)
    (l := g.nodes.toList)
  rw [live, size, nodeCount, tallied, ← Array.length_toList, ← Array.countP_toList, split]
  simp

/-- The count of deleted nodes, slot by slot. -/
theorem countDeleted_eq (g : Graph α) :
    g.nodes.countP (·.deleted) = (List.range g.nodeCount).countP g.isDeleted := by
  rw [← Array.countP_toList, ← countP_range_getElem?, Array.length_toList]
  simp only [Array.getElem?_toList]
  rfl

theorem mem_mappedIds {g : Graph α} {id : Nat} :
    id ∈ g.mappedIds ↔ ∃ label, id ∈ g.idsOf label := by
  simp only [mappedIds, List.mem_flatMap, Prod.exists]
  constructor
  · rintro ⟨label, ids, entry, mem⟩
    refine ⟨label, ?_⟩
    rw [idsOf, LabelMap.find?_eq_some_iff.2 entry]
    exact mem
  · rintro ⟨label, mem⟩
    unfold idsOf at mem
    cases found : g.labels.find? label with
    | none =>
        rw [found] at mem
        cases mem
    | some ids =>
        rw [found] at mem
        exact ⟨label, ids, LabelMap.find?_eq_some_iff.1 found, mem⟩

/-- The ids of one label stand together among those of all. -/
theorem idsOf_sublist_mappedIds (g : Graph α) (label : Label) :
    (g.idsOf label).Sublist g.mappedIds := by
  unfold idsOf
  cases found : g.labels.find? label with
  | none => exact List.nil_sublist _
  | some ids =>
      rw [mappedIds, List.flatMap_def]
      apply List.sublist_flatten_of_mem
      exact List.mem_map.2 ⟨_, LabelMap.find?_eq_some_iff.1 found, rfl⟩

/-- A node has one label, so it is not listed under two. -/
theorem nodup_mappedIds {g : Graph α} (listed : g.Listed) (nodup : ∀ label, (g.idsOf label).Nodup) :
    g.mappedIds.Nodup := by
  have of_entry : ∀ entry ∈ g.labels.entries, g.idsOf entry.1 = entry.2 := by
    rintro ⟨label, ids⟩ mem
    rw [idsOf, LabelMap.find?_eq_some_iff.2 mem]
    rfl
  refine List.nodup_flatMap.2 ⟨fun entry mem => ?_, ?_⟩
  · rw [← of_entry entry mem]
    exact nodup entry.1
  · refine g.labels.ascending.imp_of_mem fun {a b} at_a at_b lt => ?_
    intro id in_a in_b
    dsimp only at in_a in_b
    rw [← of_entry a at_a] at in_a
    rw [← of_entry b at_b] at in_b
    have own_a := (listed a.1 id in_a).2
    have own_b := (listed b.1 id in_b).2
    have same : a.1 = b.1 := Option.some.inj (own_a.symm.trans own_b)
    exact UInt64.ne_of_lt lt same

/-- The labels list every live node, and every one once. -/
theorem perm_mappedIds {g : Graph α} (labelled : g.Labelled) :
    g.mappedIds.Perm g.liveIds := by
  have nodup := nodup_mappedIds labelled.listed labelled.nodup
  refine (List.perm_ext_iff_of_nodup nodup (nodup_liveIds g)).2 fun id => ?_
  rw [mem_mappedIds, mem_liveIds]
  constructor
  · rintro ⟨label, mem⟩
    exact ((labelled.mem_idsOf label id).1 mem).1
  · intro live
    obtain ⟨node, at_id, _⟩ := isLive_eq_true_iff.1 live
    exact ⟨node.label, (labelled.mem_idsOf node.label id).2 ⟨live, by simp [label?, at_id]⟩⟩

/-- A live node is listed under its label. -/
theorem Labelled.mem_idsOf_label {g : Graph α} (labelled : g.Labelled) {id : Nat}
    (live : g.isLive id = true) : ∃ label, g.label? id = some label ∧ id ∈ g.idsOf label := by
  obtain ⟨node, at_id, _⟩ := isLive_eq_true_iff.1 live
  have own : g.label? id = some node.label := by simp [label?, at_id]
  exact ⟨node.label, own, (labelled.mem_idsOf node.label id).2 ⟨live, own⟩⟩

theorem Labelled.count_mappedIds {g : Graph α} (labelled : g.Labelled) {id : Nat}
    (live : g.isLive id = true) : g.mappedIds.count id = 1 := by
  rw [(perm_mappedIds labelled).count_eq]
  exact List.count_eq_one_of_mem (nodup_liveIds g) (mem_liveIds.2 live)

/-- Whether the labels pass does not depend on the order in which they are visited. -/
theorem checkLabels_eq_ok_iff {g : Graph α} {order : List (Label × List Nat)}
    (visits : order.Perm g.labels.entries) {live : Nat} :
    checkLabels g order live = .ok () ↔
      (∀ label ids, g.labels.find? label = some ids → checkLabel g (label, ids) = .ok ()) ∧
        g.mappedIds.length = live := by
  have mapped : (order.flatMap (·.2)).length = g.mappedIds.length :=
    (visits.flatMap_right (·.2)).length_eq
  simp only [checkLabels, bind_eq_ok_iff, checkEach_eq_ok_iff, demand_eq_ok_iff, mapped,
    beq_iff_eq, LabelMap.find?_eq_some_iff, Prod.forall, visits.mem_iff]

/-! ### The whole check -/

/-- The conditions of the integrity check. -/
structure Sound (g : Graph α) : Prop where
  aligned : g.vectors.size = g.nodeCount * g.config.dim.toNat
  fits : g.nodeCount ≤ g.capacity.toNat
  layered : ∀ id, id < g.nodeCount → 0 < g.layerCount id
  below : ∀ id, g.isLive id = true → g.layerCount id ≤ g.maxLevel + 1
  links : ∀ id layer, g.Stands id layer → checkLinks g id layer (g.links id layer) = .ok ()
  tallied : g.markedCount = g.nodes.countP (·.deleted)
  unrooted : g.entryPoint = none → g.size = 0
  rooted : ∀ id, g.entryPoint = some id → g.isLive id = true ∧ g.layerCount id - 1 = g.maxLevel
  labels : ∀ label ids, g.labels.find? label = some ids → checkLabel g (label, ids) = .ok ()
  counted : g.mappedIds.length = g.size

/-- The check passes when the conditions hold, in whatever order the labels are visited. -/
theorem integrityVia_eq_ok_iff {g : Graph α} {order : List (Label × List Nat)}
    (visits : order.Perm g.labels.entries) : g.integrityVia order = .ok () ↔ g.Sound := by
  have nodes : (∀ b ∈ g.nodes.toList.zipIdx, checkNode g b.2 b.1 = .ok ()) ↔
      ∀ id, id < g.nodeCount → 0 < g.layerCount id ∧
        (g.isLive id = true → g.layerCount id ≤ g.maxLevel + 1) ∧
          ∀ layer, g.Stands id layer → checkLinks g id layer (g.links id layer) = .ok () := by
    constructor
    · intro all id lt
      have at_id : g.nodes[id]? = some g.nodes[id] := Array.getElem?_eq_getElem lt
      refine (checkNode_eq_ok_iff at_id).1 (all (g.nodes[id], id) ?_)
      exact List.mk_mem_zipIdx_iff_getElem?.2 (by rw [Array.getElem?_toList, at_id])
    · rintro all ⟨node, id⟩ mem
      have at_id : g.nodes[id]? = some node := by
        rw [← Array.getElem?_toList]
        exact List.mk_mem_zipIdx_iff_getElem?.1 mem
      exact (checkNode_eq_ok_iff at_id).2 (all id (Array.getElem?_eq_some_iff.1 at_id).1)
  simp only [integrityVia, bind_eq_ok_iff, demand_eq_ok_iff, checkEach_eq_ok_iff,
    checkEntry_eq_ok_iff, checkLabels_eq_ok_iff visits, nodes, decide_eq_true_eq, beq_iff_eq]
  constructor
  · rintro ⟨aligned, fits, nodes, tallied, ⟨unrooted, rooted⟩, labels, counted⟩
    rw [tallied] at unrooted counted
    exact
      { fits, rooted, labels, unrooted, counted
        aligned := aligned.symm
        tallied := tallied.symm
        layered := fun id lt => (nodes id lt).1
        below := fun id live => (nodes id (lt_nodeCount_of_isLive live)).2.1 live
        links := fun id layer stands =>
          (nodes id (lt_nodeCount_of_stands stands)).2.2 layer stands }
  · intro sound
    rw [← sound.tallied]
    exact ⟨sound.aligned.symm, sound.fits,
      fun id lt => ⟨sound.layered id lt, sound.below id, sound.links id⟩, rfl,
      ⟨sound.unrooted, sound.rooted⟩, sound.labels, sound.counted⟩

theorem integrityVia_ok_congr {g : Graph α} {order order' : List (Label × List Nat)}
    (visits : order.Perm g.labels.entries) (visits' : order'.Perm g.labels.entries) :
    g.integrityVia order = .ok () ↔ g.integrityVia order' = .ok () :=
  (integrityVia_eq_ok_iff visits).trans (integrityVia_eq_ok_iff visits').symm

theorem integrity_eq_ok_iff {g : Graph α} : g.integrity = .ok () ↔ g.Sound :=
  integrityVia_eq_ok_iff (.refl _)

/-! ### What passes -/

/-- A graph with an exact label map and room for its nodes passes the check. -/
theorem Sturdy.integrity {g : Graph α} (sturdy : g.Sturdy) (labelled : g.Labelled)
    (fits : g.nodeCount ≤ g.capacity.toNat) : g.integrity = .ok () := by
  refine integrity_eq_ok_iff.2
    { aligned := sturdy.filled.aligned
      fits
      tallied := sturdy.filled.tallied
      layered := sturdy.filled.layered
      below := sturdy.anchored.below
      links := fun id layer _ => ?_
      unrooted := fun absent => ?_
      rooted := fun id entry => ?_
      labels := fun label ids found => ?_
      counted := ?_ }
  · refine checkLinks_eq_ok_iff.2 ⟨sturdy.within id layer, sturdy.paired.out_nodup id layer,
      fun target edge => ⟨?_, (sturdy.paired.mirrored id target layer).1 edge⟩,
      fun source edge => (sturdy.paired.mirrored source id layer).2 edge⟩
    rintro rfl
    exact sturdy.paired.irreflexive _ layer edge
  · rw [← length_liveIds sturdy.filled.tallied, sturdy.anchored.liveIds_eq_nil absent,
      List.length_nil]
  · have level := sturdy.anchored.level id entry
    exact ⟨sturdy.anchored.live id entry, by omega⟩
  · have ids_eq : g.idsOf label = ids := by
      rw [idsOf, found]
      rfl
    refine checkLabel_eq_ok_iff.2 ⟨labelled.nonempty label ids found, fun one => ?_,
      fun id mem => (labelled.mem_idsOf label id).1 (ids_eq ▸ mem)⟩
    exact ids_eq ▸ labelled.single one label
  · rw [(perm_mappedIds labelled).length_eq, length_liveIds sturdy.filled.tallied]

/-- A well-formed graph passes the check. -/
theorem WellFormed.integrity {g : Graph α} (wf : g.WellFormed) : g.integrity = .ok () :=
  wf.sturdy.integrity wf.labelled wf.stocked.fits

theorem WellFormed.integrityVia {g : Graph α} (wf : g.WellFormed)
    {order : List (Label × List Nat)} (visits : order.Perm g.labels.entries) :
    g.integrityVia order = .ok () :=
  (integrityVia_eq_ok_iff visits).2 (integrity_eq_ok_iff.1 wf.integrity)

namespace Sound

variable {g : Graph α} (sound : g.Sound)

include sound

/-- The conditions on links hold on all layers, since there are no links above a node. -/
theorem links_spec (id layer : Nat) :
    (g.links id layer).out.length ≤ g.config.maxDegree layer ∧ (g.links id layer).out.Nodup ∧
      (∀ target ∈ (g.links id layer).out,
        target ≠ id ∧ id ∈ (g.links target layer).incoming) ∧
        ∀ source ∈ (g.links id layer).incoming, id ∈ (g.links source layer).out := by
  by_cases stands : g.Stands id layer
  · exact checkLinks_eq_ok_iff.1 (sound.links id layer stands)
  · rw [links_eq_empty stands]
    exact ⟨Nat.zero_le _, List.nodup_nil, nofun, nofun⟩

theorem paired : g.Paired where
  out_nodup id layer := (sound.links_spec id layer).2.1
  mirrored a b layer := by
    constructor
    · exact fun edge => ((sound.links_spec a layer).2.2.1 b edge).2
    · exact (sound.links_spec b layer).2.2.2 a
  irreflexive id layer loop := ((sound.links_spec id layer).2.2.1 id loop).1 rfl

theorem listed : g.Listed := by
  intro label id mem
  unfold idsOf at mem
  cases found : g.labels.find? label with
  | none =>
      rw [found] at mem
      cases mem
  | some ids =>
      rw [found] at mem
      exact (checkLabel_eq_ok_iff.1 (sound.labels label ids found)).2.2 id mem

theorem anchored : g.Anchored where
  live id entry := (sound.rooted id entry).1
  level id entry := by
    obtain ⟨live, level⟩ := sound.rooted id entry
    have positive := sound.layered id (lt_nodeCount_of_isLive live)
    omega
  absent none id := by
    have no_live := sound.unrooted none
    rw [← length_liveIds sound.tallied, List.length_eq_zero_iff] at no_live
    cases live : g.isLive id with
    | false => rfl
    | true =>
        rw [← mem_liveIds, no_live] at live
        cases live
  below := sound.below

theorem sturdy : g.Sturdy where
  paired := sound.paired
  within id layer := (sound.links_spec id layer).1
  listed := sound.listed
  anchored := sound.anchored
  filled := ⟨sound.aligned, sound.tallied, sound.layered⟩

/-- Where labels have one vector no list repeats an id. -/
theorem nodup_of_single (one : g.config.multi = false) (label : Label) :
    (g.idsOf label).Nodup := by
  unfold idsOf
  cases found : g.labels.find? label with
  | none => exact List.nodup_nil
  | some ids =>
      have few := (checkLabel_eq_ok_iff.1 (sound.labels label ids found)).2.1 one
      match ids, few with
      | [], _ => exact List.nodup_nil
      | [id], _ => exact List.nodup_singleton id

/-- As many different ids as there are live nodes are all of them. -/
theorem labelled (nodup : ∀ label, (g.idsOf label).Nodup) : g.Labelled where
  mem_idsOf label id := by
    refine ⟨sound.listed label id, fun ⟨live, own⟩ => ?_⟩
    have among : g.mappedIds ⊆ g.liveIds := by
      intro j mem
      obtain ⟨l, mem⟩ := mem_mappedIds.1 mem
      exact mem_liveIds.2 (sound.listed l j mem).1
    have enough : g.liveIds.length ≤ g.mappedIds.length := by
      rw [length_liveIds sound.tallied, sound.counted]
    have all := ((nodup_mappedIds sound.listed nodup).subperm among).perm_of_length_le enough
    obtain ⟨l, mem⟩ := mem_mappedIds.1 (all.mem_iff.2 (mem_liveIds.2 live))
    have same : l = label := Option.some.inj ((sound.listed l id mem).2.symm.trans own)
    exact same ▸ mem
  nodup := nodup
  nonempty label ids found := (checkLabel_eq_ok_iff.1 (sound.labels label ids found)).1
  single one label := by
    unfold idsOf
    cases found : g.labels.find? label with
    | none => exact Nat.zero_le _
    | some ids => exact (checkLabel_eq_ok_iff.1 (sound.labels label ids found)).2.1 one

/-- The label map lists every live node once exactly when no list repeats an id. -/
theorem listed_once_iff :
    (∀ id, g.isLive id = true → g.mappedIds.count id = 1) ↔
      ∀ label, (g.idsOf label).Nodup := by
  constructor
  · intro once label
    refine List.nodup_iff_count_le_one.2 fun id => ?_
    by_cases mem : id ∈ g.idsOf label
    · rw [← once id (sound.listed label id mem).1]
      exact (idsOf_sublist_mappedIds g label).count_le id
    · rw [List.count_eq_zero_of_not_mem mem]
      exact Nat.zero_le _
  · exact fun nodup id live => (sound.labelled nodup).count_mappedIds live

end Sound

end Vicinity.Graph
