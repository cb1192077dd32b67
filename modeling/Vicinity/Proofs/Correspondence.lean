import Vicinity.Proofs.Graph.Holdings
import Vicinity.Proofs.Graph.Refusal
import Vicinity.Proofs.Graph.Small

/-!
An exhaustive index and a graph hold the same.

Both take the same calls, and they put vectors in different places: the one moves its last slot into
each that falls free, the other marks all nodes of a label, repairs their neighbours and then frees
the slots from the highest down. Neither shows. As long as the calls are those that every kind of
index has, no node of the graph stays deleted after a call, so nothing can stop a removal, and every
label has the same vectors in both, in the order in which they were stored. This is what a call
keeps (`InStep.change`), and it determines what the call returns and what either index says of its
contents (`Twins.respond_alike`).

The graph numbers its nodes with machine words. An exhaustive index has no such limit, so they
respond alike to calls that store no more vectors than there are ids.
-/

namespace Vicinity

variable {α : Type}

/-! ### Calls on any kind of index -/

/-- A call that changes an index. -/
inductive Change (α : Type) where
  | add (label : Label) (vector : List α)
  | addBatch (items : List (Label × List α))
  | delete (label : Label)

namespace Change

/-- What a change returns. -/
inductive Outcome where
  | stored (result : Except Failure Unit)
  | deleted (result : Except Failure Nat)

variable {ι : Type} [VectorIndex ι α]

/-- The index after a change, and what it returned. -/
def make (index : ι) : Change α → ι × Outcome
  | add label vector => Prod.map id .stored (VectorIndex.add index label vector)
  | addBatch items => Prod.map id .stored (VectorIndex.addBatch index items)
  | delete label => Prod.map id .deleted (VectorIndex.delete index label)

/-- There is an id left for each vector that is to be stored. -/
def HasRoom (index : ι) : Change α → Prop
  | add _ _ => (VectorIndex.info index).size < Graph.idLimit
  | addBatch items => ∀ front, front <+: items →
      (VectorIndex.info (VectorIndex.addBatch index front).1).size < Graph.idLimit
  | delete _ => True

end Change

/-! ### What a call keeps -/

/-- Every label has the same vectors in the same order, and the graph has no deleted nodes. -/
structure InStep (f : Flat α) (g : Graph α) : Prop where
  flat_wf : f.WellFormed
  graph_wf : g.WellFormed
  dim_eq : f.dim = g.config.dim.toNat
  metric_eq : f.metric = g.config.metric
  multi_eq : f.multi = g.config.multi
  undeleted : ∀ id, g.isDeleted id = false
  vectors : ∀ label, f.vectorsOf label = g.vectorsOf label

namespace InStep

variable {f : Flat α} {g : Graph α} (inStep : InStep f g)

include inStep

theorem count_eq (label : Label) :
    f.holdings.count label = g.holdings.count label := by
  have same := congrArg List.length (inStep.vectors label)
  rwa [Flat.vectorsOf, List.length_map, Flat.length_entriesOf inStep.flat_wf, Graph.vectorsOf,
    List.length_map, Graph.length_idsOf inStep.graph_wf.labelled
      inStep.graph_wf.stocked.toFilled] at same

theorem size_eq : f.size = g.size := by
  have same : (f.holdings.map (·.1)).Perm (g.holdings.map (·.1)) :=
    List.perm_iff_count.2 fun label => by
      rw [← Holdings.count_eq, ← Holdings.count_eq, inStep.count_eq]
  have length := same.length_eq
  rwa [List.length_map, List.length_map, Flat.length_holdings,
    Graph.length_holdings inStep.graph_wf.stocked.toFilled] at length

/-- Every slot of the graph is in use. -/
theorem nodeCount_eq : g.nodeCount = f.size := by
  have none : g.markedCount = 0 := by
    rw [inStep.graph_wf.stocked.tallied]
    refine Array.countP_eq_zero.2 fun node mem deleted => ?_
    obtain ⟨id, lt, rfl⟩ := Array.getElem_of_mem mem
    have alive := inStep.undeleted id
    rw [Graph.isDeleted, Array.getElem?_eq_getElem lt, Option.any_some, deleted] at alive
    cases alive
  rw [inStep.size_eq, Graph.size, none, Nat.sub_zero]

theorem ensureCapacity (few : g.nodeCount < Graph.idLimit) : InStep f g.ensureCapacity := by
  have wf := inStep.graph_wf.ensureCapacity few
  rw [Graph.ensureCapacity_eq] at wf ⊢
  exact { inStep with graph_wf := wf }

end InStep

/-- A new node is the last one of its label. -/
theorem Graph.Stores.vectorsOf_eq {g h : Graph α} {label : Label} {vector : List α}
    (stores : g.Stores label vector h) (listed : g.Listed) (l : Label) :
    h.vectorsOf l =
      if label = l then g.vectorsOf l ++ [some vector] else g.vectorsOf l := by
  have older : (g.idsOf l).map h.vector? = g.vectorsOf l := by
    refine List.map_congr_left fun id mem => ?_
    have lt := lt_nodeCount_of_isLive (listed l id mem).1
    rw [stores.vector?_eq, if_neg (Nat.ne_of_lt lt)]
  rw [vectorsOf, stores.idsOf_eq]
  split
  case isTrue same =>
    rw [same, List.map_append, older, List.map_singleton, stores.vector?_eq, if_pos rfl]
  case isFalse => exact older

namespace InStep

variable [Element α] {f : Flat α} {g : Graph α} (inStep : InStep f g)

include inStep

/-- Nothing stops a removal. -/
theorem delete (label : Label) : ∃ h, g.removeLabel label = (h, .ok (f.deleteLabel label).2) ∧
    InStep (f.deleteLabel label).1 h := by
  have count : (f.deleteLabel label).2 = (g.idsOf label).length := by
    have same := congrArg List.length (inStep.vectors label)
    rwa [Flat.vectorsOf, List.length_map, Graph.vectorsOf, List.length_map] at same
  rcases inStep.graph_wf.removeLabel_outcome label with ⟨done, _⟩ | ⟨j, _, deleted, _⟩
  case inr =>
    rw [inStep.undeleted] at deleted
    cases deleted
  obtain ⟨wf, config_eq, _⟩ := inStep.graph_wf.removeLabel label
  have left := inStep.graph_wf.vectorsOf_removeLabel label
  have unchanged := Flat.deleteLabel_eq f label
  cases removed : g.removeLabel label with
  | mk h result =>
      rw [removed] at done wf config_eq left
      rw [← count] at done
      cases done
      refine ⟨h, rfl, ?_⟩
      constructor
      case flat_wf => exact inStep.flat_wf.deleteLabel label
      case graph_wf => exact wf
      case dim_eq =>
        rw [unchanged, config_eq]
        exact inStep.dim_eq
      case metric_eq =>
        rw [unchanged, config_eq]
        exact inStep.metric_eq
      case multi_eq =>
        rw [unchanged, config_eq]
        exact inStep.multi_eq
      case undeleted =>
        intro id
        rw [inStep.graph_wf.isDeleted_removeLabel removed, inStep.undeleted]
      case vectors =>
        intro l
        rw [left, Flat.vectorsOf_deleteLabel inStep.flat_wf, inStep.vectors]

/-- Clearing a label for another vector. -/
theorem clears {label : Label} {h : Graph α} (clears : g.Clears label h) :
    InStep (if f.multi then f else (f.deleteLabel label).1) h := by
  rw [inStep.multi_eq]
  rcases clears with ⟨multi, rfl⟩ | ⟨single, count, removed⟩
  · rwa [if_pos multi]
  · obtain ⟨k, done, inStep_k⟩ := inStep.delete label
    rw [removed] at done
    cases done
    rwa [if_neg (Bool.eq_false_iff.1 single)]

theorem insert {label : Label} {vector : List α} {h : Graph α} {id : Nat}
    (unmapped : g.config.multi = false → g.contains label = false)
    (inserted : g.insert label vector = .ok (h, id)) : InStep (f.push label vector) h := by
  obtain ⟨wf, stores, _⟩ := inStep.graph_wf.insert unmapped inserted
  have length : vector.length = f.dim := by
    rw [inStep.dim_eq, ← (Graph.eq_of_insert inserted).1, Metric.length_prepare]
  constructor
  case flat_wf => exact inStep.flat_wf.push label length
  case graph_wf => exact wf
  case dim_eq => exact stores.config_eq ▸ inStep.dim_eq
  case metric_eq => exact stores.config_eq ▸ inStep.metric_eq
  case multi_eq => exact stores.config_eq ▸ inStep.multi_eq
  case undeleted =>
    intro j
    rw [stores.isDeleted_eq, inStep.undeleted]
  case vectors =>
    intro l
    rw [Flat.vectorsOf_push inStep.flat_wf label length,
      stores.vectorsOf_eq inStep.graph_wf.labelled.listed, inStep.vectors, inStep.metric_eq]

/-- A vector of the wrong dimension is refused, and any other one is stored. -/
theorem add (few : f.size < Graph.idLimit) (label : Label) (vector : List α) :
    (f.add label vector).2 = (g.add label vector).2 ∧
      InStep (f.add label vector).1 (g.add label vector).1 := by
  rw [← inStep.nodeCount_eq] at few
  cases checked : checkDimension f.dim vector.length with
  | error fault =>
      have refused := inStep.dim_eq ▸ checked
      simp only [Flat.add, Flat.addEntry, checked, Graph.add, refused]
      exact ⟨trivial, inStep⟩
  | ok _ =>
      have fits := inStep.dim_eq ▸ checked
      have pushed : f.add label vector =
          ((if f.multi then f else (f.deleteLabel label).1).push label vector, .ok ()) := by
        simp only [Flat.add, Flat.addEntry, checked]
      cases stored : g.add label vector with
      | mk k result =>
          cases result with
          | error failure =>
              obtain ⟨_, removed⟩ := inStep.graph_wf.add_error few fits stored
              obtain ⟨h, done, _⟩ := inStep.delete label
              rw [removed] at done
              cases done
          | ok _ =>
              obtain ⟨h, id, cleared, inserted⟩ := Graph.add_eq_ok stored
              obtain ⟨_, unmapped⟩ := Graph.kept_wellFormed.clears inStep.graph_wf cleared
              have fewer := (inStep.graph_wf.sturdy.clears cleared).2.2
              have grown := (inStep.clears cleared).ensureCapacity (Nat.lt_of_le_of_lt fewer few)
              rw [pushed]
              refine ⟨rfl, grown.insert ?_ inserted⟩
              rw [Graph.ensureCapacity_eq]
              exact unmapped

/-- A batch ends with the item that either refuses. -/
theorem addBatch {items : List (Label × List α)} (few : ∀ front, front <+: items →
      (VectorIndex.addBatch f front).1.size < Graph.idLimit) :
    (VectorIndex.addBatch f items).2 = (VectorIndex.addBatch g items).2 ∧
      InStep (VectorIndex.addBatch f items).1 (VectorIndex.addBatch g items).1 := by
  induction items generalizing f g with
  | nil => exact ⟨rfl, inStep⟩
  | cons item items ih =>
      obtain ⟨label, vector⟩ := item
      obtain ⟨same, after⟩ := inStep.add (few [] List.nil_prefix) label vector
      have later : ∀ front, front <+: items →
          (VectorIndex.addBatch f ((label, vector) :: front)).1.size < Graph.idLimit :=
        fun front before => few _ (List.cons_prefix_cons.2 ⟨rfl, before⟩)
      have first : VectorIndex.add f label vector = f.add label vector := rfl
      have second : VectorIndex.add g label vector = g.add label vector := rfl
      simp only [VectorIndex.addBatch, first, second] at later ⊢
      generalize f.add label vector = stored at same after later ⊢
      generalize g.add label vector = other at same after ⊢
      obtain ⟨f, result⟩ := stored
      obtain ⟨g, _⟩ := other
      cases same
      cases result with
      | error failure => exact ⟨rfl, after⟩
      | ok _ => exact ih after later

/-- So a call returns the same to both, and keeps them in step. -/
theorem change (change : Change α) (room : change.HasRoom f) :
    (change.make f).2 = (change.make g).2 ∧ InStep (change.make f).1 (change.make g).1 := by
  cases change with
  | add label vector =>
      obtain ⟨same, after⟩ := inStep.add room label vector
      exact ⟨congrArg Change.Outcome.stored same, after⟩
  | addBatch items =>
      obtain ⟨same, after⟩ := inStep.addBatch room
      exact ⟨congrArg Change.Outcome.stored same, after⟩
  | delete label =>
      obtain ⟨h, removed, after⟩ := inStep.delete label
      have deleted : VectorIndex.delete g label = (h, .ok (f.deleteLabel label).2) := removed
      rw [Change.make, Change.make, deleted]
      exact ⟨rfl, after⟩

end InStep

/-! ### What a caller sees -/

variable [Element α]

/-- What an exhaustive index and a graph say of their contents when they hold the same. -/
structure SameContents (f : Flat α) (g : Graph α) : Prop where
  contains : ∀ label, VectorIndex.contains f label = VectorIndex.contains g label
  size : (VectorIndex.info f).size = (VectorIndex.info g).size
  labelCount : (VectorIndex.info f).labelCount = (VectorIndex.info g).labelCount
  vectors : ∀ label, f.vectorsOf label = g.vectorsOf label
  present : ∀ label, none ∉ f.vectorsOf label

theorem InStep.contents {f : Flat α} {g : Graph α} (inStep : InStep f g) : SameContents f g := by
  have labelled := inStep.graph_wf.labelled
  have filled := inStep.graph_wf.stocked.toFilled
  have listed (label : Label) : label ∈ f.labels ↔ label ∈ g.labels.labels := by
    rw [Flat.mem_labels inStep.flat_wf, inStep.count_eq, ← Graph.contains_iff labelled filled]
    exact LabelMap.contains_iff_mem_labels
  constructor
  case contains =>
    intro label
    change f.contains label = g.contains label
    rw [Bool.eq_iff_iff, Flat.contains_iff inStep.flat_wf, inStep.count_eq,
      Graph.contains_iff labelled filled]
  case size => exact inStep.size_eq
  case labelCount =>
    have perm : f.labels.Perm g.labels.labels :=
      (List.perm_ext_iff_of_nodup f.nodup_labels (LabelMap.nodup_labels _)).2 listed
    have lengths := perm.length_eq
    rw [Flat.labels, LabelMap.labels, LabelMap.labels, List.length_map, List.length_map] at lengths
    exact lengths
  case vectors => exact inStep.vectors
  case present => exact inStep.flat_wf.none_not_mem_vectorsOf

/-- An exhaustive index and a graph of the same dimension and metric, after the same calls. -/
inductive Twins (config : Graph.Config) : Flat α → Graph α → Prop where
  | new {g : Graph α} (blockSize : Nat) : Graph.new config = .ok g →
      Twins config (.new config.dim.toNat config.metric config.multi blockSize) g
  | change {f : Flat α} {g : Graph α} (change : Change α) : Twins config f g →
      change.HasRoom f → Twins config (change.make f).1 (change.make g).1

theorem Twins.inStep {config : Graph.Config} {f : Flat α} {g : Graph α}
    (twins : Twins config f g) : InStep f g := by
  induction twins with
  | new blockSize made =>
      obtain ⟨wf, _⟩ := Graph.wellFormed_new made
      unfold Graph.new at made
      split at made
      · cases made
      · cases made
        exact ⟨Flat.wellFormed_new .., wf, rfl, rfl, rfl, fun _ => rfl, fun _ => rfl⟩
  | change change _ room ih => exact (ih.change change room).2

/-- A vector more in both, while the graph stays small. -/
theorem Twins.add_mesh {config : Graph.Config} {f : Flat α} {g : Graph α}
    (twins : Twins config f g) (mesh : Graph.SmallMesh config g) (wide : config.IsWide)
    (label : Label) (vector : List α) (room : f.size < Graph.idLimit)
    (few : ((Change.add label vector).make f).1.size ≤ config.meshLimit) :
    Twins config ((Change.add label vector).make f).1 ((Change.add label vector).make g).1 ∧
      Graph.SmallMesh config ((Change.add label vector).make g).1 := by
  have added := twins.change (.add label vector) room
  have count := added.inStep.nodeCount_eq
  rw [← count] at few
  rw [← twins.inStep.nodeCount_eq] at room
  exact ⟨added, mesh.add wide room label vector few⟩

/-- Where the graph stays small enough, its nodes are linked with each other. -/
theorem Twins.together {config : Graph.Config} {f : Flat α} {g : Graph α}
    (twins : Twins config f g) (mesh : Graph.SmallMesh config g) {a b : Nat} (first : a < f.size)
    (second : b < f.size) (other : a ≠ b) : b ∈ (g.links a 0).out := by
  have inStep := twins.inStep
  have live : ∀ id < f.size, g.isLive id = true := by
    intro id lt
    rw [← inStep.nodeCount_eq] at lt
    by_contra dead
    rw [Bool.not_eq_true, Graph.isLive_eq_false_iff lt, inStep.undeleted] at dead
    cases dead
  exact mesh.meshed.together a b (live a first) (live b second) other

/-- After any calls both say the same of their contents, they hold the same vectors in the same
order under every label, and the next call returns the same from both. A deletion does not fail and
returns the number of vectors that the label had. -/
theorem Twins.respond_alike {config : Graph.Config} {f : Flat α} {g : Graph α}
    (twins : Twins config f g) :
    SameContents f g ∧
      (∀ change : Change α, change.HasRoom f → (change.make f).2 = (change.make g).2) ∧
      ∀ label, (VectorIndex.delete f label).2 = .ok (f.vectorsOf label).length ∧
        (VectorIndex.delete g label).2 = .ok (f.vectorsOf label).length := by
  have inStep := twins.inStep
  refine ⟨inStep.contents, fun change room => (inStep.change change room).1, fun label => ?_⟩
  obtain ⟨h, removed, _⟩ := inStep.delete label
  have count : (f.deleteLabel label).2 = (f.vectorsOf label).length := (List.length_map _).symm
  rw [← count]
  exact ⟨rfl, congrArg Prod.snd removed⟩

/-- The first of two linked nodes is replaced, and the second one moves into its slot. -/
theorem respond_alike_after_replacing :
    let first : Change Binary64 := .add 7 [.zero, .one]
    let second : Change Binary64 := .add 8 [.one, .zero]
    let third : Change Binary64 := .add 7 [.one, .one]
    let f := (second.make (first.make (Flat.new 2 .l2 false 1 : Flat Binary64)).1).1
    let g := (second.make (first.make ({ config := Graph.planeConfig } : Graph Binary64)).1).1
    1 ∈ (g.links 0 0).out ∧ 0 ∈ (g.links 1 0).out ∧
      Twins Graph.planeConfig (third.make f).1 (third.make g).1 ∧
      (third.make f).1.vectorsOf 7 = [some [.one, .one]] ∧
      (third.make f).1.vectorsOf 8 = [some [.one, .zero]] ∧
      SameContents (third.make f).1 (third.make g).1 := by
  intro first second third f g
  have wide : Graph.planeConfig.IsWide := (by decide : 2 * Graph.planeConfig.m.toNat ≤ _)
  have empty : Twins Graph.planeConfig (Flat.new 2 .l2 false 1 : Flat Binary64)
      { config := Graph.planeConfig } := .new 1 rfl
  obtain ⟨one, mesh₁⟩ := empty.add_mesh (.new rfl) wide 7 [.zero, .one]
    (by decide : 0 < Graph.idLimit) (by decide : 1 ≤ Graph.planeConfig.meshLimit)
  obtain ⟨both, mesh₂⟩ := one.add_mesh mesh₁ wide 8 [.one, .zero]
    (by decide : 1 < Graph.idLimit) (by decide : 2 ≤ Graph.planeConfig.meshLimit)
  have replaced := both.change third (show 2 < Graph.idLimit by decide)
  refine ⟨both.together mesh₂ Nat.zero_lt_two Nat.one_lt_two Nat.zero_ne_one,
    both.together mesh₂ Nat.one_lt_two Nat.zero_lt_two Nat.one_ne_zero, replaced,
    by decide +kernel, by decide +kernel, replaced.respond_alike.1⟩

end Vicinity
