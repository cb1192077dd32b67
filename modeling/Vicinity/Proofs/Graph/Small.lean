import Vicinity.Proofs.Graph.Calls
import Vicinity.Proofs.Graph.Joining

/-!
Small graphs are meshes.

A node may have twice as many neighbours on layer 0 as above. As long as a graph has at most one
node more than that, and insertions search with a beam no narrower, every call leaves a mesh
(`SmallMesh.call`), whatever it is and whether it succeeds. Deletions may be under way meanwhile. So
a sequence of calls that never makes a graph too large leaves a mesh (`Within.smallMesh`). The
smallest one with an edge holds two vectors (`IsPair`).
-/

namespace Vicinity.Graph

variable {α : Type}

namespace Config

/-- Insertions search with a beam that holds as many nodes as may be linked on layer 0. -/
def IsWide (config : Config) : Prop := 2 * config.m.toNat ≤ config.efConstruction.toNat

/-- The most nodes that can be linked with each other on layer 0. -/
def meshLimit (config : Config) : Nat := 2 * config.m.toNat + 1

theorem IsWide.maxDegree_eq {config : Config} (wide : config.IsWide) :
    config.maxDegree 0 = 2 * config.m.toNat := by
  have bound := config.efConstruction.toNat_lt
  have two : (2 : UInt64).toNat = 2 := rfl
  rw [maxDegree, if_pos rfl, UInt64.toNat_mul, two, Nat.mod_eq_of_lt]
  exact Nat.lt_of_le_of_lt wide bound

end Config

/-- A mesh that is in order. -/
structure SmallMesh (config : Config) (g : Graph α) : Prop where
  wf : g.WellFormed
  config_eq : g.config = config
  meshed : g.Meshed

namespace SmallMesh

variable {config : Config} {g h : Graph α}

theorem new (made : Graph.new config = .ok g) : SmallMesh config g := by
  obtain ⟨wf, config_eq⟩ := wellFormed_new made
  refine ⟨wf, config_eq, ?_⟩
  unfold Graph.new at made
  split at made
  · contradiction
  · cases made
    exact meshed_empty config

theorem markDeleted (mesh : SmallMesh config g) {id : Nat} (marked : g.markDeleted id = .ok h) :
    SmallMesh config h := by
  obtain ⟨wf, marks, _⟩ := mesh.wf.markDeleted marked
  exact ⟨wf, marks.config_eq.trans mesh.config_eq, marks.meshed mesh.meshed⟩

theorem swapRemove (mesh : SmallMesh config g) {id : Nat} (removed : g.swapRemove id = .ok h) :
    SmallMesh config h := by
  obtain ⟨wf, frees⟩ := mesh.wf.swapRemove removed
  have alone := (swapRemove_eq_ok_iff.1 removed).2.1
  have meshed := frees.meshed mesh.meshed mesh.wf.linked.toPaired alone
  exact ⟨wf, frees.config_eq.trans mesh.config_eq, meshed⟩

theorem shrinkToFit (mesh : SmallMesh config g) : SmallMesh config g.shrinkToFit := by
  refine ⟨mesh.wf.shrinkToFit, ?_, ?_⟩
  · rw [shrinkToFit_eq]
    exact mesh.config_eq
  · rw [shrinkToFit_eq]
    exact mesh.meshed.congr (fun _ _ => rfl) fun _ live => live

theorem ensureCapacity (mesh : SmallMesh config g) (few : g.nodeCount < idLimit) :
    SmallMesh config g.ensureCapacity := by
  refine ⟨mesh.wf.ensureCapacity few, ?_, ?_⟩
  · rw [ensureCapacity_eq]
    exact mesh.config_eq
  · rw [ensureCapacity_eq]
    exact mesh.meshed.congr (fun _ _ => rfl) fun _ live => live

theorem withJournal (mesh : SmallMesh config g) (journal : Log.Journal) :
    SmallMesh config { g with journal } :=
  ⟨mesh.wf.withJournal journal, mesh.config_eq,
    mesh.meshed.congr (fun _ _ => rfl) fun _ live => live⟩

variable [Element α]

theorem repair (mesh : SmallMesh config g) {id : Nat} (repaired : g.repair id = .ok h) :
    SmallMesh config h := by
  obtain ⟨wf, rewired, alone, deleted, _⟩ := mesh.wf.repair repaired
  have dead := (isLive_eq_false_iff (lt_nodeCount_of_isDeleted deleted)).2 deleted
  exact ⟨wf, rewired.config_eq.trans mesh.config_eq,
    (mends_repair repaired).meshed mesh.meshed wf.linked.toPaired alone dead⟩

theorem insert (mesh : SmallMesh config g) (wide : config.IsWide) {label : Label}
    {vector : List α} {id : Nat} (unmapped : g.config.multi = false → g.contains label = false)
    (inserted : g.insert label vector = .ok (h, id)) (few : h.nodeCount ≤ config.meshLimit) :
    SmallMesh config h := by
  obtain ⟨wf, stores, _⟩ := mesh.wf.insert unmapped inserted
  rw [stores.nodeCount_eq, Config.meshLimit] at few
  have below : g.nodeCount ≤ 2 * config.m.toNat := Nat.le_of_succ_le_succ few
  refine ⟨wf, stores.config_eq.trans mesh.config_eq, ?_⟩
  apply mesh.wf.meshed_insert mesh.meshed inserted
  · rwa [mesh.config_eq, wide.maxDegree_eq]
  · rw [mesh.config_eq]
    exact Nat.le_trans below wide

/-- An insertion into a graph that may have to grow. -/
theorem insert_ensureCapacity (mesh : SmallMesh config g) (wide : config.IsWide)
    (room : g.nodeCount < idLimit) {label : Label} {vector : List α} {id : Nat}
    (unmapped : g.config.multi = false → g.contains label = false)
    (inserted : g.ensureCapacity.insert label vector = .ok (h, id))
    (few : h.nodeCount ≤ config.meshLimit) : SmallMesh config h := by
  refine (mesh.ensureCapacity room).insert wide ?_ inserted few
  rw [ensureCapacity_eq]
  exact unmapped

theorem removeLabel (mesh : SmallMesh config g) (label : Label) :
    SmallMesh config (g.removeLabel label).1 := by
  apply removeLabel_keeps
  · exact fun _ _ _ mesh marked => mesh.markDeleted marked
  · exact fun _ _ _ mesh repaired => mesh.repair repaired
  · exact fun _ _ _ _ mesh removed => mesh.swapRemove removed
  · exact fun _ mesh => mesh.shrinkToFit
  · exact mesh

/-- Storing under a label, in place of its old vector where it may have one only. -/
theorem add (mesh : SmallMesh config g) (wide : config.IsWide) (room : g.nodeCount < idLimit)
    (label : Label) (vector : List α) (few : (g.add label vector).1.nodeCount ≤ config.meshLimit) :
    SmallMesh config (g.add label vector).1 := by
  rcases g.add_cases label vector with same | same | ⟨h, clears, outcome⟩
  · rw [same]
    exact mesh
  · rw [same]
    exact mesh.removeLabel label
  · obtain ⟨_, unmapped⟩ := kept_wellFormed.clears mesh.wf clears
    have room_h := Nat.lt_of_le_of_lt (mesh.wf.sturdy.clears clears).2.2 room
    have mesh_h : SmallMesh config h := by
      rcases clears with ⟨_, rfl⟩ | ⟨_, count, removed⟩
      · exact mesh
      · have removal := mesh.removeLabel label
        rwa [removed] at removal
    rcases outcome with same | ⟨k, id, inserted, same⟩
    · rw [same]
      exact mesh_h.ensureCapacity room_h
    · rw [same] at few ⊢
      exact mesh_h.insert_ensureCapacity wide room_h unmapped inserted few

theorem addBatch (wide : config.IsWide) {items : List (Label × List α)} {g : Graph α}
    (mesh : SmallMesh config g)
    (room : ∀ front, front <+: items → (VectorIndex.addBatch g front).1.nodeCount < idLimit)
    (few : ∀ front, front <+: items →
      (VectorIndex.addBatch g front).1.nodeCount ≤ config.meshLimit) :
    SmallMesh config (VectorIndex.addBatch g items).1 := by
  induction items generalizing g with
  | nil => exact mesh
  | cons item items ih =>
      obtain ⟨label, vector⟩ := item
      have first := few [(label, vector)] (List.prefix_append _ items)
      have step := mesh.add wide (room [] List.nil_prefix) label vector
      rcases g.addBatch_cons label vector with refused | stored
      · rw [refused] at first ⊢
        exact step first
      · rw [stored] at first
        rw [stored]
        apply ih (step first)
        · intro front before
          have := room _ (List.cons_prefix_cons.2 ⟨rfl, before⟩)
          rwa [stored] at this
        · intro front before
          have := few _ (List.cons_prefix_cons.2 ⟨rfl, before⟩)
          rwa [stored] at this

end SmallMesh

/-! ### Calls -/

variable [Element α]

/-- After the call there are no more nodes than the limit, nor in the middle of a batch. -/
def Call.StaysWithin (limit : Nat) (g : Graph α) : Call α → Prop
  | addBatch items => ∀ front, front <+: items →
      (VectorIndex.addBatch g front).1.nodeCount ≤ limit
  | call => (call.run g).nodeCount ≤ limit

theorem SmallMesh.call {config : Config} {g : Graph α} (mesh : SmallMesh config g)
    (wide : config.IsWide) {call : Call α} (admissible : call.Admissible g)
    (few : call.StaysWithin config.meshLimit g) : SmallMesh config (call.run g) := by
  cases call with
  | insert label vector =>
      cases inserted : g.insert label vector with
      | error failure =>
          rw [Call.run, inserted]
          exact mesh
      | ok result =>
          have few : ((Call.insert label vector).run g).nodeCount ≤ config.meshLimit := few
          rw [Call.run, inserted] at few ⊢
          exact mesh.insert wide admissible inserted few
  | add label vector => exact mesh.add wide admissible label vector few
  | addBatch items => exact SmallMesh.addBatch wide mesh admissible few
  | removeLabel label => exact mesh.removeLabel label
  | markDeleted id => exact orKeep_keeps mesh fun h marked => mesh.markDeleted marked
  | repair id => exact orKeep_keeps mesh fun h repaired => mesh.repair repaired
  | swapRemove id => exact orKeep_keeps mesh fun h removed => mesh.swapRemove removed
  | ensureCapacity => exact mesh.ensureCapacity admissible
  | shrinkToFit => exact mesh.shrinkToFit

/-- The graphs that calls lead to from an empty one without ever going beyond a number of nodes. -/
inductive Within (config : Config) (limit : Nat) : Graph α → Prop where
  | new {g : Graph α} : Graph.new config = .ok g → Within config limit g
  | call {g : Graph α} (call : Call α) :
      Within config limit g → call.Admissible g → call.StaysWithin limit g →
      Within config limit (call.run g)

theorem Within.reachable {config : Config} {limit : Nat} {g : Graph α}
    (within : Within config limit g) : Reachable config g := by
  induction within with
  | new made => exact .new made
  | call call _ admissible _ ih => exact ih.call call admissible

theorem Within.insert {config : Config} {limit : Nat} {g h : Graph α}
    (within : Within config limit g) {label : Label} {vector : List α} {id : Nat}
    (unmapped : g.config.multi = false → g.contains label = false)
    (inserted : g.insert label vector = .ok (h, id)) (few : h.nodeCount ≤ limit) :
    Within config limit h := by
  rw [← Call.run_insert inserted] at few ⊢
  exact within.call (.insert label vector) unmapped few

theorem Within.markDeleted {config : Config} {limit : Nat} {g h : Graph α}
    (within : Within config limit g) {id : Nat} (marked : g.markDeleted id = .ok h)
    (few : h.nodeCount ≤ limit) : Within config limit h := by
  rw [← Call.run_markDeleted marked] at few ⊢
  exact within.call (.markDeleted id) trivial few

/-- Every sequence of calls leaves a mesh, as long as the graph is small. -/
theorem Within.smallMesh {config : Config} (wide : config.IsWide) {g : Graph α}
    (within : Within config config.meshLimit g) : SmallMesh config g := by
  induction within with
  | new made => exact .new made
  | call call _ admissible few ih => exact ih.call wide admissible few

/-! ### Two vectors -/

/-- Planes of two doubles, with the parameters that are usual. -/
def planeConfig : Config := { dim := 2, metric := .l2 }

/-- Two vectors stand in two slots, each under a label of its own. -/
structure IsPair (g : Graph Binary64) (first second : Label × List Binary64) : Prop where
  within : Within planeConfig planeConfig.meshLimit g
  nodeCount_eq : g.nodeCount = 2
  live : ∀ id < 2, g.isLive id = true
  idsOf_first : g.idsOf first.1 = [0]
  idsOf_second : g.idsOf second.1 = [1]
  vector?_first : g.vector? 0 = some first.2
  vector?_second : g.vector? 1 = some second.2

/-- They stand in the order in which they were stored. -/
theorem isPair_insert (first second : Label × List Binary64) (other : first.1 ≠ second.1)
    (plane : first.2.length = 2) (plane' : second.2.length = 2) :
    IsPair ((Call.insert second.1 second.2).run ((Call.insert first.1 first.2).run
      (Call.ensureCapacity.run { config := planeConfig }))) first second := by
  have limit : planeConfig.meshLimit = 33 := rfl
  have fits {vector : List Binary64} (plane : vector.length = 2) :
      checkDimension 2 vector.length = .ok () := by
    rw [plane]
    rfl
  have empty : Within planeConfig planeConfig.meshLimit
      ({ config := planeConfig } : Graph Binary64) := .new rfl
  have roomy := empty.call .ensureCapacity (by decide : 0 < idLimit) (Nat.zero_le _)
  obtain ⟨g₁, inserted₁⟩ := insert_eq_ok
    (g := Call.ensureCapacity.run ({ config := planeConfig } : Graph Binary64)) first.1
    (fits plane) rfl
  obtain ⟨wf₁, stores₁, _⟩ := roomy.reachable.wellFormed.1.insert (fun _ => rfl) inserted₁
  have count₁ : g₁.nodeCount = 1 := stores₁.nodeCount_eq
  have within₁ := roomy.insert (fun _ => rfl) inserted₁ (by omega)
  have room : g₁.isFull = false := by
    rw [isFull, stores₁.capacity_eq, count₁]
    rfl
  have fits' : checkDimension g₁.config.dim.toNat second.2.length = .ok () := by
    rw [stores₁.config_eq]
    exact fits plane'
  obtain ⟨g₂, inserted₂⟩ := insert_eq_ok second.1 fits' room
  have absent : g₁.idsOf second.1 = [] := by
    rw [stores₁.idsOf_eq, if_neg other]
    rfl
  have unmapped := (contains_eq_false_iff wf₁.labelled).2 absent
  obtain ⟨wf₂, stores₂, _⟩ := wf₁.insert (fun _ => unmapped) inserted₂
  have count₂ : g₂.nodeCount = 2 := by rw [stores₂.nodeCount_eq, count₁]
  rw [Call.run_insert inserted₁, Call.run_insert inserted₂]
  constructor
  case within => exact within₁.insert (fun _ => unmapped) inserted₂ (by omega)
  case nodeCount_eq => exact count₂
  case live =>
    intro id lt
    have : id = 1 ∨ id = 0 := by omega
    rw [stores₂.isLive_eq, stores₁.isLive_eq, count₁]
    rcases this with rfl | rfl <;> rfl
  case idsOf_first =>
    rw [stores₂.idsOf_eq, if_neg other.symm, stores₁.idsOf_eq, if_pos rfl]
    rfl
  case idsOf_second =>
    rw [stores₂.idsOf_eq, if_pos rfl, absent, count₁]
    rfl
  case vector?_first =>
    rw [stores₂.vector?_eq, count₁, if_neg Nat.zero_ne_one, stores₁.vector?_eq]
    rfl
  case vector?_second =>
    rw [stores₂.vector?_eq, count₁, if_pos rfl, stores₁.config_eq]
    rfl

namespace IsPair

variable {g : Graph Binary64} {first second : Label × List Binary64}

/-- Their nodes are linked with each other. -/
theorem linked (pair : IsPair g first second) :
    1 ∈ (g.links 0 0).out ∧ 0 ∈ (g.links 1 0).out := by
  have wide : planeConfig.IsWide := (by decide : 2 * planeConfig.m.toNat ≤ _)
  have together := (pair.within.smallMesh wide).meshed.together
  have live := pair.live 0 Nat.two_pos
  have live' := pair.live 1 Nat.one_lt_two
  exact ⟨together 0 1 live live' Nat.zero_ne_one, together 1 0 live' live Nat.one_ne_zero⟩

/-- Either can be marked deleted. -/
theorem marked (pair : IsPair g first second) {id : Nat} (lt : id < 2) :
    Within planeConfig planeConfig.meshLimit ((Call.markDeleted id).run g) ∧
      g.Marks id ((Call.markDeleted id).run g) := by
  obtain ⟨h, marked⟩ := markDeleted_eq_ok (pair.live id lt)
  obtain ⟨_, marks, _⟩ := pair.within.reachable.wellFormed.1.markDeleted marked
  have few : h.nodeCount ≤ planeConfig.meshLimit := by
    rw [marks.nodeCount_eq, pair.nodeCount_eq]
    decide
  rw [Call.run_markDeleted marked]
  exact ⟨pair.within.markDeleted marked few, marks⟩

end IsPair

/-- Two vectors were stored and the first one, where searches began, was marked deleted. -/
def firstMarked : Graph Binary64 :=
  (Call.markDeleted 0).run ((Call.insert 8 [.one, .zero]).run ((Call.insert 7 [.zero, .one]).run
    (Call.ensureCapacity.run { config := planeConfig })))

/-- Edges still lead to and from it. -/
theorem firstMarked_spec :
    Within planeConfig planeConfig.meshLimit firstMarked ∧ firstMarked.nodeCount = 2 ∧
      firstMarked.isDeleted 0 = true ∧ 1 ∈ (firstMarked.links 0 0).out ∧
      0 ∈ (firstMarked.links 1 0).out := by
  have pair := isPair_insert (7, [.zero, .one]) (8, [.one, .zero]) (by decide) rfl rfl
  obtain ⟨within, marks⟩ := pair.marked Nat.two_pos
  obtain ⟨edge, back⟩ := pair.linked
  refine ⟨within, marks.nodeCount_eq.trans pair.nodeCount_eq, ?_, ?_, ?_⟩
  · rw [firstMarked, marks.isDeleted_eq]
    rfl
  · rwa [firstMarked, marks.links_eq]
  · rwa [firstMarked, marks.links_eq]

end Vicinity.Graph
