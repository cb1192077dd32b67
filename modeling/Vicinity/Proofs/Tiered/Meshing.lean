import Vicinity.Proofs.Graph.Small
import Vicinity.Proofs.Tiered.Contents

/-!
A small graph behind a buffer is a mesh.

What calls, jobs and passes do to the graph of a buffered index are operations that leave a small
graph a mesh, whether they go through or fail. So the graph is a mesh in every state that they lead
to in any order, as long as it never has more nodes than can be linked with each other
(`Confined.mesh`).
-/

namespace Vicinity.Tiered

variable {α : Type} {config : Graph.Config}

open Vicinity.Graph (SmallMesh)

theorem smallMesh_withGraph {g : Graph α} (mesh : SmallMesh config g) (t : Tiered α) :
    SmallMesh config (t.withGraph g).graph := by
  obtain ⟨journal, own, taken⟩ := withGraph_eq t g
  rw [taken]
  exact mesh.withJournal own

theorem nodeCount_withGraph (t : Tiered α) (g : Graph α) :
    (t.withGraph g).graph.nodeCount = g.nodeCount := by
  obtain ⟨journal, own, taken⟩ := withGraph_eq t g
  rw [taken]
  rfl

/-! ### Deletions -/

theorem smallMesh_markNodes {ids : List Nat} {t : Tiered α} (mesh : SmallMesh config t.graph)
    (followup : Followup) (removed : Nat) :
    SmallMesh config (t.markNodes followup removed ids).1.graph := by
  induction ids generalizing t followup removed with
  | nil => exact mesh
  | cons id ids ih =>
      rw [markNodes]
      split
      · exact mesh
      case h_2 t' followup' made =>
        obtain ⟨h, own, marked, graph_eq⟩ := markNode_graph made
        apply ih
        rw [graph_eq]
        exact (mesh.markDeleted marked).withJournal own

theorem smallMesh_removeLabel {t : Tiered α} (mesh : SmallMesh config t.graph) (label : Label) :
    SmallMesh config (t.removeLabel label).1.graph :=
  smallMesh_markNodes (t := { t with flat := (t.flat.deleteLabel label).1 }) mesh _ _

theorem smallMesh_swapAll {ids : List Nat} {g : Graph α} (mesh : SmallMesh config g)
    (executed : Nat) (kept : List Nat) : SmallMesh config (swapAll g executed kept ids).1 :=
  swapAll_keeps (fun _ _ _ mesh removed => mesh.swapRemove removed) mesh executed kept ids

theorem smallMesh_runGc {t : Tiered α} (mesh : SmallMesh config t.graph) :
    SmallMesh config t.runGc.1.graph := by
  cases none_ready : t.ready.isEmpty with
  | true =>
      simp only [runGc, none_ready, if_true]
      exact mesh
  | false =>
      obtain ⟨g, n, kept, swapped⟩ : ∃ g n kept,
          swapAll t.graph 0 [] t.passOrder = (g, n, kept) := ⟨_, _, _, rfl⟩
      obtain ⟨journal, own, eq⟩ := runGc_eq none_ready swapped
      have mesh' : SmallMesh config (swapAll t.graph 0 [] t.passOrder).1 :=
        smallMesh_swapAll mesh 0 []
      rw [swapped] at mesh'
      rw [eq]
      exact mesh'.shrinkToFit.withJournal own

variable [Element α]

/-! ### Insertions -/

/-- A graph that has room made for it takes a vector in, and the whole takes the graph over. -/
theorem smallMesh_grownGraph {t : Tiered α} (mesh : SmallMesh config t.graph)
    (wide : config.IsWide) (room : t.graph.nodeCount < Graph.idLimit) {label : Label}
    (absent : t.graph.contains label = false) {vector : List α} {g : Graph α} {id : Nat}
    (inserted : t.grownGraph.insert label vector = .ok (g, id))
    (few : g.nodeCount ≤ config.meshLimit) : SmallMesh config g := by
  obtain ⟨_, _, _, labels⟩ := grownGraph_same t
  have grown : SmallMesh config t.grownGraph :=
    smallMesh_withGraph (mesh.ensureCapacity room) t
  refine grown.insert wide (fun _ => ?_) inserted few
  rw [Graph.contains, labels]
  exact absent

theorem smallMesh_place {t : Tiered α} (mesh : SmallMesh config t.graph) (wide : config.IsWide)
    (room : t.graph.nodeCount < Graph.idLimit) {label : Label}
    (absent : t.graph.contains label = false) (followup : Followup) (vector : List α)
    (few : (t.place followup label vector).1.graph.nodeCount ≤ config.meshLimit) :
    SmallMesh config (t.place followup label vector).1.graph := by
  have grown := smallMesh_withGraph (mesh.ensureCapacity room) t
  unfold place at few ⊢
  split
  case isTrue direct =>
    rw [if_pos direct] at few
    dsimp only at few ⊢
    split
    · exact grown
    case h_2 g id inserted =>
      rw [inserted] at few
      dsimp only at few ⊢
      rw [nodeCount_withGraph] at few
      exact smallMesh_withGraph (smallMesh_grownGraph mesh wide room absent inserted few) _
  case isFalse =>
    split <;> exact mesh

theorem smallMesh_absorb {t : Tiered α} {tasks : List Task} {entry : Nat} {label : Label}
    (mesh : SmallMesh config t.graph) (wide : config.IsWide)
    (tracked : Tracked t (.insert entry label :: tasks)) (single : t.config.graph.multi = false)
    (few : (t.absorb entry label).1.graph.nodeCount ≤ config.meshLimit) :
    SmallMesh config (t.absorb entry label).1.graph := by
  unfold absorb at few ⊢
  split
  · exact mesh
  case h_2 row found =>
    obtain ⟨mem, here⟩ := tracked.flat_wf.entry?_eq_some_iff.1 found
    have label_eq : row.label = label := tracked.buffered.label_eq mem here
    have shorter := size_removeEntry_lt tracked.flat_wf mem
    have room : t.graph.nodeCount < Graph.idLimit := by
      have := tracked.room
      omega
    have absent : t.graph.contains label = false := label_eq ▸ tracked.unmapped single row mem
    simp only [found] at few
    dsimp only at few ⊢
    split
    · exact smallMesh_withGraph (mesh.ensureCapacity room) t
    case h_2 g id inserted =>
      rw [inserted] at few
      dsimp only at few ⊢
      rw [nodeCount_withGraph] at few
      exact smallMesh_withGraph (smallMesh_grownGraph mesh wide room absent inserted few) _

theorem smallMesh_repairNode {t : Tiered α} (mesh : SmallMesh config t.graph)
    (id generation : Nat) : SmallMesh config (t.repairNode id generation).1.graph := by
  unfold repairNode
  dsimp only
  split
  · exact mesh
  · split
    · exact mesh
    case h_2 h repaired =>
      have mesh' := smallMesh_withGraph (mesh.repair repaired)
        { t with pendingRepairs := t.pendingRepairs - 1 }
      split <;> exact mesh'

/-- A write that keeps the graph small leaves a mesh, as does the removal it begins with. -/
theorem smallMesh_write {t t' : Tiered α} {tasks : List Task} {label : Label} {vector : List α}
    {followup : Followup} {result : Except Failure Unit} (mesh : SmallMesh config t.graph)
    (wide : config.IsWide) (tracked : Tracked t tasks) (single : t.config.graph.multi = false)
    (room : t.graph.nodeCount + t.flat.size < Graph.idLimit)
    (written : t.write label vector = (t', followup, result))
    (few : t'.graph.nodeCount ≤ config.meshLimit) : SmallMesh config t'.graph := by
  rw [write] at written
  split at written
  · cases written
    exact mesh
  · rw [if_neg (Bool.eq_false_iff.1 single)] at written
    obtain ⟨t₁, followup₁, result₁, removed⟩ : ∃ t₁ followup₁ result₁,
        t.removeLabel label = (t₁, followup₁, result₁) := ⟨_, _, _, rfl⟩
    obtain ⟨⟨count, rfl⟩, _, _, _, _, _, fewer, _, absent, _⟩ := tracked.removeLabel removed
    have mesh₁ := smallMesh_removeLabel mesh label
    rw [removed] at mesh₁ written
    have room₁ : t₁.graph.nodeCount < Graph.idLimit := by omega
    have placed := smallMesh_place mesh₁ wide room₁ absent followup₁ vector
    dsimp only at written placed
    rw [written] at placed
    exact placed few

theorem smallMesh_perform {t t' : Tiered α} {task : Task} {tasks : List Task} {outcome : Outcome}
    {next? : Option Task} (mesh : SmallMesh config t.graph) (wide : config.IsWide)
    (tracked : Tracked t (task :: tasks)) (single : t.config.graph.multi = false)
    (done : t.perform task = (t', outcome, next?))
    (few : t'.graph.nodeCount ≤ config.meshLimit) : SmallMesh config t'.graph := by
  cases task with
  | insert entry label =>
      cases done
      exact smallMesh_absorb mesh wide tracked single few
  | repair id x =>
      have mesh' := smallMesh_repairNode mesh id x
      rw [perform] at done
      rwa [done] at mesh'
  | swap =>
      cases done
      exact smallMesh_runGc mesh

/-! ### Calls, jobs and passes in any order -/

namespace World

/-- The states that steps lead to while the graph never has more nodes than a limit, with what the
calls among them leave in a plain list. -/
inductive Confined (config : Config) (limit : Nat) : World α → Holdings α → Prop where
  | new {t : Tiered α} : Tiered.new config = .ok t → Confined config limit { index := t } []
  | write {w : World α} {given : Holdings α} (label : Label) (vector : List α) {t : Tiered α}
      {followup : Followup} {result : Except Failure Unit} :
      Confined config limit w given →
      w.index.graph.nodeCount + w.index.flat.size < Graph.idLimit →
      w.index.write label vector = (t, followup, result) → t.graph.nodeCount ≤ limit →
      Confined config limit { w with index := t, due := w.due ++ followup.tasks }
        (stored config.graph.multi given label vector result)
  | delete {w : World α} {given : Holdings α} (label : Label) {t : Tiered α} {followup : Followup}
      {result : Except Failure Nat} :
      Confined config limit w given → w.index.removeLabel label = (t, followup, result) →
      t.graph.nodeCount ≤ limit →
      Confined config limit { w with index := t, due := w.due ++ followup.tasks }
        (given.delete label)
  | background {w w' : World α} {given : Holdings α} :
      Confined config limit w given → Background w w' → w'.index.graph.nodeCount ≤ limit →
      Confined config limit w' given

theorem Confined.held {config : Config} {limit : Nat} {w : World α} {given : Holdings α}
    (confined : Confined config limit w given) : Held config w given := by
  induction confined with
  | new made => exact .new made
  | write label vector _ room written _ ih => exact ih.write label vector room written
  | delete label _ removed _ ih => exact ih.delete label removed
  | background _ background _ ih => exact ih.background background

/-- The graph is a mesh in all of these states. -/
theorem Confined.mesh {config : Config} (single : config.graph.multi = false)
    (wide : config.graph.IsWide) {w : World α} {given : Holdings α}
    (confined : Confined config config.graph.meshLimit w given) :
    SmallMesh config.graph w.index.graph := by
  induction confined with
  | new made =>
      unfold Tiered.new at made
      split at made
      · contradiction
      case h_2 graph graph_made =>
        cases made
        exact .new graph_made
  | write label vector before room written few ih =>
      obtain ⟨config_eq, tracked, _, _⟩ := before.held.reachable.consistent
      exact smallMesh_write ih wide tracked (config_eq ▸ single) room written few
  | delete label _ removed _ ih =>
      have mesh := smallMesh_removeLabel ih label
      rwa [removed] at mesh
  | background before background few ih =>
      have consistent := before.held.reachable.consistent
      cases background with
      | submit => exact ih
      | finish => exact ih
      | pass passed =>
          have mesh := smallMesh_runGc ih
          rwa [passed] at mesh
      | run front back task handed done =>
          refine smallMesh_perform ?_ wide (consistent.begun handed) ?_ done few
          · exact ih
          · exact consistent.config_eq ▸ single

end World

end Vicinity.Tiered
