import Vicinity.Proofs.Graph.Calls
import Vicinity.Proofs.Graph.Guarded.Deletion

/-!
Calls that give up where they would index a node or a layer that is not there.

No call does so on a well-formed graph (`Call.guardedRun_eq_some`): a run over several ids or items
passes through well-formed graphs only, and on each of them the single steps find what they look
for.
-/

namespace Vicinity.Graph

variable {α : Type}

namespace Guarded

/-! ### Whole labels -/

def forEachId (step : Graph α → Nat → Option (Except Failure (Graph α))) (g : Graph α) :
    List Nat → Option (Graph α × Except Failure Unit)
  | [] => some (g, .ok ())
  | id :: ids => do
    match ← step g id with
    | .error failure => some (g, .error failure)
    | .ok g => forEachId step g ids

theorem forEachId_eq_some {motive : Graph α → Prop}
    {f : Graph α → Nat → Option (Except Failure (Graph α))}
    {h : Graph α → Nat → Except Failure (Graph α)}
    (step : ∀ g id, motive g → f g id = some (h g id))
    (keeps : ∀ g id k, motive g → h g id = .ok k → motive k) (ids : List Nat) {g : Graph α}
    (start : motive g) : forEachId f g ids = some (g.forEachId h ids) := by
  induction ids generalizing g with
  | nil => rfl
  | cons id ids ih =>
      unfold forEachId Graph.forEachId
      rw [step g id start]
      simp only [Option.bind_eq_bind, Option.bind_some]
      cases made : h g id with
      | error failure => rfl
      | ok k => exact ih (keeps g id k start made)

variable [Element α]

def detach (g : Graph α) (id : Nat) : Option (Graph α × Except Failure Unit) := do
  match ← markDeleted g id with
  | .error failure => some (g, .error failure)
  | .ok marked =>
    match ← repair marked id with
    | .error failure => some (marked, .error failure)
    | .ok repaired => some (repaired, .ok ())

def detachAll (g : Graph α) : List Nat → Option (Graph α × Except Failure Unit)
  | [] => some (g, .ok ())
  | id :: ids => do
    match ← detach g id with
    | (g, .error failure) => some (g, .error failure)
    | (g, .ok ()) => detachAll g ids

def removeLabel (g : Graph α) (label : Label) : Option (Graph α × Except Failure Nat) :=
  let ids := g.idsOf label
  if ids.isEmpty then some (g, .ok 0)
  else do
    match ← detachAll g ids with
    | (g, .error failure) => some (g, .error failure)
    | (g, .ok ()) =>
      match ← forEachId swapRemove g (Sorting.sortBy (fun a b => b < a) ids) with
      | (g, .error failure) => some (g, .error failure)
      | (g, .ok ()) => some (g.shrinkToFit, .ok ids.length)

def add (g : Graph α) (label : Label) (vector : List α) :
    Option (Graph α × Except Failure Unit) :=
  match checkDimension g.config.dim.toNat vector.length with
  | .error fault => some (g, .error (.vector fault))
  | .ok () => do
    let (g, removed) ← if g.config.multi then some (g, .ok 0) else removeLabel g label
    match removed with
    | .error failure => some (g, .error failure)
    | .ok _ =>
      let g := g.ensureCapacity
      match ← insert g label vector with
      | .error failure => some (g, .error failure)
      | .ok (g, _) => some (g, .ok ())

def addBatch (g : Graph α) : List (Label × List α) → Option (Graph α × Except Failure Unit)
  | [] => some (g, .ok ())
  | (label, vector) :: items => do
    match ← add g label vector with
    | (g, .error failure) => some (g, .error failure)
    | (g, .ok ()) => addBatch g items

theorem detach_eq_some {g : Graph α} (wf : g.WellFormed) (id : Nat) :
    detach g id = some (g.detach id) := by
  unfold detach Graph.detach
  rw [markDeleted_eq_some wf]
  simp only [Option.bind_eq_bind, Option.bind_some]
  cases made : g.markDeleted id with
  | error failure => rfl
  | ok marked =>
      simp only [repair_eq_some (wf.markDeleted made).1, Option.bind_some]
      cases marked.repair id <;> rfl

theorem detachAll_eq_some {g : Graph α} (wf : g.WellFormed) (ids : List Nat) :
    detachAll g ids = some (g.detachAll ids) := by
  induction ids generalizing g with
  | nil => rfl
  | cons id ids ih =>
      unfold detachAll Graph.detachAll
      rw [detach_eq_some wf]
      simp only [Option.bind_eq_bind, Option.bind_some]
      have step : (g.detach id).1.WellFormed :=
        detach_keeps (fun _ _ _ wf made => (wf.markDeleted made).1)
          (fun _ _ _ wf made => (wf.repair made).1) wf id
      cases done : g.detach id with
      | mk h result =>
          rw [done] at step
          cases result with
          | error failure => rfl
          | ok _ => exact ih step

theorem removeLabel_eq_some {g : Graph α} (wf : g.WellFormed) (label : Label) :
    removeLabel g label = some (g.removeLabel label) := by
  unfold removeLabel Graph.removeLabel
  dsimp only
  split
  · rfl
  · rw [detachAll_eq_some wf]
    simp only [Option.bind_eq_bind, Option.bind_some]
    have detached : (g.detachAll (g.idsOf label)).1.WellFormed :=
      detachAll_keeps (fun _ _ _ wf made => (wf.markDeleted made).1)
        (fun _ _ _ wf made => (wf.repair made).1) _ wf
    cases done : g.detachAll (g.idsOf label) with
    | mk h result =>
        rw [done] at detached
        cases result with
        | error failure => rfl
        | ok _ =>
            dsimp only
            rw [forEachId_eq_some (fun _ id wf => swapRemove_eq_some wf id)
              (fun _ _ _ wf made => (wf.swapRemove made).1) _ detached]
            simp only [Option.bind_some]
            cases h.forEachId Graph.swapRemove
                (Sorting.sortBy (fun a b => b < a) (g.idsOf label)) with
            | mk k result => cases result <;> rfl

theorem add_eq_some {g : Graph α} (wf : g.WellFormed) (few : g.nodeCount < idLimit)
    (label : Label) (vector : List α) : add g label vector = some (g.add label vector) := by
  unfold add Graph.add
  cases checkDimension g.config.dim.toNat vector.length with
  | error fault => rfl
  | ok _ =>
      dsimp only
      by_cases multi : g.config.multi = true
      · simp only [multi, if_true, Option.bind_eq_bind, Option.bind_some,
          insert_eq_some (wf.ensureCapacity few)]
        cases g.ensureCapacity.insert label vector <;> rfl
      · simp only [multi, Bool.false_eq_true, if_false, removeLabel_eq_some wf,
          Option.bind_eq_bind, Option.bind_some]
        obtain ⟨wf_h, _, fewer⟩ := wf.removeLabel label
        cases removed : g.removeLabel label with
        | mk h result =>
            rw [removed] at wf_h fewer
            have grown := wf_h.ensureCapacity (Nat.lt_of_le_of_lt fewer few)
            cases result with
            | error failure => rfl
            | ok count =>
                simp only [insert_eq_some grown, Option.bind_some]
                cases h.ensureCapacity.insert label vector <;> rfl

theorem addBatch_eq_some {items : List (Label × List α)} {g : Graph α} (wf : g.WellFormed)
    (few : ∀ front, front <+: items → (VectorIndex.addBatch g front).1.nodeCount < idLimit) :
    addBatch g items = some (VectorIndex.addBatch g items) := by
  induction items generalizing g with
  | nil => rfl
  | cons item items ih =>
      obtain ⟨label, vector⟩ := item
      have here := few [] List.nil_prefix
      have step := wf.add here label vector
      unfold addBatch VectorIndex.addBatch
      simp only [add_eq_some wf here, Option.bind_eq_bind, Option.bind_some]
      have added : VectorIndex.add g label vector = g.add label vector := rfl
      rw [added]
      cases done : g.add label vector with
      | mk h result =>
          cases result with
          | error failure => rfl
          | ok _ =>
              rw [done] at step
              refine ih step.1 fun front before => ?_
              have := few ((label, vector) :: front) (List.cons_prefix_cons.2 ⟨rfl, before⟩)
              rw [VectorIndex.addBatch, added, done] at this
              exact this

end Guarded

/-! ### Calls -/

variable [Element α]

/-- The graph after a call, if the call finds every node and layer that it looks for. -/
def Call.guardedRun (g : Graph α) : Call α → Option (Graph α)
  | insert label vector =>
    (Guarded.insert g label vector).map fun result => g.orKeep (result.map (·.1))
  | add label vector => (Guarded.add g label vector).map (·.1)
  | addBatch items => (Guarded.addBatch g items).map (·.1)
  | removeLabel label => (Guarded.removeLabel g label).map (·.1)
  | markDeleted id => (Guarded.markDeleted g id).map g.orKeep
  | repair id => (Guarded.repair g id).map g.orKeep
  | swapRemove id => (Guarded.swapRemove g id).map g.orKeep
  | ensureCapacity => some g.ensureCapacity
  | shrinkToFit => some g.shrinkToFit

/-- No call on a well-formed graph indexes a node or a layer that is not there. -/
theorem Call.guardedRun_eq_some {g : Graph α} (wf : g.WellFormed) {call : Call α}
    (admissible : call.Admissible g) : call.guardedRun g = some (call.run g) := by
  cases call with
  | insert label vector => simp only [guardedRun, Guarded.insert_eq_some wf]; rfl
  | add label vector => simp only [guardedRun, Guarded.add_eq_some wf admissible]; rfl
  | addBatch items => simp only [guardedRun, Guarded.addBatch_eq_some wf admissible]; rfl
  | removeLabel label => simp only [guardedRun, Guarded.removeLabel_eq_some wf]; rfl
  | markDeleted id => simp only [guardedRun, Guarded.markDeleted_eq_some wf]; rfl
  | repair id => simp only [guardedRun, Guarded.repair_eq_some wf]; rfl
  | swapRemove id => simp only [guardedRun, Guarded.swapRemove_eq_some wf]; rfl
  | ensureCapacity => rfl
  | shrinkToFit => rfl

end Vicinity.Graph
