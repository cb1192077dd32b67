import Vicinity.Proofs.Graph.Integrity
import Vicinity.Proofs.Graph.Replacement

/-!
Sequences of calls on a graph.

A `Call` is one of the operations that change a graph, with its arguments; one that fails leaves
what it did before it failed. `Reachable` collects the graphs that calls lead to from an empty one.
Two things are asked of a caller: ids must not run out while a graph may grow, and a label that may
have one vector is not stored again by a plain insertion. Every reachable graph is well-formed
(`Reachable.wellFormed`), since such a call keeps what its steps keep (`Kept.call`). The labels list
the live nodes even where ids would have run out (`Attained.labelled`). Of a caller who
sees to nothing, and of a graph from elsewhere, `Sturdy.call` says what is kept all the same.
-/

namespace Vicinity.Graph

variable {α : Type}

/-- The graph after an operation that changes nothing when it fails. -/
def orKeep (g : Graph α) : Except Failure (Graph α) → Graph α
  | .ok h => h
  | .error _ => g

/-- An operation that changes nothing when it fails keeps what a successful one keeps. -/
theorem orKeep_keeps {motive : Graph α → Prop} {g : Graph α} (start : motive g)
    {result : Except Failure (Graph α)} (done : ∀ h, result = .ok h → motive h) :
    motive (g.orKeep result) := by
  cases result with
  | ok h => exact done h rfl
  | error failure => exact start

theorem wellFormed_new {config : Config} {g : Graph α} (made : Graph.new config = .ok g) :
    g.WellFormed ∧ g.config = config := by
  unfold Graph.new at made
  split at made
  · contradiction
  case h_2 usable =>
    cases made
    exact ⟨wellFormed_empty usable, rfl⟩

variable [Element α]

/-- An operation that changes a graph. -/
inductive Call (α : Type) where
  | insert (label : Label) (vector : List α)
  | add (label : Label) (vector : List α)
  | addBatch (items : List (Label × List α))
  | removeLabel (label : Label)
  | markDeleted (id : Nat)
  | repair (id : Nat)
  | swapRemove (id : Nat)
  | ensureCapacity
  | shrinkToFit

namespace Call

/-- The graph after a call, whether it succeeded or not. -/
def run (g : Graph α) : Call α → Graph α
  | insert label vector => g.orKeep ((g.insert label vector).map (·.1))
  | add label vector => (g.add label vector).1
  | addBatch items => (VectorIndex.addBatch g items).1
  | removeLabel label => (g.removeLabel label).1
  | markDeleted id => g.orKeep (g.markDeleted id)
  | repair id => g.orKeep (g.repair id)
  | swapRemove id => g.orKeep (g.swapRemove id)
  | ensureCapacity => g.ensureCapacity
  | shrinkToFit => g.shrinkToFit

theorem run_insert {g h : Graph α} {label : Label} {vector : List α} {id : Nat}
    (inserted : g.insert label vector = .ok (h, id)) : (Call.insert label vector).run g = h := by
  rw [Call.run, inserted]
  rfl

theorem run_markDeleted {g h : Graph α} {id : Nat} (marked : g.markDeleted id = .ok h) :
    (Call.markDeleted id).run g = h := by
  rw [Call.run, marked]
  rfl

/-- What a caller sees to: there is an id left where a graph may grow, also in the middle of a
batch, and a label that may have one vector is not inserted while it has one. -/
def Admissible (g : Graph α) : Call α → Prop
  | insert label _ => g.config.multi = false → g.contains label = false
  | add _ _ => g.nodeCount < idLimit
  | addBatch items => ∀ front, front <+: items →
      (VectorIndex.addBatch g front).1.nodeCount < idLimit
  | ensureCapacity => g.nodeCount < idLimit
  | _ => True

/-- The same with room for another number of nodes. -/
def Allowed (room : Nat → Prop) (g : Graph α) : Call α → Prop
  | insert label _ => g.config.multi = false → g.contains label = false
  | add _ _ => room g.nodeCount
  | addBatch items => ∀ front, front <+: items →
      room (VectorIndex.addBatch g front).1.nodeCount
  | ensureCapacity => room g.nodeCount
  | _ => True

theorem Admissible.allowed {g : Graph α} {call : Call α} (admissible : call.Admissible g) :
    call.Allowed (· < idLimit) g := by
  cases call <;> exact admissible

theorem Allowed.mono {room room' : Nat → Prop} (more : ∀ n, room n → room' n) {g : Graph α}
    {call : Call α} (allowed : call.Allowed room g) : call.Allowed room' g := by
  cases call with
  | insert => exact allowed
  | add | ensureCapacity => exact more _ allowed
  | addBatch => exact fun front before => more _ (allowed front before)
  | _ => trivial

end Call

/-- A batch ends at the first item that is refused, with what the items before it left. -/
theorem addBatch_cons (g : Graph α) (label : Label) (vector : List α) :
    (∀ rest, (VectorIndex.addBatch g ((label, vector) :: rest)).1 = (g.add label vector).1) ∨
      ∀ rest, VectorIndex.addBatch g ((label, vector) :: rest) =
        VectorIndex.addBatch (g.add label vector).1 rest := by
  cases eq : g.add label vector with
  | mk h result =>
      have added : VectorIndex.add g label vector = (h, result) := eq
      cases result with
      | error failure =>
          refine .inl fun rest => ?_
          rw [VectorIndex.addBatch, added]
      | ok _ =>
          refine .inr fun rest => ?_
          rw [VectorIndex.addBatch, added]

theorem Sturdy.addBatch {items : List (Label × List α)} {g : Graph α} (sturdy : g.Sturdy) :
    (VectorIndex.addBatch g items).1.Sturdy ∧
      (VectorIndex.addBatch g items).1.config = g.config := by
  induction items generalizing g with
  | nil => exact ⟨sturdy, rfl⟩
  | cons item items ih =>
      obtain ⟨label, vector⟩ := item
      have step := sturdy.add label vector
      rcases g.addBatch_cons label vector with refused | stored
      · rw [refused]
        exact step
      · obtain ⟨sturdy_rest, config⟩ := ih step.1
        rw [stored]
        exact ⟨sturdy_rest, config.trans step.2⟩

theorem Kept.addBatch {room : Nat → Prop} {motive : Graph α → Prop} (kept : Kept room motive)
    {items : List (Label × List α)} {g : Graph α} (holds : motive g)
    (few : ∀ front, front <+: items → room (VectorIndex.addBatch g front).1.nodeCount) :
    motive (VectorIndex.addBatch g items).1 := by
  induction items generalizing g with
  | nil => exact holds
  | cons item items ih =>
      obtain ⟨label, vector⟩ := item
      have step := kept.add holds (few [] List.nil_prefix) label vector
      rcases g.addBatch_cons label vector with refused | stored
      · rw [refused]
        exact step
      · rw [stored]
        refine ih step fun front before => ?_
        have := few _ (List.cons_prefix_cons.2 ⟨rfl, before⟩)
        rwa [stored] at this

/-- What an insertion that succeeds keeps, whatever its caller does with the id. -/
theorem orKeep_insert_keeps {motive : Graph α → Prop} {g : Graph α} (start : motive g)
    {label : Label} {vector : List α}
    (done : ∀ h id, g.insert label vector = .ok (h, id) → motive h) :
    motive (g.orKeep ((g.insert label vector).map (·.1))) := by
  cases inserted : g.insert label vector with
  | ok result => exact done result.1 result.2 inserted
  | error failure => exact start

/-- Any call keeps what searches and repairs rely on, and the parameters. -/
theorem Sturdy.call {g : Graph α} (sturdy : g.Sturdy) (call : Call α) :
    (call.run g).Sturdy ∧ (call.run g).config = g.config := by
  have start : g.Sturdy ∧ g.config = g.config := ⟨sturdy, rfl⟩
  let motive := fun h : Graph α => h.Sturdy ∧ h.config = g.config
  cases call with
  | insert label vector =>
      refine orKeep_insert_keeps (motive := motive) start fun h id inserted => ?_
      obtain ⟨sturdy_h, stores⟩ := sturdy.insert inserted
      exact ⟨sturdy_h, stores.config_eq⟩
  | add label vector => exact sturdy.add label vector
  | addBatch items => exact sturdy.addBatch
  | removeLabel label =>
      obtain ⟨sturdy_h, config, _⟩ := sturdy.removeLabel label
      exact ⟨sturdy_h, config⟩
  | markDeleted id =>
      refine orKeep_keeps (motive := motive) start fun h marked => ?_
      obtain ⟨sturdy_h, marks, _⟩ := sturdy.markDeleted marked
      exact ⟨sturdy_h, marks.config_eq⟩
  | repair id =>
      refine orKeep_keeps (motive := motive) start fun h repaired => ?_
      obtain ⟨sturdy_h, edits⟩ := sturdy.repair repaired
      exact ⟨sturdy_h, edits.rewired.config_eq⟩
  | swapRemove id =>
      refine orKeep_keeps (motive := motive) start fun h removed => ?_
      obtain ⟨sturdy_h, frees⟩ := sturdy.swapRemove removed
      exact ⟨sturdy_h, frees.config_eq⟩
  | ensureCapacity => exact ⟨sturdy.ensureCapacity, by rw [Call.run, ensureCapacity_eq]⟩
  | shrinkToFit => exact ⟨sturdy.shrinkToFit, by rw [Call.run, shrinkToFit_eq]⟩

/-- A call that its caller may make keeps what its steps keep. -/
theorem Kept.call {room : Nat → Prop} {motive : Graph α → Prop} (kept : Kept room motive)
    {g : Graph α} (holds : motive g) {call : Call α} (allowed : call.Allowed room g) :
    motive (call.run g) := by
  cases call with
  | insert label vector =>
      exact orKeep_insert_keeps holds fun h id inserted =>
        kept.insert g label vector h id holds allowed inserted
  | add label vector => exact kept.add holds allowed label vector
  | addBatch items => exact kept.addBatch holds allowed
  | removeLabel label => exact kept.removeLabel holds label
  | markDeleted id => exact orKeep_keeps holds fun h => kept.markDeleted g id h holds
  | repair id => exact orKeep_keeps holds fun h => kept.repair g id h holds
  | swapRemove id => exact orKeep_keeps holds fun h => kept.swapRemove g id h holds
  | ensureCapacity => exact kept.ensureCapacity g holds allowed
  | shrinkToFit => exact kept.shrinkToFit g holds

/-- A call keeps a graph well-formed and its parameters as they are. -/
theorem Call.wellFormed {g : Graph α} (wf : g.WellFormed) {call : Call α}
    (admissible : call.Admissible g) :
    (call.run g).WellFormed ∧ (call.run g).config = g.config :=
  ⟨kept_wellFormed.call wf admissible.allowed, (wf.sturdy.call call).2⟩

/-- The graphs that calls lead to, starting with an empty one. -/
inductive Reachable (config : Config) : Graph α → Prop where
  | new {g : Graph α} : Graph.new config = .ok g → Reachable config g
  | call {g : Graph α} (call : Call α) :
      Reachable config g → call.Admissible g → Reachable config (call.run g)

theorem Reachable.wellFormed {config : Config} {g : Graph α} (reachable : Reachable config g) :
    g.WellFormed ∧ g.config = config := by
  induction reachable with
  | new made => exact wellFormed_new made
  | call call _ admissible ih =>
      obtain ⟨wf, config_eq⟩ := Call.wellFormed ih.1 admissible
      exact ⟨wf, config_eq.trans ih.2⟩

/-- The graphs that calls lead to, starting with an empty one, when ids never run out. -/
inductive Attained (config : Config) : Graph α → Prop where
  | new {g : Graph α} : Graph.new config = .ok g → Attained config g
  | call {g : Graph α} (call : Call α) :
      Attained config g → call.Allowed (fun _ => True) g → Attained config (call.run g)

theorem Reachable.attained {config : Config} {g : Graph α} (reachable : Reachable config g) :
    Attained config g := by
  induction reachable with
  | new made => exact .new made
  | call call _ admissible ih => exact .call call ih (admissible.allowed.mono fun _ _ => trivial)

theorem Attained.labelled {config : Config} {g : Graph α} (attained : Attained config g) :
    (g.Sturdy ∧ g.Labelled) ∧ g.config = config ∧ config.fault? = none := by
  induction attained with
  | new made =>
      obtain ⟨wf, config_eq⟩ := wellFormed_new made
      exact ⟨⟨wf.sturdy, wf.labelled⟩, config_eq, config_eq ▸ wf.usable⟩
  | call call _ allowed ih =>
      have config_eq := (ih.1.1.call call).2
      exact ⟨kept_labelled.call ih.1 allowed, config_eq.trans ih.2.1, ih.2.2⟩

end Vicinity.Graph
