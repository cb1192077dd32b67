import Vicinity.Graph.Index
import Vicinity.Proofs.Graph.Capacity

/-!
Deleting and storing whole labels keeps a graph well-formed.

Each of these operations is a run of the steps that the other modules treat, so it keeps whatever
the steps keep, also when a step fails and the run ends there (`removeLabel_keeps`). Storing under a
label that may have one vector only needs that the old one is gone: a removal that succeeds leaves
the label without ids (`idsOf_removeLabel`). `Kept` collects what has to be shown of the steps
before a property can be said to hold after every operation.
-/

namespace Vicinity.Graph

variable {α : Type}

/-! ### Runs over ids -/

/-- A run keeps what every step keeps, however it ends. -/
theorem forEachId_keeps {f : Graph α → Nat → Except Failure (Graph α)}
    {motive : Graph α → Prop} (ids : List Nat)
    (keeps : ∀ g, ∀ id ∈ ids, ∀ h, motive g → f g id = .ok h → motive h) {g : Graph α}
    (start : motive g) : motive (forEachId f g ids).1 := by
  induction ids generalizing g with
  | nil => exact start
  | cons id ids ih =>
      unfold forEachId
      split
      · exact start
      case h_2 h made =>
        exact ih (fun g j mem => keeps g j (List.mem_cons_of_mem _ mem))
          (keeps g id List.mem_cons_self h start made)

/-- A label without ids is not in use. -/
theorem contains_eq_false_iff {g : Graph α} (labelled : g.Labelled) {label : Label} :
    g.contains label = false ↔ g.idsOf label = [] := by
  constructor
  · exact idsOf_eq_nil
  · intro none
    cases found : g.labels.find? label with
    | none => simp [contains, LabelMap.contains, found]
    | some ids =>
        rw [idsOf, found] at none
        exact absurd none (labelled.nonempty label ids found)

variable [Element α]

section Keeping

variable {motive : Graph α → Prop}
  (mark : ∀ g id h, motive g → g.markDeleted id = .ok h → motive h)
  (repair : ∀ g id h, motive g → g.repair id = .ok h → motive h)

include mark repair

theorem detach_keeps {g : Graph α} (start : motive g) (id : Nat) : motive (g.detach id).1 := by
  unfold detach
  split
  · exact start
  case h_2 marked made =>
    have after := mark g id marked start made
    split
    · exact after
    case h_2 repaired done => exact repair marked id repaired after done

theorem detachAll_keeps (ids : List Nat) {g : Graph α} (start : motive g) :
    motive (g.detachAll ids).1 := by
  induction ids generalizing g with
  | nil => exact start
  | cons id ids ih =>
      have step := detach_keeps mark repair start id
      unfold detachAll
      split
      case h_1 h failure eq =>
        rw [eq] at step
        exact step
      case h_2 h eq =>
        rw [eq] at step
        exact ih step

/-- Deleting a label keeps what the three steps of a deletion and the release of blocks keep. No
slots but those of the label are freed. -/
theorem removeLabel_keeps {g : Graph α} {label : Label}
    (free : ∀ h, ∀ id ∈ g.idsOf label, ∀ k, motive h → h.swapRemove id = .ok k → motive k)
    (shrink : ∀ h, motive h → motive h.shrinkToFit) (start : motive g) :
    motive (g.removeLabel label).1 := by
  unfold removeLabel
  dsimp only
  split
  · exact start
  · have detached := detachAll_keeps mark repair (g.idsOf label) start
    split
    case h_1 h failure eq =>
      rw [eq] at detached
      exact detached
    case h_2 h eq =>
      rw [eq] at detached
      have removed := forEachId_keeps (Sorting.sortBy (fun a b => b < a) (g.idsOf label))
        (fun h id mem => free h id ((Sorting.sortBy_perm ..).mem_iff.1 mem)) detached
      split
      case h_1 k failure eq =>
        rw [eq] at removed
        exact removed
      case h_2 k eq =>
        rw [eq] at removed
        exact shrink k removed

end Keeping

/-! ### Deleting a label -/

/-- A deletion adds no nodes, however it ends. -/
theorem Sturdy.removeLabel {g : Graph α} (sturdy : g.Sturdy) (label : Label) :
    (g.removeLabel label).1.Sturdy ∧ (g.removeLabel label).1.config = g.config ∧
      (g.removeLabel label).1.nodeCount ≤ g.nodeCount := by
  apply removeLabel_keeps
    (motive := fun h => h.Sturdy ∧ h.config = g.config ∧ h.nodeCount ≤ g.nodeCount)
  · rintro h id k ⟨sturdy, config, few⟩ made
    obtain ⟨sturdy, marks, _⟩ := sturdy.markDeleted made
    exact ⟨sturdy, marks.config_eq.trans config, by rw [marks.nodeCount_eq]; exact few⟩
  · rintro h id k ⟨sturdy, config, few⟩ made
    obtain ⟨sturdy, edits⟩ := sturdy.repair made
    have rewired := edits.rewired
    exact ⟨sturdy, rewired.config_eq.trans config, by rw [rewired.nodeCount_eq]; exact few⟩
  · rintro h id _ k ⟨sturdy, config, few⟩ made
    obtain ⟨sturdy, frees⟩ := sturdy.swapRemove made
    rw [frees.nodeCount_eq] at few
    exact ⟨sturdy, frees.config_eq.trans config, Nat.le_of_succ_le few⟩
  · rintro h ⟨sturdy, config, few⟩
    have shrunk := sturdy.shrinkToFit
    rw [shrinkToFit_eq] at shrunk ⊢
    exact ⟨shrunk, config, few⟩
  · exact ⟨sturdy, rfl, Nat.le_refl _⟩

/-- A detached node is listed under no label. -/
theorem idsOf_detach {g : Graph α} (sturdy : g.Sturdy) {id : Nat}
    (done : (g.detach id).2 = .ok ()) (l : Label) :
    (g.detach id).1.Sturdy ∧ (g.detach id).1.idsOf l = (g.idsOf l).filter (· != id) := by
  unfold Graph.detach at done ⊢
  split at done
  · contradiction
  case h_2 marked made =>
    obtain ⟨sturdy_marked, marks, _⟩ := sturdy.markDeleted made
    split at done
    · contradiction
    case h_2 repaired repair_eq =>
      obtain ⟨sturdy_repaired, edits⟩ := sturdy_marked.repair repair_eq
      refine ⟨sturdy_repaired, ?_⟩
      rw [edits.rewired.idsOf_eq, marks.idsOf_eq]

/-- A label has no ids left once all of them are detached. -/
theorem idsOf_detachAll {ids : List Nat} {g : Graph α} (sturdy : g.Sturdy)
    (done : (g.detachAll ids).2 = .ok ()) {l : Label} (all : ∀ id ∈ g.idsOf l, id ∈ ids) :
    (g.detachAll ids).1.Sturdy ∧ (g.detachAll ids).1.idsOf l = [] := by
  induction ids generalizing g with
  | nil => exact ⟨sturdy, List.eq_nil_iff_forall_not_mem.2 fun id mem => by cases all id mem⟩
  | cons id ids ih =>
      unfold Graph.detachAll at done ⊢
      split at done
      · contradiction
      case h_2 h eq =>
        obtain ⟨sturdy_step, ids_eq⟩ := idsOf_detach sturdy (congrArg Prod.snd eq) l
        rw [eq] at sturdy_step ids_eq
        refine ih sturdy_step done fun j mem => ?_
        rw [ids_eq, List.mem_filter] at mem
        have ne : j ≠ id := by simpa using mem.2
        exact (List.mem_cons.1 (all j mem.1)).resolve_left ne

/-- A removal that succeeds leaves the label without ids. -/
theorem idsOf_removeLabel {g h : Graph α} (sturdy : g.Sturdy) {label : Label} {count : Nat}
    (removed : g.removeLabel label = (h, .ok count)) : h.idsOf label = [] := by
  unfold Graph.removeLabel at removed
  dsimp only at removed
  split at removed
  case isTrue empty =>
    cases removed
    exact List.isEmpty_iff.1 empty
  case isFalse =>
    split at removed
    · cases removed
    case h_2 k eq =>
      have gone := idsOf_detachAll sturdy (congrArg Prod.snd eq) (l := label) fun _ mem => mem
      rw [eq] at gone
      -- Freeing slots renames ids and does not list new ones.
      have kept := forEachId_keeps (f := Graph.swapRemove)
        (motive := fun g => g.Sturdy ∧ g.idsOf label = [])
        (Sorting.sortBy (fun a b => b < a) (g.idsOf label))
        (fun g id _ h start made => by
          obtain ⟨sturdy, frees⟩ := start.1.swapRemove made
          refine ⟨sturdy, ?_⟩
          rw [frees.idsOf_eq, start.2, List.map_nil])
        gone
      split at removed
      · cases removed
      case h_2 freed eq =>
        rw [eq] at kept
        cases removed
        rw [shrinkToFit_eq]
        exact kept.2

/-! ### Storing under a label -/

/-- What is left once a label may have another vector: the graph itself when labels may have
several, and otherwise the graph without the label. -/
def Clears (g : Graph α) (label : Label) (h : Graph α) : Prop :=
  g.config.multi = true ∧ h = g ∨
    g.config.multi = false ∧ ∃ count, g.removeLabel label = (h, .ok count)

/-- Storing may refuse the vector or fail to remove the old one. Otherwise it clears the label and
grows, and inserts the vector unless that fails. -/
theorem add_cases (g : Graph α) (label : Label) (vector : List α) :
    (g.add label vector).1 = g ∨ (g.add label vector).1 = (g.removeLabel label).1 ∨
      ∃ h, g.Clears label h ∧ ((g.add label vector).1 = h.ensureCapacity ∨
        ∃ k id, h.ensureCapacity.insert label vector = .ok (k, id) ∧
          (g.add label vector).1 = k) := by
  unfold Graph.add
  split
  · exact .inl rfl
  · dsimp only
    by_cases multi : g.config.multi = true
    · refine .inr (.inr ⟨g, .inl ⟨multi, rfl⟩, ?_⟩)
      simp only [multi, if_true]
      split
      · exact .inl rfl
      case h_2 k id inserted => exact .inr ⟨k, id, inserted, rfl⟩
    · simp only [multi, Bool.false_eq_true, if_false]
      cases removal : g.removeLabel label with
      | mk h result =>
          cases result with
          | error failure => exact .inr (.inl rfl)
          | ok count =>
              have one : g.config.multi = false := Bool.eq_false_iff.2 multi
              refine .inr (.inr ⟨h, .inr ⟨one, count, removal⟩, ?_⟩)
              dsimp only
              split
              · exact .inl rfl
              case h_2 k id inserted => exact .inr ⟨k, id, inserted, rfl⟩

/-- Storing that succeeds clears the label, grows and inserts the vector. -/
theorem add_eq_ok {g k : Graph α} {label : Label} {vector : List α}
    (stored : g.add label vector = (k, .ok ())) :
    ∃ h id, g.Clears label h ∧ h.ensureCapacity.insert label vector = .ok (k, id) := by
  unfold Graph.add at stored
  split at stored
  · cases stored
  · dsimp only at stored
    cases multi : g.config.multi with
    | true =>
        simp only [multi, if_true] at stored
        split at stored
        · cases stored
        case h_2 id inserted =>
          cases stored
          exact ⟨g, id, .inl ⟨multi, rfl⟩, inserted⟩
    | false =>
        simp only [multi, Bool.false_eq_true, if_false] at stored
        cases removal : g.removeLabel label with
        | mk h result =>
            rw [removal] at stored
            cases result with
            | error failure => cases stored
            | ok count =>
                dsimp only at stored
                split at stored
                · cases stored
                case h_2 id inserted =>
                  cases stored
                  exact ⟨h, id, .inr ⟨multi, count, removal⟩, inserted⟩

theorem Sturdy.clears {g h : Graph α} (sturdy : g.Sturdy) {label : Label}
    (clears : g.Clears label h) :
    h.Sturdy ∧ h.config = g.config ∧ h.nodeCount ≤ g.nodeCount := by
  rcases clears with ⟨_, rfl⟩ | ⟨_, count, removed⟩
  · exact ⟨sturdy, rfl, Nat.le_refl _⟩
  · have removal := sturdy.removeLabel label
    rwa [removed] at removal

theorem Sturdy.add {g : Graph α} (sturdy : g.Sturdy) (label : Label) (vector : List α) :
    (g.add label vector).1.Sturdy ∧ (g.add label vector).1.config = g.config := by
  rcases g.add_cases label vector with same | same | ⟨h, clears, outcome⟩
  · rw [same]
    exact ⟨sturdy, rfl⟩
  · obtain ⟨sturdy_h, config, _⟩ := sturdy.removeLabel label
    rw [same]
    exact ⟨sturdy_h, config⟩
  · obtain ⟨sturdy_h, config, _⟩ := sturdy.clears clears
    have grown := sturdy_h.ensureCapacity
    have config : h.ensureCapacity.config = g.config := by
      rw [ensureCapacity_eq]
      exact config
    rcases outcome with same | ⟨k, id, inserted, same⟩
    · rw [same]
      exact ⟨grown, config⟩
    · obtain ⟨sturdy_k, stores⟩ := grown.insert inserted
      rw [same]
      exact ⟨sturdy_k, stores.config_eq.trans config⟩

/-! ### Invariants -/

/-- A property that every step of an operation keeps. A label that may have one vector has none when
another is inserted, and a graph grows only while there is room for as many nodes as it has. -/
structure Kept (room : Nat → Prop) (motive : Graph α → Prop) : Prop where
  fewer : ∀ m n, m ≤ n → room n → room m
  sturdy : ∀ g, motive g → g.Sturdy
  labelled : ∀ g, motive g → g.Labelled
  insert : ∀ g label vector h id, motive g → (g.config.multi = false → g.contains label = false) →
    g.insert label vector = .ok (h, id) → motive h
  markDeleted : ∀ g id h, motive g → g.markDeleted id = .ok h → motive h
  repair : ∀ g id h, motive g → g.repair id = .ok h → motive h
  swapRemove : ∀ g id h, motive g → g.swapRemove id = .ok h → motive h
  ensureCapacity : ∀ g, motive g → room g.nodeCount → motive g.ensureCapacity
  shrinkToFit : ∀ g, motive g → motive g.shrinkToFit

namespace Kept

variable {room : Nat → Prop} {motive : Graph α → Prop} (kept : Kept room motive)

include kept

theorem removeLabel {g : Graph α} (holds : motive g) (label : Label) :
    motive (g.removeLabel label).1 :=
  removeLabel_keeps kept.markDeleted kept.repair (fun h id _ => kept.swapRemove h id)
    kept.shrinkToFit holds

theorem clears {g h : Graph α} (holds : motive g) {label : Label} (clears : g.Clears label h) :
    motive h ∧ (h.config.multi = false → h.contains label = false) := by
  rcases clears with ⟨multi, rfl⟩ | ⟨_, count, removed⟩
  · refine ⟨holds, fun one => ?_⟩
    rw [multi] at one
    cases one
  · have removal := kept.removeLabel holds label
    rw [removed] at removal
    have gone := idsOf_removeLabel (kept.sturdy g holds) removed
    exact ⟨removal, fun _ => (contains_eq_false_iff (kept.labelled h removal)).2 gone⟩

theorem add {g : Graph α} (holds : motive g) (few : room g.nodeCount) (label : Label)
    (vector : List α) : motive (g.add label vector).1 := by
  rcases g.add_cases label vector with same | same | ⟨h, cleared, outcome⟩
  · rw [same]
    exact holds
  · rw [same]
    exact kept.removeLabel holds label
  · obtain ⟨holds_h, unmapped⟩ := kept.clears holds cleared
    have fewer := ((kept.sturdy g holds).clears cleared).2.2
    have grown := kept.ensureCapacity h holds_h (kept.fewer _ _ fewer few)
    rcases outcome with same | ⟨k, id, inserted, same⟩
    · rw [same]
      exact grown
    · rw [same]
      refine kept.insert _ label vector k id grown ?_ inserted
      rw [ensureCapacity_eq]
      exact unmapped

end Kept

theorem kept_wellFormed : Kept (· < idLimit) (WellFormed (α := α)) where
  fewer _ _ := Nat.lt_of_le_of_lt
  sturdy _ wf := wf.sturdy
  labelled _ wf := wf.labelled
  insert _ _ _ _ _ wf unmapped inserted := (wf.insert unmapped inserted).1
  markDeleted _ _ _ wf marked := (wf.markDeleted marked).1
  repair _ _ _ wf repaired := (wf.repair repaired).1
  swapRemove _ _ _ wf removed := (wf.swapRemove removed).1
  ensureCapacity _ wf few := wf.ensureCapacity few
  shrinkToFit _ wf := wf.shrinkToFit

/-- The label map stays right however many nodes there are. -/
theorem kept_labelled : Kept (fun _ => True) fun g : Graph α => g.Sturdy ∧ g.Labelled where
  fewer _ _ _ _ := trivial
  sturdy _ holds := holds.1
  labelled _ holds := holds.2
  insert _ _ _ _ _ holds unmapped inserted :=
    ⟨(holds.1.insert inserted).1, holds.2.insert holds.1 unmapped inserted⟩
  markDeleted _ _ _ holds marked := ⟨(holds.1.markDeleted marked).1, holds.2.markDeleted marked⟩
  repair _ _ _ holds repaired := by
    obtain ⟨sturdy, edits⟩ := holds.1.repair repaired
    exact ⟨sturdy, holds.2.rewire edits.rewired⟩
  swapRemove _ _ _ holds removed := by
    obtain ⟨sturdy, frees⟩ := holds.1.swapRemove removed
    have deleted := (swapRemove_eq_ok_iff.1 removed).1
    have dead := (isLive_eq_false_iff (lt_nodeCount_of_isDeleted deleted)).2 deleted
    exact ⟨sturdy, frees.labelled holds.2 dead⟩
  ensureCapacity g holds _ := by
    refine ⟨holds.1.ensureCapacity, ?_⟩
    rw [ensureCapacity_eq]
    exact holds.2.congr rfl rfl rfl
  shrinkToFit g holds := by
    refine ⟨holds.1.shrinkToFit, ?_⟩
    rw [shrinkToFit_eq]
    exact holds.2.congr rfl rfl rfl

/-- A deletion keeps a graph well-formed and adds no nodes. -/
theorem WellFormed.removeLabel {g : Graph α} (wf : g.WellFormed) (label : Label) :
    (g.removeLabel label).1.WellFormed ∧ (g.removeLabel label).1.config = g.config ∧
      (g.removeLabel label).1.nodeCount ≤ g.nodeCount :=
  ⟨kept_wellFormed.removeLabel wf label, (wf.sturdy.removeLabel label).2⟩

theorem WellFormed.add {g : Graph α} (wf : g.WellFormed) (few : g.nodeCount < idLimit)
    (label : Label) (vector : List α) :
    (g.add label vector).1.WellFormed ∧ (g.add label vector).1.config = g.config :=
  ⟨kept_wellFormed.add wf few label vector, (wf.sturdy.add label vector).2⟩

end Vicinity.Graph
