import Vicinity.Proofs.Graph.Reachability
import Vicinity.Proofs.Sorting

/-!
When a label cannot be removed, and what the refusal leaves behind.

The slots of a label are freed after all its nodes are marked and isolated, and the first slot that
cannot be freed ends the call. Freeing `k` slots from the highest down looks at the last `k` slots,
and what stops it is a node there that was marked deleted before the call: `removeLabel_outcome`
says so, and that no other failure is possible. By then the label is gone from the label map, so a
removal that is refused has deleted its label all the same (`Reachable.refusal`); repeating it finds
nothing to remove. Storing under a label that may have one vector is refused with it.
-/

namespace Vicinity.Graph

variable {α : Type}

/-! ### Freeing the slots -/

/-- Freeing the slots of isolated nodes from the highest down ends early exactly when one of the
last slots, as many as there are nodes, holds another deleted node. -/
theorem forEachId_swapRemove {ids : List Nat} (descending : ids.Pairwise (· > ·)) {g : Graph α}
    (wf : g.WellFormed) (ready : ∀ id ∈ ids, g.isDeleted id = true ∧ g.Isolated id) :
    ((forEachId swapRemove g ids).2 = .ok () ∧
        ∀ j, g.isDeleted j = true → j ∉ ids → j + ids.length < g.nodeCount) ∨
      ∃ j, (forEachId swapRemove g ids).2 = .error (.node j .lastSlotPending) ∧
        g.isDeleted j = true ∧ j ∉ ids ∧ g.nodeCount ≤ j + ids.length := by
  induction ids generalizing g with
  | nil => exact .inl ⟨rfl, fun j deleted _ => lt_nodeCount_of_isDeleted deleted⟩
  | cons id ids ih =>
      obtain ⟨below, descending⟩ := List.pairwise_cons.1 descending
      obtain ⟨⟨deleted, alone⟩, rest⟩ := List.forall_mem_cons.1 ready
      have lt := lt_nodeCount_of_isDeleted deleted
      by_cases blocked : id ≠ g.nodeCount - 1 ∧ g.isDeleted (g.nodeCount - 1) = true
      · -- The last slot is above the node, hence above all that follow, and is not one of them.
        obtain ⟨node, at_id, marked⟩ := isDeleted_eq_true_iff.1 deleted
        have isolated : node.isIsolated = true := by
          have both := isIsolated_iff.2 ⟨lt, alone⟩
          simpa [isIsolated, at_id] using both
        refine .inr ⟨g.nodeCount - 1, ?_, blocked.2, ?_, ?_⟩
        · simp [forEachId, Graph.swapRemove, at_id, marked, isolated, blocked.1, blocked.2]
        · intro mem
          rcases List.mem_cons.1 mem with same | later
          · exact blocked.1 same.symm
          · have := below _ later
            omega
        · rw [List.length_cons]
          omega
      · have freed : ∃ h, g.swapRemove id = .ok h := by
          by_cases last : id = g.nodeCount - 1
          · exact ⟨_, swapRemove_eq_ok_iff.2 ⟨deleted, alone, .inl ⟨last, rfl⟩⟩⟩
          · have kept : g.isDeleted (g.nodeCount - 1) = false := by
              cases pending : g.isDeleted (g.nodeCount - 1) with
              | false => rfl
              | true => exact absurd ⟨last, pending⟩ blocked
            exact ⟨_, swapRemove_eq_ok_iff.2 ⟨deleted, alone, .inr ⟨last, kept, rfl⟩⟩⟩
        obtain ⟨h, freed⟩ := freed
        obtain ⟨wf_h, frees⟩ := wf.swapRemove freed
        have still := isDeleted_swapRemove wf.sturdy freed
        have count := frees.nodeCount_eq
        have ready_h : ∀ j ∈ ids, h.isDeleted j = true ∧ h.Isolated j := by
          intro j mem
          have ne : j ≠ id := Nat.ne_of_lt (below j mem)
          have deleted_j := (still j).2 ⟨ne, (rest j mem).1⟩
          exact ⟨deleted_j, (isolated_swapRemove wf.sturdy freed deleted_j).2 (rest j mem).2⟩
        simp only [forEachId, freed, List.length_cons]
        rcases ih descending wf_h ready_h with ⟨done, clear⟩ | ⟨j, failed, pending, other, near⟩
        · refine .inl ⟨done, fun j deleted_j other => ?_⟩
          obtain ⟨ne, other⟩ := not_or.1 (mt List.mem_cons.2 other)
          have := clear j ((still j).2 ⟨ne, deleted_j⟩) other
          omega
        · obtain ⟨ne, deleted_j⟩ := (still j).1 pending
          refine .inr ⟨j, failed, deleted_j, ?_, by omega⟩
          exact fun mem => (List.mem_cons.1 mem).elim ne other

/-- A run that frees slots frees no other deleted node's. -/
theorem isDeleted_forEachId_swapRemove {ids : List Nat} {g h : Graph α} (wf : g.WellFormed)
    (freed : forEachId swapRemove g ids = (h, .ok ())) (j : Nat) :
    h.isDeleted j = true ↔ j ∉ ids ∧ g.isDeleted j = true := by
  induction ids generalizing g with
  | nil =>
      cases freed
      simp
  | cons id ids ih =>
      rw [forEachId] at freed
      split at freed
      · cases freed
      case h_2 k removed =>
        rw [ih (wf.swapRemove removed).1 freed, isDeleted_swapRemove wf.sturdy removed,
          List.mem_cons]
        tauto

variable [Element α]

/-! ### Detaching all nodes of a label -/

/-- What detaching live nodes leaves. -/
structure Detached (g : Graph α) (ids : List Nat) (h : Graph α) : Prop where
  wf : h.WellFormed
  config_eq : h.config = g.config
  nodeCount_eq : h.nodeCount = g.nodeCount
  isDeleted_iff (j : Nat) : h.isDeleted j = true ↔ j ∈ ids ∨ g.isDeleted j = true
  isolated : ∀ id ∈ ids, h.Isolated id
  stays_isolated : ∀ d, g.isDeleted d = true → g.Isolated d → h.Isolated d
  idsOf_eq (l : Label) : h.idsOf l = (g.idsOf l).filter fun j => !ids.contains j

/-- A live node can be detached. -/
theorem WellFormed.detach {g : Graph α} (wf : g.WellFormed) {id : Nat}
    (live : g.isLive id = true) :
    ∃ h, g.detach id = (h, .ok ()) ∧ g.Detached [id] h := by
  obtain ⟨marked, made⟩ := markDeleted_eq_ok live
  obtain ⟨wf_marked, marks, _⟩ := wf.markDeleted made
  have deleted : marked.isDeleted id = true := by simp [marks.isDeleted_eq]
  obtain ⟨h, repaired⟩ := repair_eq_ok deleted
  obtain ⟨wf_h, rewired, alone, _, kept⟩ := wf_marked.repair repaired
  refine ⟨h, by simp only [Graph.detach, made, repaired], ?_⟩
  constructor
  case wf => exact wf_h
  case config_eq => exact rewired.config_eq.trans marks.config_eq
  case nodeCount_eq => exact rewired.nodeCount_eq.trans marks.nodeCount_eq
  case isDeleted_iff =>
    intro j
    rw [rewired.isDeleted_eq, marks.isDeleted_eq]
    simp
  case isolated =>
    intro j mem
    rwa [List.mem_singleton.1 mem]
  case stays_isolated =>
    intro d deleted_d isolated
    have still : marked.isDeleted d = true := by
      rw [marks.isDeleted_eq, deleted_d, Bool.or_true]
    refine kept d ((isLive_eq_false_iff (lt_nodeCount_of_isDeleted still)).2 still) fun layer => ?_
    rw [marks.links_eq]
    exact isolated layer
  case idsOf_eq =>
    intro l
    rw [rewired.idsOf_eq, marks.idsOf_eq]
    refine List.filter_congr fun j _ => ?_
    by_cases same : j = id <;> simp [same]

/-- So can several, one after the other. -/
theorem WellFormed.detachAll {ids : List Nat} {g : Graph α} (wf : g.WellFormed)
    (nodup : ids.Nodup) (live : ∀ id ∈ ids, g.isLive id = true) :
    ∃ h, g.detachAll ids = (h, .ok ()) ∧ g.Detached ids h := by
  induction ids generalizing g with
  | nil =>
      refine ⟨g, rfl, wf, rfl, rfl, fun j => ?_, fun _ mem => ?_, fun _ _ alone => alone,
        fun l => ?_⟩
      · simp
      · cases mem
      · simp
  | cons id ids ih =>
      obtain ⟨once, nodup⟩ := List.nodup_cons.1 nodup
      obtain ⟨here, later⟩ := List.forall_mem_cons.1 live
      obtain ⟨h, made, first⟩ := wf.detach here
      have live_h : ∀ j ∈ ids, h.isLive j = true := by
        intro j mem
        have live_j := later j mem
        have lt := lt_nodeCount_of_isLive live_j
        cases alive : h.isLive j with
        | true => rfl
        | false =>
            have gone := (isLive_eq_false_iff (first.nodeCount_eq ▸ lt)).1 alive
            rcases (first.isDeleted_iff j).1 gone with same | old
            · exact absurd (List.mem_singleton.1 same ▸ mem) once
            · rw [not_isDeleted_of_isLive live_j] at old
              cases old
      obtain ⟨k, rest_made, rest⟩ := ih first.wf nodup live_h
      refine ⟨k, by simp only [Graph.detachAll, made, rest_made], ?_⟩
      constructor
      case wf => exact rest.wf
      case config_eq => exact rest.config_eq.trans first.config_eq
      case nodeCount_eq => exact rest.nodeCount_eq.trans first.nodeCount_eq
      case isDeleted_iff =>
        intro j
        rw [rest.isDeleted_iff, first.isDeleted_iff, List.mem_singleton, List.mem_cons]
        tauto
      case isolated =>
        intro j mem
        rcases List.mem_cons.1 mem with rfl | mem
        · exact rest.stays_isolated j ((first.isDeleted_iff j).2 (.inl (List.mem_singleton_self j)))
            (first.isolated j (List.mem_singleton_self j))
        · exact rest.isolated j mem
      case stays_isolated =>
        intro d deleted isolated
        exact rest.stays_isolated d ((first.isDeleted_iff d).2 (.inr deleted))
          (first.stays_isolated d deleted isolated)
      case idsOf_eq =>
        intro l
        rw [rest.idsOf_eq, first.idsOf_eq, List.filter_filter]
        refine List.filter_congr fun j _ => ?_
        simp [Bool.and_comm]

/-! ### Removing a label -/

/-- A removal goes through, or a node that was marked deleted before stands in one of the last
slots, as many as the label has nodes. -/
theorem WellFormed.removeLabel_outcome {g : Graph α} (wf : g.WellFormed) (label : Label) :
    ((g.removeLabel label).2 = .ok (g.idsOf label).length ∧
        ∀ j, g.isDeleted j = true → j + (g.idsOf label).length < g.nodeCount) ∨
      ∃ j, (g.removeLabel label).2 = .error (.node j .lastSlotPending) ∧
        g.isDeleted j = true ∧ g.nodeCount ≤ j + (g.idsOf label).length := by
  have live : ∀ id ∈ g.idsOf label, g.isLive id = true := fun id mem =>
    ((wf.labelled.mem_idsOf label id).1 mem).1
  have nodup := wf.labelled.nodup label
  unfold Graph.removeLabel
  generalize g.idsOf label = ids at live nodup ⊢
  dsimp only
  cases none : ids.isEmpty with
  | true =>
      rw [List.isEmpty_iff] at none
      subst none
      exact .inl ⟨rfl, fun j deleted => lt_nodeCount_of_isDeleted deleted⟩
  | false =>
      obtain ⟨h, made, detached⟩ := wf.detachAll nodup live
      have order : (Sorting.sortBy (fun a b => decide (b < a)) ids).Perm ids :=
        Sorting.sortBy_perm ..
      have ready : ∀ id ∈ Sorting.sortBy (fun a b => decide (b < a)) ids,
          h.isDeleted id = true ∧ h.Isolated id := by
        intro id mem
        have mem := order.mem_iff.1 mem
        exact ⟨(detached.isDeleted_iff id).2 (.inl mem), detached.isolated id mem⟩
      have freed := forEachId_swapRemove (Sorting.pairwise_descending nodup) detached.wf ready
      simp only [order.mem_iff, order.length_eq, detached.nodeCount_eq] at freed
      simp only [made, Bool.false_eq_true, if_false]
      rcases freed with ⟨done, clear⟩ | ⟨j, failed, pending, other, near⟩
      · refine .inl ⟨?_, fun j deleted => ?_⟩
        · split
          case h_1 failure eq =>
            rw [eq] at done
            cases done
          case h_2 => rfl
        · refine clear j ((detached.isDeleted_iff j).2 (.inr deleted)) fun mem => ?_
          rw [not_isDeleted_of_isLive (live j mem)] at deleted
          cases deleted
      · refine .inr ⟨j, ?_, ((detached.isDeleted_iff j).1 pending).resolve_left other, near⟩
        split
        case h_1 failure eq =>
          rw [eq] at failed
          cases failed
          rfl
        case h_2 eq =>
          rw [eq] at failed
          cases failed

/-- The vectors of a label, the oldest first. -/
def vectorsOf (g : Graph α) (label : Label) : List (Option (List α)) :=
  (g.idsOf label).map g.vector?

omit [Element α] in
/-- Freeing a slot renames the ids of a label and leaves its vectors. -/
theorem Frees.vectorsOf_eq {g h : Graph α} {id : Nat} (frees : g.Frees id h) (listed : g.Listed)
    (dead : g.isLive id = false) (label : Label) : h.vectorsOf label = g.vectorsOf label := by
  rw [vectorsOf, frees.idsOf_eq, List.map_map]
  refine List.map_congr_left fun j mem => ?_
  have other : j ≠ id := by
    rintro rfl
    exact listed.not_mem_idsOf dead label mem
  have lt := lt_nodeCount_of_isLive (listed label j mem).1
  rw [Function.comp_apply, frees.vector?_eq (frees.rename_lt other lt), rename_rename other]

theorem Sturdy.vector?_detachAll {g : Graph α} (sturdy : g.Sturdy) (ids : List Nat) (j : Nat) :
    (g.detachAll ids).1.vector? j = g.vector? j := by
  have kept : (g.detachAll ids).1.Sturdy ∧ (g.detachAll ids).1.vector? j = g.vector? j := by
    refine detachAll_keeps (motive := fun h => h.Sturdy ∧ h.vector? j = g.vector? j) ?_ ?_ ids
      ⟨sturdy, rfl⟩
    · rintro h id k ⟨sturdy, same⟩ marked
      obtain ⟨sturdy, marks, _⟩ := sturdy.markDeleted marked
      exact ⟨sturdy, (marks.vector?_eq j).trans same⟩
    · rintro h id k ⟨sturdy, same⟩ repaired
      obtain ⟨sturdy, edits⟩ := sturdy.repair repaired
      exact ⟨sturdy, (edits.rewired.vector?_eq j).trans same⟩
  exact kept.2

/-- Detaching the nodes of a label takes it away, and no vector of another label. -/
theorem WellFormed.vectorsOf_detachAll {g : Graph α} (wf : g.WellFormed) (label l : Label) :
    (g.detachAll (g.idsOf label)).1.vectorsOf l = if l = label then [] else g.vectorsOf l := by
  have live : ∀ id ∈ g.idsOf label, g.isLive id = true := fun id mem =>
    ((wf.labelled.mem_idsOf label id).1 mem).1
  obtain ⟨h, made, detached⟩ := wf.detachAll (wf.labelled.nodup label) live
  rw [vectorsOf, funext (wf.sturdy.vector?_detachAll (g.idsOf label)), made, detached.idsOf_eq]
  split
  case isTrue same =>
    subst same
    simp
  case isFalse other =>
    -- A node is listed under its own label only.
    have apart : ∀ j ∈ g.idsOf l, (!(g.idsOf label).contains j) = true := by
      intro j mem
      have own := ((wf.labelled.mem_idsOf l j).1 mem).2
      simp only [Bool.not_eq_true', List.contains_eq_mem, decide_eq_false_iff_not]
      intro also
      have also := ((wf.labelled.mem_idsOf label j).1 also).2
      rw [own] at also
      cases also
      exact other rfl
    rw [List.filter_eq_self.2 apart, vectorsOf]

omit [Element α] in
/-- Freeing slots leaves the vectors of every label, as far as it gets. -/
theorem WellFormed.vectorsOf_forEachId_swapRemove {g : Graph α} (wf : g.WellFormed)
    (ids : List Nat) (l : Label) :
    (g.forEachId Graph.swapRemove ids).1.vectorsOf l = g.vectorsOf l := by
  have kept := forEachId_keeps (f := Graph.swapRemove)
    (motive := fun k => k.WellFormed ∧ k.vectorsOf l = g.vectorsOf l) ids
    (fun k id _ k' start made => by
      obtain ⟨wf', frees⟩ := start.1.swapRemove made
      have deleted := (swapRemove_eq_ok_iff.1 made).1
      have dead := (isLive_eq_false_iff (lt_nodeCount_of_isDeleted deleted)).2 deleted
      exact ⟨wf', (frees.vectorsOf_eq start.1.labelled.listed dead l).trans start.2⟩)
    ⟨wf, rfl⟩
  exact kept.2

/-- Whether it goes through or not, a removal leaves no vector under its label and those of every
other as they were. -/
theorem WellFormed.vectorsOf_removeLabel {g : Graph α} (wf : g.WellFormed) (label l : Label) :
    (g.removeLabel label).1.vectorsOf l = if l = label then [] else g.vectorsOf l := by
  have live : ∀ id ∈ g.idsOf label, g.isLive id = true := fun id mem =>
    ((wf.labelled.mem_idsOf label id).1 mem).1
  unfold Graph.removeLabel
  dsimp only
  split
  case isTrue none =>
    have none := List.isEmpty_iff.1 none
    split
    case isTrue same => rw [vectorsOf, same, none, List.map_nil]
    case isFalse => rfl
  case isFalse =>
    have left := wf.vectorsOf_detachAll label l
    obtain ⟨h, made, detached⟩ := wf.detachAll (wf.labelled.nodup label) live
    rw [made] at left
    have freed := detached.wf.vectorsOf_forEachId_swapRemove
      (Sorting.sortBy (fun a b => b < a) (g.idsOf label)) l
    simp only [made]
    split
    case h_1 k failure eq =>
      rw [eq] at freed
      exact freed.trans left
    case h_2 k eq =>
      rw [eq] at freed
      rw [shrinkToFit_eq]
      exact freed.trans left

/-- So it leaves no node under its label and as many as before under every other. -/
theorem WellFormed.length_idsOf_removeLabel {g : Graph α} (wf : g.WellFormed) (label l : Label) :
    ((g.removeLabel label).1.idsOf l).length = if l = label then 0 else (g.idsOf l).length := by
  have same := congrArg List.length (wf.vectorsOf_removeLabel label l)
  rwa [vectorsOf, List.length_map, apply_ite List.length, vectorsOf, List.length_map,
    List.length_nil] at same

/-- A removal that goes through leaves deleted what was deleted before. -/
theorem WellFormed.isDeleted_removeLabel {g h : Graph α} (wf : g.WellFormed) {label : Label}
    {count : Nat} (removed : g.removeLabel label = (h, .ok count)) (j : Nat) :
    h.isDeleted j = g.isDeleted j := by
  have live : ∀ id ∈ g.idsOf label, g.isLive id = true := fun id mem =>
    ((wf.labelled.mem_idsOf label id).1 mem).1
  unfold Graph.removeLabel at removed
  dsimp only at removed
  split at removed
  case isTrue =>
    cases removed
    rfl
  case isFalse =>
    obtain ⟨k, made, detached⟩ := wf.detachAll (wf.labelled.nodup label) live
    simp only [made] at removed
    split at removed
    · cases removed
    case h_2 freed eq =>
      cases removed
      have left := isDeleted_forEachId_swapRemove detached.wf eq j
      rw [(Sorting.sortBy_perm ..).mem_iff, detached.isDeleted_iff] at left
      have unmarked : j ∈ g.idsOf label → g.isDeleted j = false := fun mem =>
        not_isDeleted_of_isLive (live j mem)
      rw [shrinkToFit_eq, Bool.eq_iff_iff]
      refine left.trans ?_
      constructor
      · rintro ⟨other, listed | deleted⟩
        · exact absurd listed other
        · exact deleted
      · intro deleted
        refine ⟨fun mem => ?_, .inr deleted⟩
        rw [unmarked mem] at deleted
        cases deleted

/-! ### Refusals -/

/-- What is left when a label could not be removed. -/
structure Refusal (g : Graph α) (label : Label) (failure : Failure) (h : Graph α) : Prop where
  pending : ∃ j, failure = .node j .lastSlotPending ∧ g.isDeleted j = true ∧
    g.nodeCount ≤ j + (g.idsOf label).length
  listed : g.contains label = true
  gone : h.contains label = false
  again : h.removeLabel label = (h, .ok 0)
  others : ∀ l, l ≠ label → (h.idsOf l).length = (g.idsOf l).length

theorem WellFormed.refuses {g h : Graph α} (wf : g.WellFormed) {label : Label} {failure : Failure}
    (refused : g.removeLabel label = (h, .error failure)) : g.Refusal label failure h := by
  have count := wf.length_idsOf_removeLabel label
  have wf_h := (wf.removeLabel label).1
  have outcome := wf.removeLabel_outcome label
  rw [refused] at count wf_h outcome
  rcases outcome with ⟨done, _⟩ | ⟨j, failed, deleted, near⟩
  · cases done
  have none : h.idsOf label = [] := by
    have := count label
    rw [if_pos rfl] at this
    exact List.eq_nil_of_length_eq_zero this
  constructor
  case pending =>
    cases failed
    exact ⟨j, rfl, deleted, near⟩
  case listed =>
    cases there : g.contains label with
    | true => rfl
    | false =>
        have lt := lt_nodeCount_of_isDeleted deleted
        rw [idsOf_eq_nil there, List.length_nil] at near
        omega
  case gone => exact (contains_eq_false_iff wf_h.labelled).2 none
  case again => simp [Graph.removeLabel, none]
  case others =>
    intro l other
    rw [count l, if_neg other]

/-- Storing a vector that fits can only fail where its label has to be removed first. -/
theorem WellFormed.add_error {g h : Graph α} (wf : g.WellFormed) (few : g.nodeCount < idLimit)
    {label : Label} {vector : List α} {failure : Failure}
    (fits : checkDimension g.config.dim.toNat vector.length = .ok ())
    (failed : g.add label vector = (h, .error failure)) :
    g.config.multi = false ∧ g.removeLabel label = (h, .error failure) := by
  have stored : ∀ k : Graph α, k.WellFormed → k.config = g.config → k.nodeCount ≤ g.nodeCount →
      ∃ k', k.ensureCapacity.insert label vector = .ok k' := by
    intro k wf_k config fewer
    have room := room_of_ensureCapacity wf_k (Nat.lt_of_le_of_lt fewer few)
    have fits : checkDimension k.ensureCapacity.config.dim.toNat vector.length = .ok () := by
      rw [ensureCapacity_eq]
      exact config ▸ fits
    obtain ⟨k', inserted⟩ := insert_eq_ok label fits room
    exact ⟨_, inserted⟩
  unfold Graph.add at failed
  simp only [fits] at failed
  cases multi : g.config.multi with
  | true =>
      obtain ⟨k', inserted⟩ := stored g wf rfl (Nat.le_refl _)
      simp only [multi, if_true, inserted] at failed
      cases failed
  | false =>
      obtain ⟨wf_k, config, fewer⟩ := wf.removeLabel label
      simp only [multi, Bool.false_eq_true, if_false] at failed
      refine ⟨rfl, ?_⟩
      cases removed : g.removeLabel label with
      | mk k result =>
          rw [removed] at failed wf_k config fewer
          cases result with
          | error cause =>
              cases failed
              rfl
          | ok count =>
              obtain ⟨k', inserted⟩ := stored k wf_k config fewer
              simp only [inserted] at failed
              cases failed

/-- A label is removed unless one of the last slots, as many as it has nodes, holds a node that was
marked deleted before; then its nodes stay where they are, marked and without edges. Storing a
vector that fits fails for no other reason. -/
theorem Reachable.refusal {config : Config} {g : Graph α} (reachable : Reachable config g)
    (label : Label) :
    (∀ h failure, g.removeLabel label = (h, .error failure) → g.Refusal label failure h) ∧
      ((∀ j, g.isDeleted j = true → j + (g.idsOf label).length < g.nodeCount) →
        (g.removeLabel label).2 = .ok (g.idsOf label).length) ∧
      ∀ vector h failure, g.nodeCount < idLimit →
        checkDimension config.dim.toNat vector.length = .ok () →
        g.add label vector = (h, .error failure) →
          config.multi = false ∧ g.removeLabel label = (h, .error failure) := by
  obtain ⟨wf, config_eq⟩ := reachable.wellFormed
  refine ⟨fun h failure refused => wf.refuses refused, fun clear => ?_, ?_⟩
  · rcases wf.removeLabel_outcome label with ⟨done, _⟩ | ⟨j, _, deleted, near⟩
    · exact done
    · have := clear j deleted
      omega
  · subst config_eq
    exact fun vector h failure few fits failed => wf.add_error few fits failed

/-! ### A refusal -/

/-- Two vectors were stored and the second was marked deleted, so that the last slot awaits its
repair. -/
def lastSlotAwaits : Graph Binary64 :=
  (Call.markDeleted 1).run ((Call.insert 2 [.one, .zero]).run ((Call.insert 1 [.zero, .zero]).run
    (Call.ensureCapacity.run { config := planeConfig })))

theorem lastSlotAwaits_spec :
    Reachable planeConfig lastSlotAwaits ∧ lastSlotAwaits.nodeCount = 2 ∧
      lastSlotAwaits.isDeleted 1 = true ∧ lastSlotAwaits.idsOf 1 = [0] := by
  have pair := isPair_insert (1, [.zero, .zero]) (2, [.one, .zero]) (by decide) rfl rfl
  obtain ⟨within, marks⟩ := pair.marked Nat.one_lt_two
  refine ⟨within.reachable, marks.nodeCount_eq.trans pair.nodeCount_eq, ?_, ?_⟩
  · rw [lastSlotAwaits, marks.isDeleted_eq]
    rfl
  · rw [lastSlotAwaits, marks.idsOf_eq, pair.idsOf_first]
    rfl

/-- The removal of the first label fails on account of the second one's node. -/
theorem lastSlotAwaits_refuses :
    (lastSlotAwaits.removeLabel 1).2 = .error (.node 1 .lastSlotPending) := by
  obtain ⟨reachable, count, deleted, ids⟩ := lastSlotAwaits_spec
  rcases reachable.wellFormed.1.removeLabel_outcome 1 with ⟨_, clear⟩ | ⟨j, failed, pending, near⟩
  · have := clear 1 deleted
    rw [ids, count, List.length_singleton] at this
    omega
  · have lt := lt_nodeCount_of_isDeleted pending
    rw [ids, count, List.length_singleton] at near
    have last : j = 1 := by omega
    exact last ▸ failed

/-- A removal that fails can leave another graph than it found. -/
theorem removeLabel_not_atomic :
    ¬∀ g : Graph Binary64, Reachable planeConfig g → ∀ label failure,
      (g.removeLabel label).2 = .error failure → (g.removeLabel label).1 = g := by
  intro atomic
  have reachable := lastSlotAwaits_spec.1
  have same : (lastSlotAwaits.removeLabel 1).1 = lastSlotAwaits :=
    atomic lastSlotAwaits reachable 1 _ lastSlotAwaits_refuses
  have refusal := reachable.wellFormed.1.refuses (Prod.ext rfl lastSlotAwaits_refuses)
  have gone : (lastSlotAwaits.removeLabel 1).1.contains 1 = false := refusal.gone
  rw [same, refusal.listed] at gone
  cases gone

/-- What that failure leaves behind. -/
theorem refusal_of_lastSlotAwaits :
    Reachable planeConfig lastSlotAwaits ∧
      lastSlotAwaits.Refusal 1 (.node 1 .lastSlotPending) (lastSlotAwaits.removeLabel 1).1 := by
  have reachable := lastSlotAwaits_spec.1
  exact ⟨reachable, (reachable.refusal 1).1 _ _ (Prod.ext rfl lastSlotAwaits_refuses)⟩

end Vicinity.Graph
