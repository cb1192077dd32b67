import Vicinity.Proofs.Holdings

/-!
Sequences of calls on an exhaustive index.

A call takes some of the rows out (`Call.removes`) and adds one more at most (`Call.fills`), and the
others stay what they are, in whatever order (`WellFormed.perm_run`). So a property of the rows is
kept by calls when it survives taking some out and adding one. `Reachable` collects the indexes
that calls lead to from an empty one.
-/

namespace Vicinity.Flat

variable {α : Type} {f : Flat α}

/-- A vector has the dimension of the index, which is not zero. -/
def fits (f : Flat α) (vector : List α) : Bool := vector.length == f.dim && f.dim != 0

theorem fits_iff {vector : List α} :
    f.fits vector = true ↔ checkDimension f.dim vector.length = .ok () := by
  rw [checkDimension_eq_ok_iff, fits, Bool.and_eq_true, beq_iff_eq, bne_iff_ne]

/-- The index without the vectors that one of a label replaces. -/
def cleared (f : Flat α) (label : Label) : Flat α :=
  if f.multi then f else (f.deleteLabel label).1

theorem cleared_eq (f : Flat α) (label : Label) :
    f.cleared label = f.holding (f.cleared label) := by
  rw [cleared]
  split
  · rfl
  · exact deleteLabel_eq f label

theorem nextEntry_cleared (f : Flat α) (label : Label) :
    (f.cleared label).nextEntry = f.nextEntry := by
  rw [cleared_eq]
  rfl

theorem metric_cleared (f : Flat α) (label : Label) : (f.cleared label).metric = f.metric := by
  rw [cleared_eq]
  rfl

theorem WellFormed.cleared (wf : f.WellFormed) (label : Label) : (f.cleared label).WellFormed := by
  rw [Flat.cleared]
  split
  · exact wf
  · exact wf.deleteLabel label

theorem perm_cleared (wf : f.WellFormed) (label : Label) :
    (f.cleared label).rows.Perm
      (f.rows.filter fun row => f.multi || row.label != label) := by
  rw [cleared]
  split
  case isTrue several => simp [several]
  case isFalse single =>
    simp only [Bool.eq_false_iff.2 single, Bool.false_or]
    exact perm_deleteLabel wf label

theorem length_of_fits {vector : List α} (fits : f.fits vector = true) (label : Label) :
    vector.length = (f.cleared label).dim := by
  rw [cleared_eq]
  exact (checkDimension_eq_ok_iff.1 (fits_iff.1 fits)).1

variable [Element α]

/-! ### What a call does to the rows -/

/-- The index with a vector, if it fits. -/
def stored (f : Flat α) (label : Label) (vector : List α) : Flat α :=
  if f.fits vector then (f.cleared label).push label vector else f

/-- Storing goes wrong by the length of the vector only. -/
theorem addEntry_of_fits {vector : List α} (fits : f.fits vector = true) (label : Label) :
    f.addEntry label vector = .ok (f.stored label vector, f.nextEntry) := by
  rw [addEntry, fits_iff.1 fits, stored, if_pos fits, ← nextEntry_cleared f label]
  rfl

theorem addEntry_of_not_fits {vector : List α} (misfit : ¬f.fits vector = true) (label : Label) :
    ∃ failure, f.addEntry label vector = .error failure := by
  rw [addEntry]
  split
  case h_1 fault _ => exact ⟨.vector fault, rfl⟩
  case h_2 accepted => exact absurd (fits_iff.2 accepted) misfit

theorem add_fst (f : Flat α) (label : Label) (vector : List α) :
    (f.add label vector).1 = f.stored label vector := by
  rw [add]
  by_cases fits : f.fits vector = true
  · rw [addEntry_of_fits fits]
  · obtain ⟨failure, refused⟩ := addEntry_of_not_fits fits label
    rw [refused, stored, if_neg fits]

/-- A call that changes an index. -/
inductive Call (α : Type) where
  | addEntry (label : Label) (vector : List α)
  | removeEntry (entry : Nat)
  | deleteLabel (label : Label)
  | add (label : Label) (vector : List α)
  | delete (label : Label)

namespace Call

/-- The index after a call, whether it succeeded or not. -/
def run (f : Flat α) : Call α → Flat α
  | addEntry label vector =>
    match f.addEntry label vector with
    | .ok (stored, _) => stored
    | .error _ => f
  | removeEntry entry => (f.removeEntry entry).1
  | deleteLabel label => (f.deleteLabel label).1
  | add label vector => (VectorIndex.add f label vector).1
  | delete label => (VectorIndex.delete f label).1

/-- A call takes a row out: by its number, by its label, or to put another vector of the label in
its place. -/
def removes (f : Flat α) (row : Row α) : Call α → Bool
  | addEntry label vector | add label vector => f.fits vector && !f.multi && row.label == label
  | removeEntry entry => row.entry == entry
  | deleteLabel label | delete label => row.label == label

/-- The row that a call adds. -/
def fills (f : Flat α) : Call α → Option (Row α)
  | addEntry label vector | add label vector =>
    if f.fits vector then some ⟨f.nextEntry, label, f.metric.prepare vector⟩ else none
  | removeEntry _ | deleteLabel _ | delete _ => none

theorem run_addEntry (f : Flat α) (label : Label) (vector : List α) :
    (addEntry label vector).run f = f.stored label vector := by
  rw [run]
  by_cases fits : f.fits vector = true
  · rw [addEntry_of_fits fits]
  · obtain ⟨failure, refused⟩ := addEntry_of_not_fits fits label
    rw [refused, stored, if_neg fits]

theorem run_add (f : Flat α) (label : Label) (vector : List α) :
    (add label vector).run f = f.stored label vector := add_fst f label vector

theorem entry_of_fills {call : Call α} {row : Row α} (fills : call.fills f = some row) :
    row.entry = f.nextEntry := by
  cases call with
  | addEntry label vector | add label vector =>
      rw [Call.fills, Option.ite_none_right_eq_some] at fills
      exact Option.some.inj fills.2 ▸ rfl
  | removeEntry | deleteLabel | delete => cases fills

end Call

theorem stored_eq (f : Flat α) (label : Label) (vector : List α) :
    f.stored label vector = { f.holding (f.stored label vector) with
      nextEntry := f.nextEntry + ((Call.add label vector).fills f).toList.length } := by
  rw [stored, Call.fills]
  split
  · rw [push, cleared_eq]
    rfl
  · rfl

theorem perm_stored (wf : f.WellFormed) (label : Label) (vector : List α) :
    (f.stored label vector).rows.Perm
      (f.rows.filter (fun row => !(Call.add label vector).removes f row) ++
        ((Call.add label vector).fills f).toList) := by
  rw [stored, Call.fills]
  split
  case isTrue fits =>
    have left : (fun row : Row α => f.multi || row.label != label) =
        fun row => !(Call.add label vector).removes f row := by
      funext row
      rw [Call.removes, fits, Bool.true_and, Bool.not_and, Bool.not_not]
      rfl
    rw [rows_push (wf.cleared label) label (length_of_fits fits label), nextEntry_cleared,
      metric_cleared]
    exact (left ▸ perm_cleared wf label).append_right _
  case isFalse misfit => simp [Call.removes, misfit]

theorem WellFormed.stored (wf : f.WellFormed) (label : Label) (vector : List α) :
    (f.stored label vector).WellFormed := by
  rw [Flat.stored]
  split
  case isTrue fits =>
    exact (wf.cleared label).push label (length_of_fits fits label)
  case isFalse => exact wf

/-- Besides what is held a call changes the next entry number only. -/
theorem Call.run_eq (f : Flat α) (call : Call α) :
    call.run f = { f.holding (call.run f) with
      nextEntry := f.nextEntry + (call.fills f).toList.length } := by
  cases call with
  | addEntry label vector =>
      rw [run_addEntry]
      exact stored_eq f label vector
  | add label vector =>
      rw [run_add]
      exact stored_eq f label vector
  | removeEntry entry => exact removeEntry_eq f entry
  | deleteLabel label | delete label => exact deleteLabel_eq f label

/-- The rows that stay, and the one that is added. -/
theorem WellFormed.perm_run (wf : f.WellFormed) (call : Call α) :
    (call.run f).rows.Perm
      (f.rows.filter (fun row => !call.removes f row) ++ (call.fills f).toList) := by
  cases call with
  | addEntry label vector =>
      rw [Call.run_addEntry]
      exact perm_stored wf label vector
  | add label vector =>
      rw [Call.run_add]
      exact perm_stored wf label vector
  | removeEntry entry =>
      rw [Call.fills, Option.toList_none, List.append_nil]
      exact perm_removeEntry wf entry
  | deleteLabel label | delete label =>
      rw [Call.fills, Option.toList_none, List.append_nil]
      exact perm_deleteLabel wf label

theorem WellFormed.mem_run (wf : f.WellFormed) (call : Call α) {row : Row α} :
    row ∈ (call.run f).rows ↔
      row ∈ f.rows ∧ call.removes f row = false ∨ call.fills f = some row := by
  rw [(wf.perm_run call).mem_iff, List.mem_append, List.mem_filter, Option.mem_toList,
    Bool.not_eq_true']

theorem WellFormed.run (wf : f.WellFormed) (call : Call α) : (call.run f).WellFormed := by
  cases call with
  | addEntry label vector =>
      rw [Call.run_addEntry]
      exact wf.stored label vector
  | add label vector =>
      rw [Call.run_add]
      exact wf.stored label vector
  | removeEntry entry => exact wf.removeEntry entry
  | deleteLabel label | delete label => exact wf.deleteLabel label

/-- With one vector a label no two rows share a label. -/
def OnePerLabel (f : Flat α) : Prop := f.multi = false → (f.rows.map (·.label)).Nodup

/-- What is added has the label of none that stays. -/
theorem OnePerLabel.run (once : f.OnePerLabel) (wf : f.WellFormed) (call : Call α) :
    (call.run f).OnePerLabel := by
  intro single_after
  have single : f.multi = false := by rwa [call.run_eq] at single_after
  rw [((wf.perm_run call).map _).nodup_iff, List.map_append]
  refine List.nodup_append.2 ⟨(once single).sublist (List.filter_sublist.map _), ?_, ?_⟩
  · cases call.fills f with
    | none => exact List.nodup_nil
    | some row => exact List.nodup_singleton _
  · intro label stays label' filled same
    obtain ⟨row, left, rfl⟩ := List.mem_map.1 stays
    obtain ⟨row', new, rfl⟩ := List.mem_map.1 filled
    have kept := (List.mem_filter.1 left).2
    rw [Option.mem_toList] at new
    cases call with
    | addEntry label vector | add label vector =>
        rw [Call.fills, Option.ite_none_right_eq_some] at new
        obtain ⟨fits, same_slot⟩ := new
        cases same_slot
        simp [Call.removes, fits, single, same] at kept
    | removeEntry | deleteLabel | delete => cases new

/-! ### Calls one after another -/

/-- The index after calls. -/
def after (f : Flat α) (calls : List (Call α)) : Flat α := calls.foldl Call.run f

theorem after_cons (f : Flat α) (call : Call α) (calls : List (Call α)) :
    f.after (call :: calls) = (call.run f).after calls := rfl

/-- Besides what is held calls change the next entry number only. -/
theorem after_eq (f : Flat α) (calls : List (Call α)) :
    f.after calls = { f.holding (f.after calls) with
      nextEntry := (f.after calls).nextEntry } := by
  induction calls generalizing f with
  | nil => rfl
  | cons call calls ih =>
      rw [after_cons, ih, call.run_eq]
      rfl

theorem WellFormed.after (wf : f.WellFormed) (calls : List (Call α)) :
    (f.after calls).WellFormed := by
  induction calls generalizing f with
  | nil => exact wf
  | cons call calls ih => exact ih (wf.run call)

/-- The indexes that calls lead to from an empty one. -/
inductive Reachable : Flat α → Prop where
  | new (dim : Nat) (metric : Metric) (multi : Bool) (blockSize : Nat) :
      Reachable (.new dim metric multi blockSize)
  | call {f : Flat α} (call : Call α) : Reachable f → Reachable (call.run f)

namespace Reachable

theorem after (reachable : f.Reachable) (calls : List (Call α)) : (f.after calls).Reachable := by
  induction calls generalizing f with
  | nil => exact reachable
  | cons call calls ih => exact ih (reachable.call call)

theorem wellFormed (reachable : f.Reachable) : f.WellFormed := by
  induction reachable with
  | new dim metric multi blockSize => exact wellFormed_new dim metric multi blockSize
  | call call _ wf => exact wf.run call

theorem onePerLabel (reachable : f.Reachable) : f.OnePerLabel := by
  induction reachable with
  | new => exact fun _ => List.nodup_nil
  | call call reachable once => exact once.run reachable.wellFormed call

end Reachable

end Vicinity.Flat
