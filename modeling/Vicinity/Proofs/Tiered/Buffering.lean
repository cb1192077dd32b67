import Vicinity.Proofs.Flat
import Vicinity.Tiered.Basic

/-!
Which buffered vectors wait for which insert jobs.

`Buffered` says that every vector in the buffer has an insert that names its entry, and that no
entry is named twice. An insert may outlive the vector it was made for; it then names an entry that
is not there and never will be again, since entry numbers are not given out twice.
-/

namespace Vicinity.Tiered

variable {α : Type}

/-- The entry and the label that an insert names. -/
def Task.entry? : Task → Option (Nat × Label)
  | .insert entry label => some (entry, label)
  | _ => none

/-- What the inserts among some tasks name. -/
def insertsOf (tasks : List Task) : List (Nat × Label) := tasks.filterMap Task.entry?

theorem mem_insertsOf {tasks : List Task} {entry : Nat} {label : Label} :
    (entry, label) ∈ insertsOf tasks ↔ .insert entry label ∈ tasks := by
  rw [insertsOf, List.mem_filterMap]
  constructor
  · rintro ⟨task, mem, named⟩
    cases task <;> cases named
    exact mem
  · intro mem
    exact ⟨_, mem, rfl⟩

/-- Every buffered vector has one insert. -/
structure Buffered (f : Flat α) (named : List (Nat × Label)) : Prop where
  covered : ∀ row ∈ f.rows, (row.entry, row.label) ∈ named
  entry_lt : ∀ entry ∈ named, entry.1 < f.nextEntry
  nodup : (named.map (·.1)).Nodup

namespace Buffered

variable {f h : Flat α} {named : List (Nat × Label)}

theorem perm (buffered : Buffered f named) {named' : List (Nat × Label)}
    (same : named'.Perm named) : Buffered f named' where
  covered row mem := same.mem_iff.2 (buffered.covered row mem)
  entry_lt entry mem := buffered.entry_lt entry (same.mem_iff.1 mem)
  nodup := (same.map _).nodup_iff.2 buffered.nodup

theorem empty (none : f.rows = []) : Buffered f [] where
  covered row mem := by
    rw [none] at mem
    cases mem
  entry_lt := fun _ mem => by cases mem
  nodup := .nil

/-- Fewer vectors need no more inserts. -/
theorem shrink (buffered : Buffered f named)
    (subset : ∀ row ∈ h.rows, row ∈ f.rows)
    (nextEntry_eq : h.nextEntry = f.nextEntry) : Buffered h named where
  covered row mem := buffered.covered row (subset row mem)
  entry_lt entry mem := nextEntry_eq ▸ buffered.entry_lt entry mem
  nodup := buffered.nodup

/-- An insert whose vector is gone is not needed. -/
theorem finish {entry : Nat} {label : Label} (buffered : Buffered f ((entry, label) :: named))
    (gone : ∀ row ∈ f.rows, row.entry ≠ entry) : Buffered f named where
  covered row mem := by
    refine (List.mem_cons.1 (buffered.covered row mem)).resolve_left fun same => ?_
    exact gone row mem (congrArg Prod.fst same)
  entry_lt other mem := buffered.entry_lt other (List.mem_cons_of_mem _ mem)
  nodup := (List.nodup_cons.1 buffered.nodup).2

variable [Element α]

/-- A new vector comes with an insert of its own. -/
theorem push (buffered : Buffered f named) (label : Label) (vector : List α) :
    Buffered (f.push label vector) ((f.nextEntry, label) :: named) where
  covered row mem := by
    obtain ⟨place, slot, here, rfl⟩ := Flat.mem_rows.1 mem
    rcases (Flat.mem_slots_push _ _ _).1 (Array.mem_of_getElem? here) with old | rfl
    · obtain ⟨place, here⟩ := Array.mem_iff_getElem?.1 old
      exact List.mem_cons_of_mem _
        (buffered.covered (f.row place slot) (Flat.mem_rows.2 ⟨place, slot, here, rfl⟩))
    · exact List.mem_cons_self
  entry_lt entry mem := by
    rcases List.mem_cons.1 mem with rfl | old
    · exact Nat.lt_succ_self _
    · exact Nat.lt_succ_of_lt (buffered.entry_lt entry old)
  nodup := by
    refine List.nodup_cons.2 ⟨fun again => ?_, buffered.nodup⟩
    obtain ⟨entry, mem, same⟩ := List.mem_map.1 again
    have lt := buffered.entry_lt entry mem
    rw [same] at lt
    exact Nat.lt_irrefl _ lt

end Buffered

end Vicinity.Tiered
