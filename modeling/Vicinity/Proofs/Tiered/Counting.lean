import Vicinity.Tiered.Job

/-!
What the counts of jobs count.

`Counted r unfinished` says of a registry that the jobs it has as handed out and not finished are of
the given kinds, and that no job failed and no repair was skipped.
-/

namespace Vicinity.Tiered

/-- The jobs that are handed out and not finished are of the given kinds. -/
structure Counted (r : Registry) (unfinished : List Kind) : Prop where
  submitted : ∀ kind, (r.get kind).submitted =
    (r.get kind).completed + (r.get kind).skipped + unfinished.count kind
  none_failed : ∀ kind, (r.get kind).failed = 0
  no_repair_skipped : (r.get .repair).skipped = 0

/-- How a job ends that finds what it was made for, or finds it gone. -/
def Task.EndsWell (task : Task) (outcome : Outcome) : Prop :=
  outcome = .completed ∨ task.kind ≠ .repair ∧ ∃ reason, outcome = .skipped reason

namespace Counted

variable {r : Registry} {unfinished : List Kind}

theorem start_empty : Counted {} [] where
  submitted kind := by cases kind <;> rfl
  none_failed kind := by cases kind <;> rfl
  no_repair_skipped := rfl

theorem perm (counted : Counted r unfinished) {unfinished' : List Kind}
    (same : unfinished'.Perm unfinished) : Counted r unfinished' :=
  { counted with
    submitted := fun kind => by
      rw [same.count_eq]
      exact counted.submitted kind }

/-- The number of jobs that are pending is the number of those handed out and not finished. -/
theorem pending_eq (counted : Counted r unfinished) (kind : Kind) :
    r.pending kind = unfinished.count kind := by
  have submitted := counted.submitted kind
  have failed := counted.none_failed kind
  rw [Registry.pending, Status.pending]
  omega

/-- A change of the counts of one kind, when it fits the change of its unfinished jobs. -/
theorem update (counted : Counted r unfinished) {kind : Kind} {f : Status → Status}
    {unfinished' : List Kind}
    (others : ∀ other, kind ≠ other → unfinished'.count other = unfinished.count other)
    (balanced : (f (r.get kind)).submitted =
      (f (r.get kind)).completed + (f (r.get kind)).skipped + unfinished'.count kind)
    (not_failed : (f (r.get kind)).failed = (r.get kind).failed)
    (not_skipped : kind = .repair → (f (r.get kind)).skipped = (r.get kind).skipped) :
    Counted (r.update kind f) unfinished' := by
  constructor
  case submitted =>
    intro other
    by_cases same : kind = other
    · subst same
      rwa [Registry.get_update_self]
    · rw [Registry.get_update_of_ne same, others other same]
      exact counted.submitted other
  case none_failed =>
    intro other
    by_cases same : kind = other
    · subst same
      rw [Registry.get_update_self, not_failed]
      exact counted.none_failed kind
    · rw [Registry.get_update_of_ne same]
      exact counted.none_failed other
  case no_repair_skipped =>
    by_cases same : kind = .repair
    · subst same
      rw [Registry.get_update_self, not_skipped rfl]
      exact counted.no_repair_skipped
    · rw [Registry.get_update_of_ne same]
      exact counted.no_repair_skipped

/-- Handing a job out leaves it unfinished. -/
theorem submit (counted : Counted r unfinished) (kind : Kind) :
    Counted (r.submit kind) (kind :: unfinished) := by
  have before := counted.submitted kind
  refine counted.update (fun other ne => ?_) ?_ rfl fun _ => rfl
  · exact List.count_cons_of_ne ne
  · rw [List.count_cons_self]
    simp only [Status.submit]
    omega

/-- A job that has begun is as unfinished as before. -/
theorem start (counted : Counted r unfinished) (kind : Kind) :
    Counted (r.start kind) unfinished :=
  counted.update (fun _ _ => rfl) (counted.submitted kind) rfl fun _ => rfl

/-- A job that ends well is finished. -/
theorem complete {task : Task} (counted : Counted r (task.kind :: unfinished)) {outcome : Outcome}
    (well : task.EndsWell outcome) (duration : Nat) :
    Counted (r.complete task.kind outcome duration) unfinished := by
  have before := counted.submitted task.kind
  rw [List.count_cons_self] at before
  refine counted.update (fun other ne => ?_) ?_ ?_ fun repair => ?_
  · exact (List.count_cons_of_ne ne).symm
  · rcases well with rfl | ⟨_, reason, rfl⟩
    · simp only [Status.complete, if_true]
      omega
    · simp [Status.complete]
      omega
  · rcases well with rfl | ⟨_, reason, rfl⟩ <;> rfl
  · rcases well with rfl | ⟨other, _⟩
    · rfl
    · exact absurd repair other

end Counted

end Vicinity.Tiered
