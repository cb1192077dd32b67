import Vicinity.Proofs.Tiered.Performing

/-!
Writes, jobs and passes in any order.

A `World` is a buffered index with the tasks that are on their way: recorded by a call that has
given its locks back and has yet to hand them out (`due`), handed out and not run (`handed`), and
run but not yet counted as finished (`ending`). A `Step` is what happens under the locks at once, so
that `Reachable` collects the states of every interleaving of calls on any number of threads, with
the jobs run in any order, each at most once and none dropped. What is outstanding in a state is
what is due or handed out. Every step keeps the parts of the index in step with that
(`Reachable.consistent`).

The one thing that is asked is that there is an id for every vector when one is added.
-/

namespace Vicinity.Tiered

/-- A buffered index with the tasks that are on their way. -/
structure World (α : Type) where
  index : Tiered α
  /-- Recorded by a call or a job that has yet to hand them out. -/
  due : List Task := []
  /-- Handed out and not run. -/
  handed : List Task := []
  /-- Run and not yet counted as finished, with the outcome. -/
  ending : List (Task × Outcome) := []

namespace World

variable {α : Type}

/-- The tasks that are recorded and have not run. -/
def outstanding (w : World α) : List Task := w.due ++ w.handed

/-- The kinds of the jobs that are handed out and not finished. -/
def unfinished (w : World α) : List Kind := w.handed.map (·.kind) ++ w.ending.map (·.1.kind)

/-- No call and no job is between two of its steps. -/
def Quiet (w : World α) : Prop := w.due = [] ∧ w.ending = []

/-! ### What is outstanding -/

/-- Tasks that are recorded are outstanding beside the others. -/
theorem perm_recorded (due tasks handed : List Task) :
    (due ++ tasks ++ handed).Perm (tasks ++ (due ++ handed)) := by
  rw [← List.append_assoc]
  exact List.perm_append_comm.append_right handed

/-- A task that is handed out stays outstanding. -/
theorem perm_submitted {w : World α} {front back : List Task} {task : Task}
    (due : w.due = front ++ task :: back) :
    (front ++ back ++ (w.handed ++ [task])).Perm w.outstanding := by
  refine List.perm_iff_count.2 fun other => ?_
  simp only [outstanding, due, List.count_append, List.count_cons, List.count_nil]
  omega

/-- A task that was handed out is outstanding beside the others. -/
theorem perm_handed {w : World α} {front back : List Task} {task : Task}
    (handed : w.handed = front ++ task :: back) :
    w.outstanding.Perm (task :: (w.due ++ (front ++ back))) := by
  rw [outstanding, handed, ← List.append_assoc, ← List.append_assoc]
  exact List.perm_middle

/-! ### Steps -/

section Steps

variable [Element α]

/-- What happens at once. -/
inductive Step : World α → World α → Prop where
  /-- A vector is stored, when there is an id left for it. -/
  | write {w : World α} (label : Label) (vector : List α) {t : Tiered α} {followup : Followup}
      {result : Except Failure Unit} :
      w.index.graph.nodeCount + w.index.flat.size < Graph.idLimit →
      w.index.write label vector = (t, followup, result) →
      Step w { w with index := t, due := w.due ++ followup.tasks }
  /-- The vectors of a label are deleted. -/
  | delete {w : World α} (label : Label) {t : Tiered α} {followup : Followup}
      {result : Except Failure Nat} :
      w.index.removeLabel label = (t, followup, result) →
      Step w { w with index := t, due := w.due ++ followup.tasks }
  /-- A recorded task is handed out. -/
  | submit {w : World α} (front back : List Task) (task : Task) :
      w.due = front ++ task :: back →
      Step w { w with
        index := w.index.submit task, due := front ++ back, handed := w.handed ++ [task] }
  /-- A pass is made, by a write that finds it due or by a call for it. -/
  | pass {w : World α} {t : Tiered α} {freed : Nat} :
      w.index.runGc = (t, freed) → Step w { w with index := t }
  /-- A job that was handed out runs. -/
  | run {w : World α} (front back : List Task) (task : Task) {t : Tiered α} {outcome : Outcome}
      {next? : Option Task} :
      w.handed = front ++ task :: back →
      (w.index.begin task).perform task = (t, outcome, next?) →
      Step w { w with
        index := t, due := w.due ++ next?.toList, handed := front ++ back
        ending := w.ending ++ [(task, outcome)] }
  /-- A job that has run is counted as finished. -/
  | finish {w : World α} (front back : List (Task × Outcome)) (task : Task) (outcome : Outcome) :
      w.ending = front ++ (task, outcome) :: back →
      Step w { w with index := w.index.finish task outcome, ending := front ++ back }

/-- The states that steps lead to, starting with an empty index. -/
inductive Reachable (config : Config) : World α → Prop where
  | new {t : Tiered α} : Tiered.new config = .ok t → Reachable config { index := t }
  | step {w w' : World α} : Reachable config w → Step w w' → Reachable config w'

end Steps

/-! ### The invariant -/

/-- What every step keeps. -/
structure Consistent (config : Config) (w : World α) : Prop where
  config_eq : w.index.config = config
  tracked : Tracked w.index w.outstanding
  counted : Counted w.index.registry w.unfinished
  ends_well : ∀ job ∈ w.ending, job.1.EndsWell job.2

theorem consistent_new {config : Config} {t : Tiered α} (made : Tiered.new config = .ok t) :
    Consistent config { index := t } := by
  obtain ⟨tracked, registry, config_eq⟩ := tracked_new made
  exact ⟨config_eq, tracked, registry ▸ .start_empty, fun _ mem => by cases mem⟩

/-- A job that begins has its task done first, with the others left over. -/
theorem Consistent.begun {config : Config} {w : World α} (consistent : Consistent config w)
    {front back : List Task} {task : Task} (handed : w.handed = front ++ task :: back) :
    Tracked (w.index.begin task) (task :: (w.due ++ (front ++ back))) :=
  (consistent.tracked.withRegistry (w.index.registry.start task.kind)).perm
    (perm_handed handed).symm

variable [Element α]

theorem Consistent.step {config : Config} {w w' : World α} (consistent : Consistent config w)
    (step : Step w w') : Consistent config w' := by
  have ⟨config_eq, tracked, counted, ends_well⟩ := consistent
  cases step with
  | write label vector few written =>
      obtain ⟨tracked', config_eq', registry, _⟩ := tracked.write few written
      exact ⟨config_eq'.trans config_eq, tracked'.perm (perm_recorded ..), registry ▸ counted,
        ends_well⟩
  | delete label removed =>
      obtain ⟨_, tracked', _, config_eq', registry, _⟩ := tracked.removeLabel removed
      exact ⟨config_eq'.trans config_eq, tracked'.perm (perm_recorded ..), registry ▸ counted,
        ends_well⟩
  | submit front back task due =>
      refine ⟨config_eq, (tracked.withRegistry _).perm (perm_submitted due),
        (counted.submit _).perm (List.perm_iff_count.2 fun kind => ?_), ends_well⟩
      simp only [unfinished, List.map_append, List.map_cons, List.map_nil, List.count_append,
        List.count_cons, List.count_nil]
      omega
  | pass passed =>
      obtain ⟨tracked', config_eq', registry, _⟩ := tracked.runGc passed
      exact ⟨config_eq'.trans config_eq, tracked', registry ▸ counted, ends_well⟩
  | run front back task handed done =>
      obtain ⟨tracked', config_eq', registry, well⟩ := (consistent.begun handed).perform done
      refine ⟨config_eq'.trans config_eq, tracked'.perm (perm_recorded ..), ?_, fun job mem => ?_⟩
      · rw [registry]
        refine (counted.start task.kind).perm (List.perm_iff_count.2 fun kind => ?_)
        simp only [unfinished, handed, List.map_append, List.map_cons, List.map_nil,
          List.count_append, List.count_cons, List.count_nil]
        omega
      · rcases List.mem_append.1 mem with old | new
        · exact ends_well job old
        · rw [List.mem_singleton.1 new]
          exact well
  | finish front back task outcome ending =>
      have mem : (task, outcome) ∈ w.ending := by simp [ending]
      have last : Counted w.index.registry
          (task.kind :: (w.handed.map (·.kind) ++ (front ++ back).map (·.1.kind))) := by
        refine counted.perm (List.perm_iff_count.2 fun kind => ?_)
        simp only [unfinished, ending, List.map_append, List.map_cons, List.count_append,
          List.count_cons]
        omega
      refine ⟨config_eq, tracked.withRegistry _, last.complete (ends_well _ mem) _,
        fun job mem => ends_well job ?_⟩
      rw [ending]
      exact List.mem_append.2 ((List.mem_append.1 mem).imp_right (List.mem_cons_of_mem _))

theorem Reachable.consistent {config : Config} {w : World α} (reachable : Reachable config w) :
    Consistent config w := by
  induction reachable with
  | new made => exact consistent_new made
  | step _ step ih => exact ih.step step

/-- An empty index over planes of two doubles, with the parameters that are usual. -/
def emptyPlanes : Tiered Binary64 :=
  { ofGraph { graph := { dim := 2, metric := .l2 } } { config := { dim := 2, metric := .l2 } } with
    sharesJournal := true }

end World

end Vicinity.Tiered
