import Vicinity.Proofs.Tiered.Interleaving
import Vicinity.Tiered.Schedule

/-!
The schedules are interleavings.

What a backlog does as one operation is a run of steps that begins and ends quiet: no call has tasks
left to hand out and no job is left to be counted (`Reachable.add`, `Reachable.delete`,
`Reachable.execute`). Running every job where it is handed out is another choice of the order
(`Reachable.runInline`, `Reachable.settleInline`). So what holds in all interleavings holds of an
index under either of them (`Backlog`, `Inline`).
-/

namespace Vicinity.Tiered.World

variable {α : Type} [Element α]

namespace Reachable

variable {config : Config} {t : Tiered α} {due jobs : List Task} {ending : List (Task × Outcome)}

/-! ### Waiting jobs -/

/-- What is due is handed out from the front. -/
theorem submitAll {tasks : List Task}
    (reachable : Reachable config { index := t, due := tasks ++ due, handed := jobs, ending }) :
    Reachable config
      { index := (tasks.foldl (fun s task => Backlog.submit s.1 s.2 task) (t, jobs)).1
        due, ending
        handed := (tasks.foldl (fun s task => Backlog.submit s.1 s.2 task) (t, jobs)).2 } := by
  induction tasks generalizing t jobs with
  | nil => exact reachable
  | cons task tasks ih => exact ih (reachable.step (.submit [] (tasks ++ due) task rfl))

/-- What a write wants done is handed out, and a pass is made when one is due. -/
theorem settle {followup : Followup}
    (reachable : Reachable config { index := t, due := followup.tasks, handed := jobs }) :
    Reachable config
      { index := (Backlog.settle t jobs followup).1
        handed := (Backlog.settle t jobs followup).2 } := by
  rw [← List.append_nil followup.tasks] at reachable
  have handed := reachable.submitAll
  unfold Backlog.settle
  dsimp only
  split
  · exact handed.step (.pass rfl)
  · exact handed

theorem add (reachable : Reachable config { index := t, handed := jobs })
    (few : t.graph.nodeCount + t.flat.size < Graph.idLimit) (label : Label) (vector : List α) :
    Reachable config
      { index := (Backlog.add t jobs label vector).1
        handed := (Backlog.add t jobs label vector).2.1 } :=
  (reachable.step (.write label vector few rfl)).settle

theorem delete (reachable : Reachable config { index := t, handed := jobs }) (label : Label) :
    Reachable config
      { index := (Backlog.delete t jobs label).1
        handed := (Backlog.delete t jobs label).2.1 } :=
  (reachable.step (.delete label rfl)).settle

/-- A waiting job runs, whatever its place. -/
theorem execute (front : List Task) {back : List Task} {task : Task}
    (reachable : Reachable config { index := t, handed := front ++ task :: back }) :
    Reachable config
      { index := (Backlog.execute t (front ++ back) task).1
        handed := (Backlog.execute t (front ++ back) task).2.1 } := by
  obtain ⟨t₁, outcome, next?, done⟩ : ∃ t₁ outcome next?,
      (t.begin task).perform task = (t₁, outcome, next?) := ⟨_, _, _, rfl⟩
  have ran := reachable.step (.run front back task rfl done)
  simp only [Backlog.execute, done]
  cases next? with
  | none => exact ran.step (.finish [] [] task outcome rfl)
  | some next => exact (ran.step (.submit [] [] next rfl)).step (.finish [] [] task outcome rfl)

/-! ### Jobs at once -/

/-- A task that is due runs at once, and what it submits before it ends. -/
theorem runInline {task : Task} (front : List Task) {back : List Task}
    (reachable : Reachable config
      { index := t, due := front ++ task :: back, handed := jobs, ending }) :
    Reachable config
      { index := (Inline.run t task).1, due := front ++ back, handed := jobs, ending } := by
  fun_induction Inline.run t task generalizing front back ending with
  | case1 t task t₁ outcome done =>
      have ran := (reachable.step (.submit front back task rfl)).step (.run jobs [] task rfl done)
      simp only [Option.toList_none, List.append_nil] at ran
      have ended := ran.step (.finish ending [] task outcome rfl)
      rwa [List.append_nil] at ended
  | case2 t task t₁ outcome next done t₂ inner ran_next ih =>
      have ran := (reachable.step (.submit front back task rfl)).step (.run jobs [] task rfl done)
      rw [List.append_nil] at ran
      have inside := ih _ ran
      simp only [ran_next, List.append_nil] at inside
      have ended := inside.step (.finish ending [] task outcome rfl)
      rwa [List.append_nil] at ended

theorem runAllInline {tasks : List Task} (finished : Inline.Finished)
    (reachable : Reachable config { index := t, due := tasks ++ due, handed := jobs, ending }) :
    Reachable config
      { index := (tasks.foldl (fun (t, finished) task =>
          let (t, more) := Inline.run t task
          (t, finished ++ more)) (t, finished)).1
        due, handed := jobs, ending } := by
  induction tasks generalizing t finished with
  | nil => exact reachable
  | cons task tasks ih => exact ih _ (reachable.runInline [])

/-- All that a write wants done is done before it ends. -/
theorem settleInline {followup : Followup}
    (reachable : Reachable config { index := t, due := followup.tasks, handed := jobs }) :
    Reachable config { index := (Inline.settle t followup).1, handed := jobs } := by
  rw [← List.append_nil followup.tasks] at reachable
  have ran := reachable.runAllInline []
  unfold Inline.settle
  dsimp only
  split
  · exact ran.step (.pass rfl)
  · exact ran

end Reachable

end Vicinity.Tiered.World
