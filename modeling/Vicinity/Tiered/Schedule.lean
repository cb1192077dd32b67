import Vicinity.Tiered.Basic

/-!
Who runs the jobs of a tiered index, and when.

* `Backlog`: jobs wait in the order in which they were handed out until the owner runs one of them,
  or all. The index may be gone by then, which cancels them.
* `Inline`: a job runs at once where it is handed out, before the one that submitted it ends.
* `Pool`: workers run all that waits after each step, until the pool is shut down.

A job submits lighter jobs only (`Tiered.weight_of_perform`), so `Backlog.runAll` and `Inline.run`
come to an end.
-/

namespace Vicinity.Tiered

variable {α : Type} [Element α]

/-! ### Waiting jobs -/

/-- An index, unless it is gone, with its jobs that have not run, the oldest first. -/
structure Backlog (α : Type) where
  index? : Option (Tiered α)
  jobs : List Task := []

namespace Backlog

/-- Hand out a task: it is counted and waits behind the others. -/
def submit (t : Tiered α) (jobs : List Task) (task : Task) : Tiered α × List Task :=
  (t.submit task, jobs ++ [task])

/-- Hand out what a write wants done, and make a pass when one is due. -/
def settle (t : Tiered α) (jobs : List Task) (followup : Followup) : Tiered α × List Task :=
  let (t, jobs) := followup.tasks.foldl (fun (t, jobs) task => submit t jobs task) (t, jobs)
  (if followup.gcDue then t.runGc.1 else t, jobs)

/-- Store a vector. -/
def add (t : Tiered α) (jobs : List Task) (label : Label) (vector : List α) :
    Tiered α × List Task × Except Failure Unit :=
  let (t, followup, written) := t.write label vector
  let (t, jobs) := settle t jobs followup
  (t, jobs, written)

/-- Delete every vector of a label; returns their number. -/
def delete (t : Tiered α) (jobs : List Task) (label : Label) :
    Tiered α × List Task × Except Failure Nat :=
  let (t, followup, removed) := t.removeLabel label
  let (t, jobs) := settle t jobs followup
  (t, jobs, removed)

/-- Run a job on a live index. -/
def execute (t : Tiered α) (jobs : List Task) (task : Task) : Tiered α × List Task × Outcome :=
  let (t, outcome, next?) := (t.begin task).perform task
  let (t, jobs) :=
    match next? with
    | some next => submit t jobs next
    | none => (t, jobs)
  (t.finish task outcome, jobs, outcome)

/-- Run a job that no longer waits. Without its index it is cancelled. -/
def run (b : Backlog α) (task : Task) : Backlog α × Outcome :=
  match b.index? with
  | none => (b, .cancelled)
  | some t =>
    let (t, jobs, outcome) := execute t b.jobs task
    (⟨some t, jobs⟩, outcome)

/-- Run the job at a place in the order. -/
def runAt? (b : Backlog α) (place : Nat) : Option (Backlog α × Outcome) :=
  b.jobs[place]?.map fun task => run { b with jobs := b.jobs.eraseIdx place } task

/-- Run the oldest job. -/
def runNext? (b : Backlog α) : Option (Backlog α × Outcome) :=
  match b.jobs with
  | [] => none
  | task :: jobs => some (run { b with jobs } task)

/-- The jobs that the waiting ones can lead to, themselves included. -/
def weight (b : Backlog α) : Nat := Task.totalWeight b.jobs

theorem weight_runNext? {b b' : Backlog α} {outcome : Outcome}
    (h : b.runNext? = some (b', outcome)) : b'.weight < b.weight := by
  unfold runNext? at h
  split at h
  · contradiction
  case h_2 task jobs hjobs =>
    have positive : 0 < task.weight := task.weight_pos
    simp only [Option.some.injEq, run] at h
    split at h
    · cases h
      simp only [weight, hjobs, Task.totalWeight]
      omega
    case h_2 t _ =>
      simp only [execute, Prod.mk.injEq] at h
      rw [← h.1]
      simp only [weight, hjobs, Task.totalWeight]
      split
      case h_1 next hnext =>
        have : next.weight < task.weight :=
          weight_of_perform (Prod.ext rfl (Prod.ext rfl hnext))
        simp only [submit, Task.totalWeight_append, Task.totalWeight]
        omega
      · dsimp only
        omega

/-- Run jobs, the oldest first, until none waits, those submitted meanwhile included; returns their
number. -/
def runAll (b : Backlog α) (ran : Nat) : Backlog α × Nat :=
  match _h : b.runNext? with
  | none => (b, ran)
  | some (b', _) => runAll b' (ran + 1)
termination_by b.weight
decreasing_by exact weight_runNext? _h

/-- Drop the waiting jobs; returns their number. -/
def clear (b : Backlog α) : Backlog α × Nat := ({ b with jobs := [] }, b.jobs.length)

/-- Let the index go. Its jobs still wait. -/
def dropIndex (b : Backlog α) : Backlog α := { b with index? := none }

end Backlog

/-! ### Jobs at once -/

namespace Inline

/-- Kind and outcome of jobs in the order in which they finished. -/
abbrev Finished := List (Kind × Outcome)

/-- Hand out a task and run it. -/
def run (t : Tiered α) (task : Task) : Tiered α × Finished :=
  match _h : ((t.submit task).begin task).perform task with
  | (t, outcome, none) => (t.finish task outcome, [(task.kind, outcome)])
  | (t, outcome, some next) =>
    let (t, inner) := run t next
    (t.finish task outcome, inner ++ [(task.kind, outcome)])
termination_by task.weight
decreasing_by exact weight_of_perform _h

/-- Run a task that is not counted as handed out, and what it submits. -/
def execute (t : Tiered α) (task : Task) : Tiered α × Finished × Outcome :=
  let (t, outcome, next?) := (t.begin task).perform task
  let (t, inner) :=
    match next? with
    | some next => run t next
    | none => (t, [])
  (t.finish task outcome, inner, outcome)

/-- Do what a write wants done. -/
def settle (t : Tiered α) (followup : Followup) : Tiered α × Finished :=
  let (t, finished) := followup.tasks.foldl (fun (t, finished) task =>
    let (t, more) := run t task
    (t, finished ++ more)) (t, [])
  (if followup.gcDue then t.runGc.1 else t, finished)

/-- Store a vector. -/
def add (t : Tiered α) (label : Label) (vector : List α) :
    Tiered α × Finished × Except Failure Unit :=
  let (t, followup, written) := t.write label vector
  let (t, finished) := settle t followup
  (t, finished, written)

/-- Delete every vector of a label; returns their number. -/
def delete (t : Tiered α) (label : Label) : Tiered α × Finished × Except Failure Nat :=
  let (t, followup, removed) := t.removeLabel label
  let (t, finished) := settle t followup
  (t, finished, removed)

end Inline

/-! ### Workers -/

/-- How many workers run jobs, and how long a shutdown waits for them. -/
structure PoolConfig where
  workers : UInt64 := 4
  /-- In seconds. -/
  shutdownTimeout : UInt64 := 30
deriving DecidableEq, Repr, Inhabited

/-- Workers over the jobs of an index. -/
structure Pool (α : Type) where
  config : PoolConfig
  isRunning : Bool := true
  backlog : Backlog α

/-- Why a pool was not shut down. -/
inductive PoolFault where
  | notRunning
deriving DecidableEq, Repr, Inhabited

def PoolFault.message : PoolFault → String
  | .notRunning => "Worker pool is not running"

namespace Pool

/-- What happens to waiting jobs after a step: the workers run them all, unless the next step does
not wait for that. A pool that was shut down drops them. -/
def settle (pool : Pool α) (wait : Bool) : Pool α :=
  { pool with
    backlog :=
      if !pool.isRunning then pool.backlog.clear.1
      else if wait then (pool.backlog.runAll 0).1
      else pool.backlog }

/-- Jobs handed out that have neither run nor been dropped. -/
def inFlight (pool : Pool α) : Nat := pool.backlog.jobs.length

/-- Stop the workers, once. Waiting jobs are dropped. -/
def shutdown (pool : Pool α) : Except PoolFault (Pool α) :=
  if pool.isRunning then
    .ok { pool with isRunning := false, backlog := pool.backlog.clear.1 }
  else .error .notRunning

end Pool

end Vicinity.Tiered
