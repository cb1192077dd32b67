import Vicinity.Tiered.Schedule

/-!
A tiered index under one of two policies: its jobs wait until they are run, or each runs where it is
handed out.
-/

namespace Vicinity.Tiered

/-- When jobs run. -/
inductive Policy where
  | queued
  | immediate
deriving DecidableEq, Repr, Inhabited

/-- An index with its jobs. -/
structure Host (α : Type) where
  policy : Policy
  backlog : Backlog α
  /-- Jobs that ran where they were handed out, in the order in which they finished. -/
  finished : Inline.Finished := []

namespace Host

variable {α : Type} [Element α]

/-- Take over a changed index and its waiting jobs. -/
def keep (host : Host α) (t : Tiered α) (jobs : List Task) : Host α :=
  { host with backlog := ⟨some t, jobs⟩ }

/-- Take over a changed index and the jobs that have run meanwhile. -/
def record (host : Host α) (t : Tiered α) (finished : Inline.Finished) : Host α :=
  { host.keep t host.backlog.jobs with finished := host.finished ++ finished }

/-- Store a vector in the index, which is live. -/
def add (host : Host α) (t : Tiered α) (label : Label) (vector : List α) :
    Host α × Except Failure Unit :=
  match host.policy with
  | .queued =>
    let (t, jobs, added) := Backlog.add t host.backlog.jobs label vector
    (host.keep t jobs, added)
  | .immediate =>
    let (t, finished, added) := Inline.add t label vector
    (host.record t finished, added)

/-- Store vectors in order; the first failure ends the run. -/
def addAll (host : Host α) (t : Tiered α) : List (Label × List α) → Host α × Except Failure Unit
  | [] => (host, .ok ())
  | (label, vector) :: items =>
    match host.add t label vector with
    | (host, .error failure) => (host, .error failure)
    | (host, .ok ()) => host.addAll (host.backlog.index?.getD t) items

/-- Delete every vector of a label; returns their number. -/
def delete (host : Host α) (t : Tiered α) (label : Label) : Host α × Except Failure Nat :=
  match host.policy with
  | .queued =>
    let (t, jobs, removed) := Backlog.delete t host.backlog.jobs label
    (host.keep t jobs, removed)
  | .immediate =>
    let (t, finished, removed) := Inline.delete t label
    (host.record t finished, removed)

/-- Run a task that is not one of the waiting jobs. -/
def execute (host : Host α) (t : Tiered α) (task : Task) : Host α × Outcome :=
  match host.policy with
  | .queued =>
    let (t, jobs, outcome) := Backlog.execute t host.backlog.jobs task
    (host.keep t jobs, outcome)
  | .immediate =>
    let (t, finished, outcome) := Inline.execute t task
    (host.record t finished, outcome)

/-- Messages logged so far. -/
def journal (host : Host α) : Log.Journal := (host.backlog.index?.map (·.journal)).getD []

/-- Forget the messages and the finished jobs. -/
def clearRecords (host : Host α) : Host α :=
  { host with
    finished := []
    backlog := { host.backlog with
      index? := host.backlog.index?.map fun t => { t with journal := [] } } }

end Host

end Vicinity.Tiered
