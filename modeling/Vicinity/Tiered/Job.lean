import Vicinity.Reply

/-!
Jobs of background work and the counts that are kept of them.

A `Task` is what a job does. A `Registry` counts, for each kind of task, the jobs handed out,
running and finished. A job that finds its index gone is cancelled and counts nowhere.
-/

namespace Vicinity.Tiered

/-- The kinds of background work. -/
inductive Kind where
  /-- Move a buffered vector into the graph. -/
  | insert
  /-- Reconnect the nodes around a deleted one. -/
  | repair
  /-- Free the slots of all repaired nodes. -/
  | swap
deriving DecidableEq, Repr, Inhabited

namespace Kind

def all : List Kind := [.insert, .repair, .swap]

def name : Kind → String
  | .insert => "insert"
  | .repair => "repair"
  | .swap => "swap"

end Kind

/-- What a job does when it runs. -/
inductive Task where
  | insert (entry : Nat) (label : Label)
  /-- The generation tells the node from later ones in its slot. -/
  | repair (id generation : Nat)
  | swap
deriving DecidableEq, Repr, Inhabited

namespace Task

def kind : Task → Kind
  | .insert _ _ => .insert
  | .repair _ _ => .repair
  | .swap => .swap

/-- The jobs that a task can lead to, itself included: a repair can call for a swap. -/
def weight : Task → Nat
  | .repair _ _ => 2
  | _ => 1

theorem weight_pos (task : Task) : 0 < task.weight := by
  cases task <;> simp [weight]

/-- The jobs that several tasks can lead to, themselves included. -/
def totalWeight : List Task → Nat
  | [] => 0
  | task :: tasks => task.weight + totalWeight tasks

@[simp] theorem totalWeight_append (a b : List Task) :
    totalWeight (a ++ b) = totalWeight a + totalWeight b := by
  induction a with
  | nil => simp [totalWeight]
  | cons task tasks ih =>
    simp only [List.cons_append, totalWeight, ih]
    omega

end Task

/-- How a job ended. -/
inductive Outcome where
  | completed
  /-- There was nothing left to do. -/
  | skipped (reason : String)
  /-- The job ran and changed nothing. -/
  | failed (reason : String)
  /-- The index was gone. -/
  | cancelled
deriving DecidableEq, Repr, Inhabited

/-- The counts of one kind of job. -/
structure Status where
  submitted : Nat := 0
  completed : Nat := 0
  skipped : Nat := 0
  failed : Nat := 0
  running : Nat := 0
  lastOutcome : Option Outcome := none
  /-- How long the last job took, in microseconds. -/
  lastDuration : Option Nat := none
deriving DecidableEq, Repr, Inhabited

namespace Status

/-- Jobs handed out that have not finished. -/
def pending (s : Status) : Nat := s.submitted - (s.completed + s.skipped + s.failed)

/-- Some job has finished. -/
def finishedOnce (s : Status) : Bool := s.lastOutcome.isSome

def submit (s : Status) : Status := { s with submitted := s.submitted + 1 }

def start (s : Status) : Status := { s with running := s.running + 1 }

/-- Count a job as finished. -/
def complete (s : Status) (outcome : Outcome) (duration : Nat) : Status :=
  { s with
    running := s.running - 1
    completed := s.completed + (if outcome = .completed then 1 else 0)
    skipped := s.skipped + (if let .skipped _ := outcome then 1 else 0)
    failed := s.failed + (if let .failed _ := outcome then 1 else 0)
    lastOutcome := some outcome
    lastDuration := some duration }

end Status

/-- The counts of every kind of job. -/
structure Registry where
  insert : Status := {}
  repair : Status := {}
  swap : Status := {}
deriving DecidableEq, Repr, Inhabited

namespace Registry

def get (r : Registry) : Kind → Status
  | .insert => r.insert
  | .repair => r.repair
  | .swap => r.swap

/-- Change the counts of one kind. -/
def update (r : Registry) (kind : Kind) (f : Status → Status) : Registry :=
  match kind with
  | .insert => { r with insert := f r.insert }
  | .repair => { r with repair := f r.repair }
  | .swap => { r with swap := f r.swap }

def submit (r : Registry) (kind : Kind) : Registry := r.update kind .submit

def start (r : Registry) (kind : Kind) : Registry := r.update kind .start

def complete (r : Registry) (kind : Kind) (outcome : Outcome) (duration : Nat) : Registry :=
  r.update kind (·.complete outcome duration)

def pending (r : Registry) (kind : Kind) : Nat := (r.get kind).pending

def isRunning (r : Registry) (kind : Kind) : Bool := 0 < (r.get kind).running

/-- The counts of every kind, in the order of the kinds. -/
def all (r : Registry) : List (Kind × Status) := Kind.all.map fun kind => (kind, r.get kind)

@[simp] theorem get_update_self (r : Registry) (kind : Kind) (f : Status → Status) :
    (r.update kind f).get kind = f (r.get kind) := by cases kind <;> rfl

theorem get_update_of_ne {r : Registry} {kind other : Kind} {f : Status → Status}
    (h : kind ≠ other) : (r.update kind f).get other = r.get other := by
  cases kind <;> cases other <;> first | rfl | exact absurd rfl h

end Registry

end Vicinity.Tiered
