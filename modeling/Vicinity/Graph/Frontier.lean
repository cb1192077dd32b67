import Vicinity.Binary64
import Vicinity.Sorting

/-!
The bookkeeping of a walk over a graph: which nodes were seen and which of them wait to be expanded.

A node enters a frontier once at most. `pending` counts the nodes not yet seen and the candidates
not yet expanded; entering a node and queueing it leaves the count as it was, and taking a candidate
off the queue lowers it, so a walk that does nothing else comes to an end.
-/

namespace Vicinity.Graph

/-- A node with its distance to what is looked for. -/
structure Candidate where
  distance : Binary64
  id : Nat
deriving DecidableEq, Repr, Inhabited

namespace Candidate

/-- By distance in the total order and then by id. -/
def precedes (a b : Candidate) : Bool :=
  a.distance.totalLt b.distance || (a.distance == b.distance && a.id < b.id)

/-- Put a candidate at its place among sorted ones. -/
def insertSorted (c : Candidate) : List Candidate → List Candidate
  | [] => [c]
  | d :: ds => if c.precedes d then c :: d :: ds else d :: insertSorted c ds

@[simp] theorem length_insertSorted (c : Candidate) (ds : List Candidate) :
    (insertSorted c ds).length = ds.length + 1 := by
  induction ds with
  | nil => rfl
  | cons d ds ih => simp only [insertSorted]; split <;> simp [ih]

/-- The nearest first. -/
def sort (cs : List Candidate) : List Candidate := Sorting.sortBy precedes cs

end Candidate

/-- The nodes seen and the queue of those to expand, the nearest first. -/
structure Frontier where
  seen : Array Bool
  queue : List Candidate

namespace Frontier

/-- A walk over `count` nodes that starts at one of them. -/
def start (count : Nat) (c : Candidate) : Frontier :=
  { seen := (Array.replicate count false).setIfInBounds c.id true
    queue := [c] }

/-- Nodes not seen yet and candidates not expanded yet. -/
def pending (f : Frontier) : Nat := f.seen.count false + f.queue.length

/-- Note a node as seen, when there is one that was not. -/
def enter? (f : Frontier) (id : Nat) : Option Frontier :=
  if h : id < f.seen.size then
    if f.seen[id] then none else some { f with seen := f.seen.set id true h }
  else none

/-- Queue a candidate. -/
def push (f : Frontier) (c : Candidate) : Frontier :=
  { f with queue := Candidate.insertSorted c f.queue }

theorem pending_enter? {f f' : Frontier} {id : Nat} (h : f.enter? id = some f') :
    f'.pending + 1 = f.pending := by
  unfold enter? at h
  split at h
  case isFalse => contradiction
  case isTrue lt =>
    split at h
    · contradiction
    case isFalse unseen =>
      cases h
      have unseen : f.seen[id] = false := by simpa using unseen
      have positive : 0 < f.seen.count false :=
        Array.count_pos_iff.2 (unseen ▸ Array.getElem_mem lt)
      simp only [pending, Array.count_set, unseen]
      simp
      omega

@[simp] theorem pending_push (f : Frontier) (c : Candidate) :
    (f.push c).pending = f.pending + 1 := by
  simp [pending, push]
  omega

end Frontier

end Vicinity.Graph
