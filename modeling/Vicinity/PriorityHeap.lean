import Std.Data.TreeMap
import Vicinity.Binary64

/-!
A binary heap whose entries can be given a new priority in place.

Every payload occurs at most once. The entries form a max-heap in an array, ordered by priority and
then by payload, and a second map gives each payload's position in the array. Every change goes
through `swap`, which keeps the two in step.
-/

namespace Vicinity

/-- A payload with its priority. -/
structure PriorityHeap.Entry where
  priority : Binary64
  payload : Nat
deriving DecidableEq, Repr, Inhabited

/-- Entries in heap order, and where each payload stands. -/
structure PriorityHeap where
  entries : Array PriorityHeap.Entry
  positions : Std.TreeMap Nat Nat

namespace PriorityHeap

/-- By priority and then by payload. A NaN priority decides nothing. -/
def Entry.above (a b : Entry) : Bool :=
  match a.priority.partialCompare b.priority with
  | some .gt => true
  | some .lt => false
  | _ => b.payload < a.payload

def empty : PriorityHeap := ⟨#[], ∅⟩

instance : Inhabited PriorityHeap := ⟨empty⟩

def size (heap : PriorityHeap) : Nat := heap.entries.size

def isEmpty (heap : PriorityHeap) : Bool := heap.entries.isEmpty

def contains (heap : PriorityHeap) (payload : Nat) : Bool := heap.positions.contains payload

/-- The priority of a payload that is in the heap. -/
def priority? (heap : PriorityHeap) (payload : Nat) : Option Binary64 := do
  let position ← heap.positions[payload]?
  return (← heap.entries[position]?).priority

/-- The greatest entry. -/
def peek? (heap : PriorityHeap) : Option Entry := heap.entries[0]?

/-- Exchange two entries and note their new positions. -/
def swap (heap : PriorityHeap) (i j : Nat) : PriorityHeap :=
  if h : i ≠ j ∧ i < heap.entries.size ∧ j < heap.entries.size then
    { entries := heap.entries.swap i j h.2.1 h.2.2
      positions := (heap.positions.insert heap.entries[j].payload i).insert
        heap.entries[i].payload j }
  else heap

@[simp] theorem size_entries_swap (heap : PriorityHeap) (i j : Nat) :
    (heap.swap i j).entries.size = heap.entries.size := by
  unfold swap
  split <;> simp

/-- The entry at `i` belongs above the one at `j`. -/
def isAbove (heap : PriorityHeap) (i j : Nat) : Bool :=
  match heap.entries[i]?, heap.entries[j]? with
  | some a, some b => a.above b
  | _, _ => false

/-- Move an entry up while it belongs above its parent; returns where it stops. -/
def siftUp (heap : PriorityHeap) (position : Nat) : PriorityHeap × Nat :=
  if 0 < position ∧ heap.isAbove position ((position - 1) / 2) then
    siftUp (heap.swap position ((position - 1) / 2)) ((position - 1) / 2)
  else (heap, position)
termination_by position
decreasing_by omega

/-- The place of the greatest among an entry and its two children. -/
def greatestOfThree (heap : PriorityHeap) (position : Nat) : Nat :=
  let left := 2 * position + 1
  let right := left + 1
  let greatest := if heap.isAbove left position then left else position
  if heap.isAbove right greatest then right else greatest

/-- Move an entry down while one of its children belongs above it. -/
def siftDown (heap : PriorityHeap) (position : Nat) : PriorityHeap :=
  let child := heap.greatestOfThree position
  if position < child ∧ child < heap.entries.size then
    siftDown (heap.swap position child) child
  else heap
termination_by heap.entries.size - position
decreasing_by simp only [size_entries_swap]; omega

/-- Put a payload in, or give it a new priority. -/
def insert (heap : PriorityHeap) (priority : Binary64) (payload : Nat) : PriorityHeap :=
  match heap.positions[payload]? with
  | some position =>
    let updated := { heap with entries := heap.entries.modify position ({ · with priority }) }
    let (raised, position) := updated.siftUp position
    raised.siftDown position
  | none =>
    let position := heap.entries.size
    let extended : PriorityHeap :=
      { entries := heap.entries.push ⟨priority, payload⟩
        positions := heap.positions.insert payload position }
    (extended.siftUp position).1

/-- Take the greatest entry out. -/
def pop? (heap : PriorityHeap) : Option (Entry × PriorityHeap) :=
  let swapped := heap.swap 0 (heap.entries.size - 1)
  match swapped.entries.back? with
  | none => none
  | some top =>
    let rest : PriorityHeap :=
      { entries := swapped.entries.pop
        positions := swapped.positions.erase top.payload }
    some (top, rest.siftDown 0)

@[simp] theorem size_siftDown (heap : PriorityHeap) (position : Nat) :
    (heap.siftDown position).size = heap.size := by
  fun_induction siftDown heap position with
  | case1 heap position _ _ ih => simpa [size] using ih
  | case2 => rfl

/-- Each `pop?` shrinks the heap by one. -/
theorem size_of_pop? {heap rest : PriorityHeap} {top : Entry} (h : heap.pop? = some (top, rest)) :
    rest.size + 1 = heap.size := by
  simp only [pop?] at h
  split at h
  · contradiction
  case h_2 _ _ hback =>
    simp only [Option.some.injEq, Prod.mk.injEq] at h
    rw [← h.2, size_siftDown]
    have : 0 < (heap.swap 0 (heap.entries.size - 1)).entries.size := by
      rw [Array.back?_eq_getElem?] at hback
      have := (Array.getElem?_eq_some_iff.1 hback).1
      omega
    simp only [size, Array.size_pop, size_entries_swap] at this ⊢
    omega

/-- All entries, the greatest first. -/
def drain (heap : PriorityHeap) : List Entry :=
  match _h : heap.pop? with
  | none => []
  | some (top, rest) => top :: rest.drain
termination_by heap.size
decreasing_by have := size_of_pop? _h; omega

/-- All entries in the order of the array. -/
def toList (heap : PriorityHeap) : List Entry := heap.entries.toList

end PriorityHeap

end Vicinity
