import Std.Data.TreeMap
import Vicinity.Arena
import Vicinity.Info

/-!
The exhaustive index, which compares a query with every stored vector.

Vectors stand in slots without gaps: the last one moves into a slot that falls free. Each has an
entry number that stays with it wherever it stands and is never given out again, so a vector can be
referred to while others come and go.

Four structures are kept in step: an arena of the vectors, the label and the entry number in each
slot, the slot of each entry, and the entries of each label. Every one of them is read on its own,
and every change writes to all four.
-/

namespace Vicinity

/-- Who stands in a slot. -/
structure Flat.Slot where
  label : Label
  entry : Nat
deriving DecidableEq, Repr

/-- A stored vector with its entry number. -/
structure Flat.Row (α : Type) where
  entry : Nat
  label : Label
  vector : List α
deriving DecidableEq, Repr

/-- An exhaustive index over vectors with components in `α`. -/
structure Flat (α : Type) where
  dim : Nat
  metric : Metric
  multi : Bool := false
  /-- At least one. -/
  blockSize : Nat := 1024
  /-- The components of all vectors, slot after slot. -/
  vectors : Array α := #[]
  slots : Array Flat.Slot := #[]
  /-- The slot of each entry. -/
  positions : Std.TreeMap Nat Nat := ∅
  /-- The entries of each label, the oldest first. -/
  entries : LabelMap (List Nat) := .empty
  /-- The entry number of the next vector. -/
  nextEntry : Nat := 0

namespace Flat

variable {α : Type} [Element α]

/-- An empty index; blocks hold one vector at least. -/
def new (dim : Nat) (metric : Metric) (multi : Bool) (blockSize : Nat) : Flat α :=
  { dim, metric, multi, blockSize := max blockSize 1 }

/-! ### What the index holds -/

/-- The number of stored vectors. -/
def size (f : Flat α) : Nat := f.slots.size

/-- What stands in a slot: the vector from the arena, with its label and its entry number. -/
def row (f : Flat α) (place : Nat) (slot : Slot) : Row α :=
  ⟨slot.entry, slot.label, Arena.read f.dim f.vectors place⟩

/-- All that is stored, in the order of the slots. -/
def rows (f : Flat α) : List (Row α) := f.slots.toList.mapIdx f.row

/-- The stored vector of an entry, with its label. -/
def entry? (f : Flat α) (entry : Nat) : Option (Row α) :=
  f.positions[entry]?.bind fun place => f.slots[place]?.map (f.row place)

def containsEntry (f : Flat α) (entry : Nat) : Bool := f.positions.contains entry

/-- The entries of a label, the oldest first. -/
def entriesOf (f : Flat α) (label : Label) : List Nat := (f.entries.find? label).getD []

def contains (f : Flat α) (label : Label) : Bool := f.entries.contains label

/-- The labels in ascending order. -/
def labels (f : Flat α) : List Label := f.entries.labels

def labelCount (f : Flat α) : Nat := f.entries.size

/-- Slots in use, rounded up to whole blocks. -/
def capacity (f : Flat α) : Nat := (f.size + (f.blockSize - 1)) / f.blockSize * f.blockSize

/-! ### Changes -/

/-- Move what stands in the last slot into another one, and note where it stands now. -/
def moveLast (f : Flat α) (place : Nat) : Flat α :=
  match f.slots.back? with
  | none => f
  | some moved =>
    let last := f.size - 1
    if place = last then f
    else
      { f with
        vectors := Arena.copy f.dim last place f.vectors
        slots := f.slots.swapIfInBounds place last
        positions := f.positions.insert moved.entry place }

/-- Cut the last slot off. -/
def dropLast (f : Flat α) : Flat α :=
  { f with
    slots := f.slots.pop
    vectors := Arena.truncate f.dim (f.size - 1) f.vectors }

/-- Take an entry out and move the last slot into its place; returns its label. A position is always
that of a slot. -/
def removeEntry (f : Flat α) (entry : Nat) : Flat α × Option Label :=
  match f.positions[entry]? with
  | none => (f, none)
  | some place =>
    match f.slots[place]? with
    | none => (f, none)
    | some slot =>
      let forgotten :=
        { f with
          positions := f.positions.erase entry
          entries := f.entries.unlist slot.label entry }
      ((forgotten.moveLast place).dropLast, some slot.label)

/-- Take every vector of a label out; returns their number. -/
def deleteLabel (f : Flat α) (label : Label) : Flat α × Nat :=
  let entries := f.entriesOf label
  (entries.foldl (fun f entry => (f.removeEntry entry).1) f, entries.length)

/-- Put a vector into the next slot, under a new entry number. -/
def push (f : Flat α) (label : Label) (vector : List α) : Flat α :=
  { f with
    vectors := Arena.extend f.vectors (f.metric.prepare vector)
    slots := f.slots.push ⟨label, f.nextEntry⟩
    positions := f.positions.insert f.nextEntry f.size
    entries := f.entries.insert label (f.entriesOf label ++ [f.nextEntry])
    nextEntry := f.nextEntry + 1 }

/-- Store a vector under a new entry number. With one vector a label it replaces the old one. -/
def addEntry (f : Flat α) (label : Label) (vector : List α) : Except Failure (Flat α × Nat) :=
  match checkDimension f.dim vector.length with
  | .error fault => .error (.vector fault)
  | .ok () =>
    let f := if f.multi then f else (f.deleteLabel label).1
    .ok (f.push label vector, f.nextEntry)

/-! ### Queries -/

/-- The hits whose score passes a test, as they count for this index. -/
def gather (f : Flat α) (query : List α) (keep : Binary64 → Bool) : Reply :=
  Reply.gather f.multi
    ((f.rows.map fun row => ⟨row.label, f.metric.distance query row.vector⟩).filter
      fun hit => keep hit.score)

/-- The `k` nearest labels. -/
def search (f : Flat α) (query : List α) (k : Nat) : Except Failure Reply :=
  match checkDimension f.dim query.length with
  | .error fault => .error (.vector fault)
  | .ok () =>
    if k = 0 then .ok []
    else .ok ((f.gather (f.metric.prepare query) fun _ => true).sortByScore.take k)

/-- The labels whose best score is within a radius. -/
def range (f : Flat α) (query : List α) (radius : Binary64) : Except Failure Reply :=
  match checkDimension f.dim query.length with
  | .error fault => .error (.vector fault)
  | .ok () => .ok (f.gather (f.metric.prepare query) (·.le radius)).sortByScore

/-! ### As an index -/

def info (f : Flat α) : IndexInfo :=
  { algorithm := .bruteForce
    dataType := Element.dataType α
    metric := f.metric
    dim := f.dim
    multi := f.multi
    blockSize := f.blockSize
    size := f.size
    labelCount := f.labelCount
    capacity := .ofNat f.capacity }

def add (f : Flat α) (label : Label) (vector : List α) : Flat α × Except Failure Unit :=
  match f.addEntry label vector with
  | .error failure => (f, .error failure)
  | .ok (f, _) => (f, .ok ())

instance : VectorIndex (Flat α) α where
  info := info
  contains := contains
  add := add
  delete f label :=
    let (f, count) := f.deleteLabel label
    (f, .ok count)
  topK f query k _ := f.search query k
  rangeQuery f query radius _ := f.range query radius

end Flat

end Vicinity
