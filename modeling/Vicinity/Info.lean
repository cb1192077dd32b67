import Vicinity.Algorithm
import Vicinity.Fault
import Vicinity.Metric
import Vicinity.Reply

/-!
What the kinds of index have in common: the figures they report and the operations they offer.
-/

namespace Vicinity

/-- The figures of a graph. -/
structure GraphInfo where
  m : Nat
  efConstruction : Nat
  efRuntime : Nat
  epsilon : Binary64
  maxLevel : Nat
  entryPoint : Option Nat
  /-- Nodes marked deleted that still have a slot. -/
  markedDeleted : Nat
deriving DecidableEq, Repr, Inhabited

/-- The figures of an index. -/
structure IndexInfo where
  algorithm : Algorithm
  dataType : DataType
  metric : Metric
  dim : Nat
  multi : Bool
  blockSize : Nat
  /-- The number of live vectors. -/
  size : Nat
  /-- The number of labels with a live vector. -/
  labelCount : Nat
  /-- Slots set aside, in whole blocks. -/
  capacity : UInt64
  graph : Option GraphInfo := none
deriving DecidableEq, Repr, Inhabited

/-- An index over vectors with components in `α`. An operation that fails may have changed the index
before it did, so it hands the index back either way. -/
class VectorIndex (ι : Type) (α : outParam Type) where
  info : ι → IndexInfo
  contains : ι → Label → Bool
  /-- Store a vector; with one vector a label it replaces the old one. -/
  add : ι → Label → List α → ι × Except Failure Unit
  /-- Delete every vector of a label; returns their number. -/
  delete : ι → Label → ι × Except Failure Nat
  /-- The nearest labels, by score. -/
  topK : ι → List α → Nat → Query.Parameters → Except Failure Reply
  /-- The labels within a radius, by score. -/
  rangeQuery : ι → List α → Binary64 → Query.Parameters → Except Failure Reply

namespace VectorIndex

variable {ι α : Type} [VectorIndex ι α]

/-- Store vectors in order. The first failure ends the run and keeps what was stored before it. -/
def addBatch (index : ι) : List (Label × List α) → ι × Except Failure Unit
  | [] => (index, .ok ())
  | (label, vector) :: items =>
    match add index label vector with
    | (index, .error failure) => (index, .error failure)
    | (index, .ok ()) => addBatch index items

end VectorIndex

end Vicinity
