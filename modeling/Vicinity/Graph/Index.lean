import Vicinity.Graph.Delete
import Vicinity.Info

/-!
The graph as an index of its own. Queries that leave a parameter open use the configured one, and a
beam is never narrower than the number of results asked for.
-/

namespace Vicinity.Graph

variable {α : Type} [Element α]

def info (g : Graph α) : IndexInfo :=
  { algorithm := .hnsw
    dataType := Element.dataType α
    metric := g.config.metric
    dim := g.config.dim.toNat
    multi := g.config.multi
    blockSize := g.config.blockSize.toNat
    size := g.size
    labelCount := g.labelCount
    capacity := g.capacity
    graph := some
      { m := g.config.m.toNat
        efConstruction := g.config.efConstruction.toNat
        efRuntime := g.config.efRuntime.toNat
        epsilon := g.config.epsilon
        maxLevel := g.maxLevel
        entryPoint := g.entryPoint
        markedDeleted := g.markedCount } }

/-- The beam width of a query for `k` results. -/
def beamWidth (g : Graph α) (k : Nat) (parameters : Query.Parameters) : Nat :=
  max (parameters.efRuntime.getD g.config.efRuntime.toNat) k

/-- The `k` nearest labels. -/
def topK (g : Graph α) (query : List α) (k : Nat) (parameters : Query.Parameters) :
    Except Failure Reply :=
  g.search query k (g.beamWidth k parameters)

/-- The labels within a radius. -/
def rangeQuery (g : Graph α) (query : List α) (radius : Binary64) (parameters : Query.Parameters) :
    Except Failure Reply :=
  g.rangeSearch query radius (parameters.epsilon.getD g.config.epsilon)

instance : VectorIndex (Graph α) α where
  info := info
  contains := contains
  add := add
  delete := removeLabel
  topK := topK
  rangeQuery := rangeQuery

end Vicinity.Graph
