import Vicinity.Graph.Level
import Vicinity.Graph.Search

/-!
Inserting a vector.

A new node draws its top layer, descends to it from the entry point and is then linked, layer by
layer, with the nearest live nodes of each. A neighbour that gets more links than its layer allows
drops its farthest one.
-/

namespace Vicinity.Graph

variable {α : Type} [Element α]

/-- Choose a candidate too, while there is room and unless it is nearer to a chosen neighbour than
to the new node. -/
def choose (g : Graph α) (cap : Nat) (chosen : List Nat) (c : Candidate) : List Nat :=
  if chosen.length < cap && chosen.all fun s => c.distance.le (g.distanceBetween s c.id) then
    chosen ++ [c.id]
  else chosen

/-- Choose neighbours from candidates, the nearest first; all of them when there are no more than
`cap`. -/
def chooseNeighbors (g : Graph α) (cap : Nat) (candidates : List Candidate) : List Nat :=
  if candidates.length ≤ cap then candidates.map (·.id) else candidates.foldl (g.choose cap) []

/-- The farther of the worst neighbour of a node so far and another one. -/
def farther (g : Graph α) (id : Nat) (worst : Option Candidate) (n : Nat) : Option Candidate :=
  let c : Candidate := ⟨g.distanceBetween id n, n⟩
  match worst with
  | none => some c
  | some w => if c.precedes w then some w else some c

/-- The farthest out-neighbour of a node on a layer, the highest id of several. -/
def farthest? (g : Graph α) (id layer : Nat) : Option Candidate :=
  (g.links id layer).out.foldl (g.farther id) none

/-- Drop the link of a node to its farthest out-neighbour. -/
def evictFarthest (g : Graph α) (id layer : Nat) : Graph α :=
  match g.farthest? id layer with
  | some victim => g.removeEdge id victim.id layer
  | none => g

/-- Link a new node and a neighbour both ways. -/
def connect (g : Graph α) (id layer : Nat) (neighbor : Nat) : Graph α :=
  let linked := (g.addEdge id neighbor layer).addEdge neighbor id layer
  if g.config.maxDegree layer < (linked.links neighbor layer).out.length then
    linked.evictFarthest neighbor layer
  else linked

/-- Link a new node on one layer, with a search there from `place`; returns where the search on the
next layer down starts. -/
def connectLayer (id : Nat) (vector : List α) (state : Graph α × Candidate) (layer : Nat) :
    Graph α × Candidate :=
  let (g, place) := state
  let found := g.searchLayer vector place g.config.efConstruction.toNat layer
  let chosen := g.chooseNeighbors (g.config.maxDegree layer) found
  (chosen.foldl (fun g n => g.connect id layer n) g, found.head?.getD place)

/-- Put a node without edges into the next slot and under its label. -/
def append (g : Graph α) (label : Label) (vector : List α) (level : Nat) : Graph α :=
  let id := g.nodeCount
  { g with
    vectors := Arena.extend g.vectors vector
    nodes := g.nodes.push
      { label, generation := g.nextGeneration, layers := List.replicate (level + 1) {} }
    labels := g.labels.insert label (g.idsOf label ++ [id])
    drawCount := g.drawCount + 1
    nextGeneration := g.nextGeneration + 1 }

/-- Make a node the start of searches. -/
def setEntry (g : Graph α) (id level : Nat) : Graph α :=
  { g with entryPoint := some id, maxLevel := level }

/-- Link the node in the last slot, which stands on the layers up to `level`. -/
def wire (g : Graph α) (id : Nat) (vector : List α) (level : Nat) : Graph α :=
  match g.entryOn? vector level with
  | none => g.setEntry id level
  | some place =>
    let layers := (List.range (min level g.maxLevel + 1)).reverse
    let (linked, _) := layers.foldl (connectLayer id vector) (g, place)
    if g.maxLevel < level then linked.setEntry id level else linked

/-- Store a vector in a free slot and link it; returns its id. The owner of the graph decides when
capacity grows, so a full graph refuses. -/
def insert (g : Graph α) (label : Label) (vector : List α) : Except Failure (Graph α × Nat) :=
  match checkDimension g.config.dim.toNat vector.length with
  | .error fault => .error (.vector fault)
  | .ok () =>
    if g.isFull then .error (.full g.capacity.toNat)
    else
      let prepared := g.config.metric.prepare vector
      let level := Level.draw g.config g.drawCount
      let id := g.nodeCount
      .ok ((g.append label prepared level).wire id prepared level, id)

end Vicinity.Graph
