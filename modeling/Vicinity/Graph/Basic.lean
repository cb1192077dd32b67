import Vicinity.Arena
import Vicinity.Graph.Config
import Vicinity.LabelMap
import Vicinity.Log

/-!
Layered neighbour graphs.

A graph keeps its nodes in slots numbered from zero; a slot number is the node's id. A node stands
on layer 0 and on every layer up to its top one, and on each it has a list of out-neighbours and a
list of the nodes that link to it. Both lists of an edge are changed together (`addEdge`,
`removeEdge`). The vectors stand apart from the nodes, in the slots of an arena, and the deleted
nodes are counted as they come and go. Capacity grows and shrinks by whole blocks, and only on
request.
-/

namespace Vicinity

namespace Graph

/-- The neighbours of a node on one layer. -/
structure Links where
  out : List Nat := []
  /-- The nodes that have this one among their out-neighbours. -/
  incoming : List Nat := []
deriving DecidableEq, Repr, Inhabited

def Links.isEmpty (links : Links) : Bool := links.out.isEmpty && links.incoming.isEmpty

/-- What a slot holds beside the vector. -/
structure Node where
  label : Label
  deleted : Bool := false
  /-- Serial number of the node, whatever slot it stands in. -/
  generation : Nat
  /-- One entry a layer, from layer 0 up. -/
  layers : List Links
deriving DecidableEq, Repr

namespace Node

/-- The highest layer that the node stands on. -/
def topLevel (node : Node) : Nat := node.layers.length - 1

/-- No edge leads to or from the node. -/
def isIsolated (node : Node) : Bool := node.layers.all Links.isEmpty

/-- Change the links of one layer. -/
def modifyLayer (layer : Nat) (f : Links → Links) (node : Node) : Node :=
  { node with layers := node.layers.modify layer f }

end Node

end Graph

/-- A graph over vectors with components in `α`. -/
structure Graph (α : Type) where
  config : Graph.Config
  nodes : Array Graph.Node := #[]
  /-- The components of all vectors, slot after slot. -/
  vectors : Array α := #[]
  /-- The ids of the live nodes of each label. -/
  labels : LabelMap (List Nat) := .empty
  /-- Where searches start. -/
  entryPoint : Option Nat := none
  /-- The layer on which searches start. -/
  maxLevel : Nat := 0
  /-- Slots set aside, the occupied ones included. -/
  capacity : UInt64 := 0
  /-- Level draws made so far. -/
  drawCount : UInt64 := 0
  /-- The generation of the next node. -/
  nextGeneration : Nat := 0
  /-- Nodes marked deleted that still have a slot. -/
  markedCount : Nat := 0
  /-- Messages logged so far. -/
  journal : Log.Journal := []
deriving DecidableEq

namespace Graph

variable {α : Type} [Element α]

/-- An empty graph, when its parameters have usable values. -/
def new (config : Config) : Except Failure (Graph α) :=
  match config.fault? with
  | some fault => .error (.parameters fault)
  | none => .ok { config }

/-! ### What a graph holds -/

/-- Occupied slots, those of deleted nodes included. -/
def nodeCount (g : Graph α) : Nat := g.nodes.size

/-- The number of live vectors. -/
def size (g : Graph α) : Nat := g.nodeCount - g.markedCount

/-- The number of labels with a live vector. -/
def labelCount (g : Graph α) : Nat := g.labels.size

/-- The live nodes of a label. -/
def idsOf (g : Graph α) (label : Label) : List Nat := (g.labels.find? label).getD []

def contains (g : Graph α) (label : Label) : Bool := g.labels.contains label

def label? (g : Graph α) (id : Nat) : Option Label := g.nodes[id]?.map (·.label)

/-- The vector in a slot. -/
def vector? (g : Graph α) (id : Nat) : Option (List α) :=
  Arena.read? g.config.dim.toNat g.vectors id

/-- Tells the node in a slot from those that stood there before. -/
def generation? (g : Graph α) (id : Nat) : Option Nat := g.nodes[id]?.map (·.generation)

/-- There is a node in the slot and it is marked deleted. -/
def isDeleted (g : Graph α) (id : Nat) : Bool := g.nodes[id]?.any (·.deleted)

/-- There is a node in the slot and it is not marked deleted. -/
def isLive (g : Graph α) (id : Nat) : Bool := g.nodes[id]?.any (!·.deleted)

/-- There is a node in the slot and no edge leads to or from it. -/
def isIsolated (g : Graph α) (id : Nat) : Bool := g.nodes[id]?.any Node.isIsolated

/-- The links of a node on a layer; none where it does not stand. -/
def links (g : Graph α) (id layer : Nat) : Links :=
  (g.nodes[id]?.bind (·.layers[layer]?)).getD {}

/-- The number of layers that a node stands on. -/
def layerCount (g : Graph α) (id : Nat) : Nat := (g.nodes[id]?.map (·.layers.length)).getD 0

/-! ### Distances -/

/-- The distance from a query to a node, beyond every number where there is no vector. -/
def distanceTo (g : Graph α) (query : List α) (id : Nat) : Binary64 :=
  match g.vector? id with
  | some vector => g.config.metric.distance query vector
  | none => .infinity

/-- The distance from one node to another. -/
def distanceBetween (g : Graph α) (a b : Nat) : Binary64 :=
  match g.vector? a with
  | some vector => g.distanceTo vector b
  | none => .infinity

/-! ### Edges -/

/-- Change the links of a node on a layer. -/
def modifyLinks (g : Graph α) (id layer : Nat) (f : Links → Links) : Graph α :=
  { g with nodes := g.nodes.modify id (·.modifyLayer layer f) }

/-- Link two nodes, unless they are linked or the same. -/
def addEdge (g : Graph α) (source target layer : Nat) : Graph α :=
  if source = target ∨ target ∈ (g.links source layer).out then g
  else
    (g.modifyLinks source layer fun l => { l with out := l.out ++ [target] }).modifyLinks
      target layer fun l => { l with incoming := l.incoming ++ [source] }

/-- Take the link from one node to another away. -/
def removeEdge (g : Graph α) (source target layer : Nat) : Graph α :=
  (g.modifyLinks source layer fun l => { l with out := l.out.filter (· != target) }).modifyLinks
    target layer fun l => { l with incoming := l.incoming.filter (· != source) }

/-! ### Capacity -/

/-- Set the capacity and log the change. A capacity is a number: that memory for so many slots can
be had is taken for granted, and asking for too much is not modelled. -/
def resize (g : Graph α) (capacity : UInt64) : Graph α :=
  { g with
    capacity
    journal := g.journal ++
      [⟨.verbose, s!"Updating HNSW index capacity from {g.capacity} to {capacity}"⟩] }

/-- Every slot is taken. -/
def isFull (g : Graph α) : Bool := g.capacity.toNat ≤ g.nodeCount

/-- Grow by a block when every slot is taken. Capacities are machine words, so a block that does not
fit one wraps around. -/
def ensureCapacity (g : Graph α) : Graph α :=
  if g.isFull then g.resize (g.capacity + g.config.blockSize) else g

/-- A number of slots rounded up to whole blocks. -/
def wholeBlocks (count block : Nat) : Nat := (count + (block - 1)) / block * block

/-- Release the blocks that no node needs. -/
def shrinkToFit (g : Graph α) : Graph α :=
  let needed := wholeBlocks g.nodeCount g.config.blockSize.toNat
  if needed < g.capacity.toNat then g.resize (.ofNat needed) else g

end Graph

end Vicinity
