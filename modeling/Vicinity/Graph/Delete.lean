import Vicinity.Graph.Insert

/-!
Deleting a vector, in three steps that can be put off one after the other.

* `markDeleted`: the node leaves replies and its label, and stays a way through.
* `repair`: the nodes that link to it are linked with its neighbours instead, and it is isolated.
* `swapRemove`: the node in the last slot moves into the slot of the isolated one.

`removeLabel` takes all three at once for each vector of a label.
-/

namespace Vicinity.Graph

variable {α : Type} [Element α]

/-! ### Marking -/

/-- Take an id out of the list of its label; a label without ids goes. -/
def dropId (g : Graph α) (label : Label) (id : Nat) : Graph α :=
  { g with labels := g.labels.unlist label id }

/-- The node with the higher top layer of the best one so far and another, which must be live. -/
def taller (g : Graph α) (best : Option (Nat × Nat)) (id : Nat) : Option (Nat × Nat) :=
  match g.nodes[id]? with
  | none => best
  | some node =>
    if node.deleted then best
    else
      match best with
      | none => some (id, node.topLevel)
      | some (other, level) =>
        if level < node.topLevel then some (id, node.topLevel) else some (other, level)

/-- The live node with the highest top layer, the lowest id of several. -/
def tallest? (g : Graph α) : Option (Nat × Nat) :=
  (List.range g.nodeCount).foldl g.taller none

/-- Choose an entry point instead of a deleted one: a live neighbour on its top layer, or else the
tallest live node, or none at all. -/
def replaceEntry (g : Graph α) (old : Nat) : Graph α :=
  match (g.links old g.maxLevel).out.find? g.isLive with
  | some id => { g with entryPoint := some id }
  | none =>
    match g.tallest? with
    | some (id, level) => g.setEntry id level
    | none => { g with entryPoint := none, maxLevel := 0 }

/-- Exclude a node from replies and from its label. Its edges stay. -/
def markDeleted (g : Graph α) (id : Nat) : Except Failure (Graph α) :=
  match g.nodes[id]? with
  | none => .error (.node id (.outOfRange g.nodeCount))
  | some node =>
    if node.deleted then .error (.node id .alreadyDeleted)
    else
      let marked := { g with
        nodes := g.nodes.modify id ({ · with deleted := true })
        markedCount := g.markedCount + 1 }
      let marked := marked.dropId node.label id
      .ok (if g.entryPoint = some id then marked.replaceEntry id else marked)

/-! ### Repair -/

/-- Link a node with a candidate, unless it has no room or one of its neighbours is nearer to the
candidate than the node is. -/
def accept (id layer cap : Nat) (state : Graph α × List Nat) (c : Candidate) : Graph α × List Nat :=
  let (g, chosen) := state
  if chosen.length < cap && chosen.all fun s => c.distance.le (g.distanceBetween s c.id) then
    (g.addEdge id c.id layer, chosen ++ [c.id])
  else (g, chosen)

/-- The live ones among some replacements that a node is not linked to yet, the nearest first. -/
def candidatesFor (g : Graph α) (id : Nat) (existing replacements : List Nat) : List Candidate :=
  let offered := replacements.filter fun c => c != id && g.isLive c && !existing.contains c
  Candidate.sort (offered.map fun c => ⟨g.distanceBetween id c, c⟩)

/-- Offer a node replacements for an edge it lost. It takes those that are no nearer to one of its
neighbours than to itself, as long as it has room, and the nearest in any case when it has no
neighbour left. -/
def reconnect (g : Graph α) (replacements : List Nat) (layer : Nat) (id : Nat) : Graph α :=
  let cap := g.config.maxDegree layer
  let existing := (g.links id layer).out
  if cap ≤ existing.length then g
  else
    let candidates := g.candidatesFor id existing replacements
    let (linked, chosen) := candidates.foldl (accept id layer cap) (g, existing)
    match chosen, candidates with
    | [], c :: _ => linked.addEdge id c.id layer
    | _, _ => linked

/-- Take the link from a node to another away, and offer the node replacements when it is live. -/
def unlink (id layer : Nat) (replacements : List Nat) (g : Graph α) (n : Nat) : Graph α :=
  let g := g.removeEdge n id layer
  if g.isDeleted n then g else g.reconnect replacements layer n

/-- Isolate a node on one layer and reconnect the live nodes that linked to it. -/
def repairLayer (g : Graph α) (id layer : Nat) : Graph α :=
  let old := g.links id layer
  let detached := old.incoming.foldl (unlink id layer old.out) g
  old.out.foldl (fun g c => g.removeEdge id c layer) detached

/-- Isolate a deleted node on all layers. -/
def repair (g : Graph α) (id : Nat) : Except Failure (Graph α) :=
  match g.nodes[id]? with
  | none => .error (.node id (.outOfRange g.nodeCount))
  | some node =>
    if !node.deleted then .error (.node id .notDeleted)
    else .ok ((List.range node.layers.length).foldl (fun g layer => g.repairLayer id layer) g)

/-! ### Removal -/

/-- One id for another. -/
def rename (old new id : Nat) : Nat := if id = old then new else id

/-- Write a new id for a node into the lists of its neighbours on one layer. -/
def renameLayer (old new : Nat) (g : Graph α) (layer : Nat) : Graph α :=
  let links := g.links old layer
  let g := links.out.foldl (fun g t =>
    g.modifyLinks t layer fun l => { l with incoming := l.incoming.map (rename old new) }) g
  links.incoming.foldl (fun g s =>
    g.modifyLinks s layer fun l => { l with out := l.out.map (rename old new) }) g

/-- Put the node of one slot into another and its vector with it, and its new id into the list of
its label and where searches start. -/
def moveNode (g : Graph α) (label : Label) (old new : Nat) : Graph α :=
  { g with
    vectors := Arena.copy g.config.dim.toNat old new g.vectors
    labels :=
      match g.labels.find? label with
      | some ids => g.labels.insert label (ids.map (rename old new))
      | none => g.labels
    entryPoint := g.entryPoint.map (rename old new)
    nodes := g.nodes.swapIfInBounds new old }

/-- Move a node into the slot of an isolated one, whose place it takes in every list. -/
def relocate (g : Graph α) (old new : Nat) : Graph α :=
  match g.nodes[old]? with
  | none => g
  | some node =>
    ((List.range node.layers.length).foldl (renameLayer old new) g).moveNode node.label old new

/-- Cut the last slot off, which holds a deleted node or one that was moved into such a node's slot.
-/
def dropLast (g : Graph α) : Graph α :=
  { g with
    nodes := g.nodes.pop
    vectors := Arena.truncate g.config.dim.toNat (g.nodeCount - 1) g.vectors
    markedCount := g.markedCount - 1 }

/-- Free the slot of a deleted, isolated node: the node in the last slot moves into it, and may not
itself be deleted. -/
def swapRemove (g : Graph α) (id : Nat) : Except Failure (Graph α) :=
  match g.nodes[id]? with
  | none => .error (.node id (.outOfRange g.nodeCount))
  | some node =>
    if !node.deleted || !node.isIsolated then .error (.node id .notRepaired)
    else
      let last := g.nodeCount - 1
      if id = last then .ok g.dropLast
      else if g.isDeleted last then .error (.node last .lastSlotPending)
      else .ok (g.relocate last id).dropLast

/-! ### Whole labels -/

/-- Run an operation on one id after the other. The first failure ends the run and keeps what was
done before it. -/
def forEachId (step : Graph α → Nat → Except Failure (Graph α)) (g : Graph α) :
    List Nat → Graph α × Except Failure Unit
  | [] => (g, .ok ())
  | id :: ids =>
    match step g id with
    | .error failure => (g, .error failure)
    | .ok g => forEachId step g ids

/-- Mark a node and, when that succeeded, repair it. -/
def detach (g : Graph α) (id : Nat) : Graph α × Except Failure Unit :=
  match g.markDeleted id with
  | .error failure => (g, .error failure)
  | .ok marked =>
    match marked.repair id with
    | .error failure => (marked, .error failure)
    | .ok repaired => (repaired, .ok ())

/-- Detach one node after the other, up to the first failure. -/
def detachAll (g : Graph α) : List Nat → Graph α × Except Failure Unit
  | [] => (g, .ok ())
  | id :: ids =>
    match g.detach id with
    | (g, .error failure) => (g, .error failure)
    | (g, .ok ()) => g.detachAll ids

/-- Delete every vector of a label and free their slots; returns their number. The slots are freed
from the highest down, so that none of them moves before its turn. -/
def removeLabel (g : Graph α) (label : Label) : Graph α × Except Failure Nat :=
  let ids := g.idsOf label
  if ids.isEmpty then (g, .ok 0)
  else
    match g.detachAll ids with
    | (g, .error failure) => (g, .error failure)
    | (g, .ok ()) =>
      match g.forEachId swapRemove (Sorting.sortBy (fun a b => b < a) ids) with
      | (g, .error failure) => (g, .error failure)
      | (g, .ok ()) => (g.shrinkToFit, .ok ids.length)

/-- Store a vector, growing when there is no free slot. With one vector a label it replaces the
label's old one. -/
def add (g : Graph α) (label : Label) (vector : List α) : Graph α × Except Failure Unit :=
  match checkDimension g.config.dim.toNat vector.length with
  | .error fault => (g, .error (.vector fault))
  | .ok () =>
    let (g, removed) := if g.config.multi then (g, .ok 0) else g.removeLabel label
    match removed with
    | .error failure => (g, .error failure)
    | .ok _ =>
      let g := g.ensureCapacity
      match g.insert label vector with
      | .error failure => (g, .error failure)
      | .ok (g, _) => (g, .ok ())

end Vicinity.Graph
