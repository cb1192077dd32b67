import Vicinity.Graph.Basic

/-!
Checking the structure of a graph.

A check goes through the slots in order, compares the deleted nodes that it counted with the
counter, then looks at the entry point and then at the labels, and reports the first violation. A
graph that comes from an image must pass before it is used.

A map of labels has no order of its own in which they are visited, and when several of them break a
rule it depends on the order which one is reported: `integrityVia` is given the order. `integrity`
is the check that visits them in ascending order.
-/

namespace Vicinity.Graph

/-- Refuse with a violation when a condition fails. -/
def demand (condition : Bool) (violation : Violation) : Except Violation Unit :=
  if condition then .ok () else .error violation

/-- Check the members of a list in order. -/
def checkEach {β : Type} (check : β → Except Violation Unit) : List β → Except Violation Unit
  | [] => .ok ()
  | b :: bs =>
    match check b with
    | .error violation => .error violation
    | .ok () => checkEach check bs

variable {α : Type} [Element α]

/-- The target of a link exists, stands on the layer and has the link recorded. -/
def checkTarget (g : Graph α) (id layer target : Nat) : Except Violation Unit :=
  match g.nodes[target]? with
  | none => .error (.missingTarget id target)
  | some node =>
    match node.layers[layer]? with
    | none => .error (.targetTooLow id target layer)
    | some links => demand (links.incoming.contains id) (.unrecordedLink id target layer)

/-- Check out-neighbours in order; `seen` holds those before. -/
def checkOut (g : Graph α) (id layer : Nat) (seen : List Nat) : List Nat → Except Violation Unit
  | [] => .ok ()
  | target :: targets => do
    demand (target != id) (.selfLink id layer)
    demand (!seen.contains target) (.repeatedLink id target layer)
    checkTarget g id layer target
    checkOut g id layer (target :: seen) targets

/-- The source of a recorded link has that link. -/
def checkIncoming (g : Graph α) (id layer source : Nat) : Except Violation Unit :=
  demand ((g.links source layer).out.contains id) (.strayIncoming source id layer)

/-- The links of a node on a layer. -/
def checkLinks (g : Graph α) (id layer : Nat) (links : Links) : Except Violation Unit := do
  let cap := g.config.maxDegree layer
  demand (links.out.length ≤ cap) (.tooManyNeighbors id links.out.length layer cap)
  checkOut g id layer [] links.out
  checkEach (checkIncoming g id layer) links.incoming

/-- A node with all its layers. -/
def checkNode (g : Graph α) (id : Nat) (node : Node) : Except Violation Unit := do
  demand (!node.layers.isEmpty) (.noLayers id)
  demand (node.deleted || node.topLevel ≤ g.maxLevel) (.aboveMaxLevel id g.maxLevel)
  checkEach (fun (links, layer) => checkLinks g id layer links) node.layers.zipIdx

/-- The entry point is a live node on the top layer, and there is one when there is a live node. -/
def checkEntry (g : Graph α) (live : Nat) : Except Violation Unit :=
  match g.entryPoint with
  | none => demand (live == 0) .entryAbsent
  | some entry =>
    match g.nodes[entry]? with
    | none => .error (.entryOutOfRange entry)
    | some node => do
      demand (!node.deleted) (.entryDeleted entry)
      demand (node.topLevel == g.maxLevel) (.entryLevel entry node.topLevel g.maxLevel)

/-- An id listed under a label is a live node of that label. -/
def checkLabelledId (g : Graph α) (label : Label) (id : Nat) : Except Violation Unit :=
  match g.nodes[id]? with
  | none => .error (.labelOfMissing label id)
  | some node => do
    demand (!node.deleted) (.labelOfDeleted label id)
    demand (node.label == label) (.labelOfOther label id node.label)

/-- The ids of a label. -/
def checkLabel (g : Graph α) (entry : Label × List Nat) : Except Violation Unit := do
  demand (!entry.2.isEmpty) (.labelWithoutIds entry.1)
  demand (g.config.multi || entry.2.length ≤ 1) (.labelWithManyIds entry.1 entry.2.length)
  checkEach (checkLabelledId g entry.1) entry.2

/-- The ids of all labels, label after label. -/
def mappedIds (g : Graph α) : List Nat := g.labels.entries.flatMap (·.2)

/-- The labels, visited in an order, list as many ids as there are live nodes. -/
def checkLabels (g : Graph α) (order : List (Label × List Nat)) (live : Nat) :
    Except Violation Unit := do
  checkEach (checkLabel g) order
  let mapped := (order.flatMap (·.2)).length
  demand (mapped == live) (.unmappedNodes live mapped)

/-- The first violation of the structure, the labels visited in an order. -/
def integrityVia (g : Graph α) (order : List (Label × List Nat)) : Except Violation Unit := do
  let dim := g.config.dim.toNat
  demand (g.nodeCount * dim == g.vectors.size) (.vectorElements g.vectors.size g.nodeCount dim)
  demand (g.nodeCount ≤ g.capacity.toNat) (.overCapacity g.nodeCount g.capacity.toNat)
  checkEach (fun (node, id) => checkNode g id node) g.nodes.toList.zipIdx
  let deleted := g.nodes.countP (·.deleted)
  demand (deleted == g.markedCount) (.deletedCount deleted g.markedCount)
  checkEntry g (g.nodeCount - deleted)
  checkLabels g order (g.nodeCount - deleted)

/-- The first violation of the structure, the labels taken in ascending order. -/
def integrity (g : Graph α) : Except Violation Unit := g.integrityVia g.labels.entries

end Vicinity.Graph
