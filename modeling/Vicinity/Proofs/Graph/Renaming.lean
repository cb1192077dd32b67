import Vicinity.Proofs.Graph.Calls

/-!
Freeing a slot is a renaming.

`Frees` describes the graph after a removal slot by slot, as far as the other operations need it.
Here the whole of it is stated: the graph is the old one without the node, with the id of the last
slot written as the free one wherever it stands (`Renames`). Out-neighbours, recorded edges and ids
of labels keep their places in their lists, so a list is renamed member by member. The arena loses a
slot, and the vector of every other node is read where its id leads now. Nothing else changes, and a
removal that is refused changes nothing at all (`renames_swapRemove`).
-/

namespace Vicinity

/-- A value is found where the one it was made of was found. -/
theorem LabelMap.find?_map {β γ : Type} (f : β → γ) (m : LabelMap β) (label : Label) :
    (m.map f).find? label = (m.find? label).map f := by
  show lookup label (m.entries.map fun e => (e.1, f e.2)) = (lookup label m.entries).map f
  induction m.entries with
  | nil => rfl
  | cons e es ih =>
      rw [List.map_cons, lookup, lookup]
      split
      · rfl
      · exact ih

namespace Graph

variable {α : Type}

/-! ### Nodes -/

/-- A node with an id written for another in the lists of all its layers. -/
def Node.rename (old new : Nat) (node : Node) : Node :=
  { node with layers := node.layers.map (Links.rename old new) }

@[simp] theorem Node.bare_rename (old new : Nat) (node : Node) :
    (node.rename old new).bare = node.bare := by
  simp [Node.bare, Node.rename]

/-- A node consists of its links and of what is left without them. -/
theorem Node.ext_links {a b : Node} (bare : a.bare = b.bare)
    (links : ∀ layer : Nat, a.layers[layer]?.getD {} = b.layers[layer]?.getD {}) : a = b := by
  simp only [Node.bare, Node.mk.injEq] at bare
  obtain ⟨label, deleted, generation, replicate⟩ := bare
  have count : a.layers.length = b.layers.length := by
    simpa using congrArg List.length replicate
  have layers : a.layers = b.layers := by
    refine List.ext_getElem count fun layer in_a in_b => ?_
    have same := links layer
    rwa [List.getElem?_eq_getElem in_a, List.getElem?_eq_getElem in_b] at same
  cases a
  cases b
  simp_all

/-- The links of a renamed node are renamed, those of layers above it too. -/
theorem Node.links_rename (old new : Nat) (node : Node) (layer : Nat) :
    (node.rename old new).layers[layer]?.getD {} =
      (node.layers[layer]?.getD {}).rename old new := by
  rw [Node.rename, List.getElem?_map]
  cases node.layers[layer]? <;> rfl

/-! ### The graph after a removal -/

/-- The second graph is the first without a node, with the id of that node for the one of the last
slot. -/
structure Renames (g : Graph α) (id : Nat) (h : Graph α) : Prop where
  /-- The parameters, the top layer, the capacity, the numbers of draws and of nodes made so far and
  the log are as before. -/
  frame : h = { g with
    nodes := h.nodes, vectors := h.vectors, labels := h.labels, entryPoint := h.entryPoint,
    markedCount := h.markedCount }
  nodeCount_eq : h.nodeCount + 1 = g.nodeCount
  /-- The counter goes down by one, and it was and is the number of deleted nodes. -/
  markedCount_eq : h.markedCount + 1 = g.markedCount
  tallied_before : g.markedCount = g.nodes.countP (·.deleted)
  tallied : h.markedCount = h.nodes.countP (·.deleted)
  node_eq (x : Nat) : x ≠ id → x < g.nodeCount →
    h.nodes[rename (g.nodeCount - 1) id x]? =
      g.nodes[x]?.map (Node.rename (g.nodeCount - 1) id)
  /-- The arena ends with the slots that are left. -/
  size_vectors : h.vectors.size = h.nodeCount * g.config.dim.toNat
  vector?_eq (x : Nat) : x ≠ id → x < g.nodeCount →
    h.vector? (rename (g.nodeCount - 1) id x) = g.vector? x
  labels_eq : h.labels = g.labels.map (·.map (rename (g.nodeCount - 1) id))
  entryPoint_eq : h.entryPoint = g.entryPoint.map (rename (g.nodeCount - 1) id)

namespace Frees

variable {g h : Graph α} {id : Nat} (frees : g.Frees id h)

include frees

theorem labels_eq : h.labels = g.labels.map (·.map (rename h.nodeCount id)) :=
  LabelMap.ext_find? fun l => by rw [frees.find?_eq, LabelMap.find?_map]

/-- Every other node is found where its id leads now, with the new ids in its lists. -/
theorem node_eq {x : Nat} (other : x ≠ id) (lt : x < g.nodeCount) :
    h.nodes[rename h.nodeCount id x]? =
      g.nodes[x]?.map (Node.rename h.nodeCount id) := by
  have moved_lt := frees.rename_lt other lt
  have back : rename id h.nodeCount (rename h.nodeCount id x) = x := rename_rename other
  have at_x : g.nodes[x]? = some g.nodes[x] := Array.getElem?_eq_getElem lt
  obtain ⟨moved, at_moved⟩ : ∃ moved, h.nodes[rename h.nodeCount id x]? = some moved :=
    ⟨_, Array.getElem?_eq_getElem moved_lt⟩
  have bare := frees.bare_eq _ moved_lt
  rw [back, at_moved, at_x, Option.map_some, Option.map_some, Option.some.injEq] at bare
  rw [at_moved, at_x, Option.map_some, Option.some.injEq]
  apply Node.ext_links
  · rw [Node.bare_rename]
    exact bare
  · intro layer
    have links := frees.links_eq _ layer moved_lt
    rwa [back, links_of_getElem? at_moved, links_of_getElem? at_x, ← Node.links_rename] at links

/-- So is its vector. -/
theorem vector?_rename {x : Nat} (other : x ≠ id) (lt : x < g.nodeCount) :
    h.vector? (rename h.nodeCount id x) = g.vector? x := by
  rw [frees.vector?_eq (frees.rename_lt other lt), rename_rename other]

end Frees

/-- A node that moves takes its vector, its links, its label and the start of searches along, and no
more. -/
theorem frame_relocate (g : Graph α) (old new : Nat) :
    g.relocate old new =
      { g with
        nodes := (g.relocate old new).nodes
        vectors := (g.relocate old new).vectors
        labels := (g.relocate old new).labels
        entryPoint := (g.relocate old new).entryPoint } := by
  unfold relocate
  cases g.nodes[old]? with
  | none => rfl
  | some node =>
      have rewired := Rewired.foldl (fun g layer => rewired_renameLayer old new g layer) g
        (List.range node.layers.length)
      dsimp only
      generalize (List.range node.layers.length).foldl (renameLayer old new) g = renamed
        at rewired ⊢
      rw [rewired.frame]
      rfl

theorem frame_swapRemove {g h : Graph α} {id : Nat} (removed : g.swapRemove id = .ok h) :
    h = { g with
      nodes := h.nodes, vectors := h.vectors, labels := h.labels, entryPoint := h.entryPoint,
      markedCount := h.markedCount } := by
  obtain ⟨_, _, ⟨_, rfl⟩ | ⟨_, _, rfl⟩⟩ := swapRemove_eq_ok_iff.1 removed
  · rfl
  · rw [frame_relocate]
    rfl

/-- A removal that succeeds is a renaming, and one that is refused changes nothing. -/
theorem renames_swapRemove [Element α] {g : Graph α} (passed : g.integrity = .ok ()) (id : Nat) :
    (∀ h, g.swapRemove id = .ok h → g.Renames id h) ∧
      ∀ failure, g.swapRemove id = .error failure → (Call.swapRemove id).run g = g := by
  have sturdy := (integrity_eq_ok_iff.1 passed).sturdy
  constructor
  · intro h removed
    obtain ⟨sturdy_h, frees⟩ := sturdy.swapRemove removed
    have last : g.nodeCount - 1 = h.nodeCount := by
      rw [frees.nodeCount_eq, Nat.add_sub_cancel]
    constructor
    case frame => exact frame_swapRemove removed
    case nodeCount_eq => exact frees.nodeCount_eq.symm
    case markedCount_eq =>
      obtain ⟨deleted, _⟩ := swapRemove_eq_ok_iff.1 removed
      have positive := sturdy.filled.markedCount_pos deleted
      rw [frees.markedCount_eq]
      omega
    case tallied_before => exact sturdy.filled.tallied
    case tallied => exact sturdy_h.filled.tallied
    case size_vectors => exact frees.aligned
    case vector?_eq =>
      intro x other lt
      rw [last]
      exact frees.vector?_rename other lt
    case node_eq =>
      intro x other lt
      rw [last]
      exact frees.node_eq other lt
    case labels_eq =>
      rw [last]
      exact frees.labels_eq
    case entryPoint_eq =>
      rw [last]
      exact frees.entryPoint_eq
  · intro failure refused
    rw [Call.run, refused, orKeep]

/-- A slot to be freed below two nodes that are linked with each other, the last one the entry. -/
def vacated : Graph Binary64 where
  config := { dim := 2, metric := .l2 }
  nodes := #[
    { label := 1, deleted := true, generation := 0, layers := [{}] },
    { label := 2, generation := 1, layers := [⟨[2], [2]⟩] },
    { label := 3, generation := 2, layers := [⟨[1], [1]⟩, {}] }]
  vectors := #[.zero, .one, .one, .zero, .one + .one, .zero]
  markedCount := 1
  labels := (LabelMap.empty.insert 2 [1]).insert 3 [2]
  entryPoint := some 2
  maxLevel := 1
  capacity := 1024
  nextGeneration := 3

/-- The last node moves into the free slot and its vector with it; the slot of a live node is not
freed. -/
theorem renames_vacated :
    vacated.integrity = .ok () ∧
      (∃ h, vacated.swapRemove 0 = .ok h ∧ vacated.Renames 0 h ∧
        h.vectors = #[.one + .one, .zero, .one, .zero] ∧ h.markedCount = 0 ∧
        h.links 0 0 = ⟨[1], [1]⟩ ∧ h.links 1 0 = ⟨[0], [0]⟩ ∧ h.entryPoint = some 0) ∧
      vacated.swapRemove 1 = .error (.node 1 .notRepaired) ∧
      (Call.swapRemove 1).run vacated = vacated := by
  have passed : vacated.integrity = .ok () := by decide +kernel
  have refused : vacated.swapRemove 1 = .error (.node 1 .notRepaired) := by rfl
  refine ⟨passed, ?_, refused, (renames_swapRemove passed 1).2 _ refused⟩
  exact ⟨_, rfl, (renames_swapRemove passed 0).1 _ rfl, by decide +kernel, by decide +kernel,
    by decide +kernel, by decide +kernel, by decide +kernel⟩

end Graph

end Vicinity
