import Vicinity.Proofs.Graph.Calls
import Vicinity.Proofs.Graph.Entering
import Vicinity.Proofs.Graph.Renaming

/-!
What an insertion changes, and what it leaves alone.

`Enters g label vector level h` says of two graphs that `h` is `g` with one node more. Everything
but the new slot, the entry under its label, the start of searches and the two counters is a frame;
of the edges, those of the new node are new, and a node that it was linked with may have lost its
farthest neighbour. Every insertion that succeeds is of this kind, whatever the level that was
drawn, also when deleted nodes await their repair.
-/

namespace Vicinity.Graph

variable {α : Type} [Element α]

/-- The second graph is the first with a vector in its next slot. -/
structure Enters (g : Graph α) (label : Label) (vector : List α) (level : Nat) (h : Graph α) :
    Prop where
  /-- The parameters, the capacity, the number of deleted nodes and the log are as before, the
  vector stands behind the others, and the numbers of draws and of nodes made so far went up by one.
  -/
  frame : h =
    { g with
      nodes := h.nodes
      vectors := Arena.extend g.vectors vector
      labels := h.labels
      entryPoint := h.entryPoint
      maxLevel := h.maxLevel
      drawCount := g.drawCount + 1
      nextGeneration := g.nextGeneration + 1 }
  entry_eq : (h.entryPoint, h.maxLevel) =
    if g.entryPoint = none ∨ g.maxLevel < level then (some g.nodeCount, level)
    else (g.entryPoint, g.maxLevel)
  find?_eq (l : Label) : h.labels.find? l =
    if label = l then some (g.idsOf label ++ [g.nodeCount]) else g.labels.find? l
  nodeCount_eq : h.nodeCount = g.nodeCount + 1
  new_node : h.nodes[g.nodeCount]?.map Node.bare =
    some { label, generation := g.nextGeneration, layers := List.replicate (level + 1) {} }
  vector?_eq (a : Nat) : h.vector? a = if a = g.nodeCount then some vector else g.vector? a
  old_node (a : Nat) : a < g.nodeCount → h.nodes[a]?.map Node.bare = g.nodes[a]?.map Node.bare
  paired : h.Paired
  /-- A new edge leads to or from the new node, and its other end is live. -/
  added (layer a b : Nat) : b ∈ (h.links a layer).out → b ∉ (g.links a layer).out →
    layer ≤ min level g.maxLevel ∧
      (a = g.nodeCount ∧ g.isLive b = true ∨ b = g.nodeCount ∧ g.isLive a = true)
  /-- An edge is dropped by a node with no room for the new one, if no neighbour is farther. -/
  dropped (layer a b : Nat) : b ∈ (g.links a layer).out → b ∉ (h.links a layer).out →
    a ∈ (h.links g.nodeCount layer).out ∧
      (g.links a layer).out.length = g.config.maxDegree layer ∧
        ∀ c ∈ (g.links a layer).out ++ [g.nodeCount], c ≠ b →
          (h.seenFrom a c).precedes (h.seenFrom a b) = true
  dropped_once (layer a b c : Nat) : b ∈ (g.links a layer).out → b ∉ (h.links a layer).out →
    c ∈ (g.links a layer).out → c ∉ (h.links a layer).out → b = c
  /-- A node that the new one was linked with has one neighbour more, as far as there is room. -/
  degree (layer a : Nat) : a ∈ (h.links g.nodeCount layer).out →
    (h.links a layer).out.length =
      min (g.config.maxDegree layer) ((g.links a layer).out.length + 1)
  /-- A node that was not linked and that was not dropped is what it was. -/
  bystander (a : Nat) : a < g.nodeCount → (∀ layer, a ∉ (h.links g.nodeCount layer).out) →
    (∀ layer b, a ∈ (g.links b layer).out → a ∈ (h.links b layer).out) → h.nodes[a]? = g.nodes[a]?

omit [Element α] in
/-- A slot with the same node but for its links has the same node when the links are the same. -/
theorem getElem?_eq_of_links {g h : Graph α} {a : Nat}
    (bare : h.nodes[a]?.map Node.bare = g.nodes[a]?.map Node.bare)
    (links : ∀ layer, h.links a layer = g.links a layer) : h.nodes[a]? = g.nodes[a]? := by
  cases at_g : g.nodes[a]? with
  | none => simpa [at_g] using bare
  | some before =>
      cases at_h : h.nodes[a]? with
      | none => simp [at_g, at_h] at bare
      | some after =>
          simp only [at_g, at_h, Option.map_some, Option.some.injEq] at bare
          rw [Node.ext_links bare fun layer => ?_]
          rw [← links_of_getElem? at_h, ← links_of_getElem? at_g]
          exact links layer

omit [Element α] in
/-- The entry point is another node than the new one, and stands on the top layer as before. -/
theorem Sturdy.stands_entry_append {g : Graph α} (sturdy : g.Sturdy) (label : Label)
    (vector : List α) (level : Nat) (e : Nat)
    (entry : (g.append label vector level).entryPoint = some e) :
    (g.append label vector level).Stands e (g.append label vector level).maxLevel ∧
      e ≠ g.nodeCount :=
  ⟨sturdy.anchored.stands_entry_append label vector level e entry,
    Nat.ne_of_lt (lt_nodeCount_of_isLive (sturdy.anchored.live e entry))⟩

/-- The edges after an insertion, beside those of the graph with the new node unlinked. -/
theorem Sturdy.receives_append {g : Graph α} (sturdy : g.Sturdy) (label : Label) (vector : List α)
    (level layer : Nat) :
    (g.append label vector level).Receives g.nodeCount layer
        ((g.append label vector level).wire g.nodeCount vector level) ∧
      (min level g.maxLevel < layer →
        (((g.append label vector level).wire g.nodeCount vector level).links
          g.nodeCount layer).out = []) :=
  receives_wire (sturdy.paired.append label vector level) (sturdy.within.append label vector level)
    level (sturdy.stands_entry_append label vector level)
    (stands_append_self g label vector level) (isolated_append_self g label vector level) vector
    layer

theorem Sturdy.enters_append {g : Graph α} (sturdy : g.Sturdy) (label : Label) {vector : List α}
    (length : vector.length = g.config.dim.toNat) (level : Nat) :
    g.Enters label vector level ((g.append label vector level).wire g.nodeCount vector level) := by
  obtain ⟨k, edits, _, stores, eq⟩ := sturdy.wire_append_spec label length level
  have receives := sturdy.receives_append label vector level
  have rewired := edits.rewired
  have alone := isolated_append_self g label vector level
  have paired := sturdy.paired.append label vector level
  have within := sturdy.within.append label vector level
  have out_eq : ∀ a layer, ((g.append label vector level).links a layer).out =
      (g.links a layer).out := by
    intro a layer
    rw [links_append]
  have live_eq : ∀ a, a ≠ g.nodeCount → (g.append label vector level).isLive a = true →
      g.isLive a = true := by
    intro a old live
    rw [isLive_append] at live
    simpa [old] using live
  obtain ⟨entry, top, same, entry_eq⟩ : ∃ entry top,
      (g.append label vector level).wire g.nodeCount vector level =
          { k with entryPoint := entry, maxLevel := top } ∧
        (entry, top) = if g.entryPoint = none ∨ g.maxLevel < level then (some g.nodeCount, level)
          else (g.entryPoint, g.maxLevel) := by
    rw [eq]
    split
    · exact ⟨_, _, rfl, rfl⟩
    · exact ⟨_, _, rfl, congrArg₂ Prod.mk rewired.entryPoint_eq rewired.maxLevel_eq⟩
  rw [same] at receives ⊢
  have paired' : Graph.Paired { k with entryPoint := entry, maxLevel := top } :=
    (edits.paired paired).congr fun _ _ => rfl
  have old_node : ∀ a < g.nodeCount,
      k.nodes[a]?.map Node.bare = g.nodes[a]?.map Node.bare := by
    intro a old
    rw [rewired.getElem?_bare, getElem?_append, if_neg (Nat.ne_of_lt old)]
  have seen_eq : ∀ a c, Graph.seenFrom { k with entryPoint := entry, maxLevel := top } a c =
      (g.append label vector level).seenFrom a c := by
    intro a c
    show k.seenFrom a c = _
    rw [seenFrom, rewired.agrees.distanceBetween_eq]
    rfl
  constructor
  case frame =>
    rw [rewired.frame]
    rfl
  case entry_eq => exact entry_eq
  case find?_eq =>
    intro l
    show k.labels.find? l = _
    rw [rewired.labels_eq]
    exact LabelMap.find?_insert ..
  case nodeCount_eq => exact stores.nodeCount_eq
  case new_node =>
    show k.nodes[g.nodeCount]?.map Node.bare = _
    rw [rewired.getElem?_bare, getElem?_append, if_pos rfl]
    simp [Node.bare]
  case vector?_eq => exact stores.vector?_eq
  case old_node => exact old_node
  case paired => exact paired'
  case added =>
    intro layer a b edge fresh
    obtain ⟨some_edge, ends⟩ := (receives layer).1.added edge (by rwa [out_eq])
    refine ⟨Nat.not_lt.1 fun high => some_edge ((receives layer).2 high), ?_⟩
    rcases ends with ⟨from_new, other, live⟩ | ⟨to_new, other, live⟩
    · exact .inl ⟨from_new, live_eq b other live⟩
    · exact .inr ⟨to_new, live_eq a other live⟩
  case dropped =>
    intro layer a b edge gone
    obtain ⟨linked, excess, farther⟩ := (receives layer).1.dropped alone (by rwa [out_eq]) gone
    rw [out_eq] at excess farther
    have length := sturdy.within a layer
    rw [List.length_append] at excess
    refine ⟨linked, Nat.le_antisymm length (Nat.lt_succ_iff.1 excess), fun c mem other => ?_⟩
    rw [seen_eq, seen_eq]
    exact farther c mem other
  case dropped_once =>
    intro layer a b c edge_b gone_b edge_c gone_c
    rw [← out_eq] at edge_b edge_c
    exact (receives layer).1.dropped_once alone edge_b gone_b edge_c gone_c
  case degree =>
    intro layer a linked
    have length := (receives layer).1.length_out paired within alone linked
    rwa [out_eq] at length
  case bystander =>
    intro a old absent kept
    have other := Nat.ne_of_lt old
    apply getElem?_eq_of_links (old_node a old)
    intro layer
    rw [← links_append g label vector level]
    apply (receives layer).1.links_eq paired paired' other (absent layer)
    intro b edge
    exact kept layer b (by rwa [out_eq] at edge)

/-- An insertion that succeeds changes the graph near the new node only, and one that fails changes
nothing. The id is the number of the slot, however many there are: where ids have 32 bits, fewer
than `idLimit` nodes must be there before. -/
theorem enters_insert {g : Graph α} (passed : g.integrity = .ok ()) (label : Label)
    (vector : List α) :
    (∀ h id, g.insert label vector = .ok (h, id) → id = g.nodeCount ∧
        g.Enters label (g.config.metric.prepare vector) (Level.draw g.config g.drawCount) h) ∧
      ∀ failure, g.insert label vector = .error failure →
        (Call.insert label vector).run g = g := by
  have sturdy := (integrity_eq_ok_iff.1 passed).sturdy
  constructor
  · intro h id inserted
    obtain ⟨length, _, same, rfl⟩ := eq_of_insert inserted
    exact ⟨same, sturdy.enters_append label length _⟩
  · intro failure refused
    rw [Call.run, refused]
    rfl

/-- A vector finds a slot beside a deleted node, and one of another length is refused. -/
theorem enters_relay :
    relay.integrity = .ok () ∧
      (∃ h, relay.insert 4 [.one] = .ok (h, 3) ∧
        relay.Enters 4 [.one] (Level.draw relay.config 0) h) ∧
      relay.insert 4 [.one, .one] = .error (.vector (.mismatch 1 2)) ∧
      (Call.insert 4 [.one, .one]).run relay = relay := by
  have passed : relay.integrity = .ok () := by decide +kernel
  have refused : relay.insert 4 [.one, .one] = .error (.vector (.mismatch 1 2)) := by rfl
  obtain ⟨h, inserted⟩ : ∃ h, relay.insert 4 [.one] = .ok (h, 3) := insert_eq_ok 4 rfl rfl
  refine ⟨passed, ⟨h, inserted, ?_⟩, refused, (enters_insert passed 4 [.one, .one]).2 _ refused⟩
  exact ((enters_insert passed 4 [.one]).1 h _ inserted).2

end Vicinity.Graph
