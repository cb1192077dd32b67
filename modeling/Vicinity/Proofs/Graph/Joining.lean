import Mathlib.Data.List.Perm.Subperm
import Vicinity.Proofs.Graph.Beam
import Vicinity.Proofs.Graph.Mesh

/-!
A new node joins the mesh.

While a graph has room for every pair of its nodes on layer 0, a new node is linked there with all
that are live: the search finds them all, since they can be reached from where the descent ends and
the beam is wide enough for them, and no neighbour has to drop an edge
(`mem_out_foldl_connect_of_small`). Higher up the new node may be linked with some of them, and
edges may go. `Joining` is what holds before the layers that are left, down to layer 0.
-/

namespace Vicinity.Graph

variable {α : Type}

/-! ### Room on a layer -/

/-- There are no more different numbers below a bound than the bound. -/
theorem length_le_of_nodup {ids : List Nat} {bound : Nat} (distinct : ids.Nodup)
    (below : ∀ x ∈ ids, x < bound) : ids.length ≤ bound := by
  have among : ids ⊆ List.range bound := fun x mem => List.mem_range.2 (below x mem)
  have le := (distinct.subperm among).length_le
  rwa [List.length_range] at le

/-- Different numbers below a bound, as many as there are, are all of them. -/
theorem mem_of_nodup_of_length {ids : List Nat} {bound : Nat} (distinct : ids.Nodup)
    (below : ∀ x ∈ ids, x < bound) (enough : bound ≤ ids.length) {x : Nat} (lt : x < bound) :
    x ∈ ids := by
  have among : ids ⊆ List.range bound := fun y mem => List.mem_range.2 (below y mem)
  have all := (distinct.subperm among).perm_of_length_le (by rwa [List.length_range])
  exact all.mem_iff.2 (List.mem_range.2 lt)

/-- A node has at most as many out-neighbours as there are other nodes. -/
theorem Paired.length_out_le {g : Graph α} (paired : g.Paired) (id layer : Nat) :
    (g.links id layer).out.length ≤ g.nodeCount - 1 := by
  by_cases inside : id < g.nodeCount
  · have distinct : (id :: (g.links id layer).out).Nodup :=
      List.nodup_cons.2 ⟨paired.irreflexive id layer, paired.out_nodup id layer⟩
    have below : ∀ x ∈ id :: (g.links id layer).out, x < g.nodeCount := by
      intro x mem
      rcases List.mem_cons.1 mem with rfl | edge
      · exact inside
      · exact paired.target_lt edge
    have few := length_le_of_nodup distinct below
    rw [List.length_cons] at few
    omega
  · rw [links_beyond inside]
    exact Nat.zero_le _

/-- The layers above the ground come first. -/
theorem wiredLayers_eq (g : Graph α) (level : Nat) :
    ∃ upper, g.wiredLayers level = upper ++ [0] := by
  rw [wiredLayers, List.range_succ_eq_map, List.reverse_cons]
  exact ⟨_, rfl⟩

/-! ### A new node -/

/-- A live node other than the new one. -/
def Other (g : Graph α) (id x : Nat) : Prop := x ≠ id ∧ g.isLive x = true

/-- The last node of a graph is new and has no edges; the others form a mesh, and searches start at
one of them. -/
structure Arrival (g : Graph α) (id entry : Nat) : Prop where
  paired : g.Paired
  fresh : g.Isolated id
  last : g.nodeCount = id + 1
  grounded : g.Grounded
  symmetric : g.TwoWay
  together : ∀ a b, g.Other id a → g.Other id b → a ≠ b → b ∈ (g.links a 0).out
  entry : g.Other id entry

namespace Arrival

variable {g : Graph α} {id entry : Nat}

theorem lt_of_other (arrival : g.Arrival id entry) {x : Nat} (other : g.Other id x) : x < id := by
  have lt := lt_nodeCount_of_isLive other.2
  have ne := other.1
  rw [arrival.last] at lt
  omega

/-- What can be reached from the entry point is not the new node. -/
theorem lt_of_reaches (arrival : g.Arrival id entry) {x : Nat} (way : g.Reaches 0 entry x) :
    x < id := by
  have passes : g.Passes 0 (· < id) := by
    intro y _ next edge
    have lt := arrival.paired.target_lt edge
    have ne : next ≠ id := by
      rintro rfl
      exact arrival.paired.not_mem_out arrival.fresh y 0 edge
    rw [arrival.last] at lt
    omega
  exact way.keeps passes (arrival.lt_of_other arrival.entry)

/-- Every other live node can be reached from wherever the entry point leads. -/
theorem reaches (arrival : g.Arrival id entry) {x y : Nat} (way : g.Reaches 0 entry x)
    (other : g.Other id y) : g.Reaches 0 x y := by
  have back := way.symm arrival.symmetric
  by_cases same : entry = y
  · exact same ▸ back
  · exact back.tail (arrival.together entry y arrival.entry other same)

/-- Once it is linked with all of them on layer 0, the new node is one of the mesh. -/
theorem join {h : Graph α} (arrival : g.Arrival id entry)
    (live : ∀ j, h.isLive j = g.isLive j)
    (joins : ∀ a b layer, b ∈ (h.links a layer).out → b ∈ (g.links a layer).out ∨
      (a = id ∧ g.Other id b) ∨ (g.Other id a ∧ b = id))
    (ground : ∀ a b, b ∈ (h.links a 0).out ↔ b ∈ (g.links a 0).out ∨
      (a = id ∧ g.Other id b) ∨ (g.Other id a ∧ b = id)) : h.Meshed := by
  constructor
  case grounded =>
    intro a b layer edge
    exact (ground a b).2 ((joins a b layer edge).imp_left (arrival.grounded a b layer))
  case symmetric =>
    intro a b edge
    rcases (ground a b).1 edge with old | ⟨from_new, other_b⟩ | ⟨other_a, to_new⟩
    · exact (ground b a).2 (.inl (arrival.symmetric a b old))
    · exact (ground b a).2 (.inr (.inr ⟨other_b, from_new⟩))
    · exact (ground b a).2 (.inr (.inl ⟨to_new, other_a⟩))
  case together =>
    intro a b live_a live_b ne
    rw [live] at live_a live_b
    apply (ground a b).2
    by_cases new_a : a = id
    · have old_b : b ≠ id := fun new_b => ne (new_a.trans new_b.symm)
      exact .inr (.inl ⟨new_a, old_b, live_b⟩)
    · by_cases new_b : b = id
      · exact .inr (.inr ⟨⟨new_a, live_a⟩, new_b⟩)
      · exact .inl (arrival.together a b ⟨new_a, live_a⟩ ⟨new_b, live_b⟩ ne)

end Arrival

/-- A mesh with a vector appended. -/
theorem WellFormed.arrival {g : Graph α} (wf : g.WellFormed) (meshed : g.Meshed) {entry : Nat}
    (at_entry : g.entryPoint = some entry) (label : Label) (vector : List α) (level : Nat) :
    (g.append label vector level).Arrival g.nodeCount entry := by
  have links := links_append g label vector level
  have other_iff : ∀ x, (g.append label vector level).Other g.nodeCount x ↔
      g.isLive x = true := by
    intro x
    rw [Other, isLive_append, Bool.or_eq_true, decide_eq_true_eq]
    constructor
    · exact fun other => other.2.resolve_left other.1
    · exact fun live => ⟨Nat.ne_of_lt (lt_nodeCount_of_isLive live), .inr live⟩
  constructor
  case paired => exact wf.linked.toPaired.append label vector level
  case fresh => exact isolated_append_self g label vector level
  case last => exact nodeCount_append ..
  case grounded => exact meshed.grounded.congr links
  case symmetric => exact meshed.symmetric.congr links
  case together =>
    intro a b other_a other_b ne
    rw [links]
    exact meshed.together a b ((other_iff a).1 other_a) ((other_iff b).1 other_b) ne
  case entry => exact (other_iff entry).2 (wf.rooted.live entry at_entry)

variable [Element α]

/-- Linking with a neighbour brings in no edges but those between the two. -/
theorem mem_out_of_connect {g : Graph α} {id layer n a b k : Nat}
    (edge : b ∈ ((g.connect id layer n).links a k).out) :
    b ∈ (g.links a k).out ∨ (a = id ∧ b = n) ∨ (a = n ∧ b = id) := by
  have both : b ∈ (((g.addEdge id n layer).addEdge n id layer).links a k).out := by
    unfold connect at edge
    dsimp only at edge
    split at edge
    · unfold evictFarthest at edge
      split at edge
      · exact (out_removeEdge_sublist ..).subset edge
      · exact edge
    · exact edge
  rcases mem_out_of_addEdge both with first | ⟨_, rfl, rfl, _⟩
  · rcases mem_out_of_addEdge first with old | ⟨_, rfl, rfl, _⟩
    · exact .inl old
    · exact .inr (.inl ⟨rfl, rfl⟩)
  · exact .inr (.inr ⟨rfl, rfl⟩)

theorem mem_out_of_foldl_connect {g : Graph α} {id layer a b k : Nat} {ns : List Nat}
    (edge : b ∈ ((ns.foldl (fun g n => g.connect id layer n) g).links a k).out) :
    b ∈ (g.links a k).out ∨ (a = id ∧ b ∈ ns) ∨ (a ∈ ns ∧ b = id) := by
  induction ns generalizing g with
  | nil => exact .inl edge
  | cons n ns ih =>
      rcases ih edge with first | ⟨from_id, later⟩ | ⟨later, to_id⟩
      · rcases mem_out_of_connect first with old | ⟨from_id, rfl⟩ | ⟨rfl, to_id⟩
        · exact .inl old
        · exact .inr (.inl ⟨from_id, List.mem_cons_self⟩)
        · exact .inr (.inr ⟨List.mem_cons_self, to_id⟩)
      · exact .inr (.inl ⟨from_id, List.mem_cons_of_mem _ later⟩)
      · exact .inr (.inr ⟨List.mem_cons_of_mem _ later, to_id⟩)

/-- Where a node may be linked with all others, linking drops no edge. -/
theorem mem_out_connect_of_small {g : Graph α} (paired : g.Paired) {id layer n : Nat}
    (here : g.Stands id layer) (there : g.Stands n layer) (other : n ≠ id)
    (small : g.nodeCount ≤ g.config.maxDegree layer + 1) (a b : Nat) :
    b ∈ ((g.connect id layer n).links a layer).out ↔
      b ∈ (g.links a layer).out ∨ (a = id ∧ b = n) ∨ (a = n ∧ b = id) := by
  have rewired := rewired_addEdge g id n layer
  have here' := (rewired.stands_iff id layer).2 here
  have there' := (rewired.stands_iff n layer).2 there
  have both := rewired.trans (rewired_addEdge _ n id layer)
  have few := ((paired.addEdge here there).addEdge there' here').length_out_le n layer
  have kept : g.connect id layer n = (g.addEdge id n layer).addEdge n id layer := by
    unfold connect
    dsimp only
    rw [if_neg]
    rw [both.nodeCount_eq] at few
    omega
  rw [kept, mem_out_addEdge there', mem_out_addEdge here]
  constructor
  · rintro ((old | ⟨rfl, rfl, _⟩) | ⟨rfl, rfl, _⟩)
    · exact .inl old
    · exact .inr (.inl ⟨rfl, rfl⟩)
    · exact .inr (.inr ⟨rfl, rfl⟩)
  · rintro (old | ⟨rfl, rfl⟩ | ⟨rfl, rfl⟩)
    · exact .inl (.inl old)
    · exact .inl (.inr ⟨rfl, rfl, rfl, Ne.symm other⟩)
    · exact .inr ⟨rfl, rfl, rfl, other⟩

theorem mem_out_foldl_connect_of_small {g : Graph α} (paired : g.Paired) {id layer : Nat}
    (here : g.Stands id layer) {ns : List Nat} (there : ∀ n ∈ ns, g.Stands n layer)
    (others : ∀ n ∈ ns, n ≠ id) (small : g.nodeCount ≤ g.config.maxDegree layer + 1) (a b : Nat) :
    b ∈ ((ns.foldl (fun g n => g.connect id layer n) g).links a layer).out ↔
      b ∈ (g.links a layer).out ∨ (a = id ∧ b ∈ ns) ∨ (a ∈ ns ∧ b = id) := by
  induction ns generalizing g with
  | nil => simp
  | cons n ns ih =>
      have rewired := rewired_connect g id layer n
      have n_there := there n List.mem_cons_self
      have n_other := others n List.mem_cons_self
      rw [List.foldl_cons, ih ((edits_connect here n_there).paired paired)
        ((rewired.stands_iff ..).2 here)
        (fun m mem => (rewired.stands_iff ..).2 (there m (List.mem_cons_of_mem _ mem)))
        (fun m mem => others m (List.mem_cons_of_mem _ mem))
        (by rw [rewired.nodeCount_eq, rewired.config_eq]; exact small),
        mem_out_connect_of_small paired here n_there n_other small, List.mem_cons, List.mem_cons]
      tauto

/-! ### Down the layers -/

/-- What holds of a new node before the layers of the list: nothing has happened on these, elsewhere
the new node was linked with live nodes and no edges were added besides, and the next search starts
within reach of the entry point. -/
structure Joining (g : Graph α) (id entry : Nat) (layers : List Nat)
    (state : Graph α × Candidate) : Prop where
  wiring : g.Wiring id layers state
  untouched : ∀ layer ∈ layers, ∀ a, state.1.links a layer = g.links a layer
  joins : ∀ a b layer, b ∈ (state.1.links a layer).out →
    b ∈ (g.links a layer).out ∨ (a = id ∧ g.Other id b) ∨ (g.Other id a ∧ b = id)
  reached : g.Reaches 0 entry state.2.id

section Layers

variable {g : Graph α} {id entry : Nat}

omit [Element α] in
theorem Joining.rewired {layers : List Nat} {state : Graph α × Candidate}
    (joining : g.Joining id entry layers state) : Rewired g state.1 :=
  joining.wiring.edits.rewired

/-- The nodes that a search on the next layer finds are live, not the new one, and within reach of
the entry point. -/
theorem Joining.found {layer : Nat} {layers : List Nat} {state : Graph α × Candidate}
    (joining : g.Joining id entry (layer :: layers) state) (arrival : g.Arrival id entry)
    (vector : List α) (ef : Nat) {c : Candidate}
    (found : c ∈ state.1.searchLayer vector state.2 ef layer) :
    g.Reaches 0 entry c.id ∧ g.Other id c.id := by
  have passes : state.1.Passes layer (g.Reaches 0 entry) := by
    intro x way next edge
    rw [joining.untouched layer List.mem_cons_self] at edge
    exact arrival.grounded.passes layer entry x way next edge
  obtain ⟨way, kept⟩ := searchLayer_keeps passes vector ef joining.reached found
  have lt := arrival.lt_of_reaches way
  refine ⟨way, Nat.ne_of_lt lt, ?_⟩
  rw [joining.rewired.isDeleted_eq] at kept
  apply isLive_of_not_isDeleted ?_ kept
  rw [arrival.last]
  omega

theorem Joining.connectLayer {layer : Nat} {layers : List Nat} {state : Graph α × Candidate}
    (joining : g.Joining id entry (layer :: layers) state) (arrival : g.Arrival id entry)
    (below : ∀ l ∈ layers, l < layer) (vector : List α) :
    g.Joining id entry layers (connectLayer id vector state layer) := by
  have found := fun c => joining.found arrival vector
    state.1.config.efConstruction.toNat (c := c)
  have chosen : ∀ n ∈ state.1.chooseNeighbors (state.1.config.maxDegree layer)
      (state.1.searchLayer vector state.2 state.1.config.efConstruction.toNat layer),
      g.Other id n := by
    intro n mem
    obtain ⟨c, among, rfl⟩ := (chooseNeighbors_spec ..).1 n mem
    exact (found c among).2
  constructor
  case wiring => exact joining.wiring.connectLayer below vector
  case untouched =>
    intro l mem a
    refine Eq.trans ?_ (joining.untouched l (List.mem_cons_of_mem _ mem) a)
    exact links_foldl_connect_of_ne state.1 id _ (Nat.ne_of_gt (below l mem)) a
  case joins =>
    intro a b l edge
    rcases mem_out_of_foldl_connect edge with old | ⟨from_id, mem⟩ | ⟨mem, to_id⟩
    · exact joining.joins a b l old
    · exact .inr (.inl ⟨from_id, chosen b mem⟩)
    · exact .inr (.inr ⟨chosen a mem, to_id⟩)
  case reached =>
    show g.Reaches 0 entry
      ((state.1.searchLayer vector state.2 _ layer).head?.getD state.2).id
    cases first : (state.1.searchLayer vector state.2
        state.1.config.efConstruction.toNat layer).head? with
    | none => exact joining.reached
    | some c => exact (found c (List.mem_of_head? first)).1

theorem Joining.foldl {layers rest : List Nat} {state : Graph α × Candidate}
    (joining : g.Joining id entry (layers ++ rest) state) (arrival : g.Arrival id entry)
    (descending : (layers ++ rest).Pairwise (· > ·)) (vector : List α) :
    g.Joining id entry rest (layers.foldl (Graph.connectLayer id vector) state) := by
  induction layers generalizing state with
  | nil => exact joining
  | cons layer layers ih =>
      rw [List.cons_append, List.pairwise_cons] at descending
      exact ih (joining.connectLayer arrival descending.1 vector) descending.2

/-- On layer 0 a beam that is wide enough finds every other live node: it has room to spare, or
there are no more nodes than it holds. -/
theorem Joining.found_on_ground {state : Graph α × Candidate}
    (joining : g.Joining id entry [0] state) (arrival : g.Arrival id entry) (vector : List α)
    {ef : Nat} (wide : id ≤ ef) :
    ((state.1.searchLayer vector state.2 ef 0).map (·.id)).Nodup ∧
      ∀ x, x ∈ (state.1.searchLayer vector state.2 ef 0).map (·.id) ↔ g.Other id x := by
  have ground := joining.untouched 0 (List.mem_singleton_self 0)
  have place_lt := arrival.lt_of_reaches joining.reached
  have inside : state.2.id < state.1.nodeCount := by
    rw [joining.rewired.nodeCount_eq, arrival.last]
    omega
  obtain ⟨distinct, narrow, complete⟩ :=
    searchLayer_complete joining.wiring.paired inside (by omega : 0 < ef) vector 0
  have other : ∀ x ∈ (state.1.searchLayer vector state.2 ef 0).map (·.id), g.Other id x := by
    intro x mem
    obtain ⟨c, among, rfl⟩ := List.mem_map.1 mem
    exact (joining.found arrival vector ef among).2
  refine ⟨distinct, fun x => ⟨other x, fun live => ?_⟩⟩
  by_cases room : (state.1.searchLayer vector state.2 ef 0).length < ef
  · apply complete room x
    · have way := arrival.reaches joining.reached live
      refine Relation.ReflTransGen.mono (fun y next edge => ?_) _ _ way
      rwa [ground]
    · rw [joining.rewired.isDeleted_eq]
      exact not_isDeleted_of_isLive live.2
  · apply mem_of_nodup_of_length distinct
    · exact fun y mem => arrival.lt_of_other (other y mem)
    · rw [List.length_map]
      omega
    · exact arrival.lt_of_other live

/-- On layer 0 the new node is linked with every other live node when there is room for them. -/
theorem Joining.mem_out_on_ground {state : Graph α × Candidate}
    (joining : g.Joining id entry [0] state) (arrival : g.Arrival id entry)
    (small : id ≤ g.config.maxDegree 0) (wide : id ≤ g.config.efConstruction.toNat)
    (vector : List α) (a b : Nat) :
    b ∈ ((Graph.connectLayer id vector state 0).1.links a 0).out ↔
      b ∈ (g.links a 0).out ∨ (a = id ∧ g.Other id b) ∨ (g.Other id a ∧ b = id) := by
  obtain ⟨s, place⟩ := state
  have config_eq : s.config = g.config := joining.rewired.config_eq
  obtain ⟨distinct, all⟩ := joining.found_on_ground arrival vector (config_eq ▸ wide)
  have stands : ∀ c ∈ s.searchLayer vector place s.config.efConstruction.toNat 0,
      s.Stands c.id 0 := fun c among =>
    (searchLayer_keeps (joining.wiring.paired.passes_stands 0) vector _
      (joining.wiring.start 0 (List.mem_singleton_self 0)) among).1
  have linked_with : (Graph.connectLayer id vector (s, place) 0).1 =
      (s.chooseNeighbors (s.config.maxDegree 0)
        (s.searchLayer vector place s.config.efConstruction.toNat 0)).foldl
          (fun g n => g.connect id 0 n) s := rfl
  dsimp only at distinct all
  generalize s.searchLayer vector place s.config.efConstruction.toNat 0 = found at *
  have few : found.length ≤ s.config.maxDegree 0 := by
    have le := length_le_of_nodup distinct fun x mem => arrival.lt_of_other ((all x).1 mem)
    rw [List.length_map] at le
    rw [config_eq]
    omega
  rw [chooseNeighbors, if_pos few] at linked_with
  rw [linked_with, mem_out_foldl_connect_of_small joining.wiring.paired, all, all]
  · rw [show s.links a 0 = g.links a 0 from joining.untouched 0 (List.mem_singleton_self 0) a]
  · exact joining.wiring.here 0 (List.mem_singleton_self 0)
  · intro n mem
    obtain ⟨c, among, rfl⟩ := List.mem_map.1 mem
    exact stands c among
  · exact fun n mem => ((all n).1 mem).1
  · rw [show s.nodeCount = g.nodeCount from joining.rewired.nodeCount_eq, arrival.last, config_eq]
    omega

/-- Once layer 0 is done the graph is a mesh. -/
theorem Joining.meshed {upper : List Nat} {state : Graph α × Candidate}
    (joining : g.Joining id entry (upper ++ [0]) state) (arrival : g.Arrival id entry)
    (descending : (upper ++ [0]).Pairwise (· > ·)) (small : id ≤ g.config.maxDegree 0)
    (wide : id ≤ g.config.efConstruction.toNat) (vector : List α) :
    ((upper ++ [0]).foldl (Graph.connectLayer id vector) state).1.Meshed := by
  have before := joining.foldl arrival descending vector
  have after := before.connectLayer arrival nofun vector
  rw [List.foldl_append]
  apply arrival.join
  · exact after.rewired.isLive_eq
  · exact after.joins
  · exact before.mem_out_on_ground arrival small wide vector

end Layers

/-! ### Insertion -/

/-- Linking the node in the last slot makes a mesh again, while there is room for every pair. -/
theorem WellFormed.meshed_wire {g : Graph α} (wf : g.WellFormed) (meshed : g.Meshed)
    (label : Label) (vector : List α) (level : Nat)
    (small : g.nodeCount ≤ g.config.maxDegree 0)
    (wide : g.nodeCount ≤ g.config.efConstruction.toNat) :
    ((g.append label vector level).wire g.nodeCount vector level).Meshed := by
  unfold wire
  split
  case h_1 nowhere =>
    -- No node is live, so the first one has nothing to be linked with.
    have absent : g.entryPoint = none := by simpa [entryOn?, append] using nowhere
    have only : ∀ x, (g.append label vector level).isLive x = true → x = g.nodeCount := by
      intro x live
      rw [isLive_append, wf.rooted.absent absent x, Bool.or_false, decide_eq_true_eq] at live
      exact live
    have links := links_append g label vector level
    have appended : (g.append label vector level).Meshed := by
      refine ⟨meshed.grounded.congr links, meshed.symmetric.congr links, ?_⟩
      intro a b live_a live_b ne
      exact absurd ((only a live_a).trans (only b live_b).symm) ne
    exact appended.congr (fun _ _ => rfl) fun _ live => live
  case h_2 place arrives =>
    have start := Wiring.initial (wf.linked.toPaired.append label vector level)
      (wf.within.append label vector level) (wf.rooted.stands_entry_append label vector level)
      (stands_append_self g label vector level) (isolated_append_self g label vector level) arrives
    have descending := wiredLayers_descending (g.append label vector level) level
    obtain ⟨upper, split⟩ := wiredLayers_eq (g.append label vector level) level
    have grounded := meshed.grounded.congr (links_append g label vector level)
    obtain ⟨entry, at_entry, way⟩ := grounded.reaches_entryOn? arrives
    have arrival := wf.arrival meshed at_entry label vector level
    have joining : (g.append label vector level).Joining g.nodeCount entry
        ((g.append label vector level).wiredLayers level) (g.append label vector level, place) :=
      ⟨start, fun _ _ _ => rfl, fun _ _ _ => .inl, way⟩
    rw [split] at joining descending
    have joined := joining.meshed arrival descending small wide vector
    rw [← split] at joined
    show Meshed (if _ then _ else _)
    split
    · exact joined.congr (fun _ _ => rfl) fun _ live => live
    · exact joined

/-- An insertion into a small mesh leaves a mesh. -/
theorem WellFormed.meshed_insert {g h : Graph α} (wf : g.WellFormed) (meshed : g.Meshed)
    {label : Label} {vector : List α} {id : Nat} (inserted : g.insert label vector = .ok (h, id))
    (small : g.nodeCount ≤ g.config.maxDegree 0)
    (wide : g.nodeCount ≤ g.config.efConstruction.toNat) : h.Meshed := by
  unfold Graph.insert at inserted
  split at inserted
  · contradiction
  · split at inserted
    · contradiction
    · simp only [Except.ok.injEq, Prod.mk.injEq] at inserted
      obtain ⟨rfl, _⟩ := inserted
      exact wf.meshed_wire meshed label _ _ small wide

end Vicinity.Graph
