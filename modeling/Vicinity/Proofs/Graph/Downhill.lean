import Mathlib.Tactic.MkIffOfInductiveProp
import Vicinity.Proofs.Graph.Arrival
import Vicinity.Proofs.Graph.Ranking

/-!
Insertions with the narrowest beam.

A search that keeps one node ends where no edge leads nearer. When there is one such node only
(`Downhill`), it ends there wherever it starts (`ids_searchLayer_downhill`), so it does not matter
on which layers the nodes of a graph stand: a new node is linked on layer 0 with that one. A graph
that was built so has the edges of one that stands on layer 0 alone (`Traced`), in which they can be
computed.
-/

namespace Vicinity.Graph

variable {α : Type} [Element α]

/-! ### Searching -/

/-- From every node but one an edge of the layer leads nearer to the query. No distance is a NaN,
and no deletion is under way. -/
@[mk_iff]
structure Downhill (g : Graph α) (query : List α) (layer bottom : Nat) : Prop where
  numeric : ∀ n < g.nodeCount, (g.distanceTo query n).isNaN = false
  kept : ∀ n < g.nodeCount, g.isDeleted n = false
  nearer : ∀ n < g.nodeCount, n ≠ bottom →
    ∃ next ∈ (g.links n layer).out, (g.distanceTo query n).le (g.distanceTo query next) = false

instance (g : Graph α) (query : List α) (layer bottom : Nat) :
    Decidable (g.Downhill query layer bottom) :=
  decidable_of_iff' _ (downhill_iff g query layer bottom)

/-- A search that keeps one node and can go nearer from every other one ends there. -/
theorem ids_searchLayer_downhill {g : Graph α} {query : List α} {place : Candidate}
    {layer bottom : Nat} (paired : g.Paired) (comparable : g.Comparable query)
    (place_true : place.distance = g.distanceTo query place.id) {holds : Nat → Prop}
    (passes : g.Passes layer holds) (start : holds place.id)
    (kept : ∀ n, holds n → n < g.nodeCount ∧ g.isDeleted n = false)
    (nearer : ∀ n, holds n → n ≠ bottom → ∃ next ∈ (g.links n layer).out,
      (g.distanceTo query n).le (g.distanceTo query next) = false) :
    (g.searchLayer query place 1 layer).map (·.id) = [bottom] := by
  have inside := (kept place.id start).1
  obtain ⟨_, narrow, complete⟩ := searchLayer_complete paired inside Nat.one_pos query layer
  have nearest := searchLayer_nearest paired comparable inside Nat.one_pos place_true layer
  have keeps : ∀ c ∈ g.searchLayer query place 1 layer, holds c.id := fun c found =>
    (searchLayer_keeps passes query 1 start found).1
  have measured : ∀ c ∈ g.searchLayer query place 1 layer, c.distance = g.distanceTo query c.id :=
    fun c found => distance_searchLayer paired inside Nat.one_pos place_true found
  cases found : g.searchLayer query place 1 layer with
  | nil =>
      rw [found] at complete
      have listed := complete Nat.one_pos place.id .refl (kept place.id start).2
      cases listed
  | cons c rest =>
      rw [found] at narrow nearest keeps measured
      obtain rfl : rest = [] := List.eq_nil_of_length_eq_zero (by simpa using narrow)
      by_cases here : c.id = bottom
      · rw [← here]
        rfl
      · have at_c := keeps c (List.mem_singleton_self c)
        obtain ⟨next, edge, less⟩ := nearer c.id at_c here
        have live := (kept next (passes c.id at_c next edge)).2
        rcases nearest c.id (by simp) next edge live with same | ⟨_, farther⟩
        · have same : next = c.id := by simpa using same
          exact absurd (same ▸ edge) (paired.irreflexive c.id layer)
        · have le := farther c (List.mem_singleton_self c)
          rw [measured c (List.mem_singleton_self c), less] at le
          cases le

/-! ### Linking -/

section Linking

variable {g : Graph α} {id : Nat}

/-- On each of its layers a new node is linked with what is chosen of what a search finds there,
which starts at the distance where it says. -/
theorem Entering.exists_search (paired : g.Paired) (alone : g.Isolated id)
    (positive : 0 < g.config.efConstruction.toNat) {vector : List α} {layers : List Nat}
    (descending : layers.Pairwise (· > ·)) {state : Graph α × Candidate}
    (entering : g.Entering id layers state)
    (place_true : state.2.distance = g.distanceTo vector state.2.id) {layer : Nat}
    (mem : layer ∈ layers) :
    ∃ s place below, g.Entering id (layer :: below) (s, place) ∧
      place.distance = g.distanceTo vector place.id ∧
      ((layers.foldl (Graph.connectLayer id vector) state).1.links id layer).out =
        s.chooseNeighbors (s.config.maxDegree layer)
          (s.searchLayer vector place s.config.efConstruction.toNat layer) := by
  induction layers generalizing state with
  | nil => cases mem
  | cons l layers ih =>
      rw [List.pairwise_cons] at descending
      obtain ⟨s, place⟩ := state
      rcases List.mem_cons.1 mem with rfl | later
      · have fresh : layer ∉ layers := fun again => Nat.lt_irrefl layer (descending.1 layer again)
        refine ⟨s, place, layers, entering, place_true, ?_⟩
        rw [List.foldl_cons, links_foldl_connectLayer fresh]
        exact (entering.out_connectLayer paired alone vector).1
      · refine ih descending.2 (entering.connectLayer paired alone descending.1 vector) ?_ later
        have rewired := entering.wiring.edits.rewired
        have inside := lt_nodeCount_of_stands (entering.wiring.start l List.mem_cons_self)
        show ((s.searchLayer vector place _ l).head?.getD place).distance =
          g.distanceTo vector ((s.searchLayer vector place _ l).head?.getD place).id
        cases first : (s.searchLayer vector place s.config.efConstruction.toNat l).head? with
        | none => exact place_true
        | some c =>
            rw [← rewired.agrees.distanceTo_eq]
            rw [← rewired.agrees.distanceTo_eq] at place_true
            have positive : 0 < s.config.efConstruction.toNat := by rwa [rewired.config_eq]
            exact distance_searchLayer entering.wiring.paired inside positive place_true
              (List.mem_of_head? first)

/-- A search for the new node stays among the others, so it ends where they lead. -/
theorem Sturdy.ids_searchLayer_append (sturdy : g.Sturdy) {label : Label} {vector : List α}
    (length : vector.length = g.config.dim.toNat) {level : Nat} {s : Graph α} {place : Candidate}
    {below : List Nat}
    (entering : (g.append label vector level).Entering g.nodeCount (0 :: below) (s, place))
    (place_true : place.distance = (g.append label vector level).distanceTo vector place.id)
    (number : (g.config.metric.distance vector vector).isNaN = false) {bottom : Nat}
    (downhill : g.Downhill vector 0 bottom) :
    (s.searchLayer vector place 1 0).map (·.id) = [bottom] := by
  have rewired : Rewired (g.append label vector level) s := entering.wiring.edits.rewired
  have paired : s.Paired := entering.wiring.paired
  have same : ∀ n, s.links n 0 = g.links n 0 := fun n =>
    (entering.untouched 0 List.mem_cons_self n).trans (links_append ..)
  have count : s.nodeCount = g.nodeCount + 1 := rewired.nodeCount_eq.trans (nodeCount_append ..)
  have distance_eq : ∀ n, s.distanceTo vector n =
      if n = g.nodeCount then g.config.metric.distance vector vector
      else g.distanceTo vector n := by
    intro n
    rw [rewired.agrees.distanceTo_eq, distanceTo_append sturdy.filled.aligned label length]
  have distance_old : ∀ n < g.nodeCount, s.distanceTo vector n = g.distanceTo vector n := by
    intro n lt
    rw [distance_eq, if_neg (Nat.ne_of_lt lt)]
  have comparable : s.Comparable vector := by
    intro n live
    have lt := lt_nodeCount_of_isLive live
    rw [distance_eq]
    split
    · exact number
    · exact downhill.numeric n (by omega)
  have passes : s.Passes 0 (· < g.nodeCount) := by
    intro n _ next edge
    rw [same] at edge
    exact sturdy.paired.target_lt edge
  apply ids_searchLayer_downhill paired comparable ?_ passes
  · have inside := lt_nodeCount_of_stands (entering.wiring.start 0 List.mem_cons_self)
    have inside : place.id < g.nodeCount + 1 := count ▸ inside
    have other : place.id ≠ g.nodeCount := entering.elsewhere
    omega
  · intro n lt
    rw [count, rewired.isDeleted_eq, isDeleted_append]
    exact ⟨Nat.lt_succ_of_lt lt, downhill.kept n lt⟩
  · intro n lt other
    obtain ⟨next, edge, less⟩ := downhill.nearer n lt other
    rw [same, distance_old n lt]
    refine ⟨next, edge, ?_⟩
    rwa [distance_old next (sturdy.paired.target_lt edge)]
  · rw [rewired.agrees.distanceTo_eq]
    exact place_true

/-- A new node is linked on layer 0 with the one node from which no edge leads nearer to it. -/
theorem Sturdy.out_append_downhill (sturdy : g.Sturdy)
    (one : g.config.efConstruction.toNat = 1) (room : 0 < g.config.maxDegree 0) (label : Label)
    {vector : List α} (length : vector.length = g.config.dim.toNat) (level : Nat)
    (number : (g.config.metric.distance vector vector).isNaN = false) {bottom : Nat}
    (there : bottom < g.nodeCount) (downhill : g.Downhill vector 0 bottom) :
    (((g.append label vector level).wire g.nodeCount vector level).links g.nodeCount 0).out =
      [bottom] := by
  have paired := sturdy.paired.append label vector level
  have alone := isolated_append_self g label vector level
  have live := isLive_of_not_isDeleted there (downhill.kept bottom there)
  unfold wire
  cases arrives : (g.append label vector level).entryOn? vector level with
  | none =>
      have absent : g.entryPoint = none := by simpa [entryOn?, append] using arrives
      rw [sturdy.anchored.absent absent bottom] at live
      cases live
  | some place =>
      have entering := Entering.initial paired (sturdy.within.append label vector level)
        (sturdy.stands_entry_append label vector level)
        (stands_append_self g label vector level) alone arrives
      have lowest : 0 ∈ (g.append label vector level).wiredLayers level :=
        mem_wiredLayers.2 (Nat.zero_le _)
      obtain ⟨s, place, below, entering, place_true, out_eq⟩ := entering.exists_search paired alone
        (Nat.lt_of_lt_of_eq Nat.one_pos one.symm) (wiredLayers_descending _ level)
        (distance_entryOn? arrives) lowest
      have found := sturdy.ids_searchLayer_append length entering place_true number downhill
      have config_eq : s.config = g.config := entering.wiring.edits.rewired.config_eq
      have few : (s.searchLayer vector place 1 0).length ≤ g.config.maxDegree 0 := by
        have length : (s.searchLayer vector place 1 0).length = 1 := by
          simpa using congrArg List.length found
        rwa [length]
      rw [config_eq, one, chooseNeighbors, if_pos few, found] at out_eq
      dsimp only
      split
      · exact out_eq
      · exact out_eq

end Linking

/-! ### Graphs on one layer -/

/-- Put a vector into the next slot, on layer 0 only, and link it with one other node. -/
def attach (g : Graph α) (label : Label) (vector : List α) (n : Nat) : Graph α :=
  (g.append label (g.config.metric.prepare vector) 0).connect g.nodeCount 0 n

/-- There is room for a vector, and for it a search with the narrowest beam ends at the node. -/
@[mk_iff]
structure Attachable (g : Graph α) (vector : List α) (n : Nat) : Prop where
  fits : checkDimension g.config.dim.toNat vector.length = .ok ()
  room : g.isFull = false
  degree : 0 < g.config.maxDegree 0
  number : (g.config.metric.distance (g.config.metric.prepare vector)
    (g.config.metric.prepare vector)).isNaN = false
  there : g.Stands n 0
  downhill : g.Downhill (g.config.metric.prepare vector) 0 n

instance (g : Graph α) (vector : List α) (n : Nat) : Decidable (g.Attachable vector n) :=
  decidable_of_iff' _ (attachable_iff g vector n)

omit [Element α] in
theorem Agrees.append {g h : Graph α} (agrees : Agrees g h) (filled : g.Filled)
    (filled' : h.Filled) (label : Label) {vector : List α}
    (length : vector.length = g.config.dim.toNat) (low high : Nat) :
    Agrees (g.append label vector low) (h.append label vector high) where
  config_eq := agrees.config_eq
  nodeCount_eq := by rw [nodeCount_append, nodeCount_append, agrees.nodeCount_eq]
  vector?_eq id := by
    rw [vector?_append filled'.aligned label (agrees.config_eq ▸ length),
      vector?_append filled.aligned label length, agrees.nodeCount_eq, agrees.vector?_eq]
  isDeleted_eq id := by rw [isDeleted_append, isDeleted_append, agrees.isDeleted_eq]

/-- A reachable graph whose layer 0 is that of another one. -/
structure Traced (config : Config) (k g : Graph α) : Prop where
  reachable : Reachable config g
  agrees : Agrees k g
  filled : k.Filled
  listed : k.Listed
  capacity_eq : g.capacity = k.capacity
  out_eq (n : Nat) : (g.links n 0).out = (k.links n 0).out

namespace Traced

variable {config : Config} {k g : Graph α} (traced : Traced config k g)

include traced

theorem sturdy : g.Sturdy := traced.reachable.wellFormed.1.sturdy

theorem isFull_eq : g.isFull = k.isFull := by
  rw [isFull, isFull, traced.capacity_eq, traced.agrees.nodeCount_eq]

theorem downhill {query : List α} {bottom : Nat} (downhill : k.Downhill query 0 bottom) :
    g.Downhill query 0 bottom := by
  have agrees := traced.agrees
  constructor
  case numeric =>
    intro n lt
    rw [agrees.distanceTo_eq]
    exact downhill.numeric n (agrees.nodeCount_eq ▸ lt)
  case kept =>
    intro n lt
    rw [agrees.isDeleted_eq]
    exact downhill.kept n (agrees.nodeCount_eq ▸ lt)
  case nearer =>
    intro n lt other
    obtain ⟨next, edge, less⟩ := downhill.nearer n (agrees.nodeCount_eq ▸ lt) other
    rw [traced.out_eq, agrees.distanceTo_eq]
    exact ⟨next, edge, by rwa [agrees.distanceTo_eq]⟩

/-- A vector is put into the next slot of both graphs, and edges of layer 0 are made alike. -/
theorem store (multi : config.multi = true) (label : Label) {vector : List α}
    (fits : checkDimension k.config.dim.toNat vector.length = .ok ()) (room : k.isFull = false)
    {prepared : List α} (prepared_eq : k.config.metric.prepare vector = prepared) {k' : Graph α}
    (rewired : Rewired (k.append label prepared 0) k')
    (out_eq : ∀ level j, (((g.append label prepared level).wire g.nodeCount prepared level).links
      j 0).out = (k'.links j 0).out) :
    Traced config k' ((Call.insert label vector).run g) := by
  have agrees := traced.agrees
  have config_eq : g.config = config := traced.reachable.wellFormed.2
  have length : prepared.length = k.config.dim.toNat := by
    rw [← prepared_eq, Metric.length_prepare]
    exact (checkDimension_eq_ok_iff.1 fits).1
  rw [← agrees.config_eq] at fits prepared_eq
  obtain ⟨h, inserted⟩ := insert_eq_ok label fits (traced.isFull_eq.trans room)
  have reachable := traced.reachable.call (.insert label vector) fun one_only => by
    rw [config_eq, multi] at one_only
    cases one_only
  obtain ⟨_, stores⟩ := traced.sturdy.insert inserted
  obtain ⟨_, _, _, wired⟩ := eq_of_insert inserted
  rw [Call.run_insert inserted] at reachable ⊢
  rw [prepared_eq] at stores wired
  exact
    { reachable
      agrees :=
        { config_eq := by rw [stores.config_eq, rewired.config_eq, agrees.config_eq]; rfl
          nodeCount_eq := by
            rw [stores.nodeCount_eq, rewired.nodeCount_eq, nodeCount_append, agrees.nodeCount_eq]
          vector?_eq := fun j => by
            rw [stores.vector?_eq, rewired.vector?_eq,
              vector?_append traced.filled.aligned label length, agrees.nodeCount_eq,
              agrees.vector?_eq]
          isDeleted_eq := fun j => by
            rw [stores.isDeleted_eq, rewired.isDeleted_eq, isDeleted_append, agrees.isDeleted_eq] }
      filled := (traced.filled.append label length 0).rewire rewired
      listed := (traced.listed.append label prepared 0).rewire rewired
      capacity_eq := by rw [stores.capacity_eq, rewired.capacity_eq, traced.capacity_eq]; rfl
      out_eq := fun j => by rw [wired, out_eq] }

/-- The first node is linked with none. -/
theorem insert_first (multi : config.multi = true) (label : Label) (vector : List α)
    (fits : checkDimension k.config.dim.toNat vector.length = .ok ()) (room : k.isFull = false)
    (empty : k.nodeCount = 0) :
    Traced config (k.append label (k.config.metric.prepare vector) 0)
      ((Call.insert label vector).run g) := by
  apply traced.store multi label fits room rfl (.refl _)
  intro level j
  generalize k.config.metric.prepare vector = prepared
  have empty : g.nodeCount = 0 := traced.agrees.nodeCount_eq.trans empty
  have receives := (traced.sturdy.receives_append label prepared level 0).1
  have alone : ∀ n, n ∉ (((g.append label prepared level).wire g.nodeCount prepared level).links
      g.nodeCount 0).out := by
    intro n edge
    obtain ⟨other, live⟩ := receives.chosen n edge
    have lt := lt_nodeCount_of_isLive live
    rw [nodeCount_append] at lt
    omega
  rw [links_append, ← traced.out_eq]
  by_cases new : j = g.nodeCount
  · have none : g.links j 0 = {} := links_eq_empty fun stands =>
      absurd (lt_nodeCount_of_stands stands) (by omega)
    rw [none, new]
    exact List.eq_nil_iff_forall_not_mem.2 alone
  · rw [(receives.bystander j new (alone j)).1, links_append]

/-- With the narrowest beam an insertion does to layer 0 what attaching the vector does. -/
theorem insert (multi : config.multi = true) (one : config.efConstruction.toNat = 1)
    (label : Label) (vector : List α) (n : Nat) (attachable : k.Attachable vector n) :
    Traced config (k.attach label vector n) ((Call.insert label vector).run g) := by
  have sturdy := traced.sturdy
  have agrees := traced.agrees
  have config_eq : g.config = config := traced.reachable.wellFormed.2
  obtain ⟨fits, room, degree, number, there_k, downhill⟩ := attachable
  have length : (k.config.metric.prepare vector).length = k.config.dim.toNat := by
    rw [Metric.length_prepare]
    exact (checkDimension_eq_ok_iff.1 fits).1
  unfold attach
  apply traced.store multi label fits room rfl (rewired_connect ..)
  intro level j
  generalize k.config.metric.prepare vector = prepared at *
  rw [← agrees.config_eq] at degree number
  rw [← agrees.nodeCount_eq]
  have there : n < g.nodeCount := agrees.nodeCount_eq ▸ lt_nodeCount_of_stands there_k
  have other : n ≠ g.nodeCount := Nat.ne_of_lt there
  have out_new := sturdy.out_append_downhill (config_eq ▸ one) degree label
    (agrees.config_eq ▸ length) level number there (traced.downhill downhill)
  have receives := (sturdy.receives_append label prepared level 0).1
  have appended := agrees.append traced.filled sturdy.filled label length 0 level
  have alone := isolated_append_self g label prepared level
  have out_append : ∀ a, ((k.append label prepared 0).links a 0).out =
      ((g.append label prepared level).links a 0).out := by
    intro a
    rw [links_append, links_append]
    exact (traced.out_eq a).symm
  have none : ((k.append label prepared 0).links g.nodeCount 0).out = [] := by
    rw [out_append, alone 0]
  have unlinked_back : g.nodeCount ∉ ((k.append label prepared 0).links n 0).out := by
    rw [out_append]
    exact (sturdy.paired.append ..).not_mem_out alone n 0
  have here : (k.append label prepared 0).Stands g.nodeCount 0 := by
    rw [agrees.nodeCount_eq]
    exact stands_append_self k label prepared 0 0 (Nat.le_refl 0)
  have there : (k.append label prepared 0).Stands n 0 := by
    rw [Stands, layerCount_append, if_neg (agrees.nodeCount_eq ▸ other)]
    exact there_k
  rw [out_connect here there other (by rw [none]; exact List.not_mem_nil) unlinked_back, none,
    out_append, out_append, ← trimmed_congr appended]
  by_cases new : j = g.nodeCount
  · rw [if_pos new, new, out_new]
    rfl
  · rw [if_neg new]
    by_cases neighbor : j = n
    · rw [if_pos neighbor, neighbor]
      exact receives.neighbor n (out_new.symm ▸ List.mem_singleton_self n)
    · rw [if_neg neighbor]
      apply (receives.bystander j new _).1
      rw [out_new, List.mem_singleton]
      exact neighbor

/-- A mark is set on both. -/
theorem markDeleted (id : Nat) (label : Label) (own : k.label? id = some label)
    (live : k.isLive id = true) :
    Traced config (k.setMark id label) ((Call.markDeleted id).run g) := by
  obtain ⟨node, at_id, kept⟩ := isLive_eq_true_iff.1 live
  obtain rfl : node.label = label := by
    rw [label?, at_id, Option.map_some, Option.some.injEq] at own
    exact own
  have marks_k := marks_setMark traced.listed at_id kept
  obtain ⟨h, marked⟩ := markDeleted_eq_ok ((traced.agrees.isLive_eq id).trans live)
  have reachable := traced.reachable.call (.markDeleted id) trivial
  rw [Call.run_markDeleted marked] at reachable ⊢
  obtain ⟨_, marks, _⟩ := traced.sturdy.markDeleted marked
  have agrees := traced.agrees
  exact
    { reachable
      agrees :=
        { config_eq := by rw [marks.config_eq, marks_k.config_eq, agrees.config_eq]
          nodeCount_eq := by rw [marks.nodeCount_eq, marks_k.nodeCount_eq, agrees.nodeCount_eq]
          vector?_eq := fun j => by rw [marks.vector?_eq, marks_k.vector?_eq, agrees.vector?_eq]
          isDeleted_eq := fun j => by
            rw [marks.isDeleted_eq, marks_k.isDeleted_eq, agrees.isDeleted_eq] }
      filled := marks_k.filled traced.filled
      listed := marks_k.listed traced.listed
      capacity_eq := by rw [marks.capacity_eq, marks_k.capacity_eq, traced.capacity_eq]
      out_eq := fun n => by rw [marks.links_eq, marks_k.links_eq, traced.out_eq] }

end Traced

end Vicinity.Graph
