import Vicinity.Proofs.Graph.Walk

/-!
Linking a new node.

Each step of an insertion is a run of edits that keeps the degree bounds: dropping the farthest
neighbour (`edits_evictFarthest`), linking with one neighbour (`edits_connect`), linking with all
that were chosen on a layer (`foldl_connect_spec`), and the walk down the layers (`Wiring.foldl`).
The new node starts without neighbours on every layer and gains one at most with each neighbour
chosen, which is why it stays within its own bound; a neighbour that goes beyond its bound drops an
edge at once.
-/

namespace Vicinity.Graph

variable {α : Type}

/-- The layers on which a node that stands up to `level` is linked, from the highest down. -/
def wiredLayers (g : Graph α) (level : Nat) : List Nat :=
  (List.range (min level g.maxLevel + 1)).reverse

theorem mem_wiredLayers {g : Graph α} {level layer : Nat} :
    layer ∈ g.wiredLayers level ↔ layer ≤ min level g.maxLevel := by
  rw [wiredLayers, List.mem_reverse, List.mem_range, Nat.lt_succ_iff]

theorem wiredLayers_descending (g : Graph α) (level : Nat) :
    (g.wiredLayers level).Pairwise (· > ·) := List.pairwise_reverse.2 List.pairwise_lt_range

variable [Element α]

/-! ### Dropping the farthest neighbour -/

/-- A node as a candidate for the neighbours of another one. -/
def seenFrom (g : Graph α) (id n : Nat) : Candidate := ⟨g.distanceBetween id n, n⟩

/-- Whichever of two candidates is farther ranks no lower than either. -/
theorem farther_spec (g : Graph α) (id : Nat) (worst : Candidate) (n : Nat) :
    ∃ w, g.farther id (some worst) n = some w ∧ (w = worst ∨ w = g.seenFrom id n) ∧
      worst.rank ≤ w.rank ∧ (g.seenFrom id n).rank ≤ w.rank := by
  unfold farther
  dsimp only
  split
  case isTrue nearer =>
    exact ⟨worst, rfl, .inl rfl, le_refl _, (Candidate.precedes_iff.1 nearer).le⟩
  case isFalse no_nearer =>
    have le := Candidate.precedes_eq_false_iff.1 (Bool.eq_false_iff.2 no_nearer)
    exact ⟨_, rfl, .inr rfl, le, le_refl _⟩

theorem foldl_farther_spec (g : Graph α) (id : Nat) (ns : List Nat) (worst : Candidate) :
    ∃ w, ns.foldl (g.farther id) (some worst) = some w ∧
      (w = worst ∨ ∃ n ∈ ns, w = g.seenFrom id n) ∧ worst.rank ≤ w.rank ∧
        ∀ n ∈ ns, (g.seenFrom id n).rank ≤ w.rank := by
  induction ns generalizing worst with
  | nil => exact ⟨worst, rfl, .inl rfl, le_refl _, fun n mem => absurd mem List.not_mem_nil⟩
  | cons n ns ih =>
      obtain ⟨next, step, next_among, worst_le, n_le⟩ := farther_spec g id worst n
      obtain ⟨w, rest, among, next_le, all_le⟩ := ih next
      refine ⟨w, by rw [List.foldl_cons, step, rest], ?_, worst_le.trans next_le, ?_⟩
      · rcases among with rfl | ⟨m, later, same⟩
        · rcases next_among with same | same
          · exact .inl same
          · exact .inr ⟨n, List.mem_cons_self, same⟩
        · exact .inr ⟨m, List.mem_cons_of_mem _ later, same⟩
      · intro m mem
        rcases List.mem_cons.1 mem with rfl | later
        · exact n_le.trans next_le
        · exact all_le m later

/-- Of some neighbours one is the farthest, and no other is at its place in the order. -/
theorem exists_farthest (g : Graph α) (id : Nat) {ns : List Nat} (some_neighbor : ns ≠ []) :
    ∃ n ∈ ns, ns.foldl (g.farther id) none = some (g.seenFrom id n) ∧
      ∀ m ∈ ns, m ≠ n → (g.seenFrom id m).precedes (g.seenFrom id n) = true := by
  obtain ⟨first, rest, rfl⟩ := List.exists_cons_of_ne_nil some_neighbor
  obtain ⟨w, eq, among, first_le, rest_le⟩ :=
    foldl_farther_spec g id rest (g.seenFrom id first)
  obtain ⟨n, mem, rfl⟩ : ∃ n ∈ first :: rest, w = g.seenFrom id n := by
    rcases among with same | ⟨n, later, same⟩
    · exact ⟨first, List.mem_cons_self, same⟩
    · exact ⟨n, List.mem_cons_of_mem _ later, same⟩
  refine ⟨n, mem, eq, fun m mem_m other => Candidate.precedes_iff.2 ?_⟩
  have le : (g.seenFrom id m).rank ≤ (g.seenFrom id n).rank := by
    rcases List.mem_cons.1 mem_m with rfl | later
    · exact first_le
    · exact rest_le m later
  refine lt_of_le_of_ne le fun same => other ?_
  exact congrArg (fun rank => (ofLex rank).2) same

/-- The farthest neighbour is a neighbour, and there is one when there are neighbours. -/
theorem farthest?_spec (g : Graph α) (id layer : Nat) :
    (∀ c, g.farthest? id layer = some c → c.id ∈ (g.links id layer).out) ∧
      ((g.links id layer).out ≠ [] → (g.farthest? id layer).isSome) := by
  unfold farthest?
  by_cases none : (g.links id layer).out = []
  · simp [none]
  · obtain ⟨n, mem, eq, _⟩ := exists_farthest g id none
    rw [eq]
    refine ⟨fun c same => ?_, fun _ => rfl⟩
    cases same
    exact mem

theorem edits_evictFarthest (g : Graph α) (id layer : Nat) :
    g.Edits (g.evictFarthest id layer) := by
  unfold evictFarthest
  split
  · exact .removeEdge _ _ _ .refl
  · exact .refl

theorem Isolated.evictFarthest {g : Graph α} {d : Nat} (isolated : g.Isolated d)
    (id layer : Nat) : (g.evictFarthest id layer).Isolated d := by
  unfold Graph.evictFarthest
  split
  · exact isolated.removeEdge _ _ _
  · exact isolated

theorem links_evictFarthest_of_ne (g : Graph α) (id : Nat) {layer j k : Nat} (ne : layer ≠ k) :
    (g.evictFarthest id layer).links j k = g.links j k := by
  unfold evictFarthest
  split
  · exact links_removeEdge_of_ne g _ _ ne
  · rfl

theorem length_out_evictFarthest_le (g : Graph α) (id layer j k : Nat) :
    ((g.evictFarthest id layer).links j k).out.length ≤ (g.links j k).out.length := by
  unfold evictFarthest
  split
  · exact (out_removeEdge_sublist ..).length_le
  · exact Nat.le_refl _

/-- A node with neighbours has one fewer afterwards. -/
theorem length_out_evictFarthest_lt {g : Graph α} {id layer : Nat}
    (some_edge : (g.links id layer).out ≠ []) :
    ((g.evictFarthest id layer).links id layer).out.length < (g.links id layer).out.length := by
  obtain ⟨mem, found⟩ := farthest?_spec g id layer
  unfold evictFarthest
  cases victim : g.farthest? id layer with
  | none => simp [victim] at found; contradiction
  | some c =>
      dsimp only
      rw [links_removeEdge, if_pos ⟨rfl, rfl⟩]
      exact List.length_filter_lt_length_iff_exists.2 ⟨c.id, mem c victim, by simp⟩

/-! ### Linking with one neighbour -/

theorem rewired_connect (g : Graph α) (id layer n : Nat) : Rewired g (g.connect id layer n) := by
  have both := (rewired_addEdge g id n layer).trans (rewired_addEdge _ n id layer)
  unfold connect
  dsimp only
  split
  · exact both.trans (edits_evictFarthest ..).rewired
  · exact both

theorem edits_connect {g : Graph α} {id layer n : Nat} (here : g.Stands id layer)
    (there : g.Stands n layer) : g.Edits (g.connect id layer n) := by
  have rewired := rewired_addEdge g id n layer
  have both : g.Edits ((g.addEdge id n layer).addEdge n id layer) :=
    (Edits.refl.addEdge here there).addEdge ((rewired.stands_iff ..).2 there)
      ((rewired.stands_iff ..).2 here)
  unfold connect
  dsimp only
  split
  · exact both.trans (edits_evictFarthest ..)
  · exact both

/-- A node that is neither of the two stays without edges. -/
theorem Isolated.connect {g : Graph α} {d id n : Nat} (isolated : g.Isolated d) (id_ne : id ≠ d)
    (n_ne : n ≠ d) (layer : Nat) : (g.connect id layer n).Isolated d := by
  have both := (isolated.addEdge id_ne n_ne layer).addEdge n_ne id_ne layer
  unfold Graph.connect
  dsimp only
  split
  · exact both.evictFarthest _ _
  · exact both

theorem links_connect_of_ne (g : Graph α) (id n : Nat) {layer j k : Nat} (ne : layer ≠ k) :
    (g.connect id layer n).links j k = g.links j k := by
  have both : ((g.addEdge id n layer).addEdge n id layer).links j k = g.links j k := by
    rw [links_addEdge_of_off _ (.inr ne), links_addEdge_of_off _ (.inr ne)]
  unfold connect
  dsimp only
  split
  · rw [links_evictFarthest_of_ne _ _ ne, both]
  · exact both

/-- The new node gains one neighbour at most. -/
theorem length_out_connect_self {g : Graph α} {id layer n : Nat} (here : g.Stands id layer)
    (there : g.Stands n layer) :
    ((g.connect id layer n).links id layer).out.length ≤
      (g.links id layer).out.length + 1 := by
  have there' := ((rewired_addEdge g id n layer).stands_iff n layer).2 there
  have both : (((g.addEdge id n layer).addEdge n id layer).links id layer).out.length ≤
      (g.links id layer).out.length + 1 := by
    by_cases same : n = id
    · subst same
      simp [Graph.addEdge]
    · have first := length_out_addEdge_le here n id layer
      have second := length_out_addEdge_le there' id id layer
      rw [if_neg fun h => same h.1] at second
      rw [if_pos ⟨rfl, rfl⟩] at first
      omega
  unfold connect
  dsimp only
  split
  · exact Nat.le_trans (length_out_evictFarthest_le ..) both
  · exact both

/-- A node within its bound stays there, the new one apart: the neighbour drops an edge when it has
too many. -/
theorem length_out_connect_other {g : Graph α} {id layer n j : Nat} (here : g.Stands id layer)
    (there : g.Stands n layer) (ne : j ≠ id)
    (within : (g.links j layer).out.length ≤ g.config.maxDegree layer) :
    ((g.connect id layer n).links j layer).out.length ≤ g.config.maxDegree layer := by
  have there' := ((rewired_addEdge g id n layer).stands_iff n layer).2 there
  have first := length_out_addEdge_le here n j layer
  have second := length_out_addEdge_le there' id j layer
  rw [if_neg fun h => ne h.1.symm] at first
  unfold connect
  dsimp only
  split
  case isTrue excess =>
    by_cases neighbor : n = j
    · subst neighbor
      rw [if_pos ⟨rfl, rfl⟩] at second
      have edges : (((g.addEdge id n layer).addEdge n id layer).links n layer).out ≠ [] := by
        intro none
        rw [none] at excess
        exact Nat.not_lt_zero _ excess
      have dropped := length_out_evictFarthest_lt edges
      omega
    · rw [if_neg fun h => neighbor h.1] at second
      have := length_out_evictFarthest_le ((g.addEdge id n layer).addEdge n id layer) n layer j
        layer
      omega
  case isFalse fits =>
    by_cases neighbor : n = j
    · subst neighbor
      exact Nat.not_lt.1 fits
    · rw [if_neg fun h => neighbor h.1] at second
      omega

/-! ### Linking on one layer -/

theorem rewired_foldl_connect (g : Graph α) (id layer : Nat) (ns : List Nat) :
    Rewired g (ns.foldl (fun g n => g.connect id layer n) g) :=
  Rewired.foldl (fun g n => rewired_connect g id layer n) g ns

theorem links_foldl_connect_of_ne (g : Graph α) (id : Nat) (ns : List Nat) {layer k : Nat}
    (ne : layer ≠ k) (j : Nat) :
    (ns.foldl (fun g n => g.connect id layer n) g).links j k = g.links j k := by
  induction ns generalizing g with
  | nil => rfl
  | cons n ns ih => rw [List.foldl_cons, ih, links_connect_of_ne g id n ne]

/-- A new node with room for all of them is linked with each of the neighbours. -/
theorem foldl_connect_spec {g : Graph α} (within : g.WithinDegree) {id layer : Nat}
    (here : g.Stands id layer) {ns : List Nat} (there : ∀ n ∈ ns, g.Stands n layer)
    (room : (g.links id layer).out.length + ns.length ≤ g.config.maxDegree layer) :
    g.Edits (ns.foldl (fun g n => g.connect id layer n) g) ∧
      (ns.foldl (fun g n => g.connect id layer n) g).WithinDegree := by
  induction ns generalizing g with
  | nil => exact ⟨.refl, within⟩
  | cons n ns ih =>
      have rewired := rewired_connect g id layer n
      have n_stands := there n List.mem_cons_self
      have gained := length_out_connect_self here n_stands
      rw [List.length_cons] at room
      have within' : (g.connect id layer n).WithinDegree := by
        intro j k
        rw [rewired.config_eq]
        by_cases on_layer : layer = k
        · subst on_layer
          by_cases same : j = id
          · subst same
            omega
          · exact length_out_connect_other here n_stands same (within j layer)
        · rw [links_connect_of_ne g id n on_layer]
          exact within j k
      have rest := ih within' ((rewired.stands_iff ..).2 here)
        (fun m mem => (rewired.stands_iff ..).2 (there m (List.mem_cons_of_mem _ mem)))
        (by rw [rewired.config_eq]; omega)
      exact ⟨(edits_connect here n_stands).trans rest.1, rest.2⟩

theorem Isolated.foldl_connect {g : Graph α} {d id : Nat} (isolated : g.Isolated d)
    (id_ne : id ≠ d) {ns : List Nat} (ns_ne : ∀ n ∈ ns, n ≠ d) (layer : Nat) :
    (ns.foldl (fun g n => g.connect id layer n) g).Isolated d := by
  induction ns generalizing g with
  | nil => exact isolated
  | cons n ns ih =>
      exact ih (isolated.connect id_ne (ns_ne n List.mem_cons_self) layer)
        (fun m mem => ns_ne m (List.mem_cons_of_mem _ mem))

/-- What holds of a new node before the layers of the list, from the highest down: it has no
neighbours there, and it stands there as well as the place where the next search starts. -/
structure Wiring (g : Graph α) (id : Nat) (layers : List Nat) (state : Graph α × Candidate) :
    Prop where
  edits : g.Edits state.1
  paired : state.1.Paired
  within : state.1.WithinDegree
  fresh : ∀ layer ∈ layers, (state.1.links id layer).out = []
  here : ∀ layer ∈ layers, state.1.Stands id layer
  start : ∀ layer ∈ layers, state.1.Stands state.2.id layer

theorem rewired_connectLayer (id : Nat) (vector : List α) (state : Graph α × Candidate)
    (layer : Nat) : Rewired state.1 (connectLayer id vector state layer).1 :=
  rewired_foldl_connect ..

theorem Wiring.connectLayer {base : Graph α} {id layer : Nat} {layers : List Nat}
    {state : Graph α × Candidate} (wiring : base.Wiring id (layer :: layers) state)
    (below : ∀ l ∈ layers, l < layer) (vector : List α) :
    base.Wiring id layers (connectLayer id vector state layer) := by
  obtain ⟨g, place⟩ := state
  have rewired := rewired_connectLayer id vector (g, place) layer
  have here := wiring.here layer List.mem_cons_self
  have found_stands : ∀ c ∈ g.searchLayer vector place g.config.efConstruction.toNat layer,
      g.Stands c.id layer := fun c found =>
    (searchLayer_keeps (wiring.paired.passes_stands layer) vector _
      (wiring.start layer List.mem_cons_self) found).1
  obtain ⟨among, few⟩ := chooseNeighbors_spec g (g.config.maxDegree layer)
    (g.searchLayer vector place g.config.efConstruction.toNat layer)
  have there : ∀ n ∈ g.chooseNeighbors (g.config.maxDegree layer)
      (g.searchLayer vector place g.config.efConstruction.toNat layer), g.Stands n layer := by
    intro n chosen
    obtain ⟨c, found, rfl⟩ := among n chosen
    exact found_stands c found
  obtain ⟨edits, within⟩ := foldl_connect_spec wiring.within here there (by
    rw [wiring.fresh layer List.mem_cons_self]
    simpa using few)
  refine ⟨wiring.edits.trans edits, edits.paired wiring.paired, within, fun l mem => ?_,
    fun l mem => ?_, fun l mem => ?_⟩
  · have ne : layer ≠ l := Nat.ne_of_gt (below l mem)
    exact (congrArg Links.out (links_foldl_connect_of_ne g id _ ne id)).trans
      (wiring.fresh l (List.mem_cons_of_mem _ mem))
  · exact (rewired.stands_iff ..).2 (wiring.here l (List.mem_cons_of_mem _ mem))
  · refine (rewired.stands_iff ..).2 ?_
    show g.Stands ((g.searchLayer vector place _ layer).head?.getD place).id l
    cases first : (g.searchLayer vector place g.config.efConstruction.toNat layer).head? with
    | none => exact wiring.start l (List.mem_cons_of_mem _ mem)
    | some c =>
        exact (found_stands c (List.mem_of_head? first)).mono (Nat.le_of_lt (below l mem))

/-! ### Linking on all layers -/

/-- A node without edges can be linked from where the descent for it ended. -/
theorem Wiring.initial {g : Graph α} (paired : g.Paired) (within : g.WithinDegree) {id level : Nat}
    (entry : ∀ e, g.entryPoint = some e → g.Stands e g.maxLevel)
    (here : ∀ layer, layer ≤ level → g.Stands id layer) (fresh : g.Isolated id)
    {vector : List α} {place : Candidate} (arrives : g.entryOn? vector level = some place) :
    g.Wiring id (g.wiredLayers level) (g, place) := by
  have low : ∀ l ∈ g.wiredLayers level, l ≤ min level g.maxLevel := fun _ => mem_wiredLayers.1
  have arrived : g.Stands place.id (min level g.maxLevel) := by
    by_cases le : level ≤ g.maxLevel
    · rw [Nat.min_eq_left le]
      exact stands_entryOn? paired arrives entry le
    · have le := Nat.le_of_lt (Nat.not_le.1 le)
      rw [entryOn?_of_le vector le] at arrives
      obtain ⟨e, at_entry, rfl⟩ := Option.map_eq_some_iff.1 arrives
      rw [Nat.min_eq_right le]
      exact entry e at_entry
  exact
    { edits := .refl, paired, within
      fresh := fun l _ => by rw [show (g, place).1.links id l = {} from fresh l]
      here := fun l mem => here l (Nat.le_trans (low l mem) (Nat.min_le_left ..))
      start := fun l mem => arrived.mono (low l mem) }

theorem Wiring.foldl {g : Graph α} {id : Nat} {layers : List Nat}
    (descending : layers.Pairwise (· > ·)) {state : Graph α × Candidate}
    (wiring : g.Wiring id layers state) (vector : List α) :
    g.Wiring id [] (layers.foldl (Graph.connectLayer id vector) state) := by
  induction layers generalizing state with
  | nil => exact wiring
  | cons layer layers ih =>
      rw [List.pairwise_cons] at descending
      exact ih descending.2 (wiring.connectLayer descending.1 vector)

/-- A deleted node without edges gets none from a new node. -/
theorem Isolated.foldl_connectLayer {d id : Nat} (ne : id ≠ d) (vector : List α)
    (layers : List Nat) {state : Graph α × Candidate} (deleted : state.1.isDeleted d = true)
    (isolated : state.1.Isolated d) :
    (layers.foldl (connectLayer id vector) state).1.Isolated d := by
  induction layers generalizing state with
  | nil => exact isolated
  | cons layer layers ih =>
      obtain ⟨g, place⟩ := state
      have rewired := rewired_connectLayer id vector (g, place) layer
      apply ih ((rewired.isDeleted_eq d).trans deleted)
      -- Only live nodes are found, so only live nodes are chosen.
      have chosen_ne : ∀ n ∈ g.chooseNeighbors (g.config.maxDegree layer)
          (g.searchLayer vector place g.config.efConstruction.toNat layer), n ≠ d := by
        rintro n chosen rfl
        obtain ⟨c, found, rfl⟩ := (chooseNeighbors_spec ..).1 n chosen
        have anywhere : g.Passes layer fun _ => True := fun _ _ _ _ => trivial
        have live := (searchLayer_keeps anywhere vector _ trivial found).2
        rw [live] at deleted
        cases deleted
      exact isolated.foldl_connect ne chosen_ne layer

end Vicinity.Graph
