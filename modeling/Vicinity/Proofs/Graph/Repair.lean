import Vicinity.Proofs.Graph.Marking

/-!
Repairing a deleted node keeps a graph well-formed and leaves the node without edges.

A repair works layer by layer. On each the node loses its incoming edges one after the other, and a
live node that lost its edge is offered replacements at once (`Offers`); then the node drops the
edges of its own. Replacements are live, so nothing that was taken from a deleted node comes back
and deleted nodes without edges stay so (`repairLayer_spec`). All of it is a run of edits
(`repair_spec`). What callers use is `Sturdy.repair` and `WellFormed.repair`.
-/

namespace Vicinity.Graph

variable {α : Type}

/-! ### Offering replacements -/

/-- What a graph looks like once a node was offered new neighbours on a layer: edges from it to live
nodes are all that may have been added. -/
structure Offers (g : Graph α) (id layer : Nat) (h : Graph α) : Prop where
  edits : g.Edits h
  apart : ∀ j k, layer ≠ k → h.links j k = g.links j k
  out_eq : ∀ j, j ≠ id → (h.links j layer).out = (g.links j layer).out
  kept : ∀ j, j ≠ id → g.isLive j = false → h.links j layer = g.links j layer

theorem Offers.rewired {g h : Graph α} {id layer : Nat} (offers : g.Offers id layer h) :
    Rewired g h := offers.edits.rewired

theorem Offers.refl (g : Graph α) (id layer : Nat) : g.Offers id layer g :=
  ⟨.refl, fun _ _ _ => rfl, fun _ _ => rfl, fun _ _ _ => rfl⟩

/-- One more edge from the node to a live one. -/
theorem Offers.addEdge {g h : Graph α} {id layer : Nat} (offers : g.Offers id layer h)
    (here : g.Stands id layer) {target : Nat} (there : g.Stands target layer)
    (live : g.isLive target = true) : g.Offers id layer (h.addEdge id target layer) where
  edits := offers.edits.addEdge ((offers.rewired.stands_iff ..).2 here)
    ((offers.rewired.stands_iff ..).2 there)
  apart j k ne := by
    rw [links_addEdge_of_off _ (.inr ne)]
    exact offers.apart j k ne
  out_eq j ne := by
    rw [out_addEdge ((offers.rewired.stands_iff ..).2 here), if_neg fun h => ne h.1.symm]
    exact offers.out_eq j ne
  kept j ne dead := by
    have other : target ≠ j := by
      rintro rfl
      rw [live] at dead
      cases dead
    rw [links_addEdge_of_off _ (.inl ⟨Ne.symm ne, other⟩)]
    exact offers.kept j ne dead

section Replacements

variable [Element α]

/-- What holds while candidates are offered: the node has no more neighbours than were chosen, and
no more were chosen than it may have. -/
structure Offering (g : Graph α) (id layer cap : Nat) (state : Graph α × List Nat) : Prop where
  offers : g.Offers id layer state.1
  counted : (state.1.links id layer).out.length ≤ state.2.length
  few : state.2.length ≤ cap

theorem Offering.accept {g : Graph α} {id layer cap : Nat} {state : Graph α × List Nat}
    (offering : g.Offering id layer cap state) (here : g.Stands id layer) {c : Candidate}
    (there : g.Stands c.id layer) (live : g.isLive c.id = true) :
    g.Offering id layer cap (accept id layer cap state c) := by
  obtain ⟨h, chosen⟩ := state
  unfold Graph.accept
  dsimp only
  split
  case isTrue taken =>
    simp only [Bool.and_eq_true, decide_eq_true_eq] at taken
    have here' : h.Stands id layer := (offering.offers.rewired.stands_iff ..).2 here
    have gained := length_out_addEdge_le here' c.id id layer
    rw [if_pos ⟨rfl, rfl⟩] at gained
    have counted : (h.links id layer).out.length ≤ chosen.length := offering.counted
    refine ⟨offering.offers.addEdge here there live, ?_, ?_⟩
    · simp only [List.length_append, List.length_singleton]
      omega
    · simp only [List.length_append, List.length_singleton]
      exact taken.1
  case isFalse => exact offering

theorem Offering.foldl_accept {g : Graph α} {id layer cap : Nat} (here : g.Stands id layer)
    {candidates : List Candidate} (there : ∀ c ∈ candidates, g.Stands c.id layer)
    (live : ∀ c ∈ candidates, g.isLive c.id = true) {state : Graph α × List Nat}
    (offering : g.Offering id layer cap state) :
    g.Offering id layer cap (candidates.foldl (Graph.accept id layer cap) state) := by
  induction candidates generalizing state with
  | nil => exact offering
  | cons c candidates ih =>
      exact ih (fun d mem => there d (List.mem_cons_of_mem _ mem))
        (fun d mem => live d (List.mem_cons_of_mem _ mem))
        (offering.accept here (there c List.mem_cons_self) (live c List.mem_cons_self))

/-- Candidates are live replacements. -/
theorem mem_candidatesFor {g : Graph α} {id : Nat} {existing replacements : List Nat}
    {c : Candidate} (mem : c ∈ g.candidatesFor id existing replacements) :
    c.id ∈ replacements ∧ g.isLive c.id = true := by
  obtain ⟨r, kept, rfl⟩ := List.mem_map.1 ((Sorting.sortBy_perm ..).mem_iff.1 mem)
  obtain ⟨among, passed⟩ := List.mem_filter.1 kept
  simp only [Bool.and_eq_true] at passed
  exact ⟨among, passed.1.2⟩

/-- A node within its bound is offered replacements and stays there. -/
theorem reconnect_spec {g : Graph α} {id layer : Nat}
    (within : (g.links id layer).out.length ≤ g.config.maxDegree layer)
    (here : g.Stands id layer) {replacements : List Nat}
    (there : ∀ c ∈ replacements, g.Stands c layer) :
    g.Offers id layer (g.reconnect replacements layer id) ∧
      ((g.reconnect replacements layer id).links id layer).out.length ≤
        g.config.maxDegree layer := by
  unfold reconnect
  dsimp only
  split
  case isTrue => exact ⟨.refl g id layer, within⟩
  case isFalse room =>
    have offered : ∀ c ∈ g.candidatesFor id (g.links id layer).out replacements,
        c.id ∈ replacements ∧ g.isLive c.id = true := fun _ => mem_candidatesFor
    generalize g.candidatesFor id (g.links id layer).out replacements = candidates at offered ⊢
    have start : g.Offering id layer (g.config.maxDegree layer) (g, (g.links id layer).out) :=
      ⟨.refl g id layer, Nat.le_refl _, within⟩
    have done := start.foldl_accept here
      (fun c (mem : c ∈ candidates) => there c.id (offered c mem).1)
      (fun c mem => (offered c mem).2)
    split
    case h_1 c rest none =>
      obtain ⟨among, live⟩ := offered c List.mem_cons_self
      have gained :=
        length_out_addEdge_le ((done.offers.rewired.stands_iff ..).2 here) c.id id layer
      have counted := done.counted
      rw [if_pos ⟨rfl, rfl⟩] at gained
      rw [none] at counted
      simp only [List.length_nil] at counted
      exact ⟨done.offers.addEdge here (there c.id among) live, by omega⟩
    case h_2 => exact ⟨done.offers, Nat.le_trans done.counted done.few⟩

end Replacements

/-! ### Isolating a node on one layer -/

/-- What holds while a node is isolated on a layer: the edges that may be left are those from and to
the nodes of two lists, nothing changed on other layers, and nodes without edges that are not live
got none. -/
structure Detaching (g : Graph α) (id layer : Nat) (sources targets : List Nat) (h : Graph α) :
    Prop where
  edits : g.Edits h
  within : h.WithinDegree
  apart : ∀ j k, layer ≠ k → h.links j k = g.links j k
  out_subset : ∀ n ∈ (h.links id layer).out, n ∈ targets
  incoming_subset : ∀ n ∈ (h.links id layer).incoming, n ∈ sources
  bare : ∀ d, g.isLive d = false → g.links d layer = {} → h.links d layer = {}

theorem Detaching.rewired {g h : Graph α} {id layer : Nat} {sources targets : List Nat}
    (detaching : g.Detaching id layer sources targets h) : Rewired g h := detaching.edits.rewired

/-- An edge to the node is taken away. -/
theorem Detaching.removeIncoming {g h : Graph α} {id layer n : Nat} {sources targets : List Nat}
    (detaching : g.Detaching id layer (n :: sources) targets h) :
    g.Detaching id layer sources targets (h.removeEdge n id layer) where
  edits := detaching.edits.removeEdge ..
  within := detaching.within.removeEdge _ _ _
  apart j k ne := by
    rw [links_removeEdge_of_ne h n id ne]
    exact detaching.apart j k ne
  out_subset m mem := detaching.out_subset m ((out_removeEdge_sublist ..).subset mem)
  incoming_subset m mem := by
    obtain ⟨old, other⟩ := (mem_incoming_removeEdge ..).1 mem
    rcases List.mem_cons.1 (detaching.incoming_subset m old) with rfl | later
    · exact absurd ⟨rfl, rfl, rfl⟩ other
    · exact later
  bare d dead empty := by
    rw [links_removeEdge, detaching.bare d dead empty]
    simp

/-- An edge of the node is taken away. -/
theorem Detaching.removeOut {g h : Graph α} {id layer c : Nat} {sources targets : List Nat}
    (detaching : g.Detaching id layer sources (c :: targets) h) :
    g.Detaching id layer sources targets (h.removeEdge id c layer) where
  edits := detaching.edits.removeEdge ..
  within := detaching.within.removeEdge _ _ _
  apart j k ne := by
    rw [links_removeEdge_of_ne h id c ne]
    exact detaching.apart j k ne
  out_subset m mem := by
    obtain ⟨old, other⟩ := (mem_out_removeEdge ..).1 mem
    rcases List.mem_cons.1 (detaching.out_subset m old) with rfl | later
    · exact absurd ⟨rfl, rfl, rfl⟩ other
    · exact later
  incoming_subset m mem :=
    detaching.incoming_subset m ((incoming_removeEdge_sublist ..).subset mem)
  bare d dead empty := by
    rw [links_removeEdge, detaching.bare d dead empty]
    simp

/-- A live node is offered replacements for its edge to the node, which is not live. -/
theorem Detaching.offers {g h k : Graph α} {id layer n : Nat} {sources targets : List Nat}
    (detaching : g.Detaching id layer sources targets h) (dead : g.isLive id = false)
    (live : g.isLive n = true) (offers : h.Offers n layer k)
    (within : (k.links n layer).out.length ≤ h.config.maxDegree layer) :
    g.Detaching id layer sources targets k := by
  have other : ∀ d, g.isLive d = false → d ≠ n := by
    rintro d dead rfl
    rw [live] at dead
    cases dead
  have kept : ∀ d, g.isLive d = false → k.links d layer = h.links d layer := fun d dead =>
    offers.kept d (other d dead) ((detaching.rewired.isLive_eq d).trans dead)
  refine ⟨detaching.edits.trans offers.edits, fun j l => ?_, fun j l ne => ?_,
    fun m mem => ?_, fun m mem => ?_, fun d dead empty => ?_⟩
  · rw [offers.rewired.config_eq]
    by_cases here : layer = l
    · subst here
      by_cases same : j = n
      · subst same
        exact within
      · rw [offers.out_eq j same]
        exact detaching.within j layer
    · rw [offers.apart j l here]
      exact detaching.within j l
  · rw [offers.apart j l ne]
    exact detaching.apart j l ne
  · rw [kept id dead] at mem
    exact detaching.out_subset m mem
  · rw [kept id dead] at mem
    exact detaching.incoming_subset m mem
  · rw [kept d dead]
    exact detaching.bare d dead empty

theorem Detaching.foldl_removeOut {g h : Graph α} {id layer : Nat} {targets : List Nat}
    (detaching : g.Detaching id layer [] targets h) :
    g.Detaching id layer [] [] (targets.foldl (fun g c => g.removeEdge id c layer) h) := by
  induction targets generalizing h with
  | nil => exact detaching
  | cons c targets ih => exact ih detaching.removeOut

variable [Element α]

theorem Detaching.unlink {g h : Graph α} {id layer n : Nat} {sources targets : List Nat}
    (detaching : g.Detaching id layer (n :: sources) targets h) (dead : g.isLive id = false)
    (here : g.Stands n layer) (there : ∀ c ∈ targets, g.Stands c layer) :
    g.Detaching id layer sources targets (unlink id layer targets h n) := by
  have removed := detaching.removeIncoming
  unfold Graph.unlink
  dsimp only
  split
  case isTrue => exact removed
  case isFalse kept =>
    have here := (removed.rewired.stands_iff n layer).2 here
    have live : g.isLive n = true := by
      rw [← removed.rewired.isLive_eq]
      exact isLive_of_not_isDeleted (lt_nodeCount_of_stands here) (Bool.eq_false_iff.2 kept)
    obtain ⟨offers, few⟩ := reconnect_spec (removed.within n layer) here
      (fun c mem => (removed.rewired.stands_iff c layer).2 (there c mem))
    exact removed.offers dead live offers few

theorem Detaching.foldl_unlink {g h : Graph α} {id layer : Nat} {sources targets : List Nat}
    (detaching : g.Detaching id layer sources targets h) (dead : g.isLive id = false)
    (here : ∀ n ∈ sources, g.Stands n layer) (there : ∀ c ∈ targets, g.Stands c layer) :
    g.Detaching id layer [] targets (sources.foldl (Graph.unlink id layer targets) h) := by
  induction sources generalizing h with
  | nil => exact detaching
  | cons n sources ih =>
      exact ih (detaching.unlink dead (here n List.mem_cons_self) there)
        (fun m mem => here m (List.mem_cons_of_mem _ mem))

/-- A deleted node has no edges left on the layer that was repaired. -/
theorem repairLayer_spec {g : Graph α} (paired : g.Paired) (within : g.WithinDegree)
    {id : Nat} (dead : g.isLive id = false) (layer : Nat) :
    g.Detaching id layer [] [] (g.repairLayer id layer) ∧
      (g.repairLayer id layer).links id layer = {} := by
  have start : g.Detaching id layer (g.links id layer).incoming (g.links id layer).out g :=
    ⟨.refl, within, fun _ _ _ => rfl, fun _ mem => mem, fun _ mem => mem, fun _ _ empty => empty⟩
  have done := (start.foldl_unlink dead (fun _ edge => paired.stands_source edge)
    (fun _ edge => paired.stands_target edge)).foldl_removeOut
  have done : g.Detaching id layer [] [] (g.repairLayer id layer) := done
  refine ⟨done, ?_⟩
  have no_out := List.eq_nil_iff_forall_not_mem.2 fun n mem => by cases done.out_subset n mem
  have no_incoming := List.eq_nil_iff_forall_not_mem.2 fun n mem => by
    cases done.incoming_subset n mem
  cases links : (g.repairLayer id layer).links id layer with
  | mk out incoming =>
      rw [links] at no_out no_incoming
      rw [show out = [] from no_out, show incoming = [] from no_incoming]

/-! ### Isolating a node -/

/-- What holds while the layers of a node are repaired: those passed hold no edges of it. -/
structure Repairing (g : Graph α) (id : Nat) (passed : Nat → Prop) (h : Graph α) : Prop where
  edits : g.Edits h
  within : h.WithinDegree
  empty : ∀ layer, passed layer → h.links id layer = {}
  isolated : ∀ d, g.isLive d = false → g.Isolated d → h.Isolated d

omit [Element α] in
theorem Repairing.rewired {g h : Graph α} {id : Nat} {passed : Nat → Prop}
    (repairing : g.Repairing id passed h) : Rewired g h := repairing.edits.rewired

theorem Repairing.repairLayer {g h : Graph α} {id : Nat} {passed : Nat → Prop}
    (repairing : g.Repairing id passed h) (paired : g.Paired) (dead : g.isLive id = false)
    (layer : Nat) :
    g.Repairing id (fun k => passed k ∨ k = layer) (h.repairLayer id layer) := by
  have dead_eq : ∀ d, h.isLive d = g.isLive d := repairing.rewired.isLive_eq
  obtain ⟨done, emptied⟩ := repairLayer_spec (repairing.edits.paired paired) repairing.within
    ((dead_eq id).trans dead) layer
  refine ⟨repairing.edits.trans done.edits, done.within, fun k passed => ?_,
    fun d dead_d alone k => ?_⟩
  · by_cases here : layer = k
    · rw [← here]
      exact emptied
    · rw [done.apart id k here]
      exact repairing.empty k (passed.resolve_right fun h => here h.symm)
  · have before := repairing.isolated d dead_d alone
    by_cases here : layer = k
    · rw [← here]
      exact done.bare d ((dead_eq d).trans dead_d) (before layer)
    · rw [done.apart d k here]
      exact before k

theorem Repairing.foldl_repairLayer {g h : Graph α} {id : Nat} (paired : g.Paired)
    (dead : g.isLive id = false) (layers : List Nat) {passed : Nat → Prop}
    (repairing : g.Repairing id passed h) :
    g.Repairing id (fun k => passed k ∨ k ∈ layers)
      (layers.foldl (fun g layer => g.repairLayer id layer) h) := by
  induction layers generalizing h passed with
  | nil => simpa using repairing
  | cons layer layers ih =>
      have := ih (repairing.repairLayer paired dead layer)
      simp only [or_assoc, ← List.mem_cons] at this
      exact this

/-- A repair is a run of edits. It leaves its node without edges and gives none to other deleted
nodes. -/
theorem repair_spec {g h : Graph α} (paired : g.Paired) (within : g.WithinDegree) {id : Nat}
    (repaired : g.repair id = .ok h) :
    g.Edits h ∧ h.WithinDegree ∧ h.Isolated id ∧ g.isDeleted id = true ∧
      ∀ d, g.isLive d = false → g.Isolated d → h.Isolated d := by
  unfold Graph.repair at repaired
  split at repaired
  · contradiction
  case h_2 node at_id =>
    split at repaired
    · contradiction
    case isFalse deleted =>
      cases repaired
      have deleted : g.isDeleted id = true := by simpa [isDeleted, at_id] using deleted
      have lt := lt_nodeCount_of_isDeleted deleted
      have dead := (isLive_eq_false_iff lt).2 deleted
      have start : g.Repairing id (fun _ => False) g :=
        ⟨.refl, within, fun _ absurd => absurd.elim, fun _ _ alone => alone⟩
      have done := start.foldl_repairLayer paired dead (List.range node.layers.length)
      refine ⟨done.edits, done.within, fun layer => ?_, deleted, done.isolated⟩
      by_cases stands : g.Stands id layer
      · rw [Stands, layerCount_of_getElem? at_id] at stands
        exact done.empty layer (.inr (List.mem_range.2 stands))
      · exact links_eq_empty (mt (done.rewired.stands_iff ..).1 stands)

theorem Sturdy.repair {g h : Graph α} (sturdy : g.Sturdy) {id : Nat}
    (repaired : g.repair id = .ok h) : h.Sturdy ∧ g.Edits h := by
  obtain ⟨edits, within, _⟩ := repair_spec sturdy.paired sturdy.within repaired
  exact ⟨sturdy.rewire edits.rewired (edits.paired sturdy.paired) within, edits⟩

theorem WellFormed.repair {g h : Graph α} (wf : g.WellFormed) {id : Nat}
    (repaired : g.repair id = .ok h) :
    h.WellFormed ∧ Rewired g h ∧ h.Isolated id ∧ g.isDeleted id = true ∧
      ∀ d, g.isLive d = false → g.Isolated d → h.Isolated d := by
  obtain ⟨edits, within, rest⟩ := repair_spec wf.linked.toPaired wf.within repaired
  exact ⟨wf.rewire edits.rewired (edits.linked wf.linked) within, edits.rewired, rest⟩

/-- Exactly the deleted nodes can be repaired. -/
theorem repair_eq_ok {g : Graph α} {id : Nat} (deleted : g.isDeleted id = true) :
    ∃ h, g.repair id = .ok h := by
  obtain ⟨node, at_id, marked⟩ := isDeleted_eq_true_iff.1 deleted
  simp only [Graph.repair, at_id, marked]
  exact ⟨_, rfl⟩

end Vicinity.Graph
