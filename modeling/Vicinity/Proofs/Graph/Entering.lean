import Vicinity.Proofs.Graph.LayerSearch
import Vicinity.Proofs.Graph.Refilling

/-!
Which edges an insertion makes and which it drops.

On each of its layers a new node is linked both ways with the nodes chosen for it. One of these that
has too many neighbours then drops the farthest, which may be the new node itself
(`trimmed`, `out_connect`). Nothing else happens to the edges of the layer (`Receives`), and layers
are dealt with one after the other, each found as it was before the insertion (`Entering`): a search
that starts at another node cannot come to the new one, to which no edge of the layer leads yet. So
the edges after an insertion can be said in terms of the graph before it (`receives_wire`).
-/

namespace Vicinity.Graph

variable {α : Type} [Element α]

/-! ### Trimming -/

section Trimming

variable {g h : Graph α}

/-- The neighbours that a node keeps when it may not have more than its layer allows. -/
def trimmed (g : Graph α) (id layer : Nat) (ns : List Nat) : List Nat :=
  if g.config.maxDegree layer < ns.length then
    match ns.foldl (g.farther id) none with
    | some worst => ns.filter (· != worst.id)
    | none => ns
  else ns

theorem trimmed_congr (agrees : Agrees g h) (id layer : Nat) (ns : List Nat) :
    h.trimmed id layer ns = g.trimmed id layer ns := by
  simp only [trimmed, agrees.config_eq, agrees.farther_eq]

/-- A node keeps its neighbours, or it has too many and keeps all but the farthest. -/
theorem trimmed_cases (g : Graph α) (id layer : Nat) (ns : List Nat) :
    ns.length ≤ g.config.maxDegree layer ∧ g.trimmed id layer ns = ns ∨
      g.config.maxDegree layer < ns.length ∧ ∃ n ∈ ns,
        g.trimmed id layer ns = ns.filter (· != n) ∧
          ∀ m ∈ ns, m ≠ n → (g.seenFrom id m).precedes (g.seenFrom id n) = true := by
  unfold trimmed
  split
  case isFalse few => exact .inl ⟨Nat.not_lt.1 few, rfl⟩
  case isTrue excess =>
    have some_neighbor : ns ≠ [] := List.ne_nil_of_length_pos (Nat.zero_lt_of_lt excess)
    obtain ⟨n, mem, eq, farthest⟩ := exists_farthest g id some_neighbor
    rw [eq]
    exact .inr ⟨excess, n, mem, rfl, farthest⟩

theorem mem_of_mem_trimmed {id layer n : Nat} {ns : List Nat}
    (mem : n ∈ g.trimmed id layer ns) : n ∈ ns := by
  rcases g.trimmed_cases id layer ns with ⟨_, same⟩ | ⟨_, _, _, eq, _⟩
  · exact same ▸ mem
  · rw [eq] at mem
    exact List.mem_of_mem_filter mem

/-- A neighbour is kept, or there are too many and it is the farthest. -/
theorem mem_trimmed_or {id layer n : Nat} {ns : List Nat} (mem : n ∈ ns) :
    n ∈ g.trimmed id layer ns ∨
      g.config.maxDegree layer < ns.length ∧
        ∀ m ∈ ns, m ≠ n → (g.seenFrom id m).precedes (g.seenFrom id n) = true := by
  rcases g.trimmed_cases id layer ns with ⟨_, same⟩ | ⟨excess, worst, _, eq, farthest⟩
  · exact .inl (same.symm ▸ mem)
  · by_cases kept : n = worst
    · subst kept
      exact .inr ⟨excess, farthest⟩
    · rw [eq]
      exact .inl (List.mem_filter.2 ⟨mem, by simpa using kept⟩)

/-- Of neighbours that are one too many, as many are kept as the layer allows. -/
theorem length_trimmed {id layer : Nat} {ns : List Nat} (nodup : ns.Nodup)
    (few : ns.length ≤ g.config.maxDegree layer + 1) :
    (g.trimmed id layer ns).length = min (g.config.maxDegree layer) ns.length := by
  rcases g.trimmed_cases id layer ns with ⟨within, same⟩ | ⟨excess, worst, mem, eq, _⟩
  · rw [same, Nat.min_eq_right within]
  · rw [eq, ← nodup.erase_eq_filter, List.length_erase_of_mem mem]
    omega

end Trimming

/-! ### Lists that lose entries -/

/-- The second list is the first without some of its values, wherever these occur. -/
def Thinned (before after : List Nat) : Prop :=
  ∃ stays : Nat → Bool, after = before.filter stays

namespace Thinned

variable {before after later : List Nat}

theorem refl (ns : List Nat) : Thinned ns ns := ⟨fun _ => true, (List.filter_true ns).symm⟩

theorem trans (first : Thinned before after) (second : Thinned after later) :
    Thinned before later := by
  obtain ⟨stays, rfl⟩ := first
  obtain ⟨stays', rfl⟩ := second
  exact ⟨fun n => stays' n && stays n, List.filter_filter⟩

theorem eq_of_forall_mem (thinned : Thinned before after) (all : ∀ n ∈ before, n ∈ after) :
    after = before := by
  obtain ⟨stays, rfl⟩ := thinned
  exact List.filter_eq_self.2 fun n mem => (List.mem_filter.1 (all n mem)).2

end Thinned

/-! ### Linking with one neighbour -/

section Connecting

variable {g : Graph α} {id layer n : Nat}

/-- The new node gets a neighbour, and the neighbour gets the new node and trims its list. -/
theorem out_connect (here : g.Stands id layer) (there : g.Stands n layer) (other : n ≠ id)
    (unlinked : n ∉ (g.links id layer).out) (unlinked_back : id ∉ (g.links n layer).out) (j : Nat) :
    ((g.connect id layer n).links j layer).out =
      if j = id then (g.links id layer).out ++ [n]
      else if j = n then g.trimmed n layer ((g.links n layer).out ++ [id])
      else (g.links j layer).out := by
  have rewired := (rewired_addEdge g id n layer).trans (rewired_addEdge _ n id layer)
  have there' := ((rewired_addEdge g id n layer).stands_iff n layer).2 there
  have both : ∀ j, (((g.addEdge id n layer).addEdge n id layer).links j layer).out =
      if j = id then (g.links id layer).out ++ [n]
      else if j = n then (g.links n layer).out ++ [id] else (g.links j layer).out := by
    intro j
    by_cases new : j = id
    · subst new
      rw [out_addEdge_of_ne _ other, out_addEdge here, if_pos ⟨rfl, rfl, Ne.symm other, unlinked⟩,
        if_pos rfl]
    · have first : ∀ j, j ≠ id →
          ((g.addEdge id n layer).links j layer).out = (g.links j layer).out :=
        fun j ne => out_addEdge_of_ne g (Ne.symm ne) n layer layer
      rw [if_neg new]
      by_cases neighbor : j = n
      · subst neighbor
        rw [out_addEdge there', first j new,
          if_pos ⟨rfl, rfl, other, unlinked_back⟩, if_pos rfl]
      · rw [out_addEdge_of_ne _ (Ne.symm neighbor), first j new, if_neg neighbor]
  have at_n : (((g.addEdge id n layer).addEdge n id layer).links n layer).out =
      (g.links n layer).out ++ [id] := by
    rw [both, if_neg other, if_pos rfl]
  rw [← trimmed_congr rewired.agrees]
  unfold connect trimmed
  dsimp only
  rw [at_n, rewired.config_eq]
  split
  case isFalse => exact both j
  case isTrue =>
    unfold evictFarthest farthest?
    rw [at_n]
    cases ((g.links n layer).out ++ [id]).foldl
        (((g.addEdge id n layer).addEdge n id layer).farther n) none with
    | none => exact both j
    | some worst =>
        dsimp only
        rw [links_removeEdge]
        dsimp only
        rw [both]
        by_cases neighbor : j = n
        · subst neighbor
          rw [if_pos ⟨rfl, rfl⟩, if_neg other, if_pos rfl, if_neg other, if_pos rfl]
        · rw [if_neg fun same : n = j ∧ _ => neighbor same.1.symm, if_neg neighbor, if_neg neighbor]

/-- A node that is not linked has the same neighbours as before, and may have been dropped by the
node that is. -/
theorem incoming_connect (g : Graph α) {id n a : Nat} (old : a ≠ id) (apart : a ≠ n)
    (layer k : Nat) :
    Thinned (g.links a k).incoming ((g.connect id layer n).links a k).incoming := by
  have both : ((g.addEdge id n layer).addEdge n id layer).links a k = g.links a k := by
    rw [links_addEdge_of_off _ (.inl ⟨apart.symm, old.symm⟩),
      links_addEdge_of_off _ (.inl ⟨old.symm, apart.symm⟩)]
  have settled : Thinned (g.links a k).incoming
      (((g.addEdge id n layer).addEdge n id layer).links a k).incoming := by
    rw [both]
    exact .refl _
  unfold connect
  dsimp only
  split
  case isFalse => exact settled
  case isTrue =>
    unfold evictFarthest
    cases ((g.addEdge id n layer).addEdge n id layer).farthest? n layer with
    | none => exact settled
    | some worst =>
        refine settled.trans ?_
        dsimp only
        rw [links_removeEdge]
        dsimp only
        split
        · exact ⟨_, rfl⟩
        · exact .refl _

theorem incoming_foldl_connect (s : Graph α) {ns : List Nat} {a : Nat} (old : a ≠ id)
    (absent : a ∉ ns) (layer k : Nat) :
    Thinned (s.links a k).incoming
      ((ns.foldl (fun g n => g.connect id layer n) s).links a k).incoming := by
  induction ns generalizing s with
  | nil => exact .refl _
  | cons n ns ih =>
      rw [List.mem_cons, not_or] at absent
      exact (incoming_connect s old absent.1 layer k).trans (ih _ absent.2)

/-- Neighbours that are linked one after the other do not get in each other's way. -/
theorem out_foldl_connect {s : Graph α} (rewired : Rewired g s) (here : s.Stands id layer)
    {ns : List Nat} (nodup : ns.Nodup) (there : ∀ n ∈ ns, n ≠ id ∧ s.Stands n layer)
    (unlinked : ∀ n ∈ ns, n ∉ (s.links id layer).out ∧ id ∉ (s.links n layer).out) :
    ((ns.foldl (fun g n => g.connect id layer n) s).links id layer).out =
        (s.links id layer).out ++ ns ∧
      (∀ n ∈ ns, ((ns.foldl (fun g n => g.connect id layer n) s).links n layer).out =
        g.trimmed n layer ((s.links n layer).out ++ [id])) ∧
      ∀ a, a ≠ id → a ∉ ns → ((ns.foldl (fun g n => g.connect id layer n) s).links a layer).out =
        (s.links a layer).out := by
  induction ns generalizing s with
  | nil =>
      exact ⟨(List.append_nil _).symm, fun n mem => absurd mem List.not_mem_nil, fun _ _ _ => rfl⟩
  | cons n ns ih =>
      obtain ⟨fresh, nodup⟩ := List.nodup_cons.1 nodup
      obtain ⟨other, n_there⟩ := there n List.mem_cons_self
      obtain ⟨n_new, n_back⟩ := unlinked n List.mem_cons_self
      have step := out_connect here n_there other n_new n_back
      have step_id : ((s.connect id layer n).links id layer).out =
          (s.links id layer).out ++ [n] := by
        rw [step, if_pos rfl]
      have step_n : ((s.connect id layer n).links n layer).out =
          g.trimmed n layer ((s.links n layer).out ++ [id]) := by
        rw [step, if_neg other, if_pos rfl, trimmed_congr rewired.agrees]
      have step_of_ne : ∀ a, a ≠ id → a ≠ n →
          ((s.connect id layer n).links a layer).out = (s.links a layer).out := by
        intro a old apart
        rw [step, if_neg old, if_neg apart]
      have later : ∀ m ∈ ns, m ≠ id ∧ m ≠ n := fun m mem =>
        ⟨(there m (List.mem_cons_of_mem _ mem)).1, fun same => fresh (same ▸ mem)⟩
      have rewired_step := rewired_connect s id layer n
      obtain ⟨own, gains, bystanders⟩ := ih (rewired.trans rewired_step)
        ((rewired_step.stands_iff ..).2 here) nodup
        (fun m mem => ⟨(later m mem).1,
          (rewired_step.stands_iff ..).2 (there m (List.mem_cons_of_mem _ mem)).2⟩)
        (fun m mem => by
          obtain ⟨m_new, m_back⟩ := unlinked m (List.mem_cons_of_mem _ mem)
          rw [step_id, step_of_ne m (later m mem).1 (later m mem).2, List.mem_append,
            List.mem_singleton, not_or]
          exact ⟨⟨m_new, (later m mem).2⟩, m_back⟩)
      rw [List.foldl_cons]
      refine ⟨?_, fun m mem => ?_, fun a old absent => ?_⟩
      · rw [own, step_id, List.append_assoc, List.singleton_append]
      · rcases List.mem_cons.1 mem with rfl | rest
        · rw [bystanders m other fresh, step_n]
        · rw [gains m rest, step_of_ne m (later m rest).1 (later m rest).2]
      · rw [List.mem_cons, not_or] at absent
        rw [bystanders a old absent.2, step_of_ne a old absent.1]

end Connecting

/-! ### One layer -/

/-- What a layer looks like once a new node was linked there. -/
structure Receives (g : Graph α) (id layer : Nat) (h : Graph α) : Prop where
  chosen : ∀ n ∈ (h.links id layer).out, n ≠ id ∧ g.isLive n = true
  neighbor : ∀ n ∈ (h.links id layer).out,
    (h.links n layer).out = g.trimmed n layer ((g.links n layer).out ++ [id])
  bystander : ∀ a, a ≠ id → a ∉ (h.links id layer).out →
    (h.links a layer).out = (g.links a layer).out ∧
      Thinned (g.links a layer).incoming (h.links a layer).incoming

theorem Receives.congr {g h k : Graph α} {id layer : Nat} (receives : g.Receives id layer h)
    (same : ∀ a, k.links a layer = h.links a layer) : g.Receives id layer k where
  chosen n mem := receives.chosen n (same id ▸ mem)
  neighbor n mem := by
    rw [same]
    exact receives.neighbor n (same id ▸ mem)
  bystander a old absent := by
    rw [same]
    exact receives.bystander a old (same id ▸ absent)

/-- A node without edges has joined no layer yet. -/
theorem receives_self {g : Graph α} {id : Nat} (alone : g.Isolated id) (layer : Nat) :
    g.Receives id layer g := by
  have none : (g.links id layer).out = [] := by rw [alone layer]
  constructor
  case chosen => simp [none]
  case neighbor => simp [none]
  case bystander => exact fun _ _ _ => ⟨rfl, .refl _⟩

namespace Receives

variable {g h : Graph α} {id layer : Nat} (receives : g.Receives id layer h)

include receives

/-- A new edge leads from the new node or to it. -/
theorem added {a b : Nat} (edge : b ∈ (h.links a layer).out) (fresh : b ∉ (g.links a layer).out) :
    (h.links id layer).out ≠ [] ∧
      (a = id ∧ b ≠ id ∧ g.isLive b = true ∨ b = id ∧ a ≠ id ∧ g.isLive a = true) := by
  by_cases self : a = id
  · subst self
    obtain ⟨other, live⟩ := receives.chosen b edge
    exact ⟨List.ne_nil_of_mem edge, .inl ⟨rfl, other, live⟩⟩
  by_cases linked : a ∈ (h.links id layer).out
  · obtain ⟨other, live⟩ := receives.chosen a linked
    rw [receives.neighbor a linked] at edge
    rcases List.mem_append.1 (mem_of_mem_trimmed edge) with old | last
    · exact absurd old fresh
    · exact ⟨List.ne_nil_of_mem linked, .inr ⟨List.mem_singleton.1 last, other, live⟩⟩
  · rw [(receives.bystander a self linked).1] at edge
    exact absurd edge fresh

/-- An edge goes when its source was linked and now has too many, if it leads farthest away. -/
theorem dropped (alone : g.Isolated id) {a b : Nat} (edge : b ∈ (g.links a layer).out)
    (gone : b ∉ (h.links a layer).out) :
    a ∈ (h.links id layer).out ∧
      g.config.maxDegree layer < ((g.links a layer).out ++ [id]).length ∧
        ∀ c ∈ (g.links a layer).out ++ [id], c ≠ b →
          (g.seenFrom a c).precedes (g.seenFrom a b) = true := by
  have old : a ≠ id := by
    rintro rfl
    rw [alone layer] at edge
    cases edge
  by_cases linked : a ∈ (h.links id layer).out
  · rw [receives.neighbor a linked] at gone
    exact ⟨linked, (mem_trimmed_or (List.mem_append_left _ edge)).resolve_left gone⟩
  · rw [(receives.bystander a old linked).1] at gone
    exact absurd edge gone

theorem dropped_once (alone : g.Isolated id) {a b c : Nat} (edge_b : b ∈ (g.links a layer).out)
    (gone_b : b ∉ (h.links a layer).out) (edge_c : c ∈ (g.links a layer).out)
    (gone_c : c ∉ (h.links a layer).out) : b = c := by
  obtain ⟨_, _, b_last⟩ := receives.dropped alone edge_b gone_b
  obtain ⟨_, _, c_last⟩ := receives.dropped alone edge_c gone_c
  by_contra other
  have c_first := b_last c (List.mem_append_left _ edge_c) (Ne.symm other)
  have b_first := c_last b (List.mem_append_left _ edge_b) other
  exact lt_asymm (Candidate.precedes_iff.1 c_first) (Candidate.precedes_iff.1 b_first)

theorem length_out (paired : g.Paired) (within : g.WithinDegree) (alone : g.Isolated id) {a : Nat}
    (linked : a ∈ (h.links id layer).out) :
    (h.links a layer).out.length =
      min (g.config.maxDegree layer) ((g.links a layer).out.length + 1) := by
  have nodup : ((g.links a layer).out ++ [id]).Nodup := by
    refine List.nodup_append.2 ⟨paired.out_nodup a layer, List.nodup_singleton id, ?_⟩
    rintro b edge c single rfl
    rw [List.mem_singleton] at single
    exact paired.not_mem_out alone a layer (single ▸ edge)
  have few : ((g.links a layer).out ++ [id]).length ≤ g.config.maxDegree layer + 1 := by
    rw [List.length_append]
    exact Nat.add_le_add_right (within a layer) 1
  rw [receives.neighbor a linked, length_trimmed nodup few, List.length_append,
    List.length_singleton]

/-- A node that is neither linked nor dropped keeps its links. -/
theorem links_eq (paired : g.Paired) (paired' : h.Paired) {a : Nat} (old : a ≠ id)
    (absent : a ∉ (h.links id layer).out)
    (kept : ∀ b, a ∈ (g.links b layer).out → a ∈ (h.links b layer).out) :
    h.links a layer = g.links a layer := by
  obtain ⟨out, thinned⟩ := receives.bystander a old absent
  have incoming : (h.links a layer).incoming = (g.links a layer).incoming :=
    thinned.eq_of_forall_mem fun b mem =>
      (paired'.mirrored b a layer).1 (kept b ((paired.mirrored b a layer).2 mem))
  show Links.mk (h.links a layer).out (h.links a layer).incoming = _
  rw [out, incoming]

end Receives

/-! ### Down the layers -/

/-- What holds of a new node before the layers of the list: these are as they were, the others have
received it, and the next search starts at another node. -/
structure Entering (g : Graph α) (id : Nat) (layers : List Nat) (state : Graph α × Candidate) :
    Prop where
  wiring : g.Wiring id layers state
  untouched : ∀ layer ∈ layers, ∀ a, state.1.links a layer = g.links a layer
  received : ∀ layer, layer ∉ layers → g.Receives id layer state.1
  elsewhere : state.2.id ≠ id

section Layers

variable {g : Graph α} {id : Nat}

omit [Element α] in
/-- A search comes to no node without edges but the one where it starts. -/
theorem passes_ne_of_isolated (paired : g.Paired) (alone : g.Isolated id) {s : Graph α}
    {layer : Nat} (same : ∀ a, s.links a layer = g.links a layer) : s.Passes layer (· ≠ id) := by
  rintro a _ next edge rfl
  rw [same] at edge
  exact paired.not_mem_out alone a layer edge

/-- Whatever is found on a layer stands there, is live and is not the new node. -/
theorem Entering.found_spec {layer : Nat} {layers : List Nat} {s : Graph α} {place : Candidate}
    (entering : g.Entering id (layer :: layers) (s, place)) (paired : g.Paired)
    (alone : g.Isolated id) (vector : List α) :
    ∀ c ∈ s.searchLayer vector place s.config.efConstruction.toNat layer,
      c.id ≠ id ∧ s.Stands c.id layer ∧ g.isLive c.id = true := by
  intro c found
  have wiring := entering.wiring
  have same : ∀ a, s.links a layer = g.links a layer :=
    entering.untouched layer List.mem_cons_self
  have stands := (searchLayer_keeps (wiring.paired.passes_stands layer) vector _
    (wiring.start layer List.mem_cons_self) found).1
  obtain ⟨other, kept⟩ := searchLayer_keeps (passes_ne_of_isolated paired alone same) vector _
    entering.elsewhere found
  rw [← wiring.edits.rewired.isLive_eq]
  exact ⟨other, stands, isLive_of_not_isDeleted (lt_nodeCount_of_stands stands) kept⟩

/-- On its layer the new node is linked with what is chosen of what is found. -/
theorem Entering.out_connectLayer {layer : Nat} {layers : List Nat} {s : Graph α}
    {place : Candidate} (entering : g.Entering id (layer :: layers) (s, place)) (paired : g.Paired)
    (alone : g.Isolated id) (vector : List α) :
    let chosen := s.chooseNeighbors (s.config.maxDegree layer)
      (s.searchLayer vector place s.config.efConstruction.toNat layer)
    let linked := (Graph.connectLayer id vector (s, place) layer).1
    (linked.links id layer).out = chosen ∧ g.Receives id layer linked := by
  intro chosen linked
  have wiring := entering.wiring
  have same : ∀ a, s.links a layer = g.links a layer :=
    entering.untouched layer List.mem_cons_self
  have chosen_spec : ∀ n ∈ chosen, n ≠ id ∧ s.Stands n layer ∧ g.isLive n = true := by
    intro n mem
    obtain ⟨c, found, rfl⟩ := (chooseNeighbors_spec ..).1 n mem
    exact entering.found_spec paired alone vector c found
  have nodup : chosen.Nodup := nodup_chooseNeighbors s _ (nodup_searchLayer ..)
  have no_out : (s.links id layer).out = [] := by rw [same, alone layer]
  obtain ⟨own, gains, bystanders⟩ := out_foldl_connect wiring.edits.rewired
    (wiring.here layer List.mem_cons_self) nodup
    (fun n mem => ⟨(chosen_spec n mem).1, (chosen_spec n mem).2.1⟩)
    (fun n mem => by
      rw [no_out, same]
      exact ⟨List.not_mem_nil, paired.not_mem_out alone n layer⟩)
  have own : (linked.links id layer).out = chosen := by
    rw [no_out, List.nil_append] at own
    exact own
  refine ⟨own, ?_⟩
  constructor
  case chosen =>
    intro n mem
    obtain ⟨other, _, live⟩ := chosen_spec n (own ▸ mem)
    exact ⟨other, live⟩
  case neighbor =>
    intro n mem
    rw [← same]
    exact gains n (own ▸ mem)
  case bystander =>
    intro a old absent
    have absent : a ∉ chosen := own ▸ absent
    rw [← same]
    exact ⟨bystanders a old absent, incoming_foldl_connect s old absent layer layer⟩

theorem Entering.connectLayer {layer : Nat} {layers : List Nat} {state : Graph α × Candidate}
    (entering : g.Entering id (layer :: layers) state) (paired : g.Paired) (alone : g.Isolated id)
    (below : ∀ l ∈ layers, l < layer) (vector : List α) :
    g.Entering id layers (connectLayer id vector state layer) := by
  have wiring := entering.wiring.connectLayer below vector
  obtain ⟨s, place⟩ := state
  obtain ⟨_, receives⟩ := entering.out_connectLayer paired alone vector
  constructor
  case wiring => exact wiring
  case untouched =>
    intro l mem a
    refine Eq.trans ?_ (entering.untouched l (List.mem_cons_of_mem _ mem) a)
    exact links_foldl_connect_of_ne s id _ (Nat.ne_of_gt (below l mem)) a
  case received =>
    intro l absent
    by_cases here : layer = l
    · subst here
      exact receives
    · have absent : l ∉ layer :: layers := by
        rw [List.mem_cons, not_or]
        exact ⟨Ne.symm here, absent⟩
      exact (entering.received l absent).congr (links_foldl_connect_of_ne s id _ here)
  case elsewhere =>
    show ((s.searchLayer vector place _ layer).head?.getD place).id ≠ id
    cases first : (s.searchLayer vector place s.config.efConstruction.toNat layer).head? with
    | none => exact entering.elsewhere
    | some c =>
        exact (entering.found_spec paired alone vector c (List.mem_of_head? first)).1

theorem Entering.foldl (paired : g.Paired) (alone : g.Isolated id) {layers : List Nat}
    (descending : layers.Pairwise (· > ·)) {state : Graph α × Candidate}
    (entering : g.Entering id layers state) (vector : List α) :
    g.Entering id [] (layers.foldl (Graph.connectLayer id vector) state) := by
  induction layers generalizing state with
  | nil => exact entering
  | cons layer layers ih =>
      rw [List.pairwise_cons] at descending
      exact ih descending.2 (entering.connectLayer paired alone descending.1 vector)

/-- Layers that are not dealt with stay as they are. -/
theorem links_foldl_connectLayer {vector : List α} {layers : List Nat}
    {state : Graph α × Candidate} {layer : Nat} (absent : layer ∉ layers) (a : Nat) :
    (layers.foldl (Graph.connectLayer id vector) state).1.links a layer =
      state.1.links a layer := by
  induction layers generalizing state with
  | nil => rfl
  | cons l layers ih =>
      rw [List.mem_cons, not_or] at absent
      rw [List.foldl_cons, ih absent.2]
      exact links_foldl_connect_of_ne state.1 id _ (Ne.symm absent.1) a

/-- The descent for a node without edges ends at another one. -/
theorem Entering.initial (paired : g.Paired) (within : g.WithinDegree) {level : Nat}
    (entry : ∀ e, g.entryPoint = some e → g.Stands e g.maxLevel ∧ e ≠ id)
    (here : ∀ layer, layer ≤ level → g.Stands id layer) (alone : g.Isolated id)
    {vector : List α} {place : Candidate} (arrives : g.entryOn? vector level = some place) :
    g.Entering id (g.wiredLayers level) (g, place) where
  wiring := Wiring.initial paired within (fun e at_entry => (entry e at_entry).1) here alone arrives
  untouched _ _ _ := rfl
  received layer _ := receives_self alone layer
  elsewhere := by
    obtain ⟨e, at_entry, keeps⟩ := entryOn?_keeps arrives
    exact keeps (· ≠ id) (fun _ => passes_ne_of_isolated paired alone fun _ => rfl)
      (entry e at_entry).2

/-- Every layer receives a node that is linked, and no layer above the node or above all others gets
an edge. -/
theorem receives_wire (paired : g.Paired) (within : g.WithinDegree) (level : Nat)
    (entry : ∀ e, g.entryPoint = some e → g.Stands e g.maxLevel ∧ e ≠ id)
    (here : ∀ layer, layer ≤ level → g.Stands id layer) (alone : g.Isolated id)
    (vector : List α) (layer : Nat) :
    g.Receives id layer (g.wire id vector level) ∧
      (min level g.maxLevel < layer → ((g.wire id vector level).links id layer).out = []) := by
  unfold wire
  cases start : g.entryOn? vector level with
  | none => exact ⟨(receives_self alone layer).congr fun _ => rfl, fun _ => by
      show (g.links id layer).out = []
      rw [alone layer]⟩
  | some place =>
      have done := (Entering.initial paired within entry here alone start).foldl paired alone
        (wiredLayers_descending g level) vector
      have above : min level g.maxLevel < layer → (((g.wiredLayers level).foldl
          (Graph.connectLayer id vector) (g, place)).1.links id layer).out = [] := by
        intro high
        rw [links_foldl_connectLayer]
        · show (g.links id layer).out = []
          rw [alone layer]
        · exact fun mem => Nat.not_lt.2 (mem_wiredLayers.1 mem) high
      have received := done.received layer List.not_mem_nil
      dsimp only
      split
      · exact ⟨received.congr fun _ => rfl, above⟩
      · exact ⟨received, above⟩

end Layers

end Vicinity.Graph
