import Vicinity.Proofs.Graph.Relocation

/-!
Graphs whose live nodes are all linked with each other.

In a small graph layer 0 leaves no live node out: any two are linked (`Meshed`). The edges of layer
0 go both ways, and an edge higher up has one beside it on layer 0, so that a descent never leaves
the part of layer 0 in which it begins and every live node can be reached from where it ends
(`Meshed.reaches`), also through nodes that are marked deleted. Marking, repairing and freeing keep
this: a repair takes away edges of the node it repairs and no others, and adds edges between live
nodes only (`mends_repair`).
-/

namespace Vicinity.Graph

variable {α : Type}

/-- Every edge has one beside it on layer 0. -/
def Grounded (g : Graph α) : Prop :=
  ∀ a b layer, b ∈ (g.links a layer).out → b ∈ (g.links a 0).out

/-- On layer 0 there is a way back along every edge. -/
def TwoWay (g : Graph α) : Prop := ∀ a b, b ∈ (g.links a 0).out → a ∈ (g.links b 0).out

/-- On layer 0 the live nodes are linked with each other, and every edge goes both ways. -/
structure Meshed (g : Graph α) : Prop where
  grounded : g.Grounded
  symmetric : g.TwoWay
  together : ∀ a b, g.isLive a = true → g.isLive b = true → a ≠ b → b ∈ (g.links a 0).out

theorem meshed_empty (config : Config) : ({ config } : Graph α).Meshed where
  grounded _ _ _ edge := by cases edge
  symmetric _ _ edge := by cases edge
  together _ _ live := by cases live

theorem Grounded.congr {g h : Graph α} (grounded : g.Grounded)
    (same : ∀ id layer, h.links id layer = g.links id layer) : h.Grounded := by
  intro a b layer edge
  rw [same] at edge ⊢
  exact grounded a b layer edge

theorem TwoWay.congr {g h : Graph α} (symmetric : g.TwoWay)
    (same : ∀ id layer, h.links id layer = g.links id layer) : h.TwoWay := by
  intro a b edge
  rw [same] at edge ⊢
  exact symmetric a b edge

/-- Only the links and the marks matter. -/
theorem Meshed.congr {g h : Graph α} (meshed : g.Meshed)
    (same : ∀ id layer, h.links id layer = g.links id layer)
    (live : ∀ id, h.isLive id = true → g.isLive id = true) : h.Meshed where
  grounded := meshed.grounded.congr same
  symmetric := meshed.symmetric.congr same
  together a b live_a live_b ne := by
    rw [same]
    exact meshed.together a b (live a live_a) (live b live_b) ne

/-! ### Ways on layer 0 -/

/-- A step on any layer stays among the nodes that can be reached on layer 0. -/
theorem Grounded.passes {g : Graph α} (grounded : g.Grounded) (layer start : Nat) :
    g.Passes layer (g.Reaches 0 start) := by
  intro id way next edge
  exact way.tail (grounded id next layer edge)

section Descents

variable [Element α]

/-- The place where a search on a layer starts can be reached from the entry point on layer 0. -/
theorem Grounded.reaches_entryOn? {g : Graph α} (grounded : g.Grounded) {query : List α}
    {layer : Nat} {place : Candidate} (found : g.entryOn? query layer = some place) :
    ∃ entry, g.entryPoint = some entry ∧ g.Reaches 0 entry place.id := by
  obtain ⟨entry, at_entry, keeps⟩ := entryOn?_keeps found
  exact ⟨entry, at_entry, keeps _ (fun l => grounded.passes l entry) .refl⟩

/-- From where a descent ends every live node can be reached. -/
theorem Meshed.reaches {g : Graph α} (meshed : g.Meshed) (rooted : g.Rooted) {query : List α}
    {place : Candidate} (found : g.entryOn? query 0 = some place) {id : Nat}
    (live : g.isLive id = true) : g.Reaches 0 place.id id := by
  obtain ⟨entry, at_entry, way⟩ := meshed.grounded.reaches_entryOn? found
  have back := way.symm meshed.symmetric
  by_cases same : entry = id
  · exact same ▸ back
  · exact back.tail (meshed.together entry id (rooted.live entry at_entry) live same)

end Descents

/-! ### Marking and freeing -/

theorem Marks.meshed {g h : Graph α} {id : Nat} (marks : g.Marks id h) (meshed : g.Meshed) :
    h.Meshed :=
  meshed.congr marks.links_eq fun j live => ((marks.isLive_iff j).1 live).2

theorem Frees.meshed {g h : Graph α} {id : Nat} (frees : g.Frees id h) (meshed : g.Meshed)
    (paired : g.Paired) (alone : g.Isolated id) : h.Meshed := by
  have edges := frees.mem_out_iff paired alone
  constructor
  case grounded =>
    intro a b layer edge
    rw [edges] at edge ⊢
    exact ⟨edge.1, edge.2.1, meshed.grounded _ _ layer edge.2.2⟩
  case symmetric =>
    intro a b edge
    rw [edges] at edge ⊢
    exact ⟨edge.2.1, edge.1, meshed.symmetric _ _ edge.2.2⟩
  case together =>
    intro a b live_a live_b ne
    have lt_a := lt_nodeCount_of_isLive live_a
    have lt_b := lt_nodeCount_of_isLive live_b
    rw [frees.isLive_eq lt_a] at live_a
    rw [frees.isLive_eq lt_b] at live_b
    refine (edges a b 0).2 ⟨lt_a, lt_b, meshed.together _ _ live_a live_b fun same => ne ?_⟩
    unfold rename at same
    split at same <;> split at same <;> omega

/-! ### Repair -/

/-- What a repair may do to the edges of a graph: add some between live nodes, and take away some of
the node that is repaired. -/
structure Mends (g : Graph α) (id : Nat) (h : Graph α) : Prop where
  rewired : Rewired g h
  added : ∀ a b layer, b ∈ (h.links a layer).out →
    b ∈ (g.links a layer).out ∨ a ≠ b ∧ g.isLive a = true ∧ g.isLive b = true
  kept : ∀ a b layer, b ∈ (g.links a layer).out → a ≠ id → b ≠ id → b ∈ (h.links a layer).out

theorem Mends.refl (g : Graph α) (id : Nat) : g.Mends id g :=
  ⟨.refl g, fun _ _ _ => .inl, fun _ _ _ edge _ _ => edge⟩

/-- Nothing is added to the out-neighbours of a node that does not stand on the layer. -/
theorem out_addEdge_of_not_stands {g : Graph α} {source layer : Nat}
    (absent : ¬ g.Stands source layer) (target j k : Nat) :
    ((g.addEdge source target layer).links j k).out = (g.links j k).out := by
  unfold addEdge
  split
  · rfl
  · rw [links_modifyLinks, links_modifyLinks]
    have none : ¬ (source = j ∧ layer = k ∧ g.Stands j k) := by
      rintro ⟨rfl, rfl, stands⟩
      exact absent stands
    rw [if_neg none]
    split <;> rfl

/-- An edge that is there after one was added is that one or an old one. -/
theorem mem_out_of_addEdge {g : Graph α} {source target layer a b k : Nat}
    (edge : b ∈ ((g.addEdge source target layer).links a k).out) :
    b ∈ (g.links a k).out ∨
      g.Stands source layer ∧ source = a ∧ target = b ∧ layer = k ∧ source ≠ target := by
  by_cases stands : g.Stands source layer
  · exact ((mem_out_addEdge stands a b k).1 edge).imp_right fun new => ⟨stands, new⟩
  · rw [out_addEdge_of_not_stands stands] at edge
    exact .inl edge

theorem mem_out_addEdge_of_mem {g : Graph α} {a b k : Nat} (edge : b ∈ (g.links a k).out)
    (source target layer : Nat) : b ∈ ((g.addEdge source target layer).links a k).out := by
  by_cases stands : g.Stands source layer
  · exact (mem_out_addEdge stands a b k).2 (.inl edge)
  · rwa [out_addEdge_of_not_stands stands]

section Repairs

variable {g h : Graph α} {id : Nat}

theorem Mends.addEdge (mends : g.Mends id h) {source target : Nat}
    (source_live : source < g.nodeCount → g.isLive source = true)
    (target_live : g.isLive target = true) (layer : Nat) :
    g.Mends id (h.addEdge source target layer) where
  rewired := mends.rewired.trans (rewired_addEdge ..)
  added a b k edge := by
    rcases mem_out_of_addEdge edge with old | ⟨stands, rfl, rfl, _, ne⟩
    · exact mends.added a b k old
    · have inside := lt_nodeCount_of_stands ((mends.rewired.stands_iff ..).1 stands)
      exact .inr ⟨ne, source_live inside, target_live⟩
  kept a b k edge a_ne b_ne := mem_out_addEdge_of_mem (mends.kept a b k edge a_ne b_ne) ..

theorem Mends.removeEdge (mends : g.Mends id h) {source target : Nat}
    (own : source = id ∨ target = id) (layer : Nat) :
    g.Mends id (h.removeEdge source target layer) where
  rewired := mends.rewired.trans (rewired_removeEdge ..)
  added a b k edge := mends.added a b k ((mem_out_removeEdge ..).1 edge).1
  kept a b k edge a_ne b_ne := by
    refine (mem_out_removeEdge ..).2 ⟨mends.kept a b k edge a_ne b_ne, ?_⟩
    rintro ⟨rfl, rfl, _⟩
    exact own.elim a_ne b_ne

variable [Element α]

theorem Mends.accept {n : Nat} (n_live : n < g.nodeCount → g.isLive n = true)
    {state : Graph α × List Nat} (mends : g.Mends id state.1) {c : Candidate}
    (live : g.isLive c.id = true) (layer cap : Nat) :
    g.Mends id (Graph.accept n layer cap state c).1 := by
  unfold Graph.accept
  dsimp only
  split
  · exact mends.addEdge n_live live layer
  · exact mends

theorem Mends.reconnect (mends : g.Mends id h) {n : Nat}
    (n_live : n < g.nodeCount → g.isLive n = true) (replacements : List Nat) (layer : Nat) :
    g.Mends id (h.reconnect replacements layer n) := by
  unfold Graph.reconnect
  dsimp only
  split
  · exact mends
  · have live : ∀ c ∈ h.candidatesFor n (h.links n layer).out replacements,
        g.isLive c.id = true := by
      intro c mem
      rw [← mends.rewired.isLive_eq]
      exact (mem_candidatesFor mem).2
    generalize h.candidatesFor n (h.links n layer).out replacements = candidates at live ⊢
    have done : g.Mends id (candidates.foldl (Graph.accept n layer (h.config.maxDegree layer))
        (h, (h.links n layer).out)).1 := by
      apply List.foldlRecOn (motive := fun state : Graph α × List Nat => g.Mends id state.1)
      · exact mends
      · exact fun state mends c mem => Mends.accept n_live mends (live c mem) ..
    split
    · exact done.addEdge n_live (live _ List.mem_cons_self) layer
    · exact done

theorem Mends.unlink (mends : g.Mends id h) (replacements : List Nat) (layer n : Nat) :
    g.Mends id (unlink id layer replacements h n) := by
  have removed : g.Mends id (h.removeEdge n id layer) := mends.removeEdge (.inr rfl) layer
  unfold Graph.unlink
  dsimp only
  split
  · exact removed
  case isFalse kept =>
    refine removed.reconnect (fun inside => ?_) replacements layer
    rw [removed.rewired.isDeleted_eq] at kept
    exact isLive_of_not_isDeleted inside (Bool.eq_false_iff.2 kept)

theorem Mends.repairLayer (mends : g.Mends id h) (layer : Nat) :
    g.Mends id (h.repairLayer id layer) := by
  unfold Graph.repairLayer
  apply List.foldlRecOn (motive := g.Mends id)
  · apply List.foldlRecOn (motive := g.Mends id)
    · exact mends
    · exact fun k mends n _ => mends.unlink _ layer n
  · exact fun k mends c _ => mends.removeEdge (.inl rfl) layer

theorem mends_repair {g h : Graph α} {id : Nat} (repaired : g.repair id = .ok h) :
    g.Mends id h := by
  unfold Graph.repair at repaired
  split at repaired
  · contradiction
  · split at repaired
    · contradiction
    · cases repaired
      apply List.foldlRecOn (motive := g.Mends id)
      · exact .refl g id
      · exact fun k mends layer _ => mends.repairLayer layer

end Repairs

/-- Once the node is without edges, what a repair did left the others linked. -/
theorem Mends.meshed {g h : Graph α} {id : Nat} (mends : g.Mends id h) (meshed : g.Meshed)
    (paired : h.Paired) (alone : h.Isolated id) (dead : g.isLive id = false) : h.Meshed := by
  have other : ∀ a, g.isLive a = true → a ≠ id := by
    rintro a live rfl
    rw [dead] at live
    cases live
  have together : ∀ a b, g.isLive a = true → g.isLive b = true → a ≠ b →
      b ∈ (h.links a 0).out := fun a b live_a live_b ne =>
    mends.kept a b 0 (meshed.together a b live_a live_b ne) (other a live_a) (other b live_b)
  -- No edge that is left has to do with the node.
  have apart : ∀ a b layer, b ∈ (h.links a layer).out → a ≠ id ∧ b ≠ id := by
    intro a b layer edge
    constructor
    · rintro rfl
      rw [alone layer] at edge
      cases edge
    · rintro rfl
      exact paired.not_mem_out alone a layer edge
  constructor
  case grounded =>
    intro a b layer edge
    obtain ⟨a_ne, b_ne⟩ := apart a b layer edge
    rcases mends.added a b layer edge with old | ⟨ne, live_a, live_b⟩
    · exact mends.kept a b 0 (meshed.grounded a b layer old) a_ne b_ne
    · exact together a b live_a live_b ne
  case symmetric =>
    intro a b edge
    obtain ⟨a_ne, b_ne⟩ := apart a b 0 edge
    rcases mends.added a b 0 edge with old | ⟨ne, live_a, live_b⟩
    · exact mends.kept b a 0 (meshed.symmetric a b old) b_ne a_ne
    · exact together b a live_b live_a (Ne.symm ne)
  case together =>
    intro a b live_a live_b ne
    rw [mends.rewired.isLive_eq] at live_a live_b
    exact together a b live_a live_b ne

end Vicinity.Graph
