import Vicinity.Proofs.Graph.Calls
import Vicinity.Proofs.Graph.LayerSearch
import Vicinity.Proofs.Graph.Refilling

/-!
What a repair makes of the edges, and what becomes of the node that it isolates.

The out-neighbours of every other node after a repair can be said in terms of the graph before it
(`out_repair`): a live node that linked to the repaired one drops that edge and takes what it can of
the live out-neighbours of the repaired node (`mendedOut`). A graph from elsewhere may record a node
twice among those that linked to the repaired one, so that it is offered the same again, and takes
nothing of it (`mend_mend`). Everything that a caller may rely on follows (`Mended`).

The node itself waits without edges until its slot is freed (`Retired`), whatever calls come in
between (`Retired.calls`).
-/

namespace Vicinity.Graph

variable {α : Type}

/-! ### The edges after a repair -/

section Mending

variable [Element α]

/-- The out-neighbours that a node is left with when it may not link to another any more: the rest,
and those of the replacements that it takes when it is live. -/
def mend (g : Graph α) (id layer : Nat) (replacements : List Nat) (n : Nat) (out : List Nat) :
    List Nat :=
  let rest := out.filter (· != id)
  if g.isLive n then g.refill (g.config.maxDegree layer) n replacements rest else rest

/-- The out-neighbours of a node once another one was repaired, said of the graph before. Who did
not link to the repaired node keeps what it had. -/
def mendedOut (g : Graph α) (id layer n : Nat) : List Nat :=
  let out := (g.links n layer).out
  if id ∈ out then g.mend id layer (g.links id layer).out n out else out

variable {g h : Graph α} {id layer : Nat} {replacements : List Nat}

/-- A repaired node is not live, so it is not among the replacements that are taken. -/
theorem not_mem_mend (dead : g.isLive id = false) (n : Nat) (out : List Nat) :
    id ∉ g.mend id layer replacements n out := by
  have gone : id ∉ out.filter (· != id) := by simp
  unfold mend
  split
  · intro mem
    rcases mem_refill mem with old | ⟨_, _, live⟩
    · exact gone old
    · rw [dead] at live
      cases live
  · exact gone

/-- A node that is offered replacements twice is left with the same. -/
theorem mend_mend (dead : g.isLive id = false) (n : Nat) (out : List Nat) :
    g.mend id layer replacements n (g.mend id layer replacements n out) =
      g.mend id layer replacements n out := by
  have absent : id ∉ g.mend id layer replacements n out := not_mem_mend dead n out
  have kept : (g.mend id layer replacements n out).filter (· != id) =
      g.mend id layer replacements n out := by
    refine List.filter_eq_self.2 fun x mem => ?_
    exact bne_iff_ne.2 fun same => absent (same ▸ mem)
  rw [mend, kept, mend]
  split
  · exact refill_refill ..
  · rfl

theorem out_unlink (rewired : Rewired g h) {n : Nat} (here : g.Stands n layer)
    (nodup : replacements.Nodup) :
    ((unlink id layer replacements h n).links n layer).out =
      g.mend id layer replacements n (h.links n layer).out := by
  have removed : ((h.removeEdge n id layer).links n layer).out =
      (h.links n layer).out.filter (· != id) := by
    rw [links_removeEdge, if_pos ⟨rfl, rfl⟩]
  have rewired := rewired.trans (rewired_removeEdge h n id layer)
  simp only [unlink, mend, rewired.isDeleted_eq]
  cases live : g.isLive n with
  | false =>
      rw [if_pos ((isLive_eq_false_iff (lt_nodeCount_of_stands here)).1 live), removed]
      rfl
  | true =>
      rw [if_neg (by rw [not_isDeleted_of_isLive live]; exact Bool.false_ne_true),
        out_reconnect rewired here nodup, removed]
      rfl

/-- However often a node is recorded, it is mended once. -/
theorem out_foldl_unlink (dead : g.isLive id = false) (nodup : replacements.Nodup)
    {sources : List Nat} (here : ∀ n ∈ sources, g.Stands n layer) (rewired : Rewired g h)
    (n : Nat) :
    ((sources.foldl (unlink id layer replacements) h).links n layer).out =
      if n ∈ sources then g.mend id layer replacements n (h.links n layer).out
      else (h.links n layer).out := by
  induction sources generalizing h with
  | nil => rfl
  | cons m sources ih =>
      obtain ⟨first, rest⟩ := List.forall_mem_cons.1 here
      rw [List.foldl_cons, ih rest (rewired.trans (rewired_unlink id replacements))]
      by_cases now : m = n
      · subst now
        rw [out_unlink rewired first nodup, if_pos List.mem_cons_self]
        split
        · exact mend_mend dead m _
        · rfl
      · have later : n ∈ m :: sources ↔ n ∈ sources := by simp [Ne.symm now]
        simp only [out_unlink_of_ne id replacements now, later]

theorem out_repairLayer (paired : g.Paired) (dead : g.isLive id = false) {n : Nat}
    (other : n ≠ id) :
    ((g.repairLayer id layer).links n layer).out = g.mendedOut id layer n := by
  have dropped : ∀ (targets : List Nat) (k : Graph α),
      ((targets.foldl (fun g c => g.removeEdge id c layer) k).links n layer).out =
        (k.links n layer).out := by
    intro targets k
    apply List.foldlRecOn (motive := fun k' : Graph α => (k'.links n layer).out = _)
    · rfl
    · intro k' same c _
      rw [links_removeEdge, if_neg fun here => other here.1.symm]
      exact same
  unfold repairLayer mendedOut
  rw [dropped, out_foldl_unlink dead (paired.out_nodup id layer)
    (fun m recorded => paired.stands_source recorded) (.refl g)]
  simp only [paired.mirrored n id layer]

theorem mendedOut_congr (agrees : Agrees g h)
    (same : ∀ j, (h.links j layer).out = (g.links j layer).out) (n : Nat) :
    h.mendedOut id layer n = g.mendedOut id layer n := by
  simp only [mendedOut, mend, refill, same, agrees.config_eq, agrees.isLive_eq,
    agrees.candidatesFor_eq, agrees.choose_eq]

/-- Layers are repaired one after the other, each as it was at first. -/
theorem out_foldl_repairLayer (paired : g.Paired) (within : g.WithinDegree)
    (dead : g.isLive id = false) {layers : List Nat} (nodup : layers.Nodup) {n : Nat}
    (other : n ≠ id) (k : Nat) :
    ((layers.foldl (fun g layer => g.repairLayer id layer) g).links n k).out =
      if k ∈ layers then g.mendedOut id k n else (g.links n k).out := by
  induction layers generalizing g with
  | nil => rfl
  | cons layer layers ih =>
      obtain ⟨fresh, nodup⟩ := List.nodup_cons.1 nodup
      obtain ⟨done, _⟩ := repairLayer_spec paired within dead layer
      have rewired := done.rewired
      rw [List.foldl_cons, ih (done.edits.paired paired) done.within
        ((rewired.isLive_eq id).trans dead) nodup]
      by_cases now : layer = k
      · subst now
        rw [if_neg fresh, if_pos List.mem_cons_self, out_repairLayer paired dead other]
      · have later : k ∈ layer :: layers ↔ k ∈ layers := by simp [Ne.symm now]
        rw [mendedOut_congr rewired.agrees fun j => by rw [done.apart j k now], done.apart n k now]
        simp only [later]

/-- The edges after a repair, of every node but the repaired one, which has none. -/
theorem out_repair (paired : g.Paired) (within : g.WithinDegree) (repaired : g.repair id = .ok h)
    {n : Nat} (other : n ≠ id) (layer : Nat) :
    (h.links n layer).out = g.mendedOut id layer n := by
  unfold Graph.repair at repaired
  cases at_id : g.nodes[id]? with
  | none => simp [at_id] at repaired
  | some node =>
      cases deleted : node.deleted with
      | false => simp [at_id, deleted] at repaired
      | true =>
          simp only [at_id, deleted, Bool.not_true, Bool.false_eq_true, if_false,
            Except.ok.injEq] at repaired
          have dead : g.isLive id = false := by simp [isLive, at_id, deleted]
          rw [← repaired, out_foldl_repairLayer paired within dead List.nodup_range other]
          split
          · rfl
          case isFalse above =>
            -- The node does not stand there, so nothing linked to it.
            have absent : id ∉ (g.links n layer).out := by
              intro edge
              have stands := paired.stands_target edge
              rw [Stands, layerCount_of_getElem? at_id] at stands
              exact above (List.mem_range.2 stands)
            rw [mendedOut, if_neg absent]

/-- Neighbours other than the repaired node stay. -/
theorem mem_mendedOut_of_mem {n b : Nat} (edge : b ∈ (g.links n layer).out) (other : b ≠ id) :
    b ∈ g.mendedOut id layer n := by
  have rest : b ∈ (g.links n layer).out.filter (· != id) :=
    List.mem_filter.2 ⟨edge, bne_iff_ne.2 other⟩
  unfold mendedOut mend
  dsimp only
  split
  · split
    · exact (prefix_refill ..).subset rest
    · exact rest
  · exact edge

/-- A node links to what it linked to before, or it is live, has lost an edge and links to a live
node to which that edge led on. -/
theorem mem_mendedOut {n b : Nat} (edge : b ∈ g.mendedOut id layer n) :
    b ∈ (g.links n layer).out ∨ g.isLive n = true ∧ id ∈ (g.links n layer).out ∧
      g.isLive b = true ∧ b ∈ (g.links id layer).out ∧ b ≠ n := by
  simp only [mendedOut, mend] at edge
  split at edge
  case isTrue linked =>
    split at edge
    case isTrue live =>
      rcases mem_refill edge with old | ⟨among, other, live_b⟩
      · exact .inl (List.mem_filter.1 old).1
      · exact .inr ⟨live, linked, live_b, among, other⟩
    case isFalse => exact .inl (List.mem_filter.1 edge).1
  case isFalse => exact .inl edge

/-- No live node is left without neighbours while there is one to take. -/
theorem mendedOut_ne_nil (within : g.WithinDegree) {n b : Nat} (live : g.isLive n = true)
    (linked : id ∈ (g.links n layer).out) (beyond : b ∈ (g.links id layer).out) (other : b ≠ n)
    (live_b : g.isLive b = true) : g.mendedOut id layer n ≠ [] := by
  have room : 0 < g.config.maxDegree layer :=
    Nat.lt_of_lt_of_le (List.length_pos_of_mem linked) (within n layer)
  simp only [mendedOut, mend, if_pos linked, if_pos live]
  exact refill_ne_nil room beyond other live_b _

end Mending

/-- What a repair does to a graph. -/
structure Mended (g : Graph α) (id : Nat) (h : Graph α) : Prop where
  isolated : h.Isolated id
  /-- Nothing but edges changes. -/
  rewired : Rewired g h
  /-- Edges are recorded at both ends, as before. -/
  paired : h.Paired
  within : h.WithinDegree
  kept : ∀ a b layer, b ∈ (g.links a layer).out → a ≠ id → b ≠ id → b ∈ (h.links a layer).out
  added : ∀ a b layer, b ∈ (h.links a layer).out → b ∉ (g.links a layer).out →
    (g.isLive a = true ∧ a ∈ (g.links id layer).incoming) ∧
      g.isLive b = true ∧ b ∈ (g.links id layer).out
  way_out : ∀ a b layer, g.isLive a = true → a ∈ (g.links id layer).incoming →
    b ∈ (g.links id layer).out → g.isLive b = true → b ≠ a → (h.links a layer).out ≠ []

theorem Sturdy.mended [Element α] {g h : Graph α} (sturdy : g.Sturdy) {id : Nat}
    (repaired : g.repair id = .ok h) : g.Mended id h := by
  have paired := sturdy.paired
  obtain ⟨edits, within, isolated, deleted, _⟩ := repair_spec paired sturdy.within repaired
  have dead := (isLive_eq_false_iff (lt_nodeCount_of_isDeleted deleted)).2 deleted
  have out_eq : ∀ a layer, a ≠ id → (h.links a layer).out = g.mendedOut id layer a :=
    fun a layer other => out_repair paired sturdy.within repaired other layer
  have other_of_live : ∀ a, g.isLive a = true → a ≠ id := by
    rintro a live rfl
    rw [dead] at live
    cases live
  constructor
  case isolated => exact isolated
  case rewired => exact edits.rewired
  case paired => exact edits.paired paired
  case within => exact within
  case kept =>
    intro a b layer edge other_a other_b
    rw [out_eq a layer other_a]
    exact mem_mendedOut_of_mem edge other_b
  case added =>
    intro a b layer edge new
    have other : a ≠ id := by
      rintro rfl
      rw [isolated layer] at edge
      cases edge
    rw [out_eq a layer other] at edge
    rcases mem_mendedOut edge with old | ⟨live_a, linked, live_b, beyond, _⟩
    · exact absurd old new
    · exact ⟨⟨live_a, (paired.mirrored a id layer).1 linked⟩, live_b, beyond⟩
  case way_out =>
    intro a b layer live_a linked beyond live_b other
    rw [out_eq a layer (other_of_live a live_a)]
    have linked := (paired.mirrored a id layer).2 linked
    exact mendedOut_ne_nil sturdy.within live_a linked beyond other live_b

/-! ### Waiting for a slot to be freed -/

/-- A deleted node that waits without edges, and which one it is. -/
structure Retired (g : Graph α) (id : Nat) (generation : Option Nat) : Prop where
  sturdy : g.Sturdy
  deleted : g.isDeleted id = true
  isolated : g.Isolated id
  generation_eq : g.generation? id = generation

namespace Retired

variable {g h : Graph α} {id : Nat} {generation : Option Nat}
  (retired : g.Retired id generation)

include retired

theorem dead : g.isLive id = false :=
  (isLive_eq_false_iff (lt_nodeCount_of_isDeleted retired.deleted)).2 retired.deleted

theorem markDeleted {j : Nat} (marked : g.markDeleted j = .ok h) : h.Retired id generation := by
  obtain ⟨sturdy, marks, _⟩ := retired.sturdy.markDeleted marked
  exact
    { sturdy
      deleted := by
        rw [marks.isDeleted_eq, retired.deleted]
        exact Bool.or_true _
      isolated := fun layer => (marks.links_eq id layer).trans (retired.isolated layer)
      generation_eq := (marks.generation?_eq id).trans retired.generation_eq }

/-- The slot of another node is freed. -/
theorem swapRemove {j : Nat} (other : id ≠ j) (removed : g.swapRemove j = .ok h) :
    h.Retired id generation := by
  have sturdy := retired.sturdy
  have deleted := (isDeleted_swapRemove sturdy removed id).2 ⟨other, retired.deleted⟩
  exact
    { sturdy := (sturdy.swapRemove removed).1
      deleted
      isolated := (isolated_swapRemove sturdy removed deleted).2 retired.isolated
      generation_eq := (generation?_swapRemove sturdy removed deleted).trans retired.generation_eq }

theorem ensureCapacity : g.ensureCapacity.Retired id generation := by
  have sturdy := retired.sturdy.ensureCapacity
  rw [ensureCapacity_eq] at sturdy ⊢
  exact ⟨sturdy, retired.deleted, retired.isolated, retired.generation_eq⟩

theorem shrinkToFit : g.shrinkToFit.Retired id generation := by
  have sturdy := retired.sturdy.shrinkToFit
  rw [shrinkToFit_eq] at sturdy ⊢
  exact ⟨sturdy, retired.deleted, retired.isolated, retired.generation_eq⟩

variable [Element α]

theorem insert {label : Label} {vector : List α} {new : Nat}
    (inserted : g.insert label vector = .ok (h, new)) : h.Retired id generation := by
  obtain ⟨sturdy, stores⟩ := retired.sturdy.insert inserted
  have old : id ≠ g.nodeCount := Nat.ne_of_lt (lt_nodeCount_of_isDeleted retired.deleted)
  exact
    { sturdy
      deleted := (stores.isDeleted_eq id).trans retired.deleted
      isolated := stores.isolated id retired.deleted retired.isolated
      generation_eq := by
        rw [stores.generation?_eq, if_neg old]
        exact retired.generation_eq }

theorem repair {j : Nat} (repaired : g.repair j = .ok h) : h.Retired id generation := by
  have sturdy := retired.sturdy
  obtain ⟨edits, within, _, _, stays⟩ := repair_spec sturdy.paired sturdy.within repaired
  have rewired := edits.rewired
  exact
    { sturdy := (sturdy.repair repaired).1
      deleted := (rewired.isDeleted_eq id).trans retired.deleted
      isolated := stays id retired.dead retired.isolated
      generation_eq := (rewired.generation?_eq id).trans retired.generation_eq }

/-- Only live nodes have a label, so deleting one does not free the slot. -/
theorem removeLabel (label : Label) : (g.removeLabel label).1.Retired id generation := by
  apply removeLabel_keeps (motive := fun k => k.Retired id generation)
  · exact fun _ _ _ retired marked => retired.markDeleted marked
  · exact fun _ _ _ retired repaired => retired.repair repaired
  · intro _ j listed _ retired' removed
    have other : id ≠ j := by
      rintro rfl
      exact retired.sturdy.listed.not_mem_idsOf retired.dead label listed
    exact retired'.swapRemove other removed
  · exact fun _ retired => retired.shrinkToFit
  · exact retired

theorem add (label : Label) (vector : List α) : (g.add label vector).1.Retired id generation := by
  rcases g.add_cases label vector with same | same | ⟨k, clears, outcome⟩
  · rw [same]
    exact retired
  · rw [same]
    exact retired.removeLabel label
  · have cleared : k.Retired id generation := by
      rcases clears with ⟨_, rfl⟩ | ⟨_, count, removed⟩
      · exact retired
      · have removal := retired.removeLabel label
        rwa [removed] at removal
    rcases outcome with same | ⟨l, new, inserted, same⟩
    · rw [same]
      exact cleared.ensureCapacity
    · rw [same]
      exact cleared.ensureCapacity.insert inserted

omit retired in
theorem addBatch {items : List (Label × List α)} {g : Graph α}
    (retired : g.Retired id generation) :
    (VectorIndex.addBatch g items).1.Retired id generation := by
  induction items generalizing g with
  | nil => exact retired
  | cons item items ih =>
      obtain ⟨label, vector⟩ := item
      rcases g.addBatch_cons label vector with refused | stored
      · rw [refused]
        exact retired.add label vector
      · rw [stored]
        exact ih (retired.add label vector)

/-- No call but the one that frees its slot touches the node. -/
theorem call {call : Call α} (other : call ≠ .swapRemove id) :
    (call.run g).Retired id generation := by
  cases call with
  | insert label vector =>
      exact orKeep_insert_keeps retired fun h new inserted => retired.insert inserted
  | add label vector => exact retired.add label vector
  | addBatch items => exact retired.addBatch
  | removeLabel label => exact retired.removeLabel label
  | markDeleted j => exact orKeep_keeps retired fun h marked => retired.markDeleted marked
  | repair j => exact orKeep_keeps retired fun h repaired => retired.repair repaired
  | swapRemove j =>
      have apart : id ≠ j := by
        rintro rfl
        exact other rfl
      exact orKeep_keeps retired fun h removed => retired.swapRemove apart removed
  | ensureCapacity => exact retired.ensureCapacity
  | shrinkToFit => exact retired.shrinkToFit

omit retired in
theorem calls {calls : List (Call α)} {g : Graph α} (retired : g.Retired id generation)
    (others : .swapRemove id ∉ calls) :
    (calls.foldl (fun g call => call.run g) g).Retired id generation := by
  induction calls generalizing g with
  | nil => exact retired
  | cons call calls ih =>
      rw [List.mem_cons, not_or] at others
      exact ih (retired.call (Ne.symm others.1)) others.2

end Retired

/-- A repair of a deleted node takes place and does what it should, and the node stays without edges
until its slot is freed. -/
theorem repair_mends [Element α] {g : Graph α} (passed : g.integrity = .ok ()) {id : Nat}
    (deleted : g.isDeleted id = true) :
    ∃ h, g.repair id = .ok h ∧ g.Mended id h ∧
      ∀ calls : List (Call α), .swapRemove id ∉ calls →
        (calls.foldl (fun g call => call.run g) h).Retired id (g.generation? id) := by
  have sturdy := (integrity_eq_ok_iff.1 passed).sturdy
  obtain ⟨h, repaired⟩ := repair_eq_ok deleted
  have mended := sturdy.mended repaired
  have retired : h.Retired id (g.generation? id) :=
    { sturdy := (sturdy.repair repaired).1
      deleted := (mended.rewired.isDeleted_eq id).trans deleted
      isolated := mended.isolated
      generation_eq := mended.rewired.generation?_eq id }
  exact ⟨h, repaired, mended, fun calls others => retired.calls others⟩

/-- The node in the middle goes, and the one behind it takes its place. -/
theorem repair_mends_relay :
    relay.integrity = .ok () ∧ relay.isDeleted 1 = true ∧
      ∃ h, relay.repair 1 = .ok h ∧ relay.Mended 1 h ∧ (h.links 0 0).out = [2] ∧
        ((Call.repair 1).run ((Call.insert 4 [.one]).run h)).Retired 1 (some 1) := by
  have passed : relay.integrity = .ok () := by decide +kernel
  have deleted : relay.isDeleted 1 = true := by rfl
  obtain ⟨h, repaired, mended, retired⟩ := repair_mends passed deleted
  have sturdy := (integrity_eq_ok_iff.1 passed).sturdy
  have out_eq : (h.links 0 0).out = relay.mendedOut 1 0 0 :=
    out_repair sturdy.paired sturdy.within repaired Nat.zero_ne_one 0
  have taken : relay.mendedOut 1 0 0 = [2] := by decide +kernel
  exact ⟨passed, deleted, h, repaired, mended, out_eq.trans taken,
    retired [.insert 4 [.one], .repair 1] (by simp)⟩

end Vicinity.Graph
