import Vicinity.Proofs.Graph.Arrival
import Vicinity.Proofs.Graph.Finding

/-!
Whether a new node gets a neighbour.

On each layer a new node is linked with live nodes that a search finds there, and the search of a
layer starts at the nearest of those found above it, at first where the descent ended. That place
may be a deleted node. As long as no live node is within its reach the searches find nothing and
start at it again, and when that is so on layer 0 too the node is left without a neighbour
(`insert_strands`). Once a live node was found, every later search finds its start at least.

So on layer 0 the node has a neighbour exactly when one of the searches reaches a live node from
where the descent ended, but for a degree bound that has wrapped around to zero
(`Obtained.insert_hasNeighbor`). It has one whenever the descent ends at a live node.
-/

namespace Vicinity.Graph

variable {α : Type}

/-- An edge of layer 0 leads from the node to a live one. -/
def HasNeighbor (g : Graph α) (id : Nat) : Prop :=
  ∃ n ∈ (g.links id 0).out, g.isLive n = true

theorem hasNeighbor_iff {g : Graph α} {id : Nat}
    (live : ∀ n ∈ (g.links id 0).out, g.isLive n = true) :
    g.HasNeighbor id ↔ (g.links id 0).out ≠ [] :=
  ⟨fun ⟨_, edge, _⟩ => List.ne_nil_of_mem edge, fun some_edge =>
    (List.exists_mem_of_ne_nil _ some_edge).imp fun n edge => ⟨edge, live n edge⟩⟩

variable [Element α] {g : Graph α}

/-! ### The descent for a new node -/

section Descent

variable {label : Label} {vector : List α} {level : Nat}

/-- The other nodes are where they were, whatever the length of the new vector. -/
theorem Filled.distanceTo_append_of_lt (filled : g.Filled) {n : Nat} (old : n < g.nodeCount)
    (query : List α) :
    (g.append label vector level).distanceTo query n = g.distanceTo query n := by
  have same : (g.append label vector level).vector? n = g.vector? n :=
    Arena.read?_extend_of_lt filled.aligned old
  rw [distanceTo, distanceTo, same]
  rfl

/-- No edge leads to the new node, so the descent does not come to it. -/
theorem Sturdy.descend_append (sturdy : g.Sturdy) (query : List α) (layer : Nat)
    (place : Candidate) :
    (g.append label vector level).descend query layer place = g.descend query layer place := by
  refine descend_congr (fun place => ?_) place
  rw [round, round, links_append]
  apply List.foldl_ext
  intro best next edge
  rw [nearer_eq, nearer_eq, sturdy.filled.distanceTo_append_of_lt (sturdy.paired.target_lt edge)]

theorem Sturdy.entryOn?_append (sturdy : g.Sturdy) (label : Label) (vector : List α)
    (level : Nat) (query : List α) (layer : Nat) :
    (g.append label vector level).entryOn? query layer = g.entryOn? query layer := by
  have descent : (fun place l => (g.append label vector level).descend query l place) =
      fun place l => g.descend query l place :=
    funext fun place => funext fun l => sturdy.descend_append query l place
  have start : (g.append label vector level).entryPoint = g.entryPoint := rfl
  simp only [entryOn?, start, descent]
  cases at_entry : g.entryPoint with
  | none => rfl
  | some entry =>
      have old := lt_nodeCount_of_isLive (sturdy.anchored.live entry at_entry)
      rw [Option.map_some, Option.map_some, sturdy.filled.distanceTo_append_of_lt old]
      rfl

omit [Element α] in
theorem Sturdy.liveWithin_append (sturdy : g.Sturdy) {start : Nat} (old : start < g.nodeCount)
    (layer : Nat) : (g.append label vector level).liveWithin layer start =
      g.liveWithin layer start := by
  have passes : g.Passes layer (· < g.nodeCount) := fun _ _ _ edge => sturdy.paired.target_lt edge
  ext n
  show (g.append label vector level).Reaches layer start n ∧ _ ↔ _
  rw [reaches_congr (links_append g label vector level · layer), isLive_append]
  refine and_congr_right fun way => ?_
  have apart : n ≠ g.nodeCount := Nat.ne_of_lt (way.keeps passes old)
  simp [apart]

end Descent

/-! ### Down the layers -/

section Layers

variable {id : Nat}

/-- The search of a layer finds something when a live node was within reach before the insertion. -/
theorem Entering.found_ne_nil_iff {layer : Nat} {layers : List Nat} {s : Graph α}
    {place : Candidate} (entering : g.Entering id (layer :: layers) (s, place))
    (positive : 0 < g.config.efConstruction.toNat) (vector : List α) :
    s.searchLayer vector place s.config.efConstruction.toNat layer ≠ [] ↔
      (g.liveWithin layer place.id).Nonempty := by
  have wiring := entering.wiring
  have rewired := wiring.edits.rewired
  have inside := lt_nodeCount_of_stands (wiring.start layer List.mem_cons_self)
  have positive : 0 < s.config.efConstruction.toNat := by rwa [rewired.config_eq]
  rw [searchLayer_ne_nil_iff wiring.paired inside positive,
    reaches_congr (entering.untouched layer List.mem_cons_self)]
  simp only [rewired.isLive_eq]
  rfl

/-- Searches start at the same place until one finds a live node, and at live ones from then on. -/
theorem Entering.out_ne_nil_iff (paired : g.Paired) (alone : g.Isolated id)
    (positive : 0 < g.config.efConstruction.toNat) {layers : List Nat}
    (descending : layers.Pairwise (· > ·)) (lowest : 0 ∈ layers) {state : Graph α × Candidate}
    (entering : g.Entering id layers state) (vector : List α) :
    ((layers.foldl (Graph.connectLayer id vector) state).1.links id 0).out ≠ [] ↔
      g.config.maxDegree 0 ≠ 0 ∧ ∃ layer ∈ layers, (g.liveWithin layer state.2.id).Nonempty := by
  induction layers generalizing state with
  | nil => cases lowest
  | cons layer layers ih =>
      obtain ⟨s, place⟩ := state
      have next := entering.connectLayer paired alone
        (List.pairwise_cons.1 descending).1 vector
      rw [List.pairwise_cons] at descending
      have found_iff := entering.found_ne_nil_iff positive vector
      rcases List.mem_cons.1 lowest with rfl | later
      · have last : layers = [] := List.eq_nil_iff_forall_not_mem.2 fun l mem =>
          Nat.not_lt_zero l (descending.1 l mem)
        subst last
        rw [List.foldl_cons, List.foldl_nil, (entering.out_connectLayer paired alone vector).1,
          chooseNeighbors_ne_nil_iff, found_iff, entering.wiring.edits.rewired.config_eq]
        simp
      · rw [List.foldl_cons, ih descending.2 later next]
        refine and_congr_right fun _ => ?_
        show (∃ l ∈ layers, (g.liveWithin l
          ((s.searchLayer vector place _ layer).head?.getD place).id).Nonempty) ↔ _
        cases found : s.searchLayer vector place s.config.efConstruction.toNat layer with
        | nil =>
            have nothing : ¬(g.liveWithin layer place.id).Nonempty := by
              rw [← found_iff, found]
              exact not_not_intro rfl
            rw [List.exists_mem_cons_iff, or_iff_right nothing]
            rfl
        | cons c rest =>
            have live := (entering.found_spec paired alone vector c (by simp [found])).2.2
            have here := found_iff.1 (by simp [found])
            exact iff_of_true ⟨0, later, c.id, .refl, live⟩ ⟨layer, List.mem_cons_self, here⟩

end Layers

/-! ### Insertions -/

/-- Whether a vector that was put into the next slot is linked on layer 0. -/
theorem Sturdy.out_append_ne_nil_iff (sturdy : g.Sturdy) (usable : g.config.fault? = none)
    (label : Label) {vector : List α} {level : Nat} {place : Candidate}
    (arrives : g.entryOn? vector level = some place) :
    (((g.append label vector level).wire g.nodeCount vector level).links g.nodeCount 0).out ≠ [] ↔
      g.config.m ≠ 0x8000000000000000 ∧
        ∃ layer ≤ min level g.maxLevel, (g.liveWithin layer place.id).Nonempty := by
  have paired := sturdy.paired.append label vector level
  have alone := isolated_append_self g label vector level
  have inside := sturdy.lt_nodeCount_of_entryOn? arrives
  rw [← sturdy.entryOn?_append label vector level] at arrives
  have entering := Entering.initial paired (sturdy.within.append label vector level)
    (sturdy.stands_entry_append label vector level)
    (stands_append_self g label vector level) alone arrives
  have lowest : 0 ∈ (g.append label vector level).wiredLayers level :=
    mem_wiredLayers.2 (Nat.zero_le _)
  have out_iff := entering.out_ne_nil_iff paired alone (efConstruction_pos usable)
    (wiredLayers_descending _ level) lowest vector
  have bound_iff : (g.append label vector level).config.maxDegree 0 ≠ 0 ↔ _ :=
    Config.maxDegree_ne_zero_iff usable
  simp only [bound_iff, sturdy.liveWithin_append inside, mem_wiredLayers] at out_iff
  refine Iff.trans ?_ out_iff
  unfold wire
  rw [arrives]
  dsimp only
  split <;> rfl

/-- A new node is linked with live nodes. -/
theorem Sturdy.live_of_mem_out_insert (sturdy : g.Sturdy) {label : Label} {vector : List α}
    {h : Graph α} {id : Nat} (inserted : g.insert label vector = .ok (h, id)) :
    ∀ n ∈ (h.links id 0).out, n ≠ id ∧ h.isLive n = true := by
  intro n edge
  obtain ⟨_, stores⟩ := sturdy.insert inserted
  obtain ⟨_, _, rfl, rfl⟩ := eq_of_insert inserted
  rw [stores.isLive_eq, ← isLive_append]
  exact (sturdy.receives_append label _ _ 0).1.chosen n edge

/-- A new node gets a live neighbour on layer 0 exactly when edges of one of its layers lead to a
live node from where the descent for it ended, unless the bound of layer 0 has wrapped around. So it
does when that place is live, which it is once every deleted node was repaired, and when the new
node stands on every layer that there is. All its neighbours are live. -/
theorem Obtained.insert_hasNeighbor {h : Graph α} (obtained : Obtained g)
    (some_live : ∃ n, g.isLive n = true) {label : Label} {vector : List α} {id : Nat}
    (inserted : g.insert label vector = .ok (h, id)) :
    (∀ n ∈ (h.links id 0).out, n ≠ id ∧ h.isLive n = true) ∧
    ∃ place, g.entryOn? (g.config.metric.prepare vector) (Level.draw g.config g.drawCount) =
        some place ∧
      (h.HasNeighbor id ↔ g.config.m ≠ 0x8000000000000000 ∧
        ∃ layer ≤ min (Level.draw g.config g.drawCount) g.maxLevel, ∃ n,
          g.Reaches layer place.id n ∧ g.isLive n = true) ∧
      (g.config.m ≠ 0x8000000000000000 →
        g.isLive place.id = true ∨ (∀ n, g.isDeleted n = true → g.Isolated n) ∨
          g.maxLevel ≤ Level.draw g.config g.drawCount → h.HasNeighbor id) := by
  obtain ⟨sturdy, usable⟩ := obtained.sturdy
  obtain ⟨entry, at_entry⟩ := sturdy.exists_entryPoint some_live
  have neighbors := sturdy.live_of_mem_out_insert inserted
  obtain ⟨_, _, rfl, rfl⟩ := eq_of_insert inserted
  obtain ⟨place, arrives⟩ := exists_entryOn? at_entry (g.config.metric.prepare vector)
    (Level.draw g.config g.drawCount)
  generalize Level.draw g.config g.drawCount = level at arrives neighbors ⊢
  generalize g.config.metric.prepare vector = prepared at arrives neighbors ⊢
  have neighbor_iff : HasNeighbor _ g.nodeCount ↔ _ :=
    (hasNeighbor_iff fun n edge => (neighbors n edge).2).trans
      (sturdy.out_append_ne_nil_iff usable label arrives)
  have of_live : g.isLive place.id = true →
      ∃ layer ≤ min level g.maxLevel, (g.liveWithin layer place.id).Nonempty :=
    fun live => ⟨0, Nat.zero_le _, place.id, .refl, live⟩
  refine ⟨neighbors, place, arrives, neighbor_iff, fun bounded cases => ?_⟩
  refine neighbor_iff.2 ⟨bounded, of_live ?_⟩
  rcases cases with live | repaired | high
  · exact live
  · exact sturdy.isLive_entryOn? repaired arrives
  · exact sturdy.isLive_entryOn?_of_le high arrives

/-- A new node finds its neighbour behind a deleted one that awaits its repair. -/
theorem insert_hasNeighbor_relay :
    Obtained relay ∧ relay.isDeleted 1 = true ∧
      ∃ h, relay.insert 4 [.one] = .ok (h, 3) ∧ h.HasNeighbor 3 := by
  have obtained : Obtained relay := .loaded (by decide +kernel : Image.load (Image.write relay) = _)
  obtain ⟨h, inserted⟩ : ∃ h, relay.insert 4 [.one] = .ok (h, 3) := insert_eq_ok 4 rfl rfl
  obtain ⟨_, _, _, _, flat⟩ := obtained.insert_hasNeighbor ⟨0, by decide⟩ inserted
  exact ⟨obtained, by decide, h, inserted, flat (by decide) (.inr (.inr (Nat.zero_le _)))⟩

/-! ### A new node without a neighbour -/

/-- A live node and a deleted one on more layers than a new node can stand on. The deleted one is
a neighbour of the live one on the top layer only. -/
def tower : Graph Binary64 where
  config := { dim := 1, metric := .l2 }
  nodes := #[
    { label := 1, generation := 0, layers := List.replicate 54 {} ++ [⟨[1], []⟩] },
    { label := 2, deleted := true, generation := 1
      layers := List.replicate 54 {} ++ [⟨[], [0]⟩] }]
  vectors := #[.zero, .one]
  labels := LabelMap.empty.insert 1 [0]
  entryPoint := some 0
  maxLevel := 54
  capacity := 1024
  nextGeneration := 2
  markedCount := 1

theorem load_tower : Image.load (Image.write tower) = .ok tower := by decide +kernel

/-- No edge leads from the deleted node. -/
theorem out_tower (layer : Nat) : (tower.links 1 layer).out = [] := by
  by_cases stands : tower.Stands 1 layer
  · have all : ∀ layer < 55, (tower.links 1 layer).out = [] := by decide +kernel
    exact all layer stands
  · rw [links_eq_empty stands]

/-- For a vector that is nearer to the deleted node the descent ends there, whatever its level. -/
theorem entryOn?_tower {level : Nat} (low : level ≤ Level.highest) :
    tower.entryOn? [.one] level = some ⟨.zero, 1⟩ := by
  have nearer : (tower.links 0 54).out.foldl (tower.nearer [.one])
      ⟨tower.distanceTo [.one] 0, 0⟩ = ⟨.zero, 1⟩ := by decide +kernel
  have closer : Binary64.zero.lt (tower.distanceTo [.one] 0) = true := by decide +kernel
  have top : tower.descend [.one] 54 ⟨tower.distanceTo [.one] 0, 0⟩ = ⟨.zero, 1⟩ := by
    rw [descend, nearer]
    dsimp only
    rw [if_pos closer, descend_of_no_out (out_tower 54)]
  have first : layersDown 54 level = 54 :: layersDown 53 level := layersDown_succ low
  rw [entryOn?]
  show some ((layersDown 54 level).foldl _ _) = _
  rw [first, List.foldl_cons, top, foldl_descend_of_no_out out_tower]

/-- Beside a live node, a vector is stored that gets no neighbour. -/
theorem insert_strands :
    Obtained tower ∧ tower.isLive 0 = true ∧
      ∃ h, tower.insert 3 [.one] = .ok (h, 2) ∧ h.isLive 2 = true ∧ ¬h.HasNeighbor 2 := by
  have obtained : Obtained tower := .loaded load_tower
  obtain ⟨sturdy, usable⟩ := obtained.sturdy
  obtain ⟨h, inserted⟩ : ∃ h, tower.insert 3 [.one] = .ok (h, 2) := insert_eq_ok 3 rfl rfl
  obtain ⟨_, stores⟩ := sturdy.insert inserted
  refine ⟨obtained, by decide, h, inserted, stores.isLive_eq 2, ?_⟩
  obtain ⟨_, _, _, rfl⟩ := eq_of_insert inserted
  have prepared : tower.config.metric.prepare [Binary64.one] = [.one] := rfl
  have arrives := entryOn?_tower (Level.draw_le_highest tower.config tower.drawCount)
  rw [prepared]
  generalize Level.draw tower.config tower.drawCount = level at arrives ⊢
  rintro ⟨n, edge, _⟩
  obtain ⟨_, layer, _, n, way, live⟩ :=
    (sturdy.out_append_ne_nil_iff usable 3 arrives).1 (List.ne_nil_of_mem edge)
  have passes : tower.Passes layer (· = 1) := by
    rintro _ rfl next edge
    rw [out_tower] at edge
    cases edge
  obtain rfl : n = 1 := way.keeps passes rfl
  cases live

end Vicinity.Graph
