import Mathlib.Logic.Relation
import Vicinity.Graph.Insert
import Vicinity.Proofs.Graph.Frontier
import Vicinity.Proofs.Graph.Linked
import Vicinity.Proofs.PriorityHeap

/-!
Where a walk over a graph can end.

A walk follows out-edges on one layer, so whatever holds of its start and passes along these edges
holds of every node it finds (`descend_keeps`, `searchLayer_keeps`). In particular a walk that
starts at a node of a layer stays among the nodes of that layer, and the search that begins at the
entry point reaches each layer at a node that stands there (`stands_entryOn?`).
-/

namespace Vicinity.Graph

variable {α : Type}

/-- The property passes from a node to its out-neighbours on the layer. -/
def Passes (g : Graph α) (layer : Nat) (holds : Nat → Prop) : Prop :=
  ∀ id, holds id → ∀ next ∈ (g.links id layer).out, holds next

theorem Paired.passes_stands {g : Graph α} (paired : g.Paired) (layer : Nat) :
    g.Passes layer (g.Stands · layer) :=
  fun _ _ _ edge => paired.stands_target edge

/-- Edges of the layer lead from the first node to the second one. -/
def Reaches (g : Graph α) (layer : Nat) : Nat → Nat → Prop :=
  Relation.ReflTransGen fun id next => next ∈ (g.links id layer).out

/-- What passes along the edges of the layer holds of all that can be reached. -/
theorem Reaches.keeps {g : Graph α} {layer a b : Nat} (way : g.Reaches layer a b)
    {holds : Nat → Prop} (passes : g.Passes layer holds) (start : holds a) : holds b := by
  induction way with
  | refl => exact start
  | tail _ edge ih => exact passes _ ih _ edge

theorem reaches_congr {g h : Graph α} {layer : Nat}
    (same : ∀ a, h.links a layer = g.links a layer) : h.Reaches layer = g.Reaches layer := by
  unfold Reaches
  simp only [same]

/-- Where every edge has one back, so does every way. -/
theorem Reaches.symm {g : Graph α} {layer a b : Nat}
    (back : ∀ x y, y ∈ (g.links x layer).out → x ∈ (g.links y layer).out)
    (way : g.Reaches layer a b) : g.Reaches layer b a :=
  Relation.ReflTransGen.mono (fun x y edge => back y x edge) _ _ way.swap

/-! ### Descent -/

section Descent

variable [Element α]

/-- A node that is not there is beyond every number, so no place is given up for it. -/
theorem nearer_eq (g : Graph α) (query : List α) (best : Candidate) (id : Nat) :
    g.nearer query best id =
      if (g.distanceTo query id).lt best.distance then ⟨g.distanceTo query id, id⟩ else best := by
  rw [nearer, distanceTo]
  cases g.vector? id with
  | none => exact (if_neg (Bool.eq_false_iff.1 (Binary64.infinity_lt _))).symm
  | some vector => rfl

/-- The nearest of a candidate and some nodes is one of them. -/
theorem id_foldl_nearer (g : Graph α) (query : List α) (ids : List Nat) (best : Candidate) :
    (ids.foldl (g.nearer query) best).id = best.id ∨
      (ids.foldl (g.nearer query) best).id ∈ ids := by
  induction ids generalizing best with
  | nil => exact .inl rfl
  | cons id ids ih =>
      rcases ih (g.nearer query best id) with same | later
      · have first : (g.nearer query best id).id = best.id ∨
            (g.nearer query best id).id = id := by
          rw [nearer_eq]
          split
          · exact .inr rfl
          · exact .inl rfl
        rw [List.foldl_cons, same]
        rcases first with kept | moved
        · exact .inl kept
        · exact .inr (by rw [moved]; exact List.mem_cons_self)
      · exact .inr (List.mem_cons_of_mem _ later)

/-- The place after one round of a descent. -/
def round (g : Graph α) (query : List α) (layer : Nat) (place : Candidate) : Candidate :=
  (g.links place.id layer).out.foldl (g.nearer query) place

/-- Where every round goes alike, so do descents. -/
theorem descend_congr {g h : Graph α} {query : List α} {layer : Nat}
    (same : ∀ place, h.round query layer place = g.round query layer place) (place : Candidate) :
    h.descend query layer place = g.descend query layer place := by
  fun_induction descend g query layer place with
  | case1 place next closer ih =>
      have next_eq : h.round query layer place = next := same place
      rw [← ih, descend, ← round, next_eq]
      exact if_pos closer
  | case2 place next stays =>
      have next_eq : h.round query layer place = next := same place
      rw [descend, ← round, next_eq]
      exact if_neg stays

theorem descend_keeps {g : Graph α} {layer : Nat} {holds : Nat → Prop}
    (passes : g.Passes layer holds) (query : List α) (place : Candidate)
    (start : holds place.id) : holds (g.descend query layer place).id := by
  fun_induction descend g query layer place with
  | case1 place next _ ih =>
      apply ih
      rcases id_foldl_nearer g query (g.links place.id layer).out place with same | edge
      · rwa [show next.id = place.id from same]
      · exact passes place.id start _ edge
  | case2 => exact start

/-- A candidate that comes with its distance to the query moves to one that does. -/
theorem distance_descend {g : Graph α} {query : List α} {place : Candidate}
    (place_true : place.distance = g.distanceTo query place.id) (layer : Nat) :
    (g.descend query layer place).distance =
      g.distanceTo query (g.descend query layer place).id := by
  fun_induction descend g query layer place with
  | case1 place next _ ih =>
      apply ih
      apply List.foldlRecOn
        (motive := fun best : Candidate => best.distance = g.distanceTo query best.id)
      · exact place_true
      · intro best best_true id _
        rw [nearer_eq]
        split
        · rfl
        · exact best_true
  | case2 => exact place_true

theorem distance_entryOn? {g : Graph α} {query : List α} {layer : Nat} {place : Candidate}
    (found : g.entryOn? query layer = some place) :
    place.distance = g.distanceTo query place.id := by
  unfold entryOn? at found
  obtain ⟨entry, _, rfl⟩ := Option.map_eq_some_iff.1 found
  apply List.foldlRecOn
    (motive := fun place : Candidate => place.distance = g.distanceTo query place.id)
  · exact rfl
  · exact fun place place_true l _ => distance_descend place_true l

theorem stands_foldl_descend {g : Graph α} (paired : g.Paired) (query : List α) {low : Nat}
    {layers : List Nat} (above : ∀ layer ∈ layers, low < layer)
    (descending : layers.Pairwise (· > ·)) {place : Candidate} {high : Nat}
    (start : g.Stands place.id high) (low_le : low ≤ high)
    (le_high : ∀ layer ∈ layers, layer ≤ high) :
    g.Stands (layers.foldl (fun place l => g.descend query l place) place).id low := by
  induction layers generalizing place high with
  | nil => exact start.mono low_le
  | cons layer layers ih =>
      rw [List.pairwise_cons] at descending
      have here : g.Stands (g.descend query layer place).id layer :=
        descend_keeps (paired.passes_stands layer) query place
          (start.mono (le_high layer List.mem_cons_self))
      exact ih (fun l mem => above l (List.mem_cons_of_mem _ mem)) descending.2 here
        (Nat.le_of_lt (above layer List.mem_cons_self))
        (fun l mem => Nat.le_of_lt (descending.1 l mem))

/-- The search for a layer arrives at a node that stands there. -/
theorem stands_entryOn? {g : Graph α} (paired : g.Paired) {query : List α} {layer : Nat}
    {place : Candidate} (found : g.entryOn? query layer = some place)
    (entry : ∀ id, g.entryPoint = some id → g.Stands id g.maxLevel) (le : layer ≤ g.maxLevel) :
    g.Stands place.id layer := by
  unfold entryOn? at found
  obtain ⟨id, at_entry, rfl⟩ := Option.map_eq_some_iff.1 found
  have descending : (layersDown g.maxLevel layer).Pairwise (· > ·) := by
    rw [layersDown, List.pairwise_reverse]
    exact List.pairwise_lt_range'
  have range : ∀ l ∈ layersDown g.maxLevel layer, layer < l ∧ l ≤ g.maxLevel := by
    intro l mem
    have := List.mem_range'_1.1 (List.mem_reverse.1 mem)
    omega
  exact stands_foldl_descend paired query (fun l mem => (range l mem).1) descending
    (entry id at_entry) le (fun l mem => (range l mem).2)

/-- What passes along the edges of every layer holds of the place where the search arrives, when it
holds of the entry point. -/
theorem entryOn?_keeps {g : Graph α} {query : List α} {layer : Nat} {place : Candidate}
    (found : g.entryOn? query layer = some place) :
    ∃ entry, g.entryPoint = some entry ∧ ∀ holds : Nat → Prop,
      (∀ l, g.Passes l holds) → holds entry → holds place.id := by
  unfold entryOn? at found
  obtain ⟨entry, at_entry, rfl⟩ := Option.map_eq_some_iff.1 found
  refine ⟨entry, at_entry, fun holds passes start => ?_⟩
  apply List.foldlRecOn (motive := fun place : Candidate => holds place.id)
  · exact start
  · exact fun place here l _ => descend_keeps (passes l) query place here

theorem layersDown_succ {high low : Nat} (le : low ≤ high) :
    layersDown (high + 1) low = (high + 1) :: layersDown high low := by
  have top : low + 1 + (high - low) = high + 1 := by omega
  rw [layersDown, Nat.succ_sub le, List.range'_1_concat, List.reverse_append, top]
  rfl

/-- Above the layer of the entry point there is no descent. -/
theorem entryOn?_of_le {g : Graph α} (query : List α) {layer : Nat} (le : g.maxLevel ≤ layer) :
    g.entryOn? query layer = g.entryPoint.map fun id => ⟨g.distanceTo query id, id⟩ := by
  simp [entryOn?, layersDown, Nat.sub_eq_zero_of_le le]

/-- From a node without out-neighbours there is nowhere to go. -/
theorem descend_of_no_out {g : Graph α} {layer : Nat} {place : Candidate}
    (no_out : (g.links place.id layer).out = []) (query : List α) :
    g.descend query layer place = place := by
  rw [descend, no_out]
  simp [Binary64.lt_irrefl]

/-- Where no edge leads on, the descent stays on every layer. -/
theorem foldl_descend_of_no_out {g : Graph α} {place : Candidate}
    (no_out : ∀ layer, (g.links place.id layer).out = []) (query : List α) (layers : List Nat) :
    layers.foldl (fun place l => g.descend query l place) place = place := by
  induction layers with
  | nil => rfl
  | cons l layers ih => rw [List.foldl_cons, descend_of_no_out (no_out l), ih]

/-- A descent from an entry point without edges stays there. -/
theorem entryOn?_of_isolated {g : Graph α} {entry : Nat} (start : g.entryPoint = some entry)
    (alone : g.Isolated entry) (query : List α) (layer : Nat) :
    g.entryOn? query layer = some ⟨g.distanceTo query entry, entry⟩ := by
  rw [entryOn?, start]
  exact congrArg some (foldl_descend_of_no_out (fun l => by rw [alone l]) query _)

end Descent

/-! ### Beams -/

namespace Beam

/-- Every queued node has the property, and every kept one is live besides. -/
structure Keeps (g : Graph α) (holds : Nat → Prop) (beam : Beam) : Prop where
  queued : ∀ c ∈ beam.frontier.queue, holds c.id
  kept : ∀ id ∈ beam.best.payloads, holds id ∧ g.isDeleted id = false

/-- A search begins with its start queued, and kept when it is live. -/
theorem Keeps.start {g : Graph α} {holds : Nat → Prop} {place : Candidate}
    (start : holds place.id) :
    Keeps g holds
      { frontier := .start g.nodeCount place
        best := if g.isDeleted place.id then .empty
          else .insert .empty place.distance place.id } := by
  refine ⟨fun c queued => ?_, fun id inside => ?_⟩
  · rw [List.mem_singleton.1 queued]
    exact start
  · dsimp only at inside
    split at inside
    · cases inside
    case isFalse live =>
      rcases PriorityHeap.mem_payloads_insert inside with rfl | none
      · exact ⟨start, by simpa using live⟩
      · cases none

theorem mem_payloads_trim {ef : Nat} {best : PriorityHeap} {x : Nat}
    (mem : x ∈ (trim ef best).payloads) : x ∈ best.payloads := by
  unfold trim at mem
  split at mem
  · split at mem
    case h_1 _ _ popped => exact PriorityHeap.mem_payloads_pop? popped mem
    case h_2 => exact mem
  · exact mem

variable [Element α]

theorem Keeps.visit {g : Graph α} {holds : Nat → Prop} {beam : Beam} (keeps : beam.Keeps g holds)
    (query : List α) (ef : Nat) {id : Nat} (here : holds id) :
    (visit g query ef beam id).Keeps g holds := by
  unfold Beam.visit
  split
  · exact keeps
  case h_2 frontier entered =>
    have queued : ∀ c ∈ frontier.queue, holds c.id := by
      rw [Frontier.queue_enter? entered]
      exact keeps.queued
    dsimp only
    split
    · refine ⟨fun c mem => ?_, fun x mem => ?_⟩
      · rcases List.mem_cons.1 ((Candidate.insertSorted_perm ..).mem_iff.1 mem) with rfl | old
        · exact here
        · exact queued c old
      · dsimp only at mem
        split at mem
        · exact keeps.kept x mem
        case isFalse live =>
          rcases PriorityHeap.mem_payloads_insert (mem_payloads_trim mem) with rfl | old
          · exact ⟨here, by simpa using live⟩
          · exact keeps.kept x old
    · exact ⟨queued, keeps.kept⟩

theorem Keeps.foldl_visit {g : Graph α} {holds : Nat → Prop} (query : List α) (ef : Nat)
    {ids : List Nat} (all : ∀ id ∈ ids, holds id) {beam : Beam} (keeps : beam.Keeps g holds) :
    (ids.foldl (Beam.visit g query ef) beam).Keeps g holds := by
  induction ids generalizing beam with
  | nil => exact keeps
  | cons id ids ih =>
      exact ih (fun x mem => all x (List.mem_cons_of_mem _ mem))
        (keeps.visit query ef (all id List.mem_cons_self))

theorem Keeps.explore {g : Graph α} {layer : Nat} {holds : Nat → Prop}
    (passes : g.Passes layer holds) (query : List α) (ef : Nat) {beam : Beam}
    (keeps : beam.Keeps g holds) : (explore g query ef layer beam).Keeps g holds := by
  fun_induction Beam.explore g query ef layer beam with
  | case1 => exact keeps
  | case2 => exact keeps
  | case3 beam c rest queue _ ih =>
      have start : holds c.id := keeps.queued c (queue ▸ List.mem_cons_self)
      refine ih (Keeps.foldl_visit query ef (passes c.id start) ⟨fun d mem => ?_, keeps.kept⟩)
      exact keeps.queued d (queue ▸ List.mem_cons_of_mem _ mem)

end Beam

variable [Element α]

/-- Every node that a search on a layer finds has the property of its start, and is live. -/
theorem searchLayer_keeps {g : Graph α} {layer : Nat} {holds : Nat → Prop}
    (passes : g.Passes layer holds) (query : List α) {place : Candidate} (ef : Nat)
    (start : holds place.id) {c : Candidate} (found : c ∈ g.searchLayer query place ef layer) :
    holds c.id ∧ g.isDeleted c.id = false := by
  unfold searchLayer at found
  have mem := (Sorting.sortBy_perm ..).mem_iff.1 found
  obtain ⟨entry, kept, rfl⟩ := List.mem_map.1 mem
  exact (Beam.Keeps.explore passes query ef (.start start)).kept entry.payload
    (List.mem_map_of_mem kept)

/-- A search from a node without out-neighbours finds that node if it is live, and no other. -/
theorem searchLayer_of_no_out {g : Graph α} {layer : Nat} {place : Candidate}
    (no_out : (g.links place.id layer).out = []) (query : List α) (ef : Nat) :
    g.searchLayer query place ef layer = if g.isDeleted place.id then [] else [place] := by
  have done : ∀ (frontier : Frontier) (best : PriorityHeap), frontier.queue = [place] →
      (Beam.explore g query ef layer { frontier, best }).best = best := by
    intro frontier best queue
    rw [Beam.explore]
    split
    · rfl
    case h_2 c rest eq =>
      have eq : [place] = c :: rest := queue.symm.trans eq
      cases eq
      split
      · rfl
      · rw [no_out, List.foldl_nil, Beam.explore]
  rw [searchLayer, done _ _ rfl]
  split
  · rfl
  · rw [PriorityHeap.toList_insert_empty]
    rfl

/-- A search reports what the beam finds around the node where the descent ends. -/
theorem search_of_arrives {g : Graph α} {query : List α}
    (fits : checkDimension g.config.dim.toNat query.length = .ok ()) {k ef : Nat} (asked : 0 < k)
    (wide : k ≤ ef) {place : Candidate}
    (arrives : g.entryOn? (g.config.metric.prepare query) 0 = some place) :
    g.search query k ef =
      .ok ((g.toHits (g.searchLayer (g.config.metric.prepare query) place ef 0)).take k) := by
  rw [search, fits]
  dsimp only
  rw [if_neg (Nat.not_lt.2 wide), if_neg (Nat.ne_of_gt asked), arrives]

/-- Without an entry point a search reports nothing. -/
theorem search_of_no_entry {g : Graph α} {query : List α}
    (fits : checkDimension g.config.dim.toNat query.length = .ok ()) {k ef : Nat} (wide : k ≤ ef)
    (absent : g.entryPoint = none) : g.search query k ef = .ok [] := by
  rw [search, fits]
  dsimp only
  rw [if_neg (Nat.not_lt.2 wide), entryOn?, absent]
  split <;> rfl

theorem exists_entryOn? {g : Graph α} {entry : Nat} (start : g.entryPoint = some entry)
    (query : List α) (layer : Nat) : ∃ place, g.entryOn? query layer = some place := by
  rw [entryOn?, start]
  exact ⟨_, rfl⟩

/-- A search that starts at a live node without edges reports that node. -/
theorem search_of_isolated {g : Graph α} {entry : Nat} (start : g.entryPoint = some entry)
    (alone : g.Isolated entry) (kept : g.isDeleted entry = false) {label : Label}
    (named : g.label? entry = some label) {query : List α}
    (fits : checkDimension g.config.dim.toNat query.length = .ok ()) {k ef : Nat} (asked : 0 < k)
    (wide : k ≤ ef) :
    g.search query k ef =
      .ok [⟨label, g.distanceTo (g.config.metric.prepare query) entry⟩] := by
  have hits : ∀ c : Candidate, c.id = entry → g.toHits [c] = [⟨label, c.distance⟩] := by
    rintro c rfl
    simp [toHits, named, firstPerLabel]
  rw [search_of_arrives fits asked wide (entryOn?_of_isolated start alone _ 0),
    searchLayer_of_no_out (by rw [alone 0]), kept, if_neg Bool.noConfusion, hits _ rfl,
    List.take_of_length_le asked]

/-! ### Choice of neighbours -/

/-- Neighbours are chosen among the candidates, and there are no more of them than allowed. -/
theorem chooseNeighbors_spec (g : Graph α) (cap : Nat) (candidates : List Candidate) :
    (∀ id ∈ g.chooseNeighbors cap candidates, ∃ c ∈ candidates, c.id = id) ∧
      (g.chooseNeighbors cap candidates).length ≤ cap := by
  unfold chooseNeighbors
  split
  case isTrue few =>
    refine ⟨fun id mem => ?_, by simpa using few⟩
    obtain ⟨c, here, rfl⟩ := List.mem_map.1 mem
    exact ⟨c, here, rfl⟩
  case isFalse =>
    -- What was chosen so far comes from candidates already passed, and stays within the bound.
    suffices ∀ (rest : List Candidate) (chosen : List Nat),
        (∀ c ∈ rest, c ∈ candidates) → (∀ id ∈ chosen, ∃ c ∈ candidates, c.id = id) →
        chosen.length ≤ cap →
        let all := rest.foldl (g.choose cap) chosen
        (∀ id ∈ all, ∃ c ∈ candidates, c.id = id) ∧ all.length ≤ cap from
      this candidates [] (fun _ mem => mem) (by simp) (Nat.zero_le _)
    intro rest
    induction rest with
    | nil => exact fun chosen _ from_candidates few => ⟨from_candidates, few⟩
    | cons c rest ih =>
        intro chosen sub from_candidates few
        rw [List.foldl_cons]
        unfold choose
        apply ih _ fun d mem => sub d (List.mem_cons_of_mem _ mem)
        · intro id mem
          split at mem
          · rcases List.mem_append.1 mem with old | new
            · exact from_candidates id old
            · exact ⟨c, sub c List.mem_cons_self, (List.mem_singleton.1 new).symm⟩
          · exact from_candidates id mem
        · split
          case isTrue room =>
            simp only [Bool.and_eq_true, decide_eq_true_eq] at room
            simp only [List.length_append, List.length_singleton]
            exact room.1
          case isFalse => exact few

end Vicinity.Graph
