import Vicinity.Proofs.Graph.Beam

/-!
What a beam finds is nearest.

When no live node is at a distance that is NaN, a live node that was seen and is not kept is no
nearer than those that are, and every kept node is followed up: a kept node is never beyond the
bound at which the exploration stops (`Ranking.followed_at_stop`). Both are carried through an
exploration (`Ranking`). So a live node that is linked from one that the search finds is found as
well or is no nearer (`searchLayer_nearest`).
-/

namespace Vicinity.Graph

variable {α : Type} [Element α]

/-- No live node is at a distance from the query that is NaN. -/
def Comparable (g : Graph α) (query : List α) : Prop :=
  ∀ id, g.isLive id = true → (g.distanceTo query id).isNaN = false

theorem Comparable.number {g : Graph α} {query : List α} (comparable : g.Comparable query)
    {id : Nat} (inside : id < g.nodeCount) (kept : g.isDeleted id = false) :
    (g.distanceTo query id).isNaN = false :=
  comparable id (isLive_of_not_isDeleted inside kept)

namespace Beam

/-- The node is kept, or there is no room and none that is kept is farther. -/
def Settled (g : Graph α) (query : List α) (ef : Nat) (best : PriorityHeap) (id : Nat) : Prop :=
  id ∈ best.payloads ∨
    ef ≤ best.size ∧ ∀ e ∈ best.toList, e.priority.le (g.distanceTo query id) = true

/-- What holds besides when the distances of live nodes are numbers. -/
structure Ranking (g : Graph α) (query : List α) (layer ef : Nat) (rest : List Nat)
    (beam : Beam) : Prop where
  queued : Candidate.Queued beam.frontier.queue
  queue_true : ∀ c ∈ beam.frontier.queue, c.distance = g.distanceTo query c.id
  measured : Measured g query beam.best
  ordered : beam.best.Ordered
  followed : ∀ id ∈ beam.best.payloads, beam.Followed g layer rest id
  settled : ∀ id, beam.frontier.Seen id → g.isDeleted id = false →
    Settled g query ef beam.best id

/-- The bound is the priority of a node that is kept. -/
theorem bound_eq {beam : Beam} (some_kept : 0 < beam.best.size) :
    ∃ e ∈ beam.best.toList, beam.best.peek? = some e ∧ beam.bound = e.priority := by
  have first : beam.best.peek? = some beam.best.entries[0] := Array.getElem?_eq_getElem some_kept
  refine ⟨_, Array.getElem_mem_toList some_kept, first, ?_⟩
  rw [bound, first]
  rfl

/-- Nothing that is kept is beyond the bound. -/
theorem le_bound {beam : Beam} (ordered : beam.best.Ordered) (numeric : beam.best.Numeric)
    (some_kept : 0 < beam.best.size) :
    beam.bound.isNaN = false ∧ ∀ e ∈ beam.best.toList, e.priority.le beam.bound = true := by
  obtain ⟨top, kept, first, eq⟩ := bound_eq some_kept
  rw [eq]
  refine ⟨numeric top kept, fun e mem => ?_⟩
  exact PriorityHeap.Entry.le_of_rank_le (numeric e mem) (numeric top kept)
    (ordered.rank_le_first first e mem)

/-- What is kept stays ordered, and an entry that goes is not below any that stays. -/
theorem ordered_trim_insert {ef : Nat} {best : PriorityHeap} (located : best.Located)
    (narrow : best.size ≤ ef) (ordered : best.Ordered) (numeric : best.Numeric)
    {distance : Binary64} (number : distance.isNaN = false) {id : Nat}
    (absent : id ∉ best.payloads) :
    (trim ef (best.insert distance id)).Ordered ∧
      ∀ e ∈ (⟨distance, id⟩ : PriorityHeap.Entry) :: best.toList,
        e ∈ (trim ef (best.insert distance id)).toList ∨
          best.size = ef ∧
            ∀ d ∈ (trim ef (best.insert distance id)).toList, d.priority.le e.priority = true := by
  have inserted := located.insert_of_absent distance absent
  have ordered' := ordered.insert_of_absent numeric located number absent
  rcases (trim_insert located narrow distance absent).2 with
    ⟨_, kept_all, same⟩ | ⟨full, top, popped, same⟩
  · rw [kept_all] at same ⊢
    exact ⟨ordered', fun e mem => .inl (same.mem_iff.2 mem)⟩
  · have numeric' := numeric.insert_of_absent located number absent
    obtain ⟨ordered_rest, greatest⟩ := ordered'.pop? numeric' popped
    have among : ∀ e ∈ top :: (trim ef (best.insert distance id)).toList,
        e ∈ (best.insert distance id).toList :=
      fun e mem => inserted.2.mem_iff.2 (same.mem_iff.1 mem)
    refine ⟨ordered_rest, fun e mem => ?_⟩
    rcases List.mem_cons.1 (same.mem_iff.2 mem) with rfl | stays
    · refine .inr ⟨full, fun d kept => ?_⟩
      have inside := among d (List.mem_cons_of_mem _ kept)
      exact PriorityHeap.Entry.le_of_rank_le (numeric' d inside)
        (numeric' e (among e List.mem_cons_self)) (greatest d inside)
    · exact .inl stays

variable {g : Graph α} {query : List α} {layer ef start : Nat}

theorem Ranking.numeric (comparable : g.Comparable query) {rest rest' : List Nat} {beam : Beam}
    (ranking : beam.Ranking g query layer ef rest)
    (searching : beam.Searching g layer ef start rest') : beam.best.Numeric := by
  intro e mem
  rw [ranking.measured e mem]
  obtain ⟨seen, live⟩ := searching.kept e.payload (List.mem_map_of_mem mem)
  exact comparable.number (searching.inside seen) live

theorem Ranking.skip {id : Nat} {rest : List Nat} {beam : Beam}
    (ranking : beam.Ranking g query layer ef (id :: rest)) (seen : beam.frontier.Seen id) :
    beam.Ranking g query layer ef rest := by
  refine { ranking with followed := fun x mem => ?_ }
  exact (ranking.followed x mem).mono (fun _ mem => mem) (seen_or_left seen fun _ before => before)

/-- A live node that is near enough is kept. Whatever was settled stays so, and so is the node that
may have to go for it. -/
theorem Ranking.keep (comparable : g.Comparable query) {id : Nat} {rest : List Nat} {beam : Beam}
    (ranking : beam.Ranking g query layer ef (id :: rest))
    (searching : beam.Searching g layer ef start (id :: rest)) (positive : 0 < ef)
    (inside : id < g.nodeCount) (absent : id ∉ beam.best.payloads)
    (live : g.isDeleted id = false)
    (near : beam.best.size < ef ∨ (g.distanceTo query id).lt beam.bound = true) :
    let best := trim ef (beam.best.insert (g.distanceTo query id) id)
    best.Ordered ∧ (∀ x ∈ best.payloads, x = id ∨ x ∈ beam.best.payloads) ∧
      ∀ x, (x = id ∨ Settled g query ef beam.best x) → g.isDeleted x = false →
        Settled g query ef best x := by
  intro best
  have numeric := ranking.numeric comparable searching
  have size : best.size = min ef (beam.best.size + 1) :=
    size_trim_insert searching.located searching.narrow _ absent
  obtain ⟨ordered, goes⟩ := ordered_trim_insert searching.located searching.narrow ranking.ordered
    numeric (comparable.number inside live) absent
  refine ⟨ordered, fun x mem => mem_payloads_trim_insert mem, fun x settled live_x => ?_⟩
  by_cases listed : x = id ∨ x ∈ beam.best.payloads
  · -- Of all that were kept or came in, only the worst may go.
    have entry : ∃ e ∈ (⟨g.distanceTo query id, id⟩ : PriorityHeap.Entry) :: beam.best.toList,
        e.payload = x ∧ e.priority = g.distanceTo query x := by
      rcases listed with rfl | inside
      · exact ⟨_, List.mem_cons_self, rfl, rfl⟩
      · obtain ⟨e, old, rfl⟩ := List.mem_map.1 inside
        exact ⟨e, List.mem_cons_of_mem _ old, rfl, ranking.measured e old⟩
    obtain ⟨e, mem, rfl, distance_eq⟩ := entry
    rcases goes e mem with stays | ⟨full, farthest⟩
    · exact .inl (List.mem_map_of_mem stays)
    · exact .inr ⟨by omega, distance_eq ▸ farthest⟩
  · obtain ⟨other, outside⟩ := not_or.1 listed
    obtain ⟨full, farther⟩ := (settled.resolve_left other).resolve_left outside
    refine .inr ⟨by omega, fun e mem => ?_⟩
    rcases mem_trim_insert searching.located searching.narrow _ absent mem with rfl | old
    · obtain ⟨worst, kept, _, eq⟩ := bound_eq (Nat.lt_of_lt_of_le positive full)
      have nearer := near.resolve_left (Nat.not_lt.2 full)
      rw [eq] at nearer
      exact Binary64.le_trans (Binary64.le_of_lt nearer) (farther worst kept)
    · exact farther e old

theorem Ranking.visit (comparable : g.Comparable query) {id : Nat} {rest : List Nat} {beam : Beam}
    (ranking : beam.Ranking g query layer ef (id :: rest))
    (searching : beam.Searching g layer ef start (id :: rest)) (positive : 0 < ef)
    (inside : id < g.nodeCount) : (visit g query ef beam id).Ranking g query layer ef rest := by
  rcases visit_cases g query ef beam (searching.size_seen ▸ inside) with
    ⟨seen, unchanged⟩ | ⟨frontier, entered, outcome⟩
  · rw [unchanged]
    exact ranking.skip seen
  · obtain ⟨_, unseen, seen_iff⟩ := Frontier.enter?_eq_some entered
    have queue_eq := Frontier.queue_enter? entered
    have near : ∀ x, beam.frontier.Seen x ∨ x ∈ id :: rest → frontier.Seen x ∨ x ∈ rest :=
      seen_or_left ((seen_iff id).2 (.inl rfl)) fun x before => (seen_iff x).2 (.inr before)
    have numeric := ranking.numeric comparable searching
    rcases outcome with ⟨near_enough, taken⟩ | ⟨full, not_nearer, passed_over⟩
    case inr =>
      rw [passed_over]
      constructor
      case queued => exact queue_eq ▸ ranking.queued
      case queue_true => exact queue_eq ▸ ranking.queue_true
      case measured => exact ranking.measured
      case ordered => exact ranking.ordered
      case followed =>
        intro x mem
        exact (ranking.followed x mem).mono (fun c waits => queue_eq ▸ waits) near
      case settled =>
        intro x seen live
        rcases (seen_iff x).1 seen with rfl | seen
        · obtain ⟨number, within⟩ := le_bound ranking.ordered numeric (by omega)
          have beyond := Binary64.le_of_not_lt (comparable.number inside live) number not_nearer
          exact .inr ⟨full, fun e mem => Binary64.le_trans (within e mem) beyond⟩
        · exact ranking.settled x seen live
    case inl =>
      rw [taken]
      have queued : Candidate.Queued (frontier.push ⟨g.distanceTo query id, id⟩).queue := by
        rw [Frontier.push, queue_eq]
        exact ranking.queued.insertSorted _
      have queue_true : ∀ c ∈ (frontier.push ⟨g.distanceTo query id, id⟩).queue,
          c.distance = g.distanceTo query c.id := by
        intro c mem
        rcases mem_queue_push.1 mem with rfl | old
        · rfl
        · exact ranking.queue_true c (queue_eq ▸ old)
      have followed : ∀ best x, x = id ∨ x ∈ beam.best.payloads →
          Followed g layer rest
            { frontier := frontier.push ⟨g.distanceTo query id, id⟩, best } x := by
        rintro best x (rfl | old)
        · exact .inl ⟨_, mem_queue_push.2 (.inl rfl), rfl⟩
        · refine (ranking.followed x old).mono (fun c waits => ?_) near
          exact mem_queue_push.2 (.inr (queue_eq ▸ waits))
      split
      case isTrue deleted =>
        refine ⟨queued, queue_true, ranking.measured, ranking.ordered,
          fun x mem => followed _ x (.inr mem), fun x seen live => ?_⟩
        rcases (seen_iff x).1 seen with rfl | seen
        · rw [deleted] at live
          cases live
        · exact ranking.settled x seen live
      case isFalse kept =>
        have absent : id ∉ beam.best.payloads := fun mem => unseen (searching.kept id mem).1
        obtain ⟨ordered, among, settled⟩ := ranking.keep comparable searching positive
          inside absent (Bool.eq_false_iff.2 kept) near_enough
        have measured := ranking.measured.trim_insert searching.located searching.narrow absent
        refine ⟨queued, queue_true, measured, ordered, fun x mem => followed _ x (among x mem),
          fun x seen live => settled x ?_ live⟩
        exact ((seen_iff x).1 seen).imp_right fun seen => ranking.settled x seen live

theorem Ranking.foldl_visit (comparable : g.Comparable query) (positive : 0 < ef) {ids : List Nat}
    (inside : ∀ id ∈ ids, id < g.nodeCount) {beam : Beam}
    (searching : beam.Searching g layer ef start ids)
    (ranking : beam.Ranking g query layer ef ids) :
    (ids.foldl (Beam.visit g query ef) beam).Ranking g query layer ef [] := by
  induction ids generalizing beam with
  | nil => exact ranking
  | cons id ids ih =>
      have here := inside id List.mem_cons_self
      apply ih (fun x mem => inside x (List.mem_cons_of_mem _ mem))
      · exact searching.visit here query
      · exact ranking.visit comparable searching positive here

theorem Ranking.expand {beam : Beam} (ranking : beam.Ranking g query layer ef [])
    {c : Candidate} {queue : List Candidate} (first : beam.frontier.queue = c :: queue) :
    Ranking g query layer ef (g.links c.id layer).out
      { beam with frontier := { beam.frontier with queue } } := by
  constructor
  case queued =>
    have queued := ranking.queued
    rw [first] at queued
    exact (List.pairwise_cons.1 queued).2
  case queue_true =>
    exact fun d mem => ranking.queue_true d (first ▸ List.mem_cons_of_mem _ mem)
  case measured => exact ranking.measured
  case ordered => exact ranking.ordered
  case followed => exact fun x mem => (ranking.followed x mem).expand first
  case settled => exact ranking.settled

/-- Where the exploration stops, no kept node waits to be expanded. -/
theorem Ranking.followed_at_stop (comparable : g.Comparable query) (positive : 0 < ef)
    {beam : Beam} (ranking : beam.Ranking g query layer ef [])
    (searching : beam.Searching g layer ef start []) {c : Candidate} {queue : List Candidate}
    (first : beam.frontier.queue = c :: queue) (beyond : beam.bound.lt c.distance = true)
    (full : ef ≤ beam.best.size) {id : Nat} (kept : id ∈ beam.best.payloads) :
    ∀ next ∈ (g.links id layer).out, beam.frontier.Seen next := by
  have numeric := ranking.numeric comparable searching
  obtain ⟨_, within⟩ := le_bound ranking.ordered numeric (by omega)
  rcases ranking.followed id kept with ⟨d, waits, rfl⟩ | passed
  case inr => exact fun next edge => (passed next edge).resolve_right List.not_mem_nil
  case inl =>
    obtain ⟨e, mem, same⟩ := List.mem_map.1 kept
    have near := within e mem
    rw [ranking.measured e mem, same, ← ranking.queue_true d waits] at near
    -- It would be nearer than the first of the queue.
    have queued := ranking.queued
    rw [first] at queued waits
    have farther := queued.first_le waits (Binary64.numbers_of_lt beyond).2
      (Binary64.numbers_of_le near).1
    rw [Binary64.not_lt_of_le (Binary64.le_trans farther near)] at beyond
    cases beyond

theorem Ranking.explore (paired : g.Paired) (comparable : g.Comparable query)
    (positive : 0 < ef) {beam : Beam} (searching : beam.Searching g layer ef start [])
    (ranking : beam.Ranking g query layer ef []) :
    (explore g query ef layer beam).Ranking g query layer ef [] ∧
      ∀ id ∈ (explore g query ef layer beam).best.payloads, ∀ next ∈ (g.links id layer).out,
        (explore g query ef layer beam).frontier.Seen next := by
  fun_induction Beam.explore g query ef layer beam with
  | case1 beam empty =>
      refine ⟨ranking, fun id kept next edge => ?_⟩
      rcases ranking.followed id kept with ⟨d, waits, _⟩ | passed
      · rw [empty] at waits
        cases waits
      · exact (passed next edge).resolve_right List.not_mem_nil
  | case2 beam c rest queue stopped =>
      rw [Bool.and_eq_true, decide_eq_true_eq] at stopped
      refine ⟨ranking, fun id kept => ?_⟩
      exact ranking.followed_at_stop comparable positive searching queue stopped.1 stopped.2 kept
  | case3 beam c rest queue _ ih =>
      have inside : ∀ id ∈ (g.links c.id layer).out, id < g.nodeCount := fun id edge =>
        paired.target_lt edge
      apply ih
      · exact Searching.foldl_visit inside (searching.expand queue) query
      · exact Ranking.foldl_visit comparable positive inside (searching.expand queue)
          (ranking.expand queue)

theorem Ranking.initial (comparable : g.Comparable query) {place : Candidate}
    (inside : place.id < g.nodeCount) (positive : 0 < ef)
    (place_true : place.distance = g.distanceTo query place.id) (layer : Nat) :
    (initial g place).Ranking g query layer ef [] := by
  obtain ⟨_, same⟩ := toList_initial g place
  have searching := Searching.initial inside positive layer
  have seen := Frontier.seen_start (c := place) inside
  have waits : place ∈ (Beam.initial g place).frontier.queue := List.mem_singleton_self _
  have at_start : ∀ id, (Beam.initial g place).frontier.Seen id → id = place.id := fun id =>
    (seen id).1
  constructor
  case queued => exact List.pairwise_singleton _ place
  case queue_true =>
    intro c mem
    rw [List.mem_singleton.1 mem]
    exact place_true
  case measured => exact .initial place_true
  case ordered =>
    unfold Beam.initial
    dsimp only
    split
    · exact PriorityHeap.ordered_empty
    case isFalse live =>
      apply PriorityHeap.ordered_empty.insert_of_absent nofun PriorityHeap.located_empty ?_ nofun
      rw [place_true]
      exact comparable.number inside (Bool.eq_false_iff.2 live)
  case followed =>
    intro id mem
    rw [at_start id (searching.kept id mem).1]
    exact .inl ⟨place, waits, rfl⟩
  case settled =>
    intro id seen_id live
    rw [at_start id seen_id] at live ⊢
    left
    apply (same.map (·.payload)).mem_iff.2
    rw [live]
    exact List.mem_singleton_self _

end Beam

/-- A live node that is linked from one of those found is found as well, unless as many are found as
may be and none of them is farther. -/
theorem searchLayer_nearest {g : Graph α} (paired : g.Paired) {query : List α} {place : Candidate}
    {ef : Nat}
    (comparable : g.Comparable query) (inside : place.id < g.nodeCount) (positive : 0 < ef)
    (place_true : place.distance = g.distanceTo query place.id) (layer : Nat) :
    ∀ id ∈ (g.searchLayer query place ef layer).map (·.id), ∀ next ∈ (g.links id layer).out,
      g.isDeleted next = false →
        next ∈ (g.searchLayer query place ef layer).map (·.id) ∨
          (g.searchLayer query place ef layer).length = ef ∧
            ∀ c ∈ g.searchLayer query place ef layer,
              c.distance.le (g.distanceTo query next) = true := by
  have start := Beam.Searching.initial inside positive layer
  obtain ⟨ranking, passed⟩ := (Beam.Ranking.initial comparable inside positive place_true
    layer).explore paired comparable positive start
  have searching := (start.explore paired query).1
  have same := searchLayer_perm g query place ef layer
  have ids := ids_searchLayer g query place ef layer
  intro id found next edge live
  have seen := passed id (ids.mem_iff.1 found) next edge
  rcases ranking.settled next seen live with kept | ⟨full, within⟩
  · exact .inl (ids.mem_iff.2 kept)
  · refine .inr ⟨?_, fun c mem => ?_⟩
    · have length := ids.length_eq
      rw [List.length_map, PriorityHeap.length_payloads] at length
      rw [length]
      exact Nat.le_antisymm searching.narrow full
    · obtain ⟨e, kept, rfl⟩ := List.mem_map.1 (same.mem_iff.1 mem)
      exact within e kept

end Vicinity.Graph
