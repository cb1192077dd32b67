import Vicinity.Proofs.Graph.WellFormed
import Vicinity.Proofs.PriorityHeap.Order

/-!
What a beam with room finds on a layer.

While a beam has room, every node seen is followed up, and kept when it is live. That is carried
through an exploration (`Searching`) and needs no distance to be a number. So a search that ends
with room to spare has found every live node within its reach (`searchLayer_complete`). Whatever is
kept is kept with its distance (`Measured`), so it is found at its distance
(`distance_searchLayer`).
-/

namespace Vicinity.Graph

variable {α : Type}

namespace Beam

/-- The node waits to be expanded, or all its out-neighbours were seen except for some that are
about to be looked at. -/
def Followed (g : Graph α) (layer : Nat) (rest : List Nat) (beam : Beam) (id : Nat) : Prop :=
  (∃ c ∈ beam.frontier.queue, c.id = id) ∨
    ∀ next ∈ (g.links id layer).out, beam.frontier.Seen next ∨ next ∈ rest

/-- Once a node was seen, it need not be looked at any more. -/
theorem seen_or_left {f f' : Frontier} {id : Nat} (seen : f'.Seen id)
    (still : ∀ x, f.Seen x → f'.Seen x) {rest : List Nat} :
    ∀ x, f.Seen x ∨ x ∈ id :: rest → f'.Seen x ∨ x ∈ rest := by
  rintro x (before | listed)
  · exact .inl (still x before)
  · rcases List.mem_cons.1 listed with rfl | later
    · exact .inl seen
    · exact .inr later

theorem Followed.mono {g : Graph α} {layer : Nat} {rest rest' : List Nat} {beam beam' : Beam}
    {id : Nat} (followed : beam.Followed g layer rest id)
    (queued : ∀ c ∈ beam.frontier.queue, c ∈ beam'.frontier.queue)
    (seen : ∀ next, beam.frontier.Seen next ∨ next ∈ rest →
      beam'.frontier.Seen next ∨ next ∈ rest') :
    beam'.Followed g layer rest' id := by
  rcases followed with ⟨c, waits, same⟩ | passed
  · exact .inl ⟨c, queued c waits, same⟩
  · exact .inr fun next edge => seen next (passed next edge)

/-- A candidate that is taken off the queue is followed up by looking at its out-neighbours. -/
theorem Followed.expand {g : Graph α} {layer : Nat} {beam : Beam} {id : Nat}
    (followed : beam.Followed g layer [] id) {c : Candidate} {queue : List Candidate}
    (first : beam.frontier.queue = c :: queue) :
    Followed g layer (g.links c.id layer).out
      { beam with frontier := { beam.frontier with queue } } id := by
  rcases followed with ⟨d, waits, rfl⟩ | passed
  · rw [first] at waits
    rcases List.mem_cons.1 waits with rfl | later
    · exact .inr fun next edge => .inr edge
    · exact .inl ⟨d, later, rfl⟩
  · exact .inr fun next edge => (passed next edge).imp_right nofun

/-! ### Keeping a node -/

theorem length_toList (heap : PriorityHeap) : heap.toList.length = heap.size := rfl

/-- With room a new node is kept, and without room the worst of all goes. -/
theorem trim_insert {ef : Nat} {best : PriorityHeap} (located : best.Located)
    (narrow : best.size ≤ ef) (distance : Binary64) {id : Nat} (absent : id ∉ best.payloads) :
    (trim ef (best.insert distance id)).Located ∧
      ((best.size < ef ∧ trim ef (best.insert distance id) = best.insert distance id ∧
          (trim ef (best.insert distance id)).toList.Perm (⟨distance, id⟩ :: best.toList)) ∨
        (best.size = ef ∧ ∃ top,
          (best.insert distance id).pop? = some (top, trim ef (best.insert distance id)) ∧
          (top :: (trim ef (best.insert distance id)).toList).Perm
            (⟨distance, id⟩ :: best.toList))) := by
  obtain ⟨located', same⟩ := located.insert_of_absent distance absent
  have size_eq : (best.insert distance id).size = best.size + 1 := same.length_eq
  unfold trim
  split
  case isFalse room =>
    exact ⟨located', .inl ⟨by omega, rfl, same⟩⟩
  case isTrue full =>
    cases popped : (best.insert distance id).pop? with
    | none =>
        have none := PriorityHeap.pop?_eq_none_iff.1 popped
        omega
    | some result =>
        obtain ⟨top, rest⟩ := result
        obtain ⟨located_rest, taken⟩ := located'.pop? popped
        exact ⟨located_rest, .inr ⟨by omega, top, rfl, taken.symm.trans same⟩⟩

section Trimming

variable {ef : Nat} {best : PriorityHeap} (located : best.Located) (narrow : best.size ≤ ef)
  (distance : Binary64) {id : Nat} (absent : id ∉ best.payloads)

include located narrow absent

theorem size_trim_insert :
    (trim ef (best.insert distance id)).size = min ef (best.size + 1) := by
  rcases (trim_insert located narrow distance absent).2 with ⟨room, _, same⟩ | ⟨full, top, _, same⟩
  · have grown : (trim ef (best.insert distance id)).size = best.size + 1 := same.length_eq
    omega
  · have replaced : (trim ef (best.insert distance id)).size + 1 = best.size + 1 := same.length_eq
    omega

theorem mem_trim_insert {e : PriorityHeap.Entry}
    (mem : e ∈ (trim ef (best.insert distance id)).toList) :
    e = ⟨distance, id⟩ ∨ e ∈ best.toList := by
  rcases (trim_insert located narrow distance absent).2 with ⟨_, _, same⟩ | ⟨_, top, _, same⟩
  · exact List.mem_cons.1 (same.mem_iff.1 mem)
  · exact List.mem_cons.1 (same.mem_iff.1 (List.mem_cons_of_mem top mem))

/-- Where room is left, there was room before and nothing went. -/
theorem room_of_trim_insert (room : (trim ef (best.insert distance id)).size < ef) :
    best.size < ef ∧
      ∀ x, x = id ∨ x ∈ best.payloads → x ∈ (trim ef (best.insert distance id)).payloads := by
  rcases (trim_insert located narrow distance absent).2 with ⟨before, _, same⟩ | ⟨full, _⟩
  · exact ⟨before, fun x mem => (same.map (·.payload)).mem_iff.2 (List.mem_cons.2 mem)⟩
  · rw [size_trim_insert located narrow distance absent] at room
    omega

end Trimming

theorem mem_payloads_trim_insert {ef : Nat} {best : PriorityHeap} {distance : Binary64}
    {id x : Nat} (mem : x ∈ (trim ef (best.insert distance id)).payloads) :
    x = id ∨ x ∈ best.payloads := PriorityHeap.mem_payloads_insert (mem_payloads_trim mem)

section Visits

variable [Element α]

/-- Every node that is kept is kept with its distance. -/
def Measured (g : Graph α) (query : List α) (best : PriorityHeap) : Prop :=
  ∀ e ∈ best.toList, e.priority = g.distanceTo query e.payload

theorem Measured.trim_insert {g : Graph α} {query : List α} {ef : Nat} {best : PriorityHeap}
    (measured : Measured g query best) (located : best.Located) (narrow : best.size ≤ ef) {id : Nat}
    (absent : id ∉ best.payloads) :
    Measured g query (trim ef (best.insert (g.distanceTo query id) id)) := by
  intro e mem
  rcases mem_trim_insert located narrow _ absent mem with rfl | old
  · rfl
  · exact measured e old

/-- A node that was seen changes nothing. Another one is seen from now on; it is queued, and kept
when it is live, if there is room or it is nearer than the bound. -/
theorem visit_cases (g : Graph α) (query : List α) (ef : Nat) (beam : Beam) {id : Nat}
    (inside : id < beam.frontier.seen.size) :
    (beam.frontier.Seen id ∧ visit g query ef beam id = beam) ∨
      ∃ frontier, beam.frontier.enter? id = some frontier ∧
        (((beam.best.size < ef ∨ (g.distanceTo query id).lt beam.bound = true) ∧
            visit g query ef beam id =
              { frontier := frontier.push ⟨g.distanceTo query id, id⟩
                best := if g.isDeleted id then beam.best
                  else trim ef (beam.best.insert (g.distanceTo query id) id) }) ∨
          (ef ≤ beam.best.size ∧ (g.distanceTo query id).lt beam.bound = false ∧
            visit g query ef beam id = { beam with frontier })) := by
  unfold visit
  cases entered : beam.frontier.enter? id with
  | none => exact .inl ⟨Frontier.seen_of_enter?_none inside entered, rfl⟩
  | some frontier =>
      refine .inr ⟨frontier, rfl, ?_⟩
      dsimp only
      split
      case isTrue taken =>
        rw [Bool.or_eq_true, decide_eq_true_eq] at taken
        exact .inl ⟨taken, rfl⟩
      case isFalse passed_over =>
        rw [Bool.or_eq_true, decide_eq_true_eq, not_or, Bool.not_eq_true] at passed_over
        exact .inr ⟨Nat.not_lt.1 passed_over.1, passed_over.2, rfl⟩

end Visits

/-! ### Searching with room -/

/-- What holds in the middle of looking at the neighbours of a node, with some of them left. -/
structure Searching (g : Graph α) (layer ef start : Nat) (rest : List Nat) (beam : Beam) :
    Prop where
  located : beam.best.Located
  size_seen : beam.frontier.seen.size = g.nodeCount
  start_seen : beam.frontier.Seen start
  kept : ∀ id ∈ beam.best.payloads, beam.frontier.Seen id ∧ g.isDeleted id = false
  narrow : beam.best.size ≤ ef
  roomy : beam.best.size < ef → ∀ id, beam.frontier.Seen id →
    beam.Followed g layer rest id ∧ (g.isDeleted id = false → id ∈ beam.best.payloads)

/-- Only nodes of the graph are seen. -/
theorem Searching.inside {g : Graph α} {layer ef start : Nat} {rest : List Nat} {beam : Beam}
    (searching : beam.Searching g layer ef start rest) {id : Nat} (seen : beam.frontier.Seen id) :
    id < g.nodeCount := by
  rw [← searching.size_seen]
  exact (Array.getElem?_eq_some_iff.1 seen).1

/-- A node that was seen is looked at again. -/
theorem Searching.skip {g : Graph α} {layer ef start id : Nat} {rest : List Nat} {beam : Beam}
    (searching : beam.Searching g layer ef start (id :: rest)) (seen : beam.frontier.Seen id) :
    beam.Searching g layer ef start rest := by
  obtain ⟨located, size_seen, start_seen, kept, narrow, roomy⟩ := searching
  refine ⟨located, size_seen, start_seen, kept, narrow, fun room x seen_x => ?_⟩
  obtain ⟨followed, keeps⟩ := roomy room x seen_x
  exact ⟨followed.mono (fun _ mem => mem) (seen_or_left seen fun _ before => before), keeps⟩

/-- A node that was not seen before is looked at. When there is room afterwards, there was room
before, the node is queued, and the live nodes seen are kept. -/
theorem Searching.enter {g : Graph α} {layer ef start id : Nat} {rest : List Nat}
    {beam next : Beam} (searching : beam.Searching g layer ef start (id :: rest))
    {frontier : Frontier} (entered : beam.frontier.enter? id = some frontier)
    (seen_eq : next.frontier.seen = frontier.seen)
    (queued : ∀ c ∈ beam.frontier.queue, c ∈ next.frontier.queue)
    (located : next.best.Located) (narrow : next.best.size ≤ ef)
    (among : ∀ x ∈ next.best.payloads,
      x ∈ beam.best.payloads ∨ x = id ∧ g.isDeleted id = false)
    (roomy : next.best.size < ef → beam.best.size < ef ∧ (∃ c ∈ next.frontier.queue, c.id = id) ∧
      (∀ x ∈ beam.best.payloads, x ∈ next.best.payloads) ∧
      (g.isDeleted id = false → id ∈ next.best.payloads)) :
    next.Searching g layer ef start rest := by
  obtain ⟨same_size, _, seen_iff⟩ := Frontier.enter?_eq_some entered
  have seen_iff : ∀ x, next.frontier.Seen x ↔ x = id ∨ beam.frontier.Seen x := by
    intro x
    rw [Frontier.Seen, seen_eq]
    exact seen_iff x
  have near : ∀ x, beam.frontier.Seen x ∨ x ∈ id :: rest → next.frontier.Seen x ∨ x ∈ rest :=
    seen_or_left ((seen_iff id).2 (.inl rfl)) fun x before => (seen_iff x).2 (.inr before)
  constructor
  case located => exact located
  case size_seen => rw [seen_eq, same_size, searching.size_seen]
  case start_seen => exact (seen_iff start).2 (.inr searching.start_seen)
  case narrow => exact narrow
  case kept =>
    intro x mem
    rcases among x mem with old | ⟨rfl, live⟩
    · exact ⟨(seen_iff x).2 (.inr (searching.kept x old).1), (searching.kept x old).2⟩
    · exact ⟨(seen_iff x).2 (.inl rfl), live⟩
  case roomy =>
    intro room x seen_x
    obtain ⟨room_before, waits, still, keeps⟩ := roomy room
    rcases (seen_iff x).1 seen_x with rfl | seen_x
    · exact ⟨.inl waits, keeps⟩
    · obtain ⟨followed, kept⟩ := searching.roomy room_before x seen_x
      exact ⟨followed.mono queued near, fun live => still x (kept live)⟩

/-- Taking a candidate off the queue leaves all its out-neighbours to be looked at. -/
theorem Searching.expand {g : Graph α} {layer ef start : Nat} {beam : Beam}
    (searching : beam.Searching g layer ef start []) {c : Candidate} {queue : List Candidate}
    (first : beam.frontier.queue = c :: queue) :
    Searching g layer ef start (g.links c.id layer).out
      { beam with frontier := { beam.frontier with queue } } := by
  refine ⟨searching.located, searching.size_seen, searching.start_seen, searching.kept,
    searching.narrow, fun room x seen_x => ?_⟩
  obtain ⟨followed, keeps⟩ := searching.roomy room x seen_x
  exact ⟨followed.expand first, keeps⟩

theorem mem_queue_push {frontier : Frontier} {c d : Candidate} :
    d ∈ (frontier.push c).queue ↔ d = c ∨ d ∈ frontier.queue := by
  rw [Frontier.push, (Candidate.insertSorted_perm ..).mem_iff, List.mem_cons]

/-! ### The start -/

/-- Before the exploration only the place where it starts was seen. -/
def initial (g : Graph α) (place : Candidate) : Beam where
  frontier := .start g.nodeCount place
  best := if g.isDeleted place.id then .empty else .insert .empty place.distance place.id

/-- The place is kept when it is live. -/
theorem toList_initial (g : Graph α) (place : Candidate) :
    (initial g place).best.Located ∧ (initial g place).best.toList.Perm
      (if g.isDeleted place.id then [] else [⟨place.distance, place.id⟩]) := by
  unfold initial
  dsimp only
  split
  · exact ⟨PriorityHeap.located_empty, .refl _⟩
  · exact PriorityHeap.located_empty.insert_of_absent place.distance nofun

theorem Searching.initial {g : Graph α} {ef : Nat} {place : Candidate}
    (inside : place.id < g.nodeCount) (positive : 0 < ef) (layer : Nat) :
    (initial g place).Searching g layer ef place.id [] := by
  obtain ⟨located, same⟩ := toList_initial g place
  have payloads := same.map (·.payload)
  have seen := Frontier.seen_start (c := place) inside
  constructor
  case located => exact located
  case size_seen => simp [Beam.initial, Frontier.start]
  case start_seen => exact (seen place.id).2 rfl
  case kept =>
    intro id mem
    have mem := payloads.mem_iff.1 mem
    split at mem
    · cases mem
    case isFalse live =>
      rw [List.mem_singleton.1 mem]
      exact ⟨(seen place.id).2 rfl, Bool.eq_false_iff.2 live⟩
  case narrow =>
    have length := same.length_eq
    rw [length_toList] at length
    split at length
    · rw [length]
      exact Nat.zero_le _
    · rw [length]
      exact positive
  case roomy =>
    intro _ id at_start
    rw [(seen id).1 at_start]
    refine ⟨.inl ⟨place, List.mem_singleton_self _, rfl⟩, fun live => ?_⟩
    apply payloads.mem_iff.2
    rw [live]
    exact List.mem_singleton_self _

/-! ### Exploring -/

section Explorations

variable [Element α]

theorem Searching.visit {g : Graph α} {layer ef start id : Nat} {rest : List Nat} {beam : Beam}
    (searching : beam.Searching g layer ef start (id :: rest)) (inside : id < g.nodeCount)
    (query : List α) : (visit g query ef beam id).Searching g layer ef start rest := by
  rcases visit_cases g query ef beam (searching.size_seen ▸ inside) with
    ⟨seen, unchanged⟩ | ⟨frontier, entered, outcome⟩
  · rw [unchanged]
    exact searching.skip seen
  · have queue_eq := Frontier.queue_enter? entered
    have queued : ∀ c ∈ beam.frontier.queue,
        c ∈ (frontier.push ⟨g.distanceTo query id, id⟩).queue := by
      intro c mem
      exact mem_queue_push.2 (.inr (queue_eq ▸ mem))
    have waits : ∃ c ∈ (frontier.push ⟨g.distanceTo query id, id⟩).queue, c.id = id :=
      ⟨_, mem_queue_push.2 (.inl rfl), rfl⟩
    rcases outcome with ⟨_, taken⟩ | ⟨full, _, passed_over⟩
    case inr =>
      rw [passed_over]
      apply searching.enter entered rfl
      case queued => exact fun c mem => queue_eq ▸ mem
      case located => exact searching.located
      case narrow => exact searching.narrow
      case among => exact fun x mem => .inl mem
      case roomy => exact fun room => absurd full (Nat.not_le.2 room)
    case inl =>
      rw [taken]
      split
      case isTrue deleted =>
        apply searching.enter entered rfl queued
        case located => exact searching.located
        case narrow => exact searching.narrow
        case among => exact fun x mem => .inl mem
        case roomy =>
          refine fun room => ⟨room, waits, fun x mem => mem, fun live => ?_⟩
          rw [deleted] at live
          cases live
      case isFalse kept =>
        have live : g.isDeleted id = false := Bool.eq_false_iff.2 kept
        have absent : id ∉ beam.best.payloads := fun mem =>
          (Frontier.enter?_eq_some entered).2.1 (searching.kept id mem).1
        have located :=
          (trim_insert searching.located searching.narrow (g.distanceTo query id) absent).1
        have size :=
          size_trim_insert searching.located searching.narrow (g.distanceTo query id) absent
        apply searching.enter entered rfl queued located
        case narrow => exact size ▸ Nat.min_le_left ..
        case among =>
          intro x mem
          rcases mem_payloads_trim_insert mem with rfl | old
          · exact .inr ⟨rfl, live⟩
          · exact .inl old
        case roomy =>
          intro room
          obtain ⟨before, still⟩ :=
            room_of_trim_insert searching.located searching.narrow _ absent room
          exact ⟨before, waits, fun x mem => still x (.inr mem), fun _ => still id (.inl rfl)⟩

theorem Searching.foldl_visit {g : Graph α} {layer ef start : Nat} {ids : List Nat}
    (inside : ∀ id ∈ ids, id < g.nodeCount) {beam : Beam}
    (searching : beam.Searching g layer ef start ids) (query : List α) :
    (ids.foldl (Beam.visit g query ef) beam).Searching g layer ef start [] := by
  induction ids generalizing beam with
  | nil => exact searching
  | cons id ids ih =>
      apply ih (fun x mem => inside x (List.mem_cons_of_mem _ mem))
      exact searching.visit (inside id List.mem_cons_self) query

theorem Searching.explore {g : Graph α} (paired : g.Paired) {layer ef start : Nat} {beam : Beam}
    (searching : beam.Searching g layer ef start []) (query : List α) :
    (explore g query ef layer beam).Searching g layer ef start [] ∧
      ((explore g query ef layer beam).best.size < ef →
        (explore g query ef layer beam).frontier.queue = []) := by
  fun_induction Beam.explore g query ef layer beam with
  | case1 beam empty => exact ⟨searching, fun _ => empty⟩
  | case2 beam c rest queue stopped =>
      rw [Bool.and_eq_true, decide_eq_true_eq] at stopped
      exact ⟨searching, fun room => absurd stopped.2 (Nat.not_le.2 room)⟩
  | case3 beam c rest queue _ ih =>
      apply ih
      apply Searching.foldl_visit (fun id edge => ?_) (searching.expand queue)
      exact paired.target_lt edge

/-! ### Positions -/

omit [Element α] in
theorem located_trim {best : PriorityHeap} (located : best.Located) (ef : Nat) :
    (trim ef best).Located := by
  unfold trim
  split
  · split
    case h_1 _ _ popped => exact (located.pop? popped).1
    case h_2 => exact located
  · exact located

theorem located_visit {beam : Beam} (located : beam.best.Located) (g : Graph α) (query : List α)
    (ef id : Nat) : (visit g query ef beam id).best.Located := by
  unfold visit
  split
  · exact located
  · dsimp only
    split
    · dsimp only
      split
      · exact located
      · exact located_trim (located.insert _ _) ef
    · exact located

/-- Every node is kept in one place at most, also by a beam without width. -/
theorem located_explore {beam : Beam} (located : beam.best.Located) (g : Graph α) (query : List α)
    (ef layer : Nat) : (explore g query ef layer beam).best.Located := by
  fun_induction Beam.explore g query ef layer beam with
  | case1 => exact located
  | case2 => exact located
  | case3 beam c rest queue _ ih =>
      apply ih
      apply List.foldlRecOn (motive := fun beam : Beam => beam.best.Located)
      · exact located
      · exact fun beam located id _ => located_visit located g query ef id

/-! ### Distances kept -/

theorem Measured.visit {g : Graph α} {query : List α} {layer ef start id : Nat} {rest : List Nat}
    {beam : Beam} (measured : Measured g query beam.best)
    (searching : beam.Searching g layer ef start (id :: rest)) (inside : id < g.nodeCount) :
    Measured g query (visit g query ef beam id).best := by
  rcases visit_cases g query ef beam (searching.size_seen ▸ inside) with
    ⟨_, unchanged⟩ | ⟨frontier, entered, ⟨_, taken⟩ | ⟨_, _, passed_over⟩⟩
  · rw [unchanged]
    exact measured
  · rw [taken]
    dsimp only
    split
    · exact measured
    · refine measured.trim_insert searching.located searching.narrow fun mem => ?_
      exact (Frontier.enter?_eq_some entered).2.1 (searching.kept id mem).1
  · rw [passed_over]
    exact measured

theorem Measured.foldl_visit {g : Graph α} {query : List α} {layer ef start : Nat} {ids : List Nat}
    (inside : ∀ id ∈ ids, id < g.nodeCount) {beam : Beam} (measured : Measured g query beam.best)
    (searching : beam.Searching g layer ef start ids) :
    Measured g query (ids.foldl (Beam.visit g query ef) beam).best := by
  induction ids generalizing beam with
  | nil => exact measured
  | cons id ids ih =>
      have here := inside id List.mem_cons_self
      exact ih (fun x mem => inside x (List.mem_cons_of_mem _ mem)) (measured.visit searching here)
        (searching.visit here query)

theorem Measured.explore {g : Graph α} (paired : g.Paired) {query : List α}
    {layer ef start : Nat} {beam : Beam} (measured : Measured g query beam.best)
    (searching : beam.Searching g layer ef start []) :
    Measured g query (explore g query ef layer beam).best := by
  fun_induction Beam.explore g query ef layer beam with
  | case1 => exact measured
  | case2 => exact measured
  | case3 beam c rest queue _ ih =>
      have inside : ∀ id ∈ (g.links c.id layer).out, id < g.nodeCount := fun id edge =>
        paired.target_lt edge
      have expanded := searching.expand queue
      exact ih (Measured.foldl_visit inside measured expanded) (expanded.foldl_visit inside query)

theorem Measured.initial {g : Graph α} {query : List α} {place : Candidate}
    (place_true : place.distance = g.distanceTo query place.id) :
    Measured g query (initial g place).best := by
  intro e mem
  have mem := (toList_initial g place).2.mem_iff.1 mem
  split at mem
  · cases mem
  · rw [List.mem_singleton.1 mem]
    exact place_true

end Explorations

end Beam

/-! ### What is found -/

section Found

variable [Element α] {g : Graph α} {layer ef : Nat} {place : Candidate}

/-- The candidates found are the entries that the exploration keeps. -/
theorem searchLayer_perm (g : Graph α) (query : List α) (place : Candidate) (ef layer : Nat) :
    (g.searchLayer query place ef layer).Perm
      ((Beam.explore g query ef layer (Beam.initial g place)).best.toList.map
        fun e => ⟨e.priority, e.payload⟩) := Candidate.sort_perm _

theorem ids_searchLayer (g : Graph α) (query : List α) (place : Candidate) (ef layer : Nat) :
    ((g.searchLayer query place ef layer).map (·.id)).Perm
      (Beam.explore g query ef layer (Beam.initial g place)).best.payloads := by
  have same := (searchLayer_perm g query place ef layer).map (·.id)
  rwa [List.map_map] at same

/-- No node is found twice, whatever the width. -/
theorem nodup_searchLayer (g : Graph α) (query : List α) (place : Candidate) (ef layer : Nat) :
    ((g.searchLayer query place ef layer).map (·.id)).Nodup :=
  (ids_searchLayer ..).nodup_iff.2
    (Beam.located_explore (Beam.toList_initial g place).1 g query ef layer).nodup

/-- What is found comes in order. -/
theorem queued_searchLayer (g : Graph α) (query : List α) (place : Candidate) (ef layer : Nat) :
    Candidate.Queued (g.searchLayer query place ef layer) := Candidate.queued_sort _

/-- A search finds no node twice and no more than its width, and with room to spare it has found
every live node within its reach. -/
theorem searchLayer_complete (paired : g.Paired) (inside : place.id < g.nodeCount)
    (positive : 0 < ef) (query : List α) (layer : Nat) :
    ((g.searchLayer query place ef layer).map (·.id)).Nodup ∧
      (g.searchLayer query place ef layer).length ≤ ef ∧
      ((g.searchLayer query place ef layer).length < ef → ∀ id, g.Reaches layer place.id id →
        g.isDeleted id = false → id ∈ (g.searchLayer query place ef layer).map (·.id)) := by
  obtain ⟨searching, emptied⟩ :=
    (Beam.Searching.initial inside positive layer).explore paired query
  have ids := ids_searchLayer g query place ef layer
  have length := ids.length_eq
  rw [List.length_map, PriorityHeap.length_payloads] at length
  refine ⟨nodup_searchLayer g query place ef layer, length ▸ searching.narrow,
    fun room id reaches live => ?_⟩
  rw [length] at room
  have seen := reaches.keeps (fun x seen next edge => ?_) searching.start_seen
  · exact ids.mem_iff.2 ((searching.roomy room id seen).2 live)
  · rcases (searching.roomy room x seen).1 with ⟨c, waits, _⟩ | passed
    · rw [emptied room] at waits
      cases waits
    · exact (passed next edge).resolve_right List.not_mem_nil

/-- Whatever is found is found at its distance. -/
theorem distance_searchLayer (paired : g.Paired) (inside : place.id < g.nodeCount)
    (positive : 0 < ef) {query : List α}
    (place_true : place.distance = g.distanceTo query place.id) {c : Candidate}
    (found : c ∈ g.searchLayer query place ef layer) :
    c.distance = g.distanceTo query c.id := by
  obtain ⟨e, kept, rfl⟩ := List.mem_map.1 ((searchLayer_perm ..).mem_iff.1 found)
  exact (Beam.Measured.initial place_true).explore paired
    (Beam.Searching.initial inside positive layer) e kept

/-- Whatever is found is live and within reach. -/
theorem reaches_of_found (paired : g.Paired) (inside : place.id < g.nodeCount) {query : List α}
    {c : Candidate} (found : c ∈ g.searchLayer query place ef layer) :
    g.Reaches layer place.id c.id ∧ g.isLive c.id = true := by
  have passes : g.Passes layer fun id => g.Reaches layer place.id id ∧ id < g.nodeCount :=
    fun id way next edge => ⟨way.1.tail edge, paired.target_lt edge⟩
  obtain ⟨⟨way, lt⟩, kept⟩ := searchLayer_keeps passes query ef ⟨.refl, inside⟩ found
  exact ⟨way, isLive_of_not_isDeleted lt kept⟩

/-- A search finds something exactly when a live node is within its reach, however wide it is. -/
theorem searchLayer_ne_nil_iff (paired : g.Paired) (inside : place.id < g.nodeCount)
    (positive : 0 < ef) (query : List α) (layer : Nat) :
    g.searchLayer query place ef layer ≠ [] ↔
      ∃ id, g.Reaches layer place.id id ∧ g.isLive id = true := by
  constructor
  · intro some
    obtain ⟨c, found⟩ := List.exists_mem_of_ne_nil _ some
    exact ⟨c.id, reaches_of_found paired inside found⟩
  · rintro ⟨id, way, live⟩ none
    obtain ⟨_, _, complete⟩ := searchLayer_complete paired inside positive query layer
    rw [none] at complete
    have found := complete positive id way (not_isDeleted_of_isLive live)
    cases found

end Found

end Vicinity.Graph
