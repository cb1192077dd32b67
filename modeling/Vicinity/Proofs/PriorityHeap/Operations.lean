import Mathlib.Data.List.MinMax
import Mathlib.Data.List.Nodup
import Vicinity.Proofs.PriorityHeap.Order

/-!
A heap is a finite map that hands out its greatest entry.

Whatever priorities are put in, the positions stay in step with the array, and an operation changes
what the heap says of one payload at most: of the one that is put in, or of the one that is handed
out (`Located.priority?_run`). As long as no priority is a NaN the heap is in order, so it answers
like a map from payloads to their latest priorities that is searched for its greatest entry
(`Priorities`, `Mirrors`), and draining it lists the entries of the map from the greatest down.
-/

namespace Vicinity.PriorityHeap

variable {heap rest : PriorityHeap} {top e : Entry} {payload : Nat} {priority : Binary64}

/-! ### Entries and priorities -/

theorem mem_toList_iff : e ∈ heap.toList ↔ ∃ i : Nat, heap.entries[i]? = some e := by
  rw [List.mem_iff_getElem?]
  simp only [toList, Array.getElem?_toList]

/-- The priority of a payload is that of its entry. -/
theorem Located.priority?_eq_some_iff (located : heap.Located) :
    heap.priority? payload = some priority ↔ ⟨priority, payload⟩ ∈ heap.toList := by
  rw [mem_toList_iff]
  have stands (i : Nat) := located payload i
  constructor
  · intro found
    simp only [priority?, bind, pure, Option.bind_eq_some_iff, Option.some.injEq] at found
    obtain ⟨i, at_i, entry, here, rfl⟩ := found
    have own := (stands i).1 at_i
    rw [payloadAt, here, Option.map_some, Option.some.injEq] at own
    exact ⟨i, own ▸ here⟩
  · rintro ⟨i, here⟩
    have at_i := (stands i).2 (by rw [payloadAt, here, Option.map_some])
    simp [priority?, at_i, here]

theorem Located.contains_eq (located : heap.Located) (payload : Nat) :
    heap.contains payload = (heap.priority? payload).isSome := by
  rw [contains, Std.TreeMap.contains_eq_isSome_getElem?, priority?]
  cases found : heap.positions[payload]? with
  | none => rfl
  | some i =>
      have own := (located payload i).1 found
      cases here : heap.entries[i]? with
      | none =>
          rw [payloadAt, here] at own
          cases own
      | some entry => simp [here]

theorem Located.mem_payloads_iff (located : heap.Located) :
    payload ∈ heap.payloads ↔ heap.contains payload = true := by
  rw [located.contains_eq, Option.isSome_iff_exists, payloads, List.mem_map]
  constructor
  · rintro ⟨entry, mem, rfl⟩
    exact ⟨entry.priority, located.priority?_eq_some_iff.2 mem⟩
  · rintro ⟨priority, found⟩
    exact ⟨_, located.priority?_eq_some_iff.1 found, rfl⟩

theorem Located.nodup_toList (located : heap.Located) : heap.toList.Nodup :=
  List.Nodup.of_map Entry.payload located.nodup

/-! ### Another priority -/

/-- The heap with another priority for an entry, wherever that belongs. -/
def reprioritize (heap : PriorityHeap) (position : Nat) (priority : Binary64) : PriorityHeap :=
  { heap with entries := heap.entries.modify position ({ · with priority }) }

theorem Located.insert_eq_of_present (located : heap.Located) (priority : Binary64)
    {position : Nat} (stands : heap.payloadAt position = some payload) :
    heap.insert priority payload =
      ((heap.reprioritize position priority).siftUp position).1.siftDown
        ((heap.reprioritize position priority).siftUp position).2 := by
  rw [PriorityHeap.insert, (located payload position).2 stands]
  rfl

theorem Located.mem_reprioritize (located : heap.Located) (priority : Binary64) {position : Nat}
    (stands : heap.payloadAt position = some payload) :
    e ∈ (heap.reprioritize position priority).toList ↔
      e = ⟨priority, payload⟩ ∨ e ∈ heap.toList ∧ e.payload ≠ payload := by
  have here := stands
  rw [payloadAt, Option.map_eq_some_iff] at here
  obtain ⟨old, here, own⟩ := here
  simp only [mem_toList_iff, reprioritize, Array.getElem?_modify]
  constructor
  · rintro ⟨i, at_i⟩
    split at at_i
    case isTrue same =>
      subst same
      rw [here, Option.map_some, Option.some.injEq, own] at at_i
      exact .inl at_i.symm
    case isFalse other =>
      refine .inr ⟨⟨i, at_i⟩, fun same => other ?_⟩
      have there : heap.payloadAt i = some payload := by
        rw [payloadAt, at_i, Option.map_some, same]
      have first := (located payload position).2 stands
      rw [(located payload i).2 there, Option.some.injEq] at first
      exact first.symm
  · rintro (rfl | ⟨⟨i, at_i⟩, other⟩)
    · exact ⟨position, by rw [if_pos rfl, here, Option.map_some, own]⟩
    · refine ⟨i, ?_⟩
      rw [if_neg, at_i]
      rintro rfl
      rw [here, Option.some.injEq] at at_i
      exact other (at_i ▸ own)

/-- The payload has the new priority afterwards, and the others have theirs. -/
theorem Located.mem_insert (located : heap.Located) (priority : Binary64) (payload : Nat) :
    e ∈ (heap.insert priority payload).toList ↔
      e = ⟨priority, payload⟩ ∨ e ∈ heap.toList ∧ e.payload ≠ payload := by
  by_cases present : payload ∈ heap.payloads
  · obtain ⟨position, stands⟩ := mem_payloads.1 present
    rw [located.insert_eq_of_present priority stands, toList,
      ((siftDown_perm ..).trans (siftUp_perm ..)).mem_iff]
    exact located.mem_reprioritize priority stands
  · rw [(located.insert_of_absent priority present).2.mem_iff, List.mem_cons]
    refine or_congr_right (iff_self_and.2 fun mem same => present ?_)
    exact same ▸ List.mem_map_of_mem mem

theorem Located.mem_pop? (located : heap.Located) (popped : heap.pop? = some (top, rest)) :
    e ∈ rest.toList ↔ e ∈ heap.toList ∧ e.payload ≠ top.payload := by
  obtain ⟨_, same⟩ := located.pop? popped
  have listed := same.map Entry.payload
  have nodup : (top.payload :: rest.payloads).Nodup := listed.nodup_iff.1 located.nodup
  have absent := (List.nodup_cons.1 nodup).1
  rw [same.mem_iff, List.mem_cons]
  constructor
  · intro mem
    have stays : e.payload ∈ rest.payloads := List.mem_map_of_mem mem
    exact ⟨.inr mem, fun own => absent (own ▸ stays)⟩
  · rintro ⟨rfl | mem, other⟩
    · exact absurd rfl other
    · exact mem

theorem Numeric.insert (numeric : heap.Numeric) (located : heap.Located)
    (number : priority.isNaN = false) (payload : Nat) :
    (heap.insert priority payload).Numeric := by
  intro e mem
  rcases (located.mem_insert priority payload).1 mem with rfl | ⟨old, _⟩
  · exact number
  · exact numeric e old

/-- A changed priority disturbs the order at its position only. -/
theorem Ordered.disturbed (ordered : heap.Ordered) (position : Nat) (priority : Binary64) :
    (heap.reprioritize position priority).Disturbed position := by
  have elsewhere : ∀ i, i ≠ position →
      (heap.reprioritize position priority).rankAt i = heap.rankAt i := by
    intro i other
    rw [rankAt, reprioritize, Array.getElem?_modify, if_neg (Ne.symm other), rankAt]
  constructor
  · intro i positive other apart
    rw [elsewhere i other, elsewhere _ apart]
    exact ordered i positive
  · intro positive i i_pos of_position
    rw [elsewhere i (by omega), elsewhere _ (by omega)]
    exact (ordered.sinking position).below positive i i_pos of_position

theorem Ordered.insert (ordered : heap.Ordered) (numeric : heap.Numeric) (located : heap.Located)
    (number : priority.isNaN = false) (payload : Nat) : (heap.insert priority payload).Ordered := by
  by_cases present : payload ∈ heap.payloads
  · obtain ⟨position, stands⟩ := mem_payloads.1 present
    have inside : position < (heap.reprioritize position priority).size := by
      rw [payloadAt, Option.map_eq_some_iff] at stands
      obtain ⟨_, here, _⟩ := stands
      rw [size, reprioritize, Array.size_modify]
      exact (Array.getElem?_eq_some_iff.1 here).1
    have numeric' : (heap.reprioritize position priority).Numeric := by
      intro e mem
      rcases (located.mem_reprioritize priority stands).1 mem with rfl | ⟨old, _⟩
      · exact number
      · exact numeric e old
    rw [located.insert_eq_of_present priority stands]
    exact (ordered.disturbed position priority).sift numeric' inside
  · exact ordered.insert_of_absent numeric located number present

/-! ### Operations -/

/-- What can be done to a heap. -/
inductive Operation where
  | insert (priority : Binary64) (payload : Nat)
  | pop
  | clear

/-- No priority that is a NaN is put in. -/
def Operation.isNumeric : Operation → Bool
  | insert priority _ => !priority.isNaN
  | pop => true
  | clear => true

/-- The heap after an operation, and the entry that it hands out. -/
def run (heap : PriorityHeap) : Operation → PriorityHeap × Option Entry
  | .insert priority payload => (heap.insert priority payload, none)
  | .pop =>
    match heap.pop? with
    | none => (heap, none)
    | some (top, rest) => (rest, some top)
  | .clear => (empty, none)

/-- The heap that operations make of an empty one. -/
def after (operations : List Operation) : PriorityHeap :=
  operations.foldl (fun heap operation => (heap.run operation).1) empty

theorem Located.run (located : heap.Located) (operation : Operation) :
    (heap.run operation).1.Located := by
  cases operation with
  | insert priority payload => exact located.insert priority payload
  | pop =>
      rw [PriorityHeap.run]
      split
      case h_1 => exact located
      case h_2 popped => exact (located.pop? popped).1
  | clear => exact located_empty

theorem located_after (operations : List Operation) : (after operations).Located := by
  induction operations using List.reverseRecOn with
  | nil => exact located_empty
  | append_singleton operations last ih =>
      rw [after, List.foldl_append]
      exact Located.run ih last

theorem Located.priority?_insert (located : heap.Located) (priority : Binary64) (payload x : Nat) :
    (heap.insert priority payload).priority? x =
      if x = payload then some priority else heap.priority? x := by
  refine Option.ext fun y => ?_
  rw [(located.insert priority payload).priority?_eq_some_iff, located.mem_insert]
  split
  case isTrue same => simp [same, eq_comm]
  case isFalse other => simp [other, located.priority?_eq_some_iff]

theorem Located.priority?_pop? (located : heap.Located) (popped : heap.pop? = some (top, rest))
    (x : Nat) : rest.priority? x = if x = top.payload then none else heap.priority? x := by
  refine Option.ext fun y => ?_
  rw [(located.pop? popped).1.priority?_eq_some_iff, located.mem_pop? popped]
  split
  case isTrue same => simp [same]
  case isFalse other => simp [other, located.priority?_eq_some_iff]

/-- What a heap says of its payloads, whatever their priorities are. -/
structure IsMap (heap : PriorityHeap) : Prop where
  located : heap.Located
  nodup : heap.payloads.Nodup
  size : heap.payloads.length = heap.size
  contains : ∀ payload, heap.contains payload = true ↔ payload ∈ heap.payloads
  priority : ∀ payload, heap.contains payload = (heap.priority? payload).isSome
  inserted : ∀ priority payload x, (heap.insert priority payload).priority? x =
    if x = payload then some priority else heap.priority? x
  overwritten : ∀ priority payload, heap.contains payload = true →
    (heap.insert priority payload).payloads.Perm heap.payloads
  nothing : heap.pop? = none ↔ heap.size = 0
  handed_out : ∀ top rest, heap.pop? = some (top, rest) →
    heap.peek? = some top ∧ heap.priority? top.payload = some top.priority
  popped : ∀ top rest, heap.pop? = some (top, rest) →
    heap.payloads.Perm (top.payload :: rest.payloads) ∧
      ∀ x, rest.priority? x = if x = top.payload then none else heap.priority? x

theorem Located.isMap (located : heap.Located) : heap.IsMap where
  located := located
  nodup := located.nodup
  size := length_payloads heap
  contains _ := located.mem_payloads_iff.symm
  priority := located.contains_eq
  inserted := located.priority?_insert
  overwritten priority payload present := by
    have located' := located.insert priority payload
    refine (List.perm_ext_iff_of_nodup located'.nodup located.nodup).2 fun x => ?_
    rw [located'.mem_payloads_iff, located.mem_payloads_iff, located'.contains_eq,
      located.priority?_insert]
    split
    case isTrue same => simp [same, present]
    case isFalse => rw [located.contains_eq]
  nothing := pop?_eq_none_iff
  handed_out top rest popped := by
    have first := (pop?_eq_some popped).1
    exact ⟨first, located.priority?_eq_some_iff.2 (mem_toList_iff.2 ⟨0, first⟩)⟩
  popped top rest popped :=
    ⟨(located.pop? popped).2.map Entry.payload, located.priority?_pop? popped⟩

/-! ### The map of priorities -/

/-- The latest priority of every payload. -/
abbrev Priorities := Std.TreeMap Nat Binary64

namespace Priorities

def entries (latest : Priorities) : List Entry :=
  latest.toList.map fun pair => ⟨pair.2, pair.1⟩

/-- The entry that ranks highest. -/
def greatest? (latest : Priorities) : Option Entry := latest.entries.argmax Entry.rank

/-- The map after an operation, and the entry that is handed out. -/
def run (latest : Priorities) : Operation → Priorities × Option Entry
  | .insert priority payload => (latest.insert payload priority, none)
  | .pop =>
    match latest.greatest? with
    | none => (latest, none)
    | some top => (latest.erase top.payload, some top)
  | .clear => (∅, none)

/-- The map that operations make of an empty one. -/
def after (operations : List Operation) : Priorities :=
  operations.foldl (fun latest operation => (latest.run operation).1) ∅

variable {latest : Priorities}

theorem mem_entries : e ∈ latest.entries ↔ latest[e.payload]? = some e.priority := by
  rw [entries, List.mem_map, ← Std.TreeMap.mem_toList_iff_getElem?_eq_some]
  constructor
  · rintro ⟨pair, mem, rfl⟩
    exact mem
  · exact fun mem => ⟨_, mem, rfl⟩

theorem nodup_entries (latest : Priorities) : latest.entries.Nodup := by
  refine List.pairwise_map.2 (latest.distinct_keys_toList.imp fun apart same => apart ?_)
  rw [Nat.compare_eq_eq]
  exact congrArg Entry.payload same

theorem eq_of_rank_eq {a b : Entry} (in_a : a ∈ latest.entries) (in_b : b ∈ latest.entries)
    (same : a.rank = b.rank) : a = b := by
  have payload_eq : a.payload = b.payload := congrArg (fun rank => (ofLex rank).2) same
  rw [mem_entries] at in_a in_b
  rw [payload_eq, in_b, Option.some.injEq] at in_a
  obtain ⟨priority, payload⟩ := a
  cases payload_eq
  cases in_a
  rfl

theorem greatest?_eq_some (mem : top ∈ latest.entries)
    (highest : ∀ e ∈ latest.entries, e.rank ≤ top.rank) : latest.greatest? = some top := by
  refine List.argmax_eq_some_iff.2 ⟨mem, highest, fun e in_e le => ?_⟩
  rw [eq_of_rank_eq mem in_e (le_antisymm le (highest e in_e))]

end Priorities

/-! ### Draining -/

theorem Numeric.of_pop? (numeric : heap.Numeric) (located : heap.Located)
    (popped : heap.pop? = some (top, rest)) : rest.Numeric :=
  fun e mem => numeric e ((located.mem_pop? popped).1 mem).1

/-- Every entry comes out once, each below the one before. -/
theorem Ordered.drain (ordered : heap.Ordered) (numeric : heap.Numeric) (located : heap.Located) :
    heap.drain.Perm heap.toList ∧ heap.drain.Pairwise fun a b => b.rank < a.rank := by
  fun_induction PriorityHeap.drain heap with
  | case1 heap none =>
      have nothing : heap.toList = [] := List.length_eq_zero_iff.1 (pop?_eq_none_iff.1 none)
      exact ⟨.of_eq nothing.symm, .nil⟩
  | case2 heap top rest popped ih =>
      obtain ⟨located', same⟩ := located.pop? popped
      obtain ⟨ordered', highest⟩ := ordered.pop? numeric popped
      obtain ⟨perm, descending⟩ := ih ordered' (numeric.of_pop? located popped) located'
      refine ⟨(perm.cons top).trans same.symm, List.pairwise_cons.2 ⟨fun e mem => ?_, descending⟩⟩
      obtain ⟨there, other⟩ := (located.mem_pop? popped).1 (perm.mem_iff.1 mem)
      refine lt_of_le_of_ne (highest e there) fun same => other ?_
      exact congrArg (fun rank => (ofLex rank).2) same

/-! ### Heap and map -/

/-- In order, with the priorities of a map. -/
structure Tracks (heap : PriorityHeap) (latest : Priorities) : Prop where
  located : heap.Located
  ordered : heap.Ordered
  numeric : heap.Numeric
  priority : ∀ payload, heap.priority? payload = latest[payload]?

/-- The heap answers as the map does. -/
structure Mirrors (heap : PriorityHeap) (latest : Priorities) : Prop where
  size : heap.size = latest.size
  contains : ∀ payload, heap.contains payload = latest.contains payload
  priority : ∀ payload, heap.priority? payload = latest[payload]?
  peek : heap.peek? = latest.greatest?
  handed_out : ∀ operation, (heap.run operation).2 = (latest.run operation).2
  drain_perm : heap.drain.Perm latest.entries
  drain_descending : heap.drain.Pairwise fun a b => b.rank < a.rank

namespace Tracks

variable {latest : Priorities} (tracks : heap.Tracks latest)

theorem initial : empty.Tracks ∅ where
  located := located_empty
  ordered := ordered_empty
  numeric _ mem := by cases mem
  priority payload := by simp [priority?, empty]

include tracks

theorem perm : heap.toList.Perm latest.entries := by
  refine (List.perm_ext_iff_of_nodup tracks.located.nodup_toList latest.nodup_entries).2 fun e => ?_
  rw [Priorities.mem_entries, ← tracks.priority, tracks.located.priority?_eq_some_iff]

theorem peek_eq : heap.peek? = latest.greatest? := by
  cases first : heap.peek? with
  | none =>
      have nothing : heap.toList = [] := by
        rw [peek?, Array.getElem?_eq_none_iff, Nat.le_zero] at first
        exact List.length_eq_zero_iff.1 first
      have none : latest.entries = [] := (nothing ▸ tracks.perm).nil_eq.symm
      rw [Priorities.greatest?, none]
      rfl
  | some top =>
      have mem : top ∈ heap.toList := mem_toList_iff.2 ⟨0, first⟩
      refine (Priorities.greatest?_eq_some (tracks.perm.mem_iff.1 mem) fun e in_map => ?_).symm
      exact tracks.ordered.rank_le_first first e (tracks.perm.mem_iff.2 in_map)

/-- What a heap hands out is the greatest entry of the map. -/
theorem pop?_cases : heap.pop? = none ∧ latest.greatest? = none ∨
    ∃ top rest, heap.pop? = some (top, rest) ∧ latest.greatest? = some top := by
  rw [← tracks.peek_eq]
  cases popped : heap.pop? with
  | none =>
      refine .inl ⟨rfl, Array.getElem?_eq_none ?_⟩
      exact Nat.le_of_eq (pop?_eq_none_iff.1 popped)
  | some result =>
      obtain ⟨top, rest⟩ := result
      exact .inr ⟨top, rest, rfl, (pop?_eq_some popped).1⟩

theorem handed_out (operation : Operation) :
    (heap.run operation).2 = (latest.run operation).2 := by
  cases operation with
  | insert => rfl
  | clear => rfl
  | pop =>
      rcases tracks.pop?_cases with ⟨none, nothing⟩ | ⟨top, rest, popped, greatest⟩
      · rw [PriorityHeap.run, none, Priorities.run, nothing]
      · rw [PriorityHeap.run, popped, Priorities.run, greatest]

theorem run {operation : Operation} (number : operation.isNumeric = true) :
    (heap.run operation).1.Tracks (latest.run operation).1 := by
  cases operation with
  | insert new payload =>
      obtain ⟨located, ordered, numeric, priority⟩ := tracks
      have number : new.isNaN = false := by simpa [Operation.isNumeric] using number
      refine ⟨located.insert new payload, ordered.insert numeric located number payload,
        numeric.insert located number payload, fun x => ?_⟩
      change (heap.insert new payload).priority? x = (latest.insert payload new)[x]?
      rw [located.priority?_insert, Std.TreeMap.getElem?_insert, priority]
      simp only [Nat.compare_eq_eq, eq_comm (a := x)]
  | pop =>
      rcases tracks.pop?_cases with ⟨none, nothing⟩ | ⟨top, rest, popped, greatest⟩
      · rwa [PriorityHeap.run, none, Priorities.run, nothing]
      · obtain ⟨located, ordered, numeric, priority⟩ := tracks
        rw [PriorityHeap.run, popped, Priorities.run, greatest]
        refine ⟨(located.pop? popped).1, (ordered.pop? numeric popped).1,
          numeric.of_pop? located popped, fun x => ?_⟩
        rw [located.priority?_pop? popped, Std.TreeMap.getElem?_erase, priority]
        simp only [Nat.compare_eq_eq, eq_comm (a := x)]
  | clear => exact initial

theorem mirrors : heap.Mirrors latest := by
  obtain ⟨drained, descending⟩ := tracks.ordered.drain tracks.numeric tracks.located
  constructor
  case size =>
    rw [← Std.TreeMap.length_toList, ← latest.toList.length_map, ← length_payloads]
    rw [payloads, List.length_map, tracks.perm.length_eq]
    rfl
  case contains =>
    intro payload
    rw [tracks.located.contains_eq, tracks.priority, Std.TreeMap.contains_eq_isSome_getElem?]
  case priority => exact tracks.priority
  case peek => exact tracks.peek_eq
  case handed_out => exact tracks.handed_out
  case drain_perm => exact drained.trans tracks.perm
  case drain_descending => exact descending

end Tracks

theorem tracks_after {operations : List Operation}
    (numeric : ∀ operation ∈ operations, operation.isNumeric = true) :
    (after operations).Tracks (.after operations) := by
  induction operations using List.reverseRecOn with
  | nil => exact .initial
  | append_singleton operations last ih =>
      rw [after, List.foldl_append, Priorities.after, List.foldl_append]
      have before := ih fun operation mem => numeric operation (List.mem_append_left _ mem)
      exact before.run (numeric last (by simp))

/-- After any operations the heap is a finite map whose positions are the inverse of its array. If
no priority was a NaN, it answers as the map from payloads to their latest priorities does: it hands
out the greatest entry first, by priority and then by payload. -/
theorem map_after (operations : List Operation) :
    (after operations).IsMap ∧
      ((∀ operation ∈ operations, operation.isNumeric = true) →
        (after operations).Mirrors (.after operations)) :=
  ⟨(located_after operations).isMap, fun numeric => (tracks_after numeric).mirrors⟩

/-- A payload in the middle gets the highest priority and is handed out. -/
theorem map_after_raising :
    let operations : List Operation :=
      [.insert .one 7, .insert .zero 8, .insert .one 9, .insert .infinity 8, .pop]
    (∀ operation ∈ operations, operation.isNumeric = true) ∧
      (after operations).Mirrors (.after operations) := by
  intro operations
  have numeric : ∀ operation ∈ operations, operation.isNumeric = true := by decide
  exact ⟨numeric, (map_after operations).2 numeric⟩

end Vicinity.PriorityHeap
