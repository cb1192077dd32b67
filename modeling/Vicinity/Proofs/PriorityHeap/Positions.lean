import Mathlib.Logic.Equiv.Basic
import Vicinity.Proofs.PriorityHeap

/-!
Where the payloads of a heap stand.

The map of positions answers for every payload where it stands in the array, and for no other number
anything (`Located`). Exchanging two entries keeps this, so every sift does, whatever the priorities
are. A payload that is not in the heap can be put in, which adds its entry and no other
(`Located.insert_of_absent`), and taking the greatest entry out takes the first one of the array
(`Located.pop?`).
-/

namespace Vicinity.PriorityHeap

/-- The payload that stands at a position. -/
def payloadAt (heap : PriorityHeap) (position : Nat) : Option Nat :=
  heap.entries[position]?.map (·.payload)

/-- The map of positions and the array say the same. -/
def Located (heap : PriorityHeap) : Prop :=
  ∀ payload position,
    heap.positions[payload]? = some position ↔ heap.payloadAt position = some payload

theorem located_empty : empty.Located := by
  intro payload position
  simp [empty, payloadAt]

theorem payloads_eq (heap : PriorityHeap) (position : Nat) :
    heap.payloads[position]? = heap.payloadAt position := by
  simp [payloads, toList, payloadAt]

theorem mem_payloads {heap : PriorityHeap} {payload : Nat} :
    payload ∈ heap.payloads ↔ ∃ position, heap.payloadAt position = some payload := by
  rw [List.mem_iff_getElem?]
  simp only [payloads_eq]

theorem length_payloads (heap : PriorityHeap) : heap.payloads.length = heap.size := by
  simp [payloads, toList, size]

theorem Located.positions_eq_none {heap : PriorityHeap} (located : heap.Located) {payload : Nat}
    (absent : payload ∉ heap.payloads) : heap.positions[payload]? = none := by
  apply Option.eq_none_iff_forall_not_mem.2
  intro position found
  exact absent (mem_payloads.2 ⟨position, (located payload position).1 found⟩)

/-- No payload stands twice. -/
theorem Located.nodup {heap : PriorityHeap} (located : heap.Located) : heap.payloads.Nodup := by
  apply List.pairwise_iff_getElem.2
  intro i j at_i at_j lt same
  have first : heap.payloadAt i = some heap.payloads[i] := by
    rw [← payloads_eq, List.getElem?_eq_getElem]
  have second : heap.payloadAt j = some heap.payloads[i] := by
    rw [same, ← payloads_eq, List.getElem?_eq_getElem]
  have found := (located _ i).2 first
  rw [(located _ j).2 second] at found
  cases found
  exact Nat.lt_irrefl _ lt

/-! ### Exchanging entries -/

/-- After an exchange each of the two entries stands where the other did. -/
theorem getElem?_swap {heap : PriorityHeap} {i j : Nat} (at_i : i < heap.entries.size)
    (at_j : j < heap.entries.size) (position : Nat) :
    (heap.swap i j).entries[position]? = heap.entries[Equiv.swap i j position]? := by
  unfold swap
  split
  case isTrue inside =>
    rw [Array.getElem?_swap, Equiv.swap_apply_def]
    by_cases here : position = i
    · rw [if_neg (by omega), if_pos here.symm, if_pos here, Array.getElem?_eq_getElem at_j]
    · by_cases there : position = j
      · rw [if_pos there.symm, if_neg here, if_pos there, Array.getElem?_eq_getElem at_i]
      · rw [if_neg (Ne.symm there), if_neg (Ne.symm here), if_neg here, if_neg there]
  case isFalse outside =>
    have same : i = j := by
      apply Classical.byContradiction
      intro ne
      exact outside ⟨ne, at_i, at_j⟩
    rw [same, Equiv.swap_self, Equiv.refl_apply]

/-- The map of positions follows an exchange. -/
theorem Located.positions_swap {heap : PriorityHeap} (located : heap.Located) {i j : Nat}
    (at_i : i < heap.entries.size) (at_j : j < heap.entries.size) (payload : Nat) :
    (heap.swap i j).positions[payload]? = heap.positions[payload]?.map (Equiv.swap i j) := by
  unfold PriorityHeap.swap
  split
  case isTrue =>
    have stands : ∀ k (at_k : k < heap.entries.size),
        heap.positions[payload]? = some k ↔ heap.entries[k].payload = payload := by
      intro k at_k
      simp [located payload k, payloadAt, at_k]
    simp only [Std.TreeMap.getElem?_insert, Nat.compare_eq_eq]
    split
    case isTrue first => simp [(stands i at_i).2 first]
    case isFalse not_first =>
      split
      case isTrue second => simp [(stands j at_j).2 second]
      case isFalse not_second =>
        cases found : heap.positions[payload]? with
        | none => rfl
        | some k =>
            have k_ne_i : k ≠ i := fun same => not_first ((stands i at_i).1 (same ▸ found))
            have k_ne_j : k ≠ j := fun same => not_second ((stands j at_j).1 (same ▸ found))
            rw [Option.map_some, Equiv.swap_apply_of_ne_of_ne k_ne_i k_ne_j]
  case isFalse outside =>
    have same : i = j := by
      apply Classical.byContradiction
      intro ne
      exact outside ⟨ne, at_i, at_j⟩
    rw [same, Equiv.swap_self]
    exact Option.map_id'.symm

theorem Located.swap {heap : PriorityHeap} (located : heap.Located) (i j : Nat) :
    (heap.swap i j).Located := by
  by_cases inside : i < heap.entries.size ∧ j < heap.entries.size
  case neg =>
    rw [PriorityHeap.swap, dif_neg fun h => inside h.2]
    exact located
  case pos =>
    obtain ⟨at_i, at_j⟩ := inside
    intro payload position
    have moved : (heap.swap i j).payloadAt position =
        heap.payloadAt (Equiv.swap i j position) := by
      rw [payloadAt, getElem?_swap at_i at_j, payloadAt]
    rw [located.positions_swap at_i at_j, moved, ← located, Option.map_eq_some_iff]
    constructor
    · rintro ⟨k, found, rfl⟩
      rwa [Equiv.swap_apply_self]
    · intro found
      exact ⟨_, found, Equiv.swap_apply_self i j position⟩

theorem Located.siftUp {heap : PriorityHeap} (located : heap.Located) (position : Nat) :
    (heap.siftUp position).1.Located := by
  fun_induction PriorityHeap.siftUp heap position with
  | case1 heap position _ ih => exact ih (located.swap _ _)
  | case2 => exact located

theorem Located.siftDown {heap : PriorityHeap} (located : heap.Located) (position : Nat) :
    (heap.siftDown position).Located := by
  fun_induction PriorityHeap.siftDown heap position with
  | case1 heap position _ _ ih => exact ih (located.swap _ _)
  | case2 => exact located

/-! ### Putting a payload in -/

/-- A heap with an entry more in the last place, wherever that belongs. -/
def append (heap : PriorityHeap) (priority : Binary64) (payload : Nat) : PriorityHeap where
  entries := heap.entries.push ⟨priority, payload⟩
  positions := heap.positions.insert payload heap.entries.size

theorem Located.insert_eq {heap : PriorityHeap} (located : heap.Located) (priority : Binary64)
    {payload : Nat} (absent : payload ∉ heap.payloads) :
    heap.insert priority payload = ((heap.append priority payload).siftUp heap.size).1 := by
  rw [PriorityHeap.insert, located.positions_eq_none absent]
  rfl

theorem Located.append {heap : PriorityHeap} (located : heap.Located) (priority : Binary64)
    {payload : Nat} (absent : payload ∉ heap.payloads) :
    (heap.append priority payload).Located := by
  intro x position
  have old := located x position
  have stands : (heap.append priority payload).payloadAt position =
      if position = heap.size then some payload else heap.payloadAt position := by
    rw [payloadAt, PriorityHeap.append, Array.getElem?_push]
    split
    case isTrue last => rw [size, if_pos last, Option.map_some]
    case isFalse before => rw [size, if_neg before, payloadAt]
  have noted : (heap.append priority payload).positions[x]? =
      if payload = x then some heap.size else heap.positions[x]? := by
    simp [PriorityHeap.append, Std.TreeMap.getElem?_insert, size]
  rw [noted, stands]
  split
  case isTrue own =>
    subst own
    by_cases last : position = heap.size
    · simp [last]
    · rw [if_neg last, Option.some.injEq]
      constructor
      · exact fun same => absurd same.symm last
      · exact fun there => absurd (mem_payloads.2 ⟨position, there⟩) absent
  case isFalse other =>
    rw [old]
    split
    case isTrue last =>
      have beyond : heap.payloadAt heap.size = none := by
        simp [payloadAt, size]
      rw [last, beyond]
      simp [other]
    case isFalse => rfl

/-- A payload that was not in the heap comes in with its priority, and nothing else changes. -/
theorem Located.insert_of_absent {heap : PriorityHeap} (located : heap.Located)
    (priority : Binary64) {payload : Nat} (absent : payload ∉ heap.payloads) :
    (heap.insert priority payload).Located ∧
      (heap.insert priority payload).toList.Perm (⟨priority, payload⟩ :: heap.toList) := by
  rw [located.insert_eq priority absent]
  refine ⟨(located.append priority absent).siftUp _, (siftUp_perm ..).trans ?_⟩
  rw [PriorityHeap.append, Array.toList_push]
  exact List.perm_append_singleton ..

/-- A payload that is in the heap gets its new priority in place. -/
theorem Located.insert {heap : PriorityHeap} (located : heap.Located) (priority : Binary64)
    (payload : Nat) : (heap.insert priority payload).Located := by
  by_cases present : payload ∈ heap.payloads
  · obtain ⟨position, stands⟩ := mem_payloads.1 present
    have updated : PriorityHeap.Located
        { heap with entries := heap.entries.modify position ({ · with priority }) } := by
      intro x i
      rw [located x i]
      simp only [payloadAt, Array.getElem?_modify]
      split
      · cases heap.entries[i]? <;> rfl
      · rfl
    rw [PriorityHeap.insert, (located payload position).2 stands]
    exact (updated.siftUp position).siftDown _
  · exact (located.insert_of_absent priority present).1

/-! ### Taking the greatest entry out -/

/-- The heap without the entry in the last place. -/
def shorten (heap : PriorityHeap) (last : Entry) : PriorityHeap where
  entries := heap.entries.pop
  positions := heap.positions.erase last.payload

theorem pop?_eq_none_iff {heap : PriorityHeap} : heap.pop? = none ↔ heap.size = 0 := by
  unfold pop?
  dsimp only
  split
  case h_1 none =>
    rw [Array.back?_eq_getElem?, Array.getElem?_eq_none_iff, size_entries_swap] at none
    simp only [true_iff, size]
    omega
  case h_2 some =>
    have inside := (Array.getElem?_eq_some_iff.1 (Array.back?_eq_getElem? ▸ some)).1
    rw [size_entries_swap] at inside
    simp only [reduceCtorEq, false_iff, size]
    omega

theorem pop?_eq_some {heap rest : PriorityHeap} {top : Entry}
    (popped : heap.pop? = some (top, rest)) :
    heap.entries[0]? = some top ∧
      rest = ((heap.swap 0 (heap.size - 1)).shorten top).siftDown 0 := by
  unfold pop? at popped
  dsimp only at popped
  split at popped
  · contradiction
  case h_2 back =>
    cases popped
    refine ⟨?_, rfl⟩
    rw [Array.back?_eq_getElem?, size_entries_swap] at back
    have inside := (Array.getElem?_eq_some_iff.1 back).1
    rw [size_entries_swap] at inside
    rwa [getElem?_swap (by omega) inside, Equiv.swap_apply_right] at back

theorem Located.shorten {heap : PriorityHeap} (located : heap.Located) {last : Entry}
    (at_end : heap.entries[heap.size - 1]? = some last) : (heap.shorten last).Located := by
  intro payload position
  have old := located payload position
  have inside : heap.size - 1 < heap.entries.size := (Array.getElem?_eq_some_iff.1 at_end).1
  have stands : (heap.shorten last).payloadAt position =
      if position < heap.size - 1 then heap.payloadAt position else none := by
    rw [payloadAt, PriorityHeap.shorten, Array.getElem?_pop]
    split
    case isTrue before => rw [size, if_pos before, payloadAt]
    case isFalse beyond => rw [size, if_neg beyond, Option.map_none]
  have noted : (heap.shorten last).positions[payload]? =
      if last.payload = payload then none else heap.positions[payload]? := by
    simp [PriorityHeap.shorten, Std.TreeMap.getElem?_erase]
  have own := located payload (heap.size - 1)
  rw [payloadAt, at_end] at own
  simp only [Option.map_some, Option.some.injEq] at own
  rw [noted, stands]
  split
  case isTrue gone =>
    simp only [reduceCtorEq, false_iff]
    split
    case isTrue before =>
      rw [← old, own.2 gone]
      intro same
      have := Option.some.inj same
      omega
    case isFalse => exact fun same => by cases same
  case isFalse kept =>
    rw [old]
    split
    case isTrue => rfl
    case isFalse beyond =>
      simp only [reduceCtorEq, iff_false]
      intro there
      by_cases last_place : position = heap.size - 1
      · rw [last_place] at old there
        exact kept (own.1 (old.2 there))
      · have none : heap.payloadAt position = none := by
          simp only [payloadAt, size] at *
          rw [Array.getElem?_eq_none (by omega)]
          rfl
        rw [none] at there
        cases there

/-- The first entry of the array goes, and nothing else changes. -/
theorem Located.pop? {heap rest : PriorityHeap} {top : Entry} (located : heap.Located)
    (popped : heap.pop? = some (top, rest)) :
    rest.Located ∧ heap.toList.Perm (top :: rest.toList) := by
  obtain ⟨first, rfl⟩ := pop?_eq_some popped
  have inside : 0 < heap.entries.size := (Array.getElem?_eq_some_iff.1 first).1
  have at_end : (heap.swap 0 (heap.size - 1)).entries[heap.size - 1]? = some top := by
    rw [getElem?_swap inside (by rw [size]; omega), Equiv.swap_apply_right, first]
  have same_size : (heap.swap 0 (heap.size - 1)).size = heap.size := size_entries_swap ..
  refine ⟨((located.swap 0 (heap.size - 1)).shorten ?_).siftDown 0, ?_⟩
  · rw [same_size]
    exact at_end
  refine (swap_perm heap 0 (heap.size - 1)).symm.trans (List.Perm.trans ?_
    (((siftDown_perm ..).cons top).symm))
  rw [PriorityHeap.shorten, Array.toList_pop]
  have last : (heap.swap 0 (heap.size - 1)).entries.toList.getLast? = some top := by
    rw [List.getLast?_eq_getElem?, Array.length_toList, size_entries_swap, Array.getElem?_toList]
    exact at_end
  obtain ⟨front, eq⟩ := List.getLast?_eq_some_iff.1 last
  rw [eq, List.dropLast_concat]
  exact List.perm_append_singleton ..

end Vicinity.PriorityHeap
