import Vicinity.PriorityHeap

/-!
The payloads of a heap.

Sifting only rearranges entries, so an insertion brings no payload in but its own
(`mem_payloads_insert`) and a removal brings none in (`mem_payloads_pop?`).
-/

namespace Vicinity.PriorityHeap

/-- The payloads in the order of the array. -/
def payloads (heap : PriorityHeap) : List Nat := heap.toList.map (·.payload)

theorem swap_perm (heap : PriorityHeap) (i j : Nat) :
    (heap.swap i j).entries.toList.Perm heap.entries.toList := by
  unfold swap
  split
  · exact (Array.swap_perm ..).toList
  · exact .refl _

theorem siftUp_perm (heap : PriorityHeap) (position : Nat) :
    (heap.siftUp position).1.entries.toList.Perm heap.entries.toList := by
  fun_induction siftUp heap position with
  | case1 heap position _ ih => exact ih.trans (swap_perm ..)
  | case2 => exact .refl _

theorem siftDown_perm (heap : PriorityHeap) (position : Nat) :
    (heap.siftDown position).entries.toList.Perm heap.entries.toList := by
  fun_induction siftDown heap position with
  | case1 heap position _ _ ih => exact ih.trans (swap_perm ..)
  | case2 => exact .refl _

theorem toList_insert_empty (priority : Binary64) (payload : Nat) :
    (insert .empty priority payload).toList = [⟨priority, payload⟩] := by
  have absent : PriorityHeap.empty.positions[payload]? = none := by simp [empty]
  rw [insert, absent]
  dsimp only
  -- The new entry stands at the root, where there is no parent to pass.
  rw [siftUp, if_neg fun h => Nat.lt_irrefl 0 h.1]
  rfl

theorem mem_payloads_insert {heap : PriorityHeap} {priority : Binary64} {payload x : Nat}
    (mem : x ∈ (heap.insert priority payload).payloads) :
    x = payload ∨ x ∈ heap.payloads := by
  unfold insert payloads toList at mem
  split at mem
  case h_1 position _ =>
    dsimp only at mem
    rw [((siftDown_perm ..).trans (siftUp_perm ..)).map _ |>.mem_iff] at mem
    -- Only a priority was changed, so the payloads are those of before.
    have same : (heap.entries.modify position ({ · with priority })).toList.map (·.payload) =
        heap.payloads := by
      refine List.ext_getElem? fun i => ?_
      simp only [payloads, toList, List.getElem?_map, Array.getElem?_toList,
        Array.getElem?_modify]
      split
      · cases heap.entries[i]? <;> rfl
      · rfl
    exact .inr (same ▸ mem)
  case h_2 =>
    dsimp only at mem
    rw [(siftUp_perm ..).map _ |>.mem_iff, Array.toList_push, List.map_append,
      List.mem_append] at mem
    rcases mem with old | new
    · exact .inr old
    · exact .inl (List.mem_singleton.1 new)

theorem mem_payloads_pop? {heap rest : PriorityHeap} {top : Entry}
    (popped : heap.pop? = some (top, rest)) {x : Nat} (mem : x ∈ rest.payloads) :
    x ∈ heap.payloads := by
  simp only [pop?] at popped
  split at popped
  · contradiction
  · simp only [Option.some.injEq, Prod.mk.injEq] at popped
    rw [← popped.2, payloads, toList, (siftDown_perm ..).map _ |>.mem_iff, Array.toList_pop] at mem
    obtain ⟨entry, here, rfl⟩ := List.mem_map.1 mem
    exact List.mem_map_of_mem ((swap_perm ..).mem_iff.1 (List.dropLast_subset _ here))

end Vicinity.PriorityHeap
