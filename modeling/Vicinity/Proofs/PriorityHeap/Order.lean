import Mathlib.Data.Prod.Lex
import Mathlib.Order.WithBot
import Vicinity.Proofs.Binary64
import Vicinity.Proofs.PriorityHeap.Positions

/-!
The greatest entry of a heap comes first.

Among numbers an entry has a rank, by priority and then by payload, and a heap is ordered when no
entry ranks above its parent (`Ordered`). A sift meets a heap that is in order except around one
position: what rises may rank above its parent (`Rising`), what sinks may rank below its children
(`Sinking`). Each exchange moves that position one level on, and where the sift stops the heap is
ordered. An entry that got another priority may rank wrongly on both sides (`Disturbed`), and is
sifted both ways. So the heap stays ordered as payloads come in, change their priorities and go, and
the entry that goes ranks above all that stay (`Ordered.pop?`).
-/

namespace Vicinity.PriorityHeap

/-! ### Ranks -/

/-- By priority, and by payload among equal priorities. -/
def Entry.rank (e : Entry) : ℕ ×ₗ ℕ := toLex (e.priority.key.toNat, e.payload)

theorem Entry.above_iff {a b : Entry} (number_a : a.priority.isNaN = false)
    (number_b : b.priority.isNaN = false) : a.above b = true ↔ b.rank < a.rank := by
  have decided : a.priority.partialCompare b.priority =
      some (compareOfLessAndEq a.priority.key b.priority.key) := by
    simp [Binary64.partialCompare, number_a, number_b]
    rfl
  rw [above, decided, rank, rank, Prod.Lex.toLex_lt_toLex, ← UInt64.lt_iff_toNat_lt,
    UInt64.toNat_inj]
  by_cases lower : a.priority.key < b.priority.key
  · simp [compareOfLessAndEq, lower, UInt64.lt_asymm lower, Ne.symm (UInt64.ne_of_lt lower)]
  · by_cases same : a.priority.key = b.priority.key
    · simp [compareOfLessAndEq, same]
    · have higher : b.priority.key < a.priority.key := by
        rw [UInt64.lt_iff_toNat_lt] at lower ⊢
        rw [← UInt64.toNat_inj] at same
        omega
      simp [compareOfLessAndEq, lower, same, higher]

/-- Among numbers, an entry of lower rank has no higher priority. -/
theorem Entry.le_of_rank_le {a b : Entry} (number_a : a.priority.isNaN = false)
    (number_b : b.priority.isNaN = false) (le : a.rank ≤ b.rank) :
    a.priority.le b.priority = true := by
  rw [rank, rank, Prod.Lex.toLex_le_toLex] at le
  rw [Binary64.le_iff number_a number_b]
  rcases le with lower | ⟨same, _⟩
  · exact Nat.le_of_lt lower
  · exact Nat.le_of_eq same

/-- The rank at a position, below all ranks where there is no entry. -/
def rankAt (heap : PriorityHeap) (position : Nat) : WithBot (ℕ ×ₗ ℕ) :=
  heap.entries[position]?.elim ⊥ fun e => e.rank

/-- No priority is a NaN. -/
def Numeric (heap : PriorityHeap) : Prop := ∀ e ∈ heap.toList, e.priority.isNaN = false

theorem Numeric.of_perm {heap heap' : PriorityHeap} (numeric : heap.Numeric)
    (same : heap'.toList.Perm heap.toList) : heap'.Numeric :=
  fun e mem => numeric e (same.mem_iff.1 mem)

theorem rankAt_of_le {heap : PriorityHeap} (position : Nat) (beyond : heap.size ≤ position) :
    heap.rankAt position = ⊥ := by
  rw [rankAt, Array.getElem?_eq_none beyond]
  rfl

theorem rankAt_swap (heap : PriorityHeap) {i j : Nat} (at_i : i < heap.size)
    (at_j : j < heap.size) (position : Nat) :
    (heap.swap i j).rankAt position = heap.rankAt (Equiv.swap i j position) := by
  rw [rankAt, getElem?_swap at_i at_j, rankAt]

theorem Numeric.isAbove_iff {heap : PriorityHeap} (numeric : heap.Numeric) {i j : Nat}
    (at_j : j < heap.size) : heap.isAbove i j = true ↔ heap.rankAt j < heap.rankAt i := by
  have number : ∀ k (at_k : k < heap.entries.size), heap.entries[k].priority.isNaN = false :=
    fun k at_k => numeric _ (Array.getElem_mem_toList at_k)
  have second : heap.entries[j]? = some heap.entries[j] := Array.getElem?_eq_getElem at_j
  by_cases at_i : i < heap.entries.size
  · have first : heap.entries[i]? = some heap.entries[i] := Array.getElem?_eq_getElem at_i
    rw [isAbove, rankAt, rankAt, first, second]
    exact (Entry.above_iff (number i at_i) (number j at_j)).trans WithBot.coe_lt_coe.symm
  · have first : heap.entries[i]? = none := Array.getElem?_eq_none (Nat.not_lt.1 at_i)
    rw [isAbove, rankAt, rankAt, first]
    simp

/-! ### Order -/

/-- No entry ranks above its parent. -/
def Ordered (heap : PriorityHeap) : Prop :=
  ∀ i, 0 < i → heap.rankAt i ≤ heap.rankAt ((i - 1) / 2)

/-- In order, except that the entry at the position may rank above its parent. -/
structure Rising (heap : PriorityHeap) (position : Nat) : Prop where
  others : ∀ i, 0 < i → i ≠ position → heap.rankAt i ≤ heap.rankAt ((i - 1) / 2)
  below : 0 < position → ∀ i, 0 < i → (i - 1) / 2 = position →
    heap.rankAt i ≤ heap.rankAt ((position - 1) / 2)

/-- In order, except that the entry at the position may rank below its children. -/
structure Sinking (heap : PriorityHeap) (position : Nat) : Prop where
  others : ∀ i, 0 < i → (i - 1) / 2 ≠ position → heap.rankAt i ≤ heap.rankAt ((i - 1) / 2)
  below : 0 < position → ∀ i, 0 < i → (i - 1) / 2 = position →
    heap.rankAt i ≤ heap.rankAt ((position - 1) / 2)

/-- In order, except that the entry at the position may rank above its parent or below its
children. -/
structure Disturbed (heap : PriorityHeap) (position : Nat) : Prop where
  others : ∀ i, 0 < i → i ≠ position → (i - 1) / 2 ≠ position →
    heap.rankAt i ≤ heap.rankAt ((i - 1) / 2)
  below : 0 < position → ∀ i, 0 < i → (i - 1) / 2 = position →
    heap.rankAt i ≤ heap.rankAt ((position - 1) / 2)

theorem Rising.disturbed {heap : PriorityHeap} {position : Nat} (rising : heap.Rising position) :
    heap.Disturbed position where
  others i positive other _ := rising.others i positive other
  below := rising.below

theorem Ordered.sinking {heap : PriorityHeap} (ordered : heap.Ordered) (position : Nat) :
    heap.Sinking position where
  others i positive _ := ordered i positive
  below positive i i_pos of_position := by
    have le := ordered i i_pos
    rw [of_position] at le
    exact le.trans (ordered position positive)

theorem ordered_empty : empty.Ordered := fun _ _ => le_refl _

theorem Ordered.le_first {heap : PriorityHeap} (ordered : heap.Ordered) (position : Nat) :
    heap.rankAt position ≤ heap.rankAt 0 := by
  induction position using Nat.strong_induction_on with
  | h position ih =>
      rcases Nat.eq_zero_or_pos position with rfl | positive
      · exact le_refl _
      · exact (ordered position positive).trans (ih _ (by omega))

theorem Ordered.rank_le_first {heap : PriorityHeap} (ordered : heap.Ordered) {top : Entry}
    (first : heap.peek? = some top) : ∀ e ∈ heap.toList, e.rank ≤ top.rank := by
  intro e mem
  obtain ⟨i, at_i⟩ := List.getElem?_of_mem mem
  rw [toList, Array.getElem?_toList] at at_i
  have le := ordered.le_first i
  rw [peek?] at first
  rw [rankAt, rankAt, at_i, first] at le
  exact WithBot.coe_le_coe.1 le

/-! ### Rising -/

/-- An entry that ranks above its parent takes its place, where only the entries above it can be out
of order. -/
theorem Disturbed.swap {heap : PriorityHeap} {p : Nat} (disturbed : heap.Disturbed p)
    (positive : 0 < p) (inside : p < heap.size)
    (above : heap.rankAt ((p - 1) / 2) < heap.rankAt p) :
    (heap.swap p ((p - 1) / 2)).Rising ((p - 1) / 2) := by
  have moved := rankAt_swap heap inside (show (p - 1) / 2 < heap.size by omega)
  have at_child := moved p
  have at_parent := moved ((p - 1) / 2)
  rw [Equiv.swap_apply_left] at at_child
  rw [Equiv.swap_apply_right] at at_parent
  have elsewhere : ∀ i, i ≠ p → i ≠ (p - 1) / 2 →
      (heap.swap p ((p - 1) / 2)).rankAt i = heap.rankAt i := by
    intro i ne_child ne_parent
    rw [moved, Equiv.swap_apply_of_ne_of_ne ne_child ne_parent]
  constructor
  · intro i i_pos ne_parent
    by_cases child : i = p
    · subst child
      rw [at_child, at_parent]
      exact above.le
    · rw [elsewhere i child ne_parent]
      by_cases grandchild : (i - 1) / 2 = p
      · rw [grandchild, at_child]
        exact disturbed.below positive i i_pos grandchild
      · by_cases sibling : (i - 1) / 2 = (p - 1) / 2
        · rw [sibling, at_parent]
          have before := disturbed.others i i_pos child grandchild
          rw [sibling] at before
          exact before.trans above.le
        · rw [elsewhere _ grandchild sibling]
          exact disturbed.others i i_pos child grandchild
  · intro parent_pos i i_pos of_parent
    have parent_ordered := disturbed.others ((p - 1) / 2) parent_pos (by omega) (by omega)
    rw [elsewhere ((((p - 1) / 2) - 1) / 2) (by omega) (by omega)]
    by_cases child : i = p
    · rw [child, at_child]
      exact parent_ordered
    · rw [elsewhere i child (by omega)]
      have sibling := disturbed.others i i_pos child (by omega)
      rw [of_parent] at sibling
      exact sibling.trans parent_ordered

theorem Rising.siftUp {heap : PriorityHeap} {position : Nat} (rising : heap.Rising position)
    (numeric : heap.Numeric) (inside : position < heap.size) :
    (heap.siftUp position).1.Ordered := by
  fun_induction PriorityHeap.siftUp heap position with
  | case1 heap position risen ih =>
      obtain ⟨positive, above⟩ := risen
      have parent_inside : (position - 1) / 2 < heap.size := by omega
      apply ih
      · exact rising.disturbed.swap positive inside ((numeric.isAbove_iff parent_inside).1 above)
      · exact numeric.of_perm (swap_perm ..)
      · rw [size, size_entries_swap]
        exact parent_inside
  | case2 heap position stopped =>
      intro i i_pos
      by_cases here : i = position
      · subst here
        have not_above : ¬ heap.isAbove i ((i - 1) / 2) = true := fun above =>
          stopped ⟨i_pos, above⟩
        rw [numeric.isAbove_iff (by omega)] at not_above
        exact not_lt.1 not_above
      · exact rising.others i i_pos here

/-! ### Sinking -/

/-- Neither an entry nor its children rank above the greatest of them. -/
theorem Numeric.greatestOfThree {heap : PriorityHeap} (numeric : heap.Numeric) {p : Nat}
    (inside : p < heap.size) :
    heap.greatestOfThree p < heap.size ∧
      (heap.greatestOfThree p = p ∨ (heap.greatestOfThree p - 1) / 2 = p) ∧
      heap.rankAt p ≤ heap.rankAt (heap.greatestOfThree p) ∧
      ∀ i, 0 < i → (i - 1) / 2 = p → heap.rankAt i ≤ heap.rankAt (heap.greatestOfThree p) := by
  have children : ∀ i, 0 < i → (i - 1) / 2 = p → i = 2 * p + 1 ∨ i = 2 * p + 1 + 1 := by omega
  have stands : ∀ {i j}, heap.rankAt i < heap.rankAt j → j < heap.size := by
    intro i j below
    apply Classical.byContradiction
    intro beyond
    rw [rankAt_of_le _ (Nat.not_lt.1 beyond)] at below
    exact not_lt_bot below
  unfold PriorityHeap.greatestOfThree
  dsimp only
  -- The greater of the entry and its left child, and then of that and the right child.
  obtain ⟨greater, greater_inside, greater_eq, place, at_least, left_le⟩ : ∃ greater,
      greater < heap.size ∧ (if heap.isAbove (2 * p + 1) p then 2 * p + 1 else p) = greater ∧
        (greater = p ∨ greater = 2 * p + 1) ∧ heap.rankAt p ≤ heap.rankAt greater ∧
        heap.rankAt (2 * p + 1) ≤ heap.rankAt greater := by
    split
    case isTrue above =>
      have above := (numeric.isAbove_iff inside).1 above
      exact ⟨_, stands above, rfl, .inr rfl, above.le, le_refl _⟩
    case isFalse not_above =>
      rw [numeric.isAbove_iff inside] at not_above
      exact ⟨_, inside, rfl, .inl rfl, le_refl _, not_lt.1 not_above⟩
  rw [greater_eq]
  split
  case isTrue above =>
    have above := (numeric.isAbove_iff greater_inside).1 above
    refine ⟨stands above, .inr (by omega), at_least.trans above.le, fun i i_pos of_p => ?_⟩
    rcases children i i_pos of_p with rfl | rfl
    · exact left_le.trans above.le
    · exact le_refl _
  case isFalse not_above =>
    rw [numeric.isAbove_iff greater_inside] at not_above
    refine ⟨greater_inside, by omega, at_least, fun i i_pos of_p => ?_⟩
    rcases children i i_pos of_p with rfl | rfl
    · exact left_le
    · exact not_lt.1 not_above

theorem Sinking.swap {heap : PriorityHeap} {p c : Nat} (sinking : heap.Sinking p)
    (inside : c < heap.size) (child : 0 < c ∧ (c - 1) / 2 = p)
    (greater : heap.rankAt p ≤ heap.rankAt c)
    (greatest : ∀ i, 0 < i → (i - 1) / 2 = p → heap.rankAt i ≤ heap.rankAt c) :
    (heap.swap p c).Sinking c := by
  have moved := rankAt_swap heap (show p < heap.size by omega) inside
  have at_parent := moved p
  have at_child := moved c
  rw [Equiv.swap_apply_left] at at_parent
  rw [Equiv.swap_apply_right] at at_child
  have elsewhere : ∀ i, i ≠ p → i ≠ c → (heap.swap p c).rankAt i = heap.rankAt i := by
    intro i ne_parent ne_child
    rw [moved, Equiv.swap_apply_of_ne_of_ne ne_parent ne_child]
  constructor
  · intro i i_pos other
    by_cases here : i = p
    · subst here
      rw [at_parent, elsewhere _ (by omega) (by omega)]
      exact sinking.below i_pos c child.1 child.2
    · by_cases there : i = c
      · subst there
        rw [at_child, child.2, at_parent]
        exact greater
      · rw [elsewhere i here there]
        by_cases sibling : (i - 1) / 2 = p
        · rw [sibling, at_parent]
          exact greatest i i_pos sibling
        · rw [elsewhere _ sibling other]
          exact sinking.others i i_pos sibling
  · intro _ i i_pos of_child
    rw [child.2, at_parent, elsewhere i (by omega) (by omega)]
    have before := sinking.others i i_pos (by omega)
    rwa [of_child] at before

theorem Sinking.siftDown {heap : PriorityHeap} {position : Nat} (sinking : heap.Sinking position)
    (numeric : heap.Numeric) : (heap.siftDown position).Ordered := by
  fun_induction PriorityHeap.siftDown heap position with
  | case1 heap position child sunk ih =>
      obtain ⟨lower, child_inside⟩ := sunk
      obtain ⟨_, place, greater, greatest⟩ :=
        numeric.greatestOfThree (Nat.lt_trans lower child_inside)
      have of_position : 0 < child ∧ (child - 1) / 2 = position := by
        refine ⟨Nat.lt_of_le_of_lt (Nat.zero_le _) lower, place.resolve_left ?_⟩
        exact Nat.ne_of_gt lower
      apply ih
      · exact sinking.swap child_inside of_position greater greatest
      · exact numeric.of_perm (swap_perm ..)
  | case2 heap position child stopped =>
      intro i i_pos
      by_cases of_position : (i - 1) / 2 = position
      · by_cases inside : i < heap.size
        · have position_inside : position < heap.size := by omega
          obtain ⟨child_inside, place, _, greatest⟩ := numeric.greatestOfThree position_inside
          have same : heap.greatestOfThree position = position := by
            rcases place with same | of_child
            · exact same
            · have not_lower : ¬ position < heap.greatestOfThree position := fun lower =>
                stopped ⟨lower, child_inside⟩
              omega
          rw [of_position]
          have le := greatest i i_pos of_position
          rwa [same] at le
        · rw [rankAt_of_le _ (Nat.not_lt.1 inside)]
          exact bot_le
      · exact sinking.others i i_pos of_position

/-! ### Both ways -/

/-- Sifted up and then down, an entry comes to its place. -/
theorem Disturbed.sift {heap : PriorityHeap} {position : Nat} (disturbed : heap.Disturbed position)
    (numeric : heap.Numeric) (inside : position < heap.size) :
    ((heap.siftUp position).1.siftDown (heap.siftUp position).2).Ordered := by
  by_cases risen : 0 < position ∧ heap.isAbove position ((position - 1) / 2) = true
  case pos =>
    -- The entry only rises: what it leaves behind is in order.
    obtain ⟨positive, above⟩ := risen
    have parent_inside : (position - 1) / 2 < heap.size := by omega
    have rising := disturbed.swap positive inside ((numeric.isAbove_iff parent_inside).1 above)
    have numeric_swap := numeric.of_perm (swap_perm heap position ((position - 1) / 2))
    rw [PriorityHeap.siftUp, if_pos ⟨positive, above⟩]
    have ordered := rising.siftUp numeric_swap (by rwa [size, size_entries_swap])
    exact (ordered.sinking _).siftDown (numeric_swap.of_perm (siftUp_perm ..))
  case neg =>
    rw [PriorityHeap.siftUp, if_neg risen]
    refine Sinking.siftDown ⟨fun i positive other => ?_, disturbed.below⟩ numeric
    by_cases here : i = position
    · subst here
      have not_above : ¬ heap.isAbove i ((i - 1) / 2) = true := fun above =>
        risen ⟨positive, above⟩
      rw [numeric.isAbove_iff (by omega)] at not_above
      exact not_lt.1 not_above
    · exact disturbed.others i positive here other

/-! ### Putting in and taking out -/

/-- A heap that a payload comes into stays ordered. -/
theorem Ordered.insert_of_absent {heap : PriorityHeap} (ordered : heap.Ordered)
    (numeric : heap.Numeric) (located : heap.Located) {priority : Binary64}
    (number : priority.isNaN = false) {payload : Nat} (absent : payload ∉ heap.payloads) :
    (heap.insert priority payload).Ordered := by
  rw [located.insert_eq priority absent]
  have size_append : (heap.append priority payload).size = heap.size + 1 := by
    simp [append, size]
  have before : ∀ i, i < heap.size →
      (heap.append priority payload).rankAt i = heap.rankAt i := by
    intro i inside
    rw [rankAt, append, Array.getElem?_push, ← size, if_neg (Nat.ne_of_lt inside),
      rankAt]
  apply Rising.siftUp
  · constructor
    · intro i i_pos other
      by_cases inside : i < heap.size
      · rw [before i inside, before _ (by omega)]
        exact ordered i i_pos
      · rw [rankAt_of_le i (by omega)]
        exact bot_le
    · intro _ i i_pos of_last
      rw [rankAt_of_le i (by omega)]
      exact bot_le
  · intro e mem
    rw [toList, append, Array.toList_push, List.mem_append] at mem
    rcases mem with old | new
    · exact numeric e old
    · rw [List.mem_singleton.1 new]
      exact number
  · omega

theorem Numeric.insert_of_absent {heap : PriorityHeap} (numeric : heap.Numeric)
    (located : heap.Located) {priority : Binary64} (number : priority.isNaN = false) {payload : Nat}
    (absent : payload ∉ heap.payloads) : (heap.insert priority payload).Numeric := by
  intro e mem
  rcases List.mem_cons.1 ((located.insert_of_absent priority absent).2.mem_iff.1 mem) with
    rfl | old
  · exact number
  · exact numeric e old

/-- What goes is the greatest entry, and what stays is ordered. -/
theorem Ordered.pop? {heap rest : PriorityHeap} {top : Entry} (ordered : heap.Ordered)
    (numeric : heap.Numeric) (popped : heap.pop? = some (top, rest)) :
    rest.Ordered ∧ ∀ e ∈ heap.toList, e.rank ≤ top.rank := by
  obtain ⟨first, rfl⟩ := pop?_eq_some popped
  have inside : 0 < heap.size := (Array.getElem?_eq_some_iff.1 first).1
  constructor
  · have size_shorten : ((heap.swap 0 (heap.size - 1)).shorten top).size = heap.size - 1 := by
      rw [size, shorten, Array.size_pop, size_entries_swap, size]
    have others : ∀ i, 0 < i → i < heap.size - 1 →
        ((heap.swap 0 (heap.size - 1)).shorten top).rankAt i = heap.rankAt i := by
      intro i i_pos before
      have unmoved := rankAt_swap heap inside (show heap.size - 1 < heap.size by omega) i
      rw [Equiv.swap_apply_of_ne_of_ne (Nat.ne_of_gt i_pos) (Nat.ne_of_lt before)] at unmoved
      rw [← unmoved, rankAt, shorten, Array.getElem?_pop, size_entries_swap,
        if_pos (by rw [← size]; exact before), rankAt]
    apply Sinking.siftDown
    · constructor
      · intro i i_pos other
        by_cases before : i < heap.size - 1
        · rw [others i i_pos before, others _ (by omega) (by omega)]
          exact ordered i i_pos
        · rw [rankAt_of_le i (by omega)]
          exact bot_le
      · intro absurd
        exact (Nat.lt_irrefl 0 absurd).elim
    · intro e mem
      rw [toList, shorten, Array.toList_pop] at mem
      exact numeric e ((swap_perm ..).mem_iff.1 (List.dropLast_subset _ mem))
  · exact ordered.rank_le_first first

end Vicinity.PriorityHeap
