import Vicinity.Arena

/-!
What the slots of an arena hold.

Everything is said slot by slot: `read_extend`, `read_copy` and `read_truncate` tell what a slot
holds after a change, and the sizes tell which slots there are. Two slots have no component in
common (`place_inj`), so a vector that is written over another one leaves the rest alone. The last
one takes the place of another in the arena (`read_truncate_copy`) as an item of an array does
(`getElem?_pop_swapIfInBounds`). As a whole an arena is its vectors one after the other
(`flatten_reads`).
-/

namespace Vicinity.Arena

variable {α : Type} {dim count slot : Nat} {components : Array α}

/-! ### Places -/

/-- A slot ends where the next one begins. -/
theorem place_le (dim : Nat) (lt : slot < count) : slot * dim + dim ≤ count * dim := by
  rw [← Nat.succ_mul]
  exact Nat.mul_le_mul_right dim lt

/-- A component stands in one slot. -/
theorem place_inj {a b i j : Nat} (lt_i : i < dim) (lt_j : j < dim)
    (same : a * dim + i = b * dim + j) : a = b := by
  rcases Nat.lt_trichotomy a b with before | eq | after
  · have := place_le dim before
    omega
  · exact eq
  · have := place_le dim after
    omega

/-! ### One slot -/

theorem getElem?_read (dim : Nat) (components : Array α) (slot i : Nat) :
    (read dim components slot)[i]? = if i < dim then components[slot * dim + i]? else none := by
  rw [read, Array.getElem?_toList, Array.getElem?_extract]
  by_cases inside : i < dim
  · rw [if_pos inside, ite_eq_left_iff]
    intro beyond
    rw [Array.getElem?_eq_none (by omega)]
  · rw [if_neg inside, if_neg (by omega)]

/-- Slots with the same components hold the same. -/
theorem read_congr {others : Array α} {slot' : Nat}
    (same : ∀ i < dim, components[slot * dim + i]? = others[slot' * dim + i]?) :
    read dim components slot = read dim others slot' := by
  refine List.ext_getElem? fun i => ?_
  rw [getElem?_read, getElem?_read]
  split
  case isTrue inside => exact same i inside
  case isFalse => rfl

theorem length_read (fits : slot * dim + dim ≤ components.size) :
    (read dim components slot).length = dim := by
  rw [read, Array.length_toList, Array.size_extract]
  omega

theorem read?_eq_some_iff {vector : List α} :
    read? dim components slot = some vector ↔
      slot * dim + dim ≤ components.size ∧ read dim components slot = vector := by
  rw [read?, Option.ite_none_right_eq_some, Option.some.injEq]

/-- What is read has the length of the vectors. -/
theorem length_of_read? {vector : List α} (stored : read? dim components slot = some vector) :
    vector.length = dim := by
  obtain ⟨fits, rfl⟩ := read?_eq_some_iff.1 stored
  exact length_read fits

/-- Every slot up to the end holds a vector. -/
theorem read?_of_lt (size : components.size = count * dim) (lt : slot < count) :
    read? dim components slot = some (read dim components slot) :=
  read?_eq_some_iff.2 ⟨size ▸ place_le dim lt, rfl⟩

/-- No other slot does, unless vectors have no components. -/
theorem read?_of_le (size : components.size = count * dim) (positive : 0 < dim)
    (le : count ≤ slot) : read? dim components slot = none := by
  have := Nat.mul_le_mul_right dim le
  rw [read?, if_neg (by omega)]

/-! ### Changes -/

theorem size_extend (vector : List α) :
    (extend components vector).size = components.size + vector.length := by
  simp [extend]

/-- The new vector stands in the next slot. -/
theorem read_extend {vector : List α} (size : components.size = count * dim)
    (length : vector.length = dim) :
    read dim (extend components vector) count = vector := by
  refine List.ext_getElem? fun i => ?_
  rw [getElem?_read, extend, Array.getElem?_append_right (by omega), size, Nat.add_sub_cancel_left,
    List.getElem?_toArray]
  split
  case isTrue => rfl
  case isFalse beyond => rw [List.getElem?_eq_none (by omega)]

theorem read_extend_of_lt {vector : List α} (size : components.size = count * dim)
    (lt : slot < count) :
    read dim (extend components vector) slot = read dim components slot := by
  refine read_congr fun i inside => ?_
  have := place_le dim lt
  rw [extend, Array.getElem?_append_left (by omega)]

theorem read?_extend_of_lt {vector : List α} (size : components.size = count * dim)
    (lt : slot < count) :
    read? dim (extend components vector) slot = read? dim components slot := by
  have := place_le dim lt
  rw [read?_of_lt size lt, read?, if_pos (by rw [size_extend]; omega), read_extend_of_lt size lt]

/-- The other slots hold what they held, and those behind the new one still nothing. -/
theorem read?_extend {vector : List α} (size : components.size = count * dim)
    (length : vector.length = dim) (slot : Nat) :
    read? dim (extend components vector) slot =
      if slot = count then some vector else read? dim components slot := by
  have extended : (extend components vector).size = (count + 1) * dim := by
    rw [size_extend, size, length, Nat.succ_mul]
  split
  case isTrue last =>
    rw [last, read?_of_lt extended (Nat.lt_succ_self count), read_extend size length]
  case isFalse other =>
    rcases Nat.lt_or_gt_of_ne other with older | beyond
    · exact read?_extend_of_lt size older
    · rcases Nat.eq_zero_or_pos dim with none | positive
      · subst none
        simp [read?, read]
      · rw [read?_of_le extended positive beyond,
          read?_of_le size positive (Nat.le_of_lt beyond)]

@[simp] theorem size_copy (dim source target : Nat) (components : Array α) :
    (copy dim source target components).size = components.size := by
  simp [copy]

/-- A vector that is copied stands in both slots. -/
theorem read_copy {source target : Nat} (size : components.size = count * dim)
    (lt_source : source < count) (lt_target : target < count) :
    read dim (copy dim source target components) target = read dim components source := by
  refine read_congr fun i inside => ?_
  have from_source := place_le dim lt_source
  have to_target := place_le dim lt_target
  have there : source * dim + i < components.size := by omega
  have here : target * dim + i < components.size := by omega
  have within : target * dim ≤ target * dim + i ∧ target * dim + i < target * dim + dim := by omega
  rw [copy, Array.getElem?_mapIdx, Array.getElem?_eq_getElem here, Option.map_some, if_pos within,
    Nat.add_sub_cancel_left, Array.getElem?_eq_getElem there, Option.getD_some]

/-- The other slots hold what they held. -/
theorem read_copy_of_ne {target : Nat} (source : Nat) (components : Array α)
    (other : slot ≠ target) :
    read dim (copy dim source target components) slot = read dim components slot := by
  refine read_congr fun i inside => ?_
  have outside : ¬(target * dim ≤ slot * dim + i ∧ slot * dim + i < target * dim + dim) := by
    rintro ⟨above, below⟩
    refine other (place_inj inside (j := slot * dim + i - target * dim) ?_ ?_) <;> omega
  rw [copy, Array.getElem?_mapIdx]
  simp only [if_neg outside, Option.map_id']

theorem size_truncate {slots : Nat} (size : components.size = count * dim) (le : slots ≤ count) :
    (truncate dim slots components).size = slots * dim := by
  have := Nat.mul_le_mul_right dim le
  rw [truncate, Array.take_eq_extract, Array.size_extract]
  omega

/-- The first slots stay what they are. -/
theorem read_truncate {slots : Nat} (lt : slot < slots) :
    read dim (truncate dim slots components) slot = read dim components slot := by
  refine read_congr fun i inside => ?_
  have := place_le dim lt
  rw [truncate, Array.take_eq_extract, Array.getElem?_extract, Nat.zero_add, ite_eq_left_iff]
  intro beyond
  rw [Array.getElem?_eq_none (by omega)]

theorem read?_truncate {slots : Nat} (size : components.size = count * dim) (le : slots ≤ count)
    (lt : slot < slots) :
    read? dim (truncate dim slots components) slot = read? dim components slot := by
  rw [read?_of_lt (size_truncate size le) lt, read?_of_lt size (Nat.lt_of_lt_of_le lt le),
    read_truncate lt]

/-! ### The whole arena -/

/-- An arena is its vectors one after the other. -/
theorem flatten_reads (size : components.size = count * dim) :
    ((List.range count).map (read dim components)).flatten = components.toList := by
  have front : ∀ slots ≤ count, ((List.range slots).map (read dim components)).flatten =
      components.toList.take (slots * dim) := by
    intro slots le
    induction slots with
    | zero => simp
    | succ slots ih =>
        have fits := place_le dim le
        rw [List.range_succ, List.map_append, List.flatten_append, ih (Nat.le_of_lt le),
          List.map_singleton, List.flatten_singleton, read, Array.toList_extract,
          List.extract_eq_take_drop, Nat.succ_mul, List.take_add, Nat.add_sub_cancel_left]
  rw [front count (Nat.le_refl _), ← size, ← Array.length_toList, List.take_length]

/-! ### A last slot that takes the place of another -/

/-- The last item of an array, exchanged with another one and cut off, has taken the place of that
other one. -/
theorem getElem?_pop_swapIfInBounds {β : Type} {items : Array β} {i j : Nat} (lt : i < items.size)
    (before : j < items.size - 1) :
    (items.swapIfInBounds i (items.size - 1)).pop[j]? =
      items[if j = i then items.size - 1 else j]? := by
  have last : items.size - 1 < items.size := by omega
  rw [Array.getElem?_pop, Array.size_swapIfInBounds, if_pos before, Array.swapIfInBounds_def,
    dif_pos lt, dif_pos last, Array.getElem?_swap, if_neg (Nat.ne_of_gt before)]
  split
  case isTrue here => rw [if_pos here.symm, Array.getElem?_eq_getElem last]
  case isFalse other => rw [if_neg (Ne.symm other)]

/-- One item less counts when the last one does. -/
theorem countP_pop {β : Type} {p : β → Bool} {items : Array β} {last : β}
    (here : items[items.size - 1]? = some last) (counts : p last = true) :
    items.pop.countP p + 1 = items.countP p := by
  have split : items.pop.push last = items := by
    have positive := (Array.getElem?_eq_some_iff.1 here).1
    refine Array.ext_getElem? fun j => ?_
    rw [Array.getElem?_push, Array.getElem?_pop, Array.size_pop]
    split
    case isTrue at_end => rw [at_end, here]
    case isFalse other =>
      split
      · rfl
      · rw [Array.getElem?_eq_none (by omega)]
  have counted : (items.pop.push last).countP p = items.pop.countP p + 1 :=
    Array.countP_push_of_pos counts
  rw [← counted, split]

theorem countP_pop_swapIfInBounds {β : Type} {p : β → Bool} {items : Array β} {i : Nat} {item : β}
    (here : items[i]? = some item) (counts : p item = true) :
    (items.swapIfInBounds i (items.size - 1)).pop.countP p + 1 = items.countP p := by
  obtain ⟨lt, rfl⟩ := Array.getElem?_eq_some_iff.1 here
  have last : items.size - 1 < items.size := by omega
  have swapped : items.swapIfInBounds i (items.size - 1) = items.swap i (items.size - 1) := by
    rw [Array.swapIfInBounds_def, dif_pos lt, dif_pos last]
  have at_end : (items.swap i (items.size - 1))[(items.swap i (items.size - 1)).size - 1]? =
      some items[i] := by
    rw [Array.size_swap, Array.getElem?_swap, if_pos rfl]
  have perm := (Array.swap_perm lt last).toList.countP_eq p
  rw [Array.countP_toList, Array.countP_toList] at perm
  rw [swapped, countP_pop at_end counts, perm]

/-- The same in an arena. -/
theorem read_truncate_copy {place last : Nat} (size : components.size = (last + 1) * dim)
    (le : place ≤ last) {j : Nat} (before : j < last) :
    read dim (truncate dim last (copy dim last place components)) j =
      read dim components (if j = place then last else j) := by
  rw [read_truncate before]
  split
  case isTrue here =>
    rw [here, read_copy size (Nat.lt_succ_self last) (Nat.lt_succ_of_le le)]
  case isFalse other => exact read_copy_of_ne last components other

theorem read?_truncate_copy {place last : Nat} (size : components.size = (last + 1) * dim)
    (le : place ≤ last) {j : Nat} (before : j < last) :
    read? dim (truncate dim last (copy dim last place components)) j =
      read? dim components (if j = place then last else j) := by
  have cut : (truncate dim last (copy dim last place components)).size = last * dim :=
    size_truncate (by rw [size_copy, size]) (Nat.le_succ last)
  have inside : (if j = place then last else j) < last + 1 := by
    split <;> omega
  rw [read?_of_lt cut before, read?_of_lt size inside, read_truncate_copy size le before]

end Vicinity.Arena
