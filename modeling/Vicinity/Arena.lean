/-!
Vectors laid end to end.

An arena holds vectors of one length `dim` in slots without gaps: slot `i` is the part of the array
from `i * dim` up to the next slot. A vector is stored behind the others, copied into another slot,
or cut off at the end together with those behind it.
-/

namespace Vicinity.Arena

variable {α : Type}

/-- The components in a slot, as far as the arena goes. -/
def read (dim : Nat) (components : Array α) (slot : Nat) : List α :=
  (components.extract (slot * dim) (slot * dim + dim)).toList

/-- The vector in a slot that the arena goes to the end of. -/
def read? (dim : Nat) (components : Array α) (slot : Nat) : Option (List α) :=
  if slot * dim + dim ≤ components.size then some (read dim components slot) else none

/-- The vectors of all slots. Where vectors have no components one stands for all. -/
def vectors (dim : Nat) (components : Array α) : List (List α) :=
  (List.range (components.size + 1)).filterMap (read? dim components)

theorem mem_vectors {dim slot : Nat} {components : Array α} {vector : List α}
    (stored : read? dim components slot = some vector) : vector ∈ vectors dim components := by
  refine List.mem_filterMap.2 ?_
  rw [read?, Option.ite_none_right_eq_some] at stored
  obtain ⟨fits, here⟩ := stored
  rcases Nat.eq_zero_or_pos dim with none | some
  · subst none
    refine ⟨0, List.mem_range.2 (Nat.succ_pos _), ?_⟩
    rw [read?, if_pos (by omega), ← here]
    simp [read]
  · have within : slot ≤ slot * dim := Nat.le_mul_of_pos_right slot some
    refine ⟨slot, List.mem_range.2 (by omega), ?_⟩
    rw [read?, if_pos fits, here]

/-- Store a vector behind the others. -/
def extend (components : Array α) (vector : List α) : Array α := components ++ vector.toArray

/-- Write the vector of one slot over that of another. -/
def copy (dim source target : Nat) (components : Array α) : Array α :=
  components.mapIdx fun place x =>
    if target * dim ≤ place ∧ place < target * dim + dim then
      components[source * dim + (place - target * dim)]?.getD x
    else x

/-- Keep the vectors of the first slots only. -/
def truncate (dim slots : Nat) (components : Array α) : Array α :=
  components.take (slots * dim)

end Vicinity.Arena
