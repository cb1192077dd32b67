import Mathlib.Data.List.Sort

/-!
The least items of a list.

`Leading key k items front` says that `front` lists `k` of the items in ascending order of their
keys, or all of them if there are fewer, and that no other item comes before one of these. Items
with one key may be taken in either order, but the keys are determined (`Leading.map_key_eq`), and
so are the items when their keys are distinct (`Leading.eq_of_injOn`). The least items of two lists
together are found among those of each (`Leading.merge`).
-/

namespace Vicinity

variable {β : Type}

/-- The first `k` items by their keys, or all of them. -/
structure Leading (key : β → Nat) (k : Nat) (items front : List β) : Prop where
  ordered : front.Pairwise fun a b => key a ≤ key b
  split : ∃ rest, (front ++ rest).Perm items ∧ ∀ a ∈ front, ∀ b ∈ rest, key a ≤ key b
  length_eq : front.length = min k items.length

namespace Leading

variable {key : β → Nat} {k : Nat} {items front other : List β}

theorem of_sorted {sorted : List β} (ordered : sorted.Pairwise fun a b => key a ≤ key b)
    (same : sorted.Perm items) (k : Nat) : Leading key k items (sorted.take k) := by
  have split := List.take_append_drop k sorted
  refine ⟨ordered.sublist (List.take_sublist k sorted), ⟨sorted.drop k, ?_, ?_⟩, ?_⟩
  · rwa [split]
  · rw [← split, List.pairwise_append] at ordered
    exact ordered.2.2
  · rw [List.length_take, same.length_eq]

theorem zero (items : List β) : Leading key 0 items [] :=
  ⟨.nil, ⟨items, .refl _, nofun⟩, (Nat.zero_min _).symm⟩

theorem nil (k : Nat) : Leading key k [] [] := ⟨.nil, ⟨[], .refl _, nofun⟩, (Nat.min_zero k).symm⟩

theorem perm (leading : Leading key k items front) {items' : List β} (same : items.Perm items') :
    Leading key k items' front := by
  obtain ⟨rest, all, beyond⟩ := leading.split
  exact ⟨leading.ordered, ⟨rest, all.trans same, beyond⟩, same.length_eq ▸ leading.length_eq⟩

theorem mem (leading : Leading key k items front) {item : β} (here : item ∈ front) :
    item ∈ items := by
  obtain ⟨rest, all, _⟩ := leading.split
  exact all.mem_iff.1 (List.mem_append_left rest here)

theorem nodup_map (leading : Leading key k items front) {γ : Type} {f : β → γ}
    (nodup : (items.map f).Nodup) : (front.map f).Nodup := by
  obtain ⟨rest, all, _⟩ := leading.split
  have nodup := (all.map f).nodup_iff.2 nodup
  rw [List.map_append] at nodup
  exact (List.nodup_append.1 nodup).1

/-- The first of the first are the first. -/
theorem take (leading : Leading key k items front) {j : Nat} (le : j ≤ k) :
    Leading key j items (front.take j) := by
  obtain ⟨rest, all, beyond⟩ := leading.split
  have split := List.take_append_drop j front
  have ordered := leading.ordered
  rw [← split, List.pairwise_append] at ordered
  refine ⟨ordered.1, ⟨front.drop j ++ rest, ?_, fun a here b later => ?_⟩, ?_⟩
  · rwa [← List.append_assoc, split]
  · rcases List.mem_append.1 later with in_front | outside
    · exact ordered.2.2 a here b in_front
    · exact beyond a (List.mem_of_mem_take here) b outside
  · rw [List.length_take, leading.length_eq]
    omega

/-! ### Determined by the items -/

/-- The keys of the first items begin the sorted list of all keys. -/
theorem exists_sorted (leading : Leading key k items front) :
    ∃ later, (front.map key ++ later).Pairwise (· ≤ ·) ∧
      (front.map key ++ later).Perm (items.map key) := by
  obtain ⟨rest, all, beyond⟩ := leading.split
  have sorted := List.perm_insertionSort (· ≤ ·) (rest.map key)
  refine ⟨(rest.map key).insertionSort (· ≤ ·), ?_, ?_⟩
  · refine List.pairwise_append.2 ⟨List.pairwise_map.2 leading.ordered,
      List.pairwise_insertionSort _ _, fun x in_front y later => ?_⟩
    obtain ⟨a, here, rfl⟩ := List.mem_map.1 in_front
    obtain ⟨b, there, rfl⟩ := List.mem_map.1 (sorted.mem_iff.1 later)
    exact beyond a here b there
  · have keys := all.map key
    rw [List.map_append] at keys
    exact (sorted.append_left _).trans keys

theorem map_key_eq (first : Leading key k items front) (second : Leading key k items other) :
    front.map key = other.map key := by
  obtain ⟨later, sorted, all⟩ := first.exists_sorted
  obtain ⟨later', sorted', all'⟩ := second.exists_sorted
  have same : front.map key ++ later = other.map key ++ later' :=
    (all.trans all'.symm).eq_of_pairwise (fun _ _ _ _ => Nat.le_antisymm) sorted sorted'
  refine (List.append_inj same ?_).1
  rw [List.length_map, List.length_map, first.length_eq, second.length_eq]

/-- Lists with the same keys are equal when the key tells their items apart. -/
theorem eq_of_map_eq {as bs : List β} (same : as.map key = bs.map key)
    (inj : ∀ a ∈ as, ∀ b ∈ bs, key a = key b → a = b) : as = bs := by
  induction as generalizing bs with
  | nil => exact (List.map_eq_nil_iff.1 same.symm).symm
  | cons a as ih =>
      cases bs with
      | nil => cases same
      | cons b bs =>
          rw [List.map_cons, List.map_cons, List.cons.injEq] at same
          have first := inj a List.mem_cons_self b List.mem_cons_self same.1
          have rest := ih same.2 fun x in_as y in_bs =>
            inj x (List.mem_cons_of_mem _ in_as) y (List.mem_cons_of_mem _ in_bs)
          rw [first, rest]

theorem eq_of_injOn (first : Leading key k items front) (second : Leading key k items other)
    (inj : ∀ a ∈ items, ∀ b ∈ items, key a = key b → a = b) : front = other :=
  eq_of_map_eq (first.map_key_eq second) fun a here b there =>
    inj a (first.mem here) b (second.mem there)

/-! ### Two lists together -/

/-- An item that stayed behind in its list has no key below that of an item among the first `k` of
both: all `k` items in front of it would have to be there as well. -/
theorem key_le_of_rest {as sorted bs : List β} {x y : β} (full : as.length = k)
    (before : ∀ a ∈ as, key a ≤ key y) (same : sorted.Perm (as ++ bs))
    (ordered : sorted.Pairwise fun a b => key a ≤ key b) (here : x ∈ sorted.take k) :
    key x ≤ key y := by
  by_contra less
  have less : key y < key x := Nat.not_le.1 less
  -- Items with a smaller key than `x`.
  let smaller : β → Bool := fun a => key a < key x
  have many : k ≤ sorted.countP smaller := by
    have all : as.countP smaller = as.length := List.countP_eq_length.2 fun a mem => by
      exact decide_eq_true (Nat.lt_of_le_of_lt (before a mem) less)
    rw [same.countP_eq, List.countP_append, all, full]
    exact Nat.le_add_right ..
  have few : (sorted.take k).countP smaller < k := by
    have lt : (sorted.take k).countP smaller < (sorted.take k).length := by
      refine Nat.lt_of_le_of_ne List.countP_le_length fun all => ?_
      have := List.countP_eq_length.1 all x here
      exact absurd (of_decide_eq_true this) (Nat.lt_irrefl _)
    exact Nat.lt_of_lt_of_le lt (List.length_take_le k sorted)
  have none : (sorted.drop k).countP smaller = 0 := by
    rw [← List.take_append_drop k sorted, List.pairwise_append] at ordered
    refine List.countP_eq_zero.2 fun b later => ?_
    exact fun below => Nat.not_lt.2 (ordered.2.2 x here b later) (of_decide_eq_true below)
  rw [← List.take_append_drop k sorted, List.countP_append, none] at many
  omega

theorem merge {as bs items_a items_b sorted : List β} (first : Leading key k items_a as)
    (second : Leading key k items_b bs) (same : sorted.Perm (as ++ bs))
    (ordered : sorted.Pairwise fun a b => key a ≤ key b) :
    Leading key k (items_a ++ items_b) (sorted.take k) := by
  obtain ⟨rest_a, all_a, beyond_a⟩ := first.split
  obtain ⟨rest_b, all_b, beyond_b⟩ := second.split
  have split := List.take_append_drop k sorted
  have sizes_a : as.length + rest_a.length = items_a.length := by
    simpa using all_a.length_eq
  have sizes_b : bs.length + rest_b.length = items_b.length := by
    simpa using all_b.length_eq
  have length_a := first.length_eq
  have length_b := second.length_eq
  refine ⟨ordered.sublist (List.take_sublist k sorted),
    ⟨sorted.drop k ++ (rest_a ++ rest_b), ?_, fun x here y later => ?_⟩, ?_⟩
  · have grouped : (as ++ bs ++ (rest_a ++ rest_b)).Perm (as ++ rest_a ++ (bs ++ rest_b)) := by
      rw [List.append_assoc, List.append_assoc]
      apply List.Perm.append_left
      rw [← List.append_assoc, ← List.append_assoc]
      exact List.perm_append_comm.append_right _
    rw [← List.append_assoc, split]
    exact (same.append_right _).trans (grouped.trans (all_a.append all_b))
  · rcases List.mem_append.1 later with in_sorted | outside
    · rw [← split, List.pairwise_append] at ordered
      exact ordered.2.2 x here y in_sorted
    · rcases List.mem_append.1 outside with left | right
      · have positive := List.length_pos_of_mem left
        exact key_le_of_rest (by omega) (fun a mem => beyond_a a mem y left) same ordered here
      · have positive := List.length_pos_of_mem right
        exact key_le_of_rest (by omega) (fun b mem => beyond_b b mem y right)
          (same.trans List.perm_append_comm) ordered here
  · rw [List.length_take, same.length_eq, List.length_append, List.length_append, length_a,
      length_b]
    omega

end Leading

end Vicinity
