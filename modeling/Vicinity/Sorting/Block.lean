import Vicinity.Sorting.Merge

/-!
Sorting a few elements with few comparisons.

The halves of a block start as groups of four or eight in order, grow by insertion and are merged
from both ends.
-/

namespace Vicinity.Sorting

variable {α : Type}

/-- Two elements in order. -/
def two (precedes : α → α → Bool) (a b : α) : α × α := if precedes b a then (b, a) else (a, b)

/-- Four elements in order, by five comparisons. -/
def four (precedes : α → α → Bool) (a b c d : α) : List α :=
  let (a, b) := two precedes a b
  let (c, d) := two precedes c d
  let (least, left, right, greatest) :=
    match precedes c a, precedes d b with
    | false, false => (a, b, c, d)
    | false, true => (a, c, d, b)
    | true, false => (c, a, b, d)
    | true, true => (c, a, d, b)
  let (left, right) := two precedes left right
  [least, left, right, greatest]

/-- Sort a group of one, four or eight elements. -/
def sortGroup (precedes : α → α → Bool) : List α → List α
  | [a, b, c, d] => four precedes a b c d
  | [a, b, c, d, e, f, g, h] => mergeEnds precedes (four precedes a b c d) (four precedes e f g h)
  | xs => xs

/-- The size of the groups in which the halves of a block start. -/
def groupSize (count : Nat) : Nat := if 16 ≤ count then 8 else if 8 ≤ count then 4 else 1

/-- Sort the half of a block: a group at its front, then the others one by one. -/
def sortHalf (precedes : α → α → Bool) (group : Nat) (xs : List α) : List α :=
  ((xs.drop group).foldl (fun sorted x => insertBack precedes x sorted)
    (sortGroup precedes (xs.take group)).reverse).reverse

/-- Sort a block. -/
def sortBlock (precedes : α → α → Bool) (xs : List α) : List α :=
  let group := groupSize xs.length
  let half := xs.length / 2
  mergeEnds precedes (sortHalf precedes group (xs.take half))
    (sortHalf precedes group (xs.drop half))

theorem two_perm (precedes : α → α → Bool) (a b : α) :
    [(two precedes a b).1, (two precedes a b).2].Perm [a, b] := by
  unfold two
  split
  · exact .swap a b []
  · exact .refl _

theorem four_perm (precedes : α → α → Bool) (a b c d : α) :
    (four precedes a b c d).Perm [a, b, c, d] := by
  refine .trans ?_ ((two_perm precedes a b).append (two_perm precedes c d))
  simp only [four]
  generalize two precedes a b = left
  generalize two precedes c d = right
  have middle (x y : α) {last : List α} := (two_perm precedes x y).append_right last
  have behind : [left.1, right.1, right.2, left.2].Perm [left.1, left.2, right.1, right.2] :=
    (List.perm_append_singleton left.2 [right.1, right.2]).cons left.1
  split
  · exact (middle ..).cons _
  · exact ((middle ..).cons _).trans behind
  · exact ((middle ..).cons _).trans
      (@List.perm_middle _ right.1 [left.1, left.2] [right.2]).symm
  · exact ((middle ..).cons _).trans ((List.Perm.swap ..).trans behind)

theorem sortGroup_perm (precedes : α → α → Bool) (xs : List α) :
    (sortGroup precedes xs).Perm xs := by
  unfold sortGroup
  split
  · exact four_perm ..
  · exact (mergeEnds_perm ..).trans ((four_perm ..).append (four_perm ..))
  · exact .refl _

theorem sortHalf_perm (precedes : α → α → Bool) (group : Nat) (xs : List α) :
    (sortHalf precedes group xs).Perm xs := by
  refine (List.reverse_perm _).trans ((foldl_insertBack_perm ..).trans ?_)
  have start := (List.reverse_perm _).trans (sortGroup_perm precedes (xs.take group))
  exact (start.append_left _).trans (List.perm_append_comm.trans (by rw [List.take_append_drop]))

/-- Sorting a block only rearranges it. -/
theorem sortBlock_perm (precedes : α → α → Bool) (xs : List α) :
    (sortBlock precedes xs).Perm xs := by
  refine (mergeEnds_perm ..).trans (((sortHalf_perm ..).append (sortHalf_perm ..)).trans ?_)
  rw [List.take_append_drop]

end Vicinity.Sorting
