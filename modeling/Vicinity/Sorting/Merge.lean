import Vicinity.Sorting

/-!
Merging two lists by a strict order given as a test.

Where neither of two elements precedes the other, the one from the left list comes first. For lists
in order it makes no difference from which end a merge starts; under a test that is no order it
does, so `mergeBack` and `mergeEnds` are procedures of their own. Each only rearranges.
-/

namespace Vicinity.Sorting

variable {α : Type}

/-- Merge from the front. -/
def merge (precedes : α → α → Bool) (xs ys : List α) : List α :=
  xs.merge ys fun x y => !precedes y x

/-- Merge from the back. -/
def mergeBack (precedes : α → α → Bool) (xs ys : List α) : List α :=
  (ys.reverse.merge xs.reverse fun y x => !precedes y x).reverse

/-- Merge from the end of the shorter list. -/
def mergeShorter (precedes : α → α → Bool) (xs ys : List α) : List α :=
  if xs.length ≤ ys.length then merge precedes xs ys else mergeBack precedes xs ys

/-! ### Both ends -/

/-- The first elements of a merge, as long as both lists last, and what they leave of the two;
`stays x y` keeps `x` in front of `y`. -/
def draw (stays : α → α → Bool) : (count : Nat) → List α → List α → List α × List α × List α
  | count + 1, x :: xs, y :: ys =>
    if stays x y then
      let (drawn, rest) := draw stays count xs (y :: ys)
      (x :: drawn, rest)
    else
      let (drawn, rest) := draw stays count (x :: xs) ys
      (y :: drawn, rest)
  | _, xs, ys => ([], xs, ys)

/-- The two ends of a merge draw half of the elements each and none of them twice: what either has
left of a list makes up for what the other has drawn of it. -/
def EndsMeet (precedes : α → α → Bool) (xs ys : List α) : Prop :=
  let half := (xs.length + ys.length) / 2
  let (xsFront, ysFront) := (draw (fun x y => !precedes y x) half xs ys).2
  let (ysBack, xsBack) := (draw (fun y x => !precedes y x) half ys.reverse xs.reverse).2
  xs.length ≤ xsFront.length + xsBack.length ∧ ys.length ≤ ysFront.length + ysBack.length

instance (precedes : α → α → Bool) (xs ys : List α) : Decidable (EndsMeet precedes xs ys) :=
  inferInstanceAs (Decidable (_ ∧ _))

/-- Merge from both ends at once, half of the elements from either. Under a test that is no order
the ends may draw the same element, and the sort that this follows gives up without a result. Here a
merge from the front stands in, so that a sort always has one. Hits that have one order in any case
never get there (`Reply.Settled.endsMeet_sortBlock`). -/
def mergeEnds (precedes : α → α → Bool) (xs ys : List α) : List α :=
  let half := (xs.length + ys.length) / 2
  let (front, xsFront, ysFront) := draw (fun x y => !precedes y x) half xs ys
  let (back, ysBack, xsBack) := draw (fun y x => !precedes y x) half ys.reverse xs.reverse
  if EndsMeet precedes xs ys then
    front ++ xsFront.take (xsFront.length + xsBack.length - xs.length) ++
      ysFront.take (ysFront.length + ysBack.length - ys.length) ++ back.reverse
  else merge precedes xs ys

/-! ### Nothing is lost -/

theorem merge_perm (precedes : α → α → Bool) (xs ys : List α) :
    (merge precedes xs ys).Perm (xs ++ ys) :=
  List.merge_perm_append _

theorem mergeBack_perm (precedes : α → α → Bool) (xs ys : List α) :
    (mergeBack precedes xs ys).Perm (xs ++ ys) := by
  refine (List.reverse_perm _).trans ((List.merge_perm_append _).trans ?_)
  rw [← List.reverse_append]
  exact List.reverse_perm _

theorem mergeShorter_perm (precedes : α → α → Bool) (xs ys : List α) :
    (mergeShorter precedes xs ys).Perm (xs ++ ys) := by
  unfold mergeShorter
  split
  · exact merge_perm precedes xs ys
  · exact mergeBack_perm precedes xs ys

/-- What is drawn comes from the fronts of the lists, and the rest of them is left. -/
theorem draw_spec (stays : α → α → Bool) (count : Nat) (xs ys : List α) :
    ∃ i j, i ≤ xs.length ∧ j ≤ ys.length ∧ (draw stays count xs ys).2.1 = xs.drop i ∧
      (draw stays count xs ys).2.2 = ys.drop j ∧
      (draw stays count xs ys).1.Perm (xs.take i ++ ys.take j) := by
  fun_induction draw stays count xs ys with
  | case1 count x xs y ys _ drawn rest drawn_eq ih =>
    rw [drawn_eq] at ih
    obtain ⟨i, j, hi, hj, left, right, front⟩ := ih
    exact ⟨i + 1, j, Nat.succ_le_succ hi, hj, left, right, front.cons x⟩
  | case2 count x xs y ys _ drawn rest drawn_eq ih =>
    rw [drawn_eq] at ih
    obtain ⟨i, j, hi, hj, left, right, front⟩ := ih
    exact ⟨i, j + 1, hi, Nat.succ_le_succ hj, left, right,
      (front.cons y).trans List.perm_middle.symm⟩
  | case3 => exact ⟨0, 0, Nat.zero_le _, Nat.zero_le _, rfl, rfl, .refl _⟩

/-- A list is its front, its back and what lies between. -/
theorem take_middle_drop (xs : List α) {i k : Nat} (h : i ≤ k) :
    xs.take i ++ ((xs.drop i).take (k - i) ++ xs.drop k) = xs := by
  have : xs.drop k = (xs.drop i).drop (k - i) := by rw [List.drop_drop]; congr 1; omega
  rw [this, List.take_append_drop, List.take_append_drop]

theorem mergeEnds_perm (precedes : α → α → Bool) (xs ys : List α) :
    (mergeEnds precedes xs ys).Perm (xs ++ ys) := by
  simp only [mergeEnds]
  split
  case isFalse => exact merge_perm precedes xs ys
  case isTrue h =>
    obtain ⟨i, j, hi, hj, hx, hy, front⟩ :=
      draw_spec (fun x y => !precedes y x) ((xs.length + ys.length) / 2) xs ys
    obtain ⟨j', i', hj', hi', hy', hx', back⟩ :=
      draw_spec (fun y x => !precedes y x) ((xs.length + ys.length) / 2) ys.reverse xs.reverse
    simp only [EndsMeet, hx, hy, hx', hy', List.length_drop, List.length_reverse] at h hi' hj' ⊢
    have backs := (List.reverse_perm _).trans back
    rw [List.take_reverse, List.take_reverse] at backs
    have ends := backs.trans
      (((List.reverse_perm _).append (List.reverse_perm _)).trans List.perm_append_comm)
    have xMiddle := take_middle_drop xs (i := i) (k := xs.length - i') (by omega)
    have yMiddle := take_middle_drop ys (i := j) (k := ys.length - j') (by omega)
    rw [show xs.length - i + (xs.length - i') - xs.length = xs.length - i' - i by omega,
      show ys.length - j + (ys.length - j') - ys.length = ys.length - j' - j by omega]
    classical
    rw [List.perm_iff_count] at front ends ⊢
    intro a
    have hx := congrArg (List.count a) xMiddle
    have hy := congrArg (List.count a) yMiddle
    have hf := front a
    have he := ends a
    simp only [List.count_append] at hx hy hf he ⊢
    omega

end Vicinity.Sorting
