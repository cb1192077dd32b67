/-!
Stable insertion sort by a strict order given as a test.

Each element is inserted from the back and stops behind the first one it does not precede, so
elements that the test cannot tell apart keep their order (`sortBy_perm` says that none is lost).
The test need not be a total order: what happens to incomparable elements is then fixed by the
procedure alone.
-/

namespace Vicinity.Sorting

variable {α : Type}

/-- Insert into a list that is sorted backwards. -/
def insertBack (precedes : α → α → Bool) (x : α) : List α → List α
  | [] => [x]
  | y :: ys => if precedes x y then y :: insertBack precedes x ys else x :: y :: ys

/-- The elements in order, equals in the order given. -/
def sortBy (precedes : α → α → Bool) (xs : List α) : List α :=
  (xs.foldl (fun sorted x => insertBack precedes x sorted) []).reverse

theorem insertBack_perm (precedes : α → α → Bool) (x : α) (ys : List α) :
    (insertBack precedes x ys).Perm (x :: ys) := by
  induction ys with
  | nil => exact .refl _
  | cons y ys ih =>
    simp only [insertBack]
    split
    · exact (ih.cons y).trans (.swap x y ys)
    · exact .refl _

theorem foldl_insertBack_perm (precedes : α → α → Bool) (xs sorted : List α) :
    (xs.foldl (fun sorted x => insertBack precedes x sorted) sorted).Perm (xs ++ sorted) := by
  induction xs generalizing sorted with
  | nil => exact .refl _
  | cons x xs ih =>
    exact (ih _).trans (((insertBack_perm precedes x sorted).append_left xs).trans
      List.perm_middle)

/-- Sorting only rearranges. -/
theorem sortBy_perm (precedes : α → α → Bool) (xs : List α) : (sortBy precedes xs).Perm xs := by
  have := foldl_insertBack_perm precedes xs []
  rw [List.append_nil] at this
  exact (List.reverse_perm _).trans this

end Vicinity.Sorting
