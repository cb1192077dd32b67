import Vicinity.Sorting.Block

/-!
Sorting by merging runs.

A list is cut into runs. Those that it holds already, ascending or descending, are kept where they
are long enough; `Cutter` says what is cut where there is none. Neighbouring runs are then merged
along a balanced tree: the boundary between two runs lies at the depth at which halving the list
again and again would first separate their middles (`boundaryDepth`), and deeper boundaries are
merged first. Runs not yet in order are only put together, until one must be merged with a run in
order.
-/

namespace Vicinity.Sorting

variable {α : Type}

/-- Neighbouring elements of a list, known to be in order or not. -/
structure Run (α : Type) where
  items : List α
  isSorted : Bool

/-! ### Cutting -/

/-- The elements at the front that go on as the test wants it, each told the one before it. -/
def stretch (goesOn : α → α → Bool) (last : α) : List α → List α × List α
  | [] => ([], [])
  | x :: xs =>
    if goesOn last x then
      let (run, rest) := stretch goesOn x xs
      (x :: run, rest)
    else ([], x :: xs)

/-- The run that a list starts with, in ascending order, and the rest. A descending run has no two
elements that could trade places, so it may be reversed. -/
def frontRun (precedes : α → α → Bool) : List α → List α × List α
  | x :: y :: rest =>
    if precedes y x then
      let (run, rest) := stretch (fun last next => precedes next last) y rest
      ((x :: y :: run).reverse, rest)
    else
      let (run, rest) := stretch (fun last next => !precedes next last) y rest
      (x :: y :: run, rest)
  | xs => (xs, [])

/-- What to cut off the front of a list that does not start with a good run. -/
abbrev Cutter (α : Type) := List α → Run α × List α

/-- Cut off a sorted block. -/
def cutBlock (precedes : α → α → Bool) (size : Nat) : Cutter α := fun xs =>
  (⟨sortBlock precedes (xs.take size), true⟩, xs.drop size)

/-- Cut off elements as they are. -/
def cutUnsorted (size : Nat) : Cutter α := fun xs => (⟨xs.take size, false⟩, xs.drop size)

/-- About the square root of a number: the mean of a power of two near it and their quotient. -/
def roughSqrt (n : Nat) : Nat :=
  let half := (1 + n.log2) / 2
  (1 <<< half + n >>> half) / 2

/-- The length from which a run is worth keeping. -/
def goodRun (count : Nat) : Nat :=
  if count ≤ 64 * 64 then min (count - count / 2) 64 else roughSqrt count

/-- Cut a list into runs. Each run takes an element at least, so the length is fuel enough. -/
def cutRuns (precedes : α → α → Bool) (good : Nat) (cut : Cutter α) :
    (fuel : Nat) → List α → List (Run α)
  | _, [] => []
  | 0, xs => [⟨xs, false⟩]
  | fuel + 1, xs =>
    let (run, rest) := frontRun precedes xs
    if good ≤ run.length then ⟨run, true⟩ :: cutRuns precedes good cut fuel rest
    else
      let (run, rest) := cut xs
      run :: cutRuns precedes good cut fuel rest

/-! ### The merge tree -/

/-- The depth in the merge tree of the boundary between two runs of a list of `count` elements, one
from `left` to `middle` and one from there to `right`. The middles of the runs are scaled to 64-bit
fractions, and the depth is the number of leading bits that these share. -/
def boundaryDepth (count left middle right : Nat) : Nat :=
  let scale := (1 <<< 62 + count - 1) / count
  let differing := (scale * (left + middle)) ^^^ (scale * (middle + right))
  if differing = 0 then 64 else 63 - differing.log2

/-- The elements of a run in order. -/
def Run.finish (complete : List α → List α) (run : Run α) : List α :=
  if run.isSorted then run.items else complete run.items

/-- Two neighbouring runs as one. -/
def Run.join (precedes : α → α → Bool) (complete : List α → List α) (left right : Run α) : Run α :=
  if left.isSorted || right.isSorted then
    ⟨mergeShorter precedes (left.finish complete) (right.finish complete), true⟩
  else ⟨left.items ++ right.items, false⟩

/-- Join a run with the ones before it whose boundaries lie no less deep than `depth`. The nearest
run stands first, each with the depth of the boundary behind it. -/
def collapse (join : Run α → Run α → Run α) (depth : Nat) (run : Run α) :
    List (Run α × Nat) → Run α × List (Run α × Nat)
  | [] => (run, [])
  | (left, d) :: before =>
    if depth ≤ d then collapse join depth (join left run) before else (run, (left, d) :: before)

/-- Join all runs, the last of which ends at `place` in a list of `count` elements. -/
def assemble (join : Run α → Run α → Run α) (count place : Nat) (last : Run α)
    (before : List (Run α × Nat)) : List (Run α) → Run α
  | [] => (collapse join 0 last before).1
  | next :: runs =>
    let depth := boundaryDepth count (place - last.items.length) place (place + next.items.length)
    let (joined, before) := collapse join depth last before
    assemble join count (place + next.items.length) next ((joined, depth) :: before) runs

/-- Sort by cutting into runs and merging them; `complete` sorts what was left unsorted. -/
def mergeRuns (precedes : α → α → Bool) (cut : Cutter α) (complete : List α → List α)
    (xs : List α) : List α :=
  match cutRuns precedes (goodRun xs.length) cut xs.length xs with
  | [] => []
  | first :: runs =>
    let join := Run.join precedes complete
    (assemble join xs.length first.items.length first [] runs).finish complete

/-- The size of a block. -/
def blockSize : Nat := 32

/-- Sort by merging blocks and the runs between them. -/
def mergeBlocks (precedes : α → α → Bool) : List α → List α :=
  mergeRuns precedes (cutBlock precedes blockSize) (sortBlock precedes)

/-! ### Nothing is lost -/

theorem stretch_append (goesOn : α → α → Bool) (last : α) (xs : List α) :
    (stretch goesOn last xs).1 ++ (stretch goesOn last xs).2 = xs := by
  induction xs generalizing last with
  | nil => rfl
  | cons x xs ih =>
    simp only [stretch]
    split
    · exact congrArg (x :: ·) (ih x)
    · rfl

theorem frontRun_perm (precedes : α → α → Bool) (xs : List α) :
    ((frontRun precedes xs).1 ++ (frontRun precedes xs).2).Perm xs := by
  unfold frontRun
  split
  · split
    · refine ((List.reverse_perm _).append_right _).trans (.of_eq ?_)
      exact congrArg (_ :: _ :: ·) (stretch_append ..)
    · exact .of_eq (congrArg (_ :: _ :: ·) (stretch_append ..))
  · exact .of_eq (List.append_nil _)

/-- Cutting loses nothing. -/
def Cutter.Keeps (cut : Cutter α) : Prop := ∀ xs, ((cut xs).1.items ++ (cut xs).2).Perm xs

theorem cutBlock_keeps (precedes : α → α → Bool) (size : Nat) :
    (cutBlock precedes size).Keeps := fun xs =>
  ((sortBlock_perm precedes (xs.take size)).append_right _).trans
    (.of_eq (List.take_append_drop size xs))

theorem cutUnsorted_keeps (size : Nat) : (cutUnsorted size : Cutter α).Keeps := fun xs =>
  .of_eq (List.take_append_drop size xs)

theorem cutRuns_perm (precedes : α → α → Bool) (good : Nat) {cut : Cutter α} (keeps : cut.Keeps)
    (fuel : Nat) (xs : List α) :
    ((cutRuns precedes good cut fuel xs).flatMap (·.items)).Perm xs := by
  induction fuel generalizing xs with
  | zero => cases xs <;> simp [cutRuns]
  | succ fuel ih =>
    cases xs with
    | nil => exact .refl _
    | cons x xs =>
      simp only [cutRuns]
      split
      · exact ((ih _).append_left _).trans (frontRun_perm precedes (x :: xs))
      · exact ((ih _).append_left _).trans (keeps (x :: xs))

theorem Run.finish_perm {complete : List α → List α} (rearranges : ∀ xs, (complete xs).Perm xs)
    (run : Run α) : (run.finish complete).Perm run.items := by
  unfold Run.finish
  split
  · exact .refl _
  · exact rearranges _

/-- Joining two runs loses nothing. -/
def Joins (join : Run α → Run α → Run α) : Prop :=
  ∀ left right, (join left right).items.Perm (left.items ++ right.items)

theorem Run.join_perm (precedes : α → α → Bool) {complete : List α → List α}
    (rearranges : ∀ xs, (complete xs).Perm xs) : Joins (Run.join precedes complete) := by
  intro left right
  unfold Run.join
  split
  · exact (mergeShorter_perm ..).trans
      ((left.finish_perm rearranges).append (right.finish_perm rearranges))
  · exact .refl _

/-- The elements of the runs that wait to be joined. -/
def waiting (before : List (Run α × Nat)) : List α := before.flatMap (·.1.items)

theorem collapse_perm {join : Run α → Run α → Run α} (joins : Joins join) (depth : Nat)
    (run : Run α) (before : List (Run α × Nat)) :
    ((collapse join depth run before).1.items ++ waiting (collapse join depth run before).2).Perm
      (run.items ++ waiting before) := by
  induction before generalizing run with
  | nil => exact .refl _
  | cons entry before ih =>
    obtain ⟨left, d⟩ := entry
    simp only [collapse]
    split
    · refine (ih _).trans (((joins left run).append_right _).trans ?_)
      refine (List.perm_append_comm.append_right _).trans (.of_eq ?_)
      rw [List.append_assoc]
      rfl
    · exact .refl _

/-- At depth 0 every run is joined. -/
theorem collapse_zero (join : Run α → Run α → Run α) (run : Run α) (before : List (Run α × Nat)) :
    (collapse join 0 run before).2 = [] := by
  induction before generalizing run with
  | nil => rfl
  | cons entry before ih =>
    simp only [collapse, Nat.zero_le, if_true]
    exact ih _

theorem assemble_perm {join : Run α → Run α → Run α} (joins : Joins join) (count place : Nat)
    (last : Run α) (before : List (Run α × Nat)) (runs : List (Run α)) :
    (assemble join count place last before runs).items.Perm
      (last.items ++ waiting before ++ runs.flatMap (·.items)) := by
  induction runs generalizing place last before with
  | nil =>
    have := collapse_perm joins 0 last before
    rw [collapse_zero] at this
    simpa [assemble, waiting] using this
  | cons next runs ih =>
    simp only [assemble]
    refine (ih ..).trans ?_
    have joined := collapse_perm joins
      (boundaryDepth count (place - last.items.length) place (place + next.items.length))
      last before
    refine ((joined.append_left next.items).append_right _).trans ?_
    refine (List.perm_append_comm.append_right _).trans (.of_eq ?_)
    rw [List.append_assoc]
    rfl

/-- Merging runs only rearranges. -/
theorem mergeRuns_perm (precedes : α → α → Bool) {cut : Cutter α} (keeps : cut.Keeps)
    {complete : List α → List α} (rearranges : ∀ xs, (complete xs).Perm xs) (xs : List α) :
    (mergeRuns precedes cut complete xs).Perm xs := by
  have runs := cutRuns_perm precedes (goodRun xs.length) keeps xs.length xs
  unfold mergeRuns
  split
  case h_1 empty =>
    rw [empty] at runs
    exact runs
  case h_2 first rest cutting =>
    rw [cutting] at runs
    refine (Run.finish_perm rearranges _).trans ?_
    refine (assemble_perm (Run.join_perm precedes rearranges) ..).trans (.trans (.of_eq ?_) runs)
    simp [waiting]

theorem mergeBlocks_perm (precedes : α → α → Bool) (xs : List α) :
    (mergeBlocks precedes xs).Perm xs :=
  mergeRuns_perm precedes (cutBlock_keeps precedes blockSize) (sortBlock_perm precedes) xs

end Vicinity.Sorting
