import Vicinity.Sorting.Runs

/-!
A stable sort for lists of any length.

Short lists are sorted by insertion, middling ones by merging blocks. In long ones the stretches
without good runs are partitioned by pivots. Where the test is an order all of this gives the same
arrangement as insertion does; where it is none, the arrangement is what this procedure makes of it
(`adaptive_perm` says that it is one).
-/

namespace Vicinity.Sorting

variable {α : Type}

/-! ### Pivots -/

/-- The place of the middle one of three elements. -/
def medianPlace (precedes : α → α → Bool) (xs : Array α) (a b c : Nat) : Nat :=
  let before (i j : Nat) : Bool :=
    match xs[i]?, xs[j]? with
    | some x, some y => precedes x y
    | _, _ => false
  if before a b == before a c then if before b c == before a b then b else c else a

/-- The same, each of the three standing for `count` elements from it on where that is many. -/
def sampledPlace (precedes : α → α → Bool) (xs : Array α) (count a b c : Nat) : Nat :=
  if _h : 8 ≤ count then
    let part := count / 8
    let sample (i : Nat) := sampledPlace precedes xs part i (i + 4 * part) (i + 7 * part)
    medianPlace precedes xs (sample a) (sample b) (sample c)
  else medianPlace precedes xs a b c
termination_by count

/-- The place of a pivot. -/
def pivotPlace (precedes : α → α → Bool) (xs : Array α) : Nat :=
  let part := xs.size / 8
  sampledPlace precedes xs part 0 (4 * part) (7 * part)

/-! ### Partitions -/

/-- The elements that pass a test and those that do not. The one at `place` is not tested. -/
def partitionAt (place : Nat) (goesLeft : Bool) (test : α → Bool) (xs : List α) :
    List α × List α :=
  let (left, right) := xs.zipIdx.partition fun (x, i) => if i = place then goesLeft else test x
  (left.map (·.1), right.map (·.1))

/-- Sort by partitions, at most `limit` of them inside each other. `ancestor` is the pivot that all
elements are known not to precede; where the new pivot does not exceed it, the elements that do not
exceed the pivot are all equal. -/
def partitionSort (precedes : α → α → Bool) (limit : Nat) (ancestor : Option α) (xs : List α) :
    List α :=
  if xs.length ≤ blockSize then sortBlock precedes xs
  else
    match limit with
    | 0 => mergeBlocks precedes xs
    | limit + 1 =>
      let place := pivotPlace precedes xs.toArray
      match xs[place]? with
      | none => xs
      | some pivot =>
        let (less, others) := partitionAt place false (precedes · pivot) xs
        if less.isEmpty || ancestor.any (!precedes · pivot) then
          let (equal, greater) := partitionAt place true (!precedes pivot ·) xs
          equal ++ partitionSort precedes limit none greater
        else
          partitionSort precedes limit ancestor less ++
            partitionSort precedes limit (some pivot) others

/-- Sort by partitions, as many inside each other as halving would take, twice over. -/
def partitionSorted (precedes : α → α → Bool) (xs : List α) : List α :=
  partitionSort precedes (2 * xs.length.log2) none xs

/-! ### The sort -/

/-- Lists up to this length are sorted by insertion. -/
def maxInsertion : Nat := 20

/-- The elements in order, equals in the order given. -/
def adaptive (precedes : α → α → Bool) (xs : List α) : List α :=
  if xs.length ≤ maxInsertion then sortBy precedes xs
  else if xs.length ≤ 2 * blockSize then mergeBlocks precedes xs
  else mergeRuns precedes (cutUnsorted (goodRun xs.length)) (partitionSorted precedes) xs

/-! ### Nothing is lost -/

theorem filter_append_perm (test : α → Bool) (xs : List α) :
    (xs.filter test ++ xs.filter (!test ·)).Perm xs := by
  induction xs with
  | nil => exact .refl _
  | cons x xs ih =>
    cases h : test x
    · simpa [h] using List.perm_middle.trans (ih.cons x)
    · simpa [h] using ih.cons x

theorem partitionAt_perm (place : Nat) (goesLeft : Bool) (test : α → Bool) (xs : List α) :
    ((partitionAt place goesLeft test xs).1 ++ (partitionAt place goesLeft test xs).2).Perm xs := by
  simp only [partitionAt, List.partition_eq_filter_filter, ← List.map_append]
  refine ((filter_append_perm _ xs.zipIdx).map _).trans (.of_eq ?_)
  simp

theorem partitionSort_perm (precedes : α → α → Bool) (limit : Nat) (ancestor : Option α)
    (xs : List α) : (partitionSort precedes limit ancestor xs).Perm xs := by
  induction limit generalizing ancestor xs with
  | zero =>
    unfold partitionSort
    split
    · exact sortBlock_perm precedes xs
    · exact mergeBlocks_perm precedes xs
  | succ limit ih =>
    unfold partitionSort
    split
    · exact sortBlock_perm precedes xs
    · dsimp only
      split
      · exact .refl _
      · split
        · exact ((ih ..).append_left _).trans (partitionAt_perm ..)
        · exact ((ih ..).append (ih ..)).trans (partitionAt_perm ..)

/-- Sorting only rearranges, whatever the test. -/
theorem adaptive_perm (precedes : α → α → Bool) (xs : List α) :
    (adaptive precedes xs).Perm xs := by
  unfold adaptive
  split
  · exact sortBy_perm precedes xs
  · split
    · exact mergeBlocks_perm precedes xs
    · exact mergeRuns_perm precedes (cutUnsorted_keeps _)
        (fun _ => partitionSort_perm precedes _ none _) xs

end Vicinity.Sorting
