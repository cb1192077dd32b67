import Vicinity.Proofs.Sorting.Merge
import Vicinity.Sorting.Adaptive

/-!
The stable sort for lists of any length puts its elements in order.

Whatever a list is cut into, its runs are `Right`: those known to be in order are. Merging keeps it
so (`Orders.pairwise_mergeRuns`). Partitions stand around their pivot, which is one of the elements
(`pivotPlace_lt`), and a pivot that does not exceed an earlier one is as low as any element left
(`Orders.pairwise_partitionSort`). So whichever way a list is sorted, the result is in order when
the test orders its elements (`Orders.pairwise_adaptive`), and where no two elements stand before
each other, it is the arrangement that insertion makes (`Orders.adaptive_eq_sortBy`).
-/

namespace Vicinity.Sorting

variable {α : Type} {precedes : α → α → Bool} {R : α → α → Prop} {whole xs : List α}

/-! ### Cutting -/

/-- Each element of a stretch goes on from the one before it. -/
theorem pairwise_stretch {goesOn : α → α → Bool} (trans : ∀ {a b c}, R a b → R b c → R a c)
    {last : α} (next : ∀ a ∈ last :: xs, ∀ b ∈ last :: xs, goesOn a b = true → R a b) :
    (last :: (stretch goesOn last xs).1).Pairwise R := by
  induction xs generalizing last with
  | nil => exact List.pairwise_singleton R last
  | cons x xs ih =>
    rw [stretch]
    split
    case isFalse => exact List.pairwise_singleton R last
    case isTrue goes =>
      have later : (x :: (stretch goesOn x xs).1).Pairwise R := by
        refine ih fun a a_mem b b_mem => ?_
        exact next a (List.mem_cons_of_mem last a_mem) b (List.mem_cons_of_mem last b_mem)
      have x_mem : x ∈ last :: x :: xs := List.mem_cons_of_mem last List.mem_cons_self
      have last_x := next last List.mem_cons_self x x_mem goes
      exact List.pairwise_cons.2 ⟨rel_of_rel_head (R := R) trans last_x later, later⟩

/-- The run at the front is in order, once it is turned round where it descends. -/
theorem Orders.pairwise_frontRun (orders : Orders precedes R whole) (within : xs ⊆ whole) :
    (frontRun precedes xs).1.Pairwise R := by
  match xs, within with
  | [], _ => exact .nil
  | [x], _ => exact List.pairwise_singleton R x
  | x :: y :: rest, within =>
    obtain ⟨x_mem, within⟩ := List.cons_subset.1 within
    have y_mem : y ∈ whole := within List.mem_cons_self
    simp only [frontRun]
    split
    case isTrue before =>
      have run : (y :: (stretch (fun last next => precedes next last) y rest).1).Pairwise
          fun a b => R b a := by
        refine pairwise_stretch ?_ fun a a_mem b b_mem => ?_
        · exact fun first second => orders.trans second first
        · exact orders.before (within b_mem) (within a_mem)
      refine List.pairwise_reverse.2 (List.pairwise_cons.2 ⟨rel_of_rel_head ?_ ?_ run, run⟩)
      · exact fun first second => orders.trans second first
      · exact orders.before y_mem x_mem before
    case isFalse behind =>
      have run : (y :: (stretch (fun last next => !precedes next last) y rest).1).Pairwise R := by
        refine pairwise_stretch ?_ fun a a_mem b b_mem => ?_
        · exact fun first second => orders.trans first second
        · exact orders.stays (within a_mem) (within b_mem)
      refine List.pairwise_cons.2 ⟨rel_of_rel_head ?_ ?_ run, run⟩
      · exact fun first second => orders.trans first second
      · exact orders.behind y_mem x_mem (Bool.eq_false_iff.2 behind)

/-- A run of elements of the whole list that is in order if it is known to be. -/
structure Run.Right (R : α → α → Prop) (whole : List α) (run : Run α) : Prop where
  within : run.items ⊆ whole
  sorted : run.isSorted = true → run.items.Pairwise R

/-- What is cut off is right. -/
def Cutter.IsRight (R : α → α → Prop) (whole : List α) (cut : Cutter α) : Prop :=
  ∀ xs ⊆ whole, (cut xs).1.Right R whole

theorem Orders.cutBlock_isRight (orders : Orders precedes R whole) (size : Nat) :
    (cutBlock precedes size).IsRight R whole := by
  intro xs within
  have taken : xs.take size ⊆ whole := List.Subset.trans (List.take_subset ..) within
  refine ⟨List.Subset.trans (sortBlock_perm ..).subset taken, fun _ => ?_⟩
  exact orders.pairwise_sortBlock taken

theorem cutUnsorted_isRight (size : Nat) : (cutUnsorted size).IsRight R whole := by
  intro xs within
  exact ⟨List.Subset.trans (List.take_subset ..) within, Bool.noConfusion⟩

theorem Orders.right_cutRuns (orders : Orders precedes R whole) (good : Nat) {cut : Cutter α}
    (keeps : cut.Keeps) (right : cut.IsRight R whole) (fuel : Nat) (within : xs ⊆ whole) :
    ∀ run ∈ cutRuns precedes good cut fuel xs, run.Right R whole := by
  induction fuel generalizing xs with
  | zero =>
    cases xs with
    | nil => exact fun _ none => absurd none List.not_mem_nil
    | cons x xs =>
      intro run mem
      rw [List.mem_singleton.1 mem]
      exact ⟨within, Bool.noConfusion⟩
  | succ fuel ih =>
    cases xs with
    | nil => exact fun _ none => absurd none List.not_mem_nil
    | cons x xs =>
      have front_perm := frontRun_perm precedes (x :: xs)
      have cut_perm := keeps (x :: xs)
      simp only [cutRuns]
      split
      · refine List.forall_mem_cons.2 ⟨⟨?_, fun _ => orders.pairwise_frontRun within⟩, ih ?_⟩
        · exact fun a mem => within (front_perm.subset (List.mem_append_left _ mem))
        · exact fun a mem => within (front_perm.subset (List.mem_append_right _ mem))
      · refine List.forall_mem_cons.2 ⟨right _ within, ih ?_⟩
        exact fun a mem => within (cut_perm.subset (List.mem_append_right _ mem))

/-! ### The merge tree -/

/-- A procedure that rearranges a list and puts it in order. -/
structure Completes (R : α → α → Prop) (whole : List α) (complete : List α → List α) : Prop where
  rearranges : ∀ xs, (complete xs).Perm xs
  sorts : ∀ xs ⊆ whole, (complete xs).Pairwise R

namespace Run.Right

variable {complete : List α → List α} {left right run : Run α}

theorem finish_within (completes : Completes R whole complete) (right : run.Right R whole) :
    run.finish complete ⊆ whole :=
  List.Subset.trans (run.finish_perm completes.rearranges).subset right.within

theorem pairwise_finish (completes : Completes R whole complete) (right : run.Right R whole) :
    (run.finish complete).Pairwise R := by
  unfold finish
  split
  case isTrue sorted => exact right.sorted sorted
  case isFalse => exact completes.sorts _ right.within

theorem join (orders : Orders precedes R whole) (completes : Completes R whole complete)
    (first : left.Right R whole) (second : right.Right R whole) :
    (Run.join precedes complete left right).Right R whole := by
  refine ⟨fun a mem => ?_, fun sorted => ?_⟩
  · have mem := (Run.join_perm precedes completes.rearranges left right).mem_iff.1 mem
    exact (List.mem_append.1 mem).elim (first.within ·) (second.within ·)
  · by_cases either : (left.isSorted || right.isSorted) = true
    · rw [Run.join, if_pos either]
      exact orders.pairwise_mergeShorter (first.finish_within completes)
        (second.finish_within completes) (first.pairwise_finish completes)
        (second.pairwise_finish completes)
    · rw [Run.join, if_neg either] at sorted
      cases sorted

end Run.Right

section Tree

variable {join : Run α → Run α → Run α}
  (joined : ∀ {left right : Run α}, left.Right R whole → right.Right R whole →
    (join left right).Right R whole)

include joined

theorem right_collapse (depth : Nat) {run : Run α} (right : run.Right R whole)
    {before : List (Run α × Nat)} (waiting : ∀ entry ∈ before, entry.1.Right R whole) :
    (collapse join depth run before).1.Right R whole ∧
      ∀ entry ∈ (collapse join depth run before).2, entry.1.Right R whole := by
  induction before generalizing run with
  | nil => exact ⟨right, waiting⟩
  | cons entry before ih =>
    obtain ⟨left, d⟩ := entry
    obtain ⟨nearest, others⟩ := List.forall_mem_cons.1 waiting
    rw [collapse]
    split
    · exact ih (joined nearest right) others
    · exact ⟨right, waiting⟩

theorem right_assemble (count place : Nat) {last : Run α} (right : last.Right R whole)
    {before : List (Run α × Nat)} (waiting : ∀ entry ∈ before, entry.1.Right R whole)
    {runs : List (Run α)} (later : ∀ run ∈ runs, run.Right R whole) :
    (assemble join count place last before runs).Right R whole := by
  induction runs generalizing place last before with
  | nil => exact (right_collapse joined 0 right waiting).1
  | cons next runs ih =>
    obtain ⟨here, others⟩ := List.forall_mem_cons.1 later
    obtain ⟨merged, behind⟩ := right_collapse joined
      (boundaryDepth count (place - last.items.length) place (place + next.items.length))
      right waiting
    exact ih _ here (List.forall_mem_cons.2 ⟨merged, behind⟩) others

end Tree

namespace Orders

theorem pairwise_mergeRuns (orders : Orders precedes R whole) {cut : Cutter α} (keeps : cut.Keeps)
    (right : cut.IsRight R whole) {complete : List α → List α}
    (completes : Completes R whole complete) (within : xs ⊆ whole) :
    (mergeRuns precedes cut complete xs).Pairwise R := by
  have runs := orders.right_cutRuns (goodRun xs.length) keeps right xs.length within
  unfold mergeRuns
  split
  case h_1 => exact .nil
  case h_2 first rest cutting =>
    rw [cutting] at runs
    obtain ⟨here, later⟩ := List.forall_mem_cons.1 runs
    refine Run.Right.pairwise_finish completes (right_assemble ?_ _ _ here ?_ later)
    · exact fun left right => left.join orders completes right
    · exact fun _ none => absurd none List.not_mem_nil

theorem pairwise_mergeBlocks (orders : Orders precedes R whole) (within : xs ⊆ whole) :
    (mergeBlocks precedes xs).Pairwise R :=
  orders.pairwise_mergeRuns (cutBlock_keeps precedes _) (orders.cutBlock_isRight _)
    ⟨sortBlock_perm precedes, fun _ within => orders.pairwise_sortBlock within⟩ within

end Orders

/-! ### Pivots -/

theorem medianPlace_lt (precedes : α → α → Bool) (xs : Array α) {n a b c : Nat} (ha : a < n)
    (hb : b < n) (hc : c < n) :
    medianPlace precedes xs a b c < n := by
  simp only [medianPlace]
  split_ifs <;> assumption

/-- Samples stay within the stretches that their three places stand for. -/
theorem sampledPlace_lt (precedes : α → α → Bool) (xs : Array α) {n count a b c : Nat}
    (some : 0 < count) (ha : a + count ≤ n) (hb : b + count ≤ n) (hc : c + count ≤ n) :
    sampledPlace precedes xs count a b c < n := by
  fun_induction sampledPlace precedes xs count a b c with
  | case1 count a b c many part sample ih =>
    have inside (i : Nat) (le : i + count ≤ n) : sample i < n :=
      ih i (by omega) (by omega) (by omega) (by omega)
    exact medianPlace_lt precedes xs (inside a ha) (inside b hb) (inside c hc)
  | case2 count a b c few => exact medianPlace_lt precedes xs (by omega) (by omega) (by omega)

/-- A list of eight elements or more has its pivot. -/
theorem pivotPlace_lt (precedes : α → α → Bool) (xs : Array α) (many : 8 ≤ xs.size) :
    pivotPlace precedes xs < xs.size := by
  apply sampledPlace_lt <;> omega

/-! ### Partitions -/

section Partition

variable {place : Nat} {pivot : α} {goesLeft : Bool} {test : α → Bool} {x : α}

/-- What went left passed the test, unless it is the pivot. -/
theorem of_mem_partition_left (here : xs[place]? = some pivot)
    (mem : x ∈ (partitionAt place goesLeft test xs).1) : x = pivot ∨ test x = true := by
  simp only [partitionAt, List.partition_eq_filter_filter, List.mem_map] at mem
  obtain ⟨⟨_, i⟩, among, rfl⟩ := mem
  obtain ⟨found, left⟩ := List.mem_filter.1 among
  have at_i := List.mem_zipIdx_iff_getElem?.1 found
  by_cases same : i = place
  · rw [same, here] at at_i
    exact .inl (Option.some.inj at_i).symm
  · simp only [if_neg same] at left
    exact .inr left

/-- What went right did not pass the test, unless it is the pivot. -/
theorem of_mem_partition_right (here : xs[place]? = some pivot)
    (mem : x ∈ (partitionAt place goesLeft test xs).2) : x = pivot ∨ test x = false := by
  simp only [partitionAt, List.partition_eq_filter_filter, List.mem_map] at mem
  obtain ⟨⟨_, i⟩, among, rfl⟩ := mem
  obtain ⟨found, right⟩ := List.mem_filter.1 among
  have at_i := List.mem_zipIdx_iff_getElem?.1 found
  by_cases same : i = place
  · rw [same, here] at at_i
    exact .inl (Option.some.inj at_i).symm
  · simp only [Function.comp_apply, if_neg same, Bool.not_eq_true'] at right
    exact .inr right

end Partition

/-- The parts of a list on either side of a pivot. -/
structure Around (R : α → α → Prop) (pivot : α) (xs : List α) (parts : List α × List α) : Prop where
  perm : (parts.1 ++ parts.2).Perm xs
  low : ∀ x ∈ parts.1, R x pivot
  high : ∀ x ∈ parts.2, R pivot x

namespace Around

variable {pivot : α} {parts : List α × List α}

theorem left_subset (around : Around R pivot xs parts) : parts.1 ⊆ xs :=
  fun _ mem => around.perm.subset (List.mem_append_left _ mem)

theorem right_subset (around : Around R pivot xs parts) : parts.2 ⊆ xs :=
  fun _ mem => around.perm.subset (List.mem_append_right _ mem)

/-- Parts in order are in order together. -/
theorem pairwise_append (around : Around R pivot xs parts)
    (trans : ∀ {a b c}, R a b → R b c → R a c) {left right : List α} (left_perm : left.Perm parts.1)
    (right_perm : right.Perm parts.2) (left_sorted : left.Pairwise R)
    (right_sorted : right.Pairwise R) : (left ++ right).Pairwise R := by
  refine List.pairwise_append.2 ⟨left_sorted, right_sorted, fun a a_mem b b_mem => ?_⟩
  exact trans (around.low a (left_perm.subset a_mem)) (around.high b (right_perm.subset b_mem))

end Around

namespace Orders

section Parts

variable {place : Nat} {pivot : α}

/-- The elements that precede the pivot, and the others with it. -/
theorem around_below (orders : Orders precedes R whole) (within : xs ⊆ whole)
    (here : xs[place]? = some pivot) :
    Around R pivot xs (partitionAt place false (precedes · pivot) xs) := by
  have pivot_mem : pivot ∈ whole := within (List.mem_of_getElem? here)
  have perm := partitionAt_perm place false (precedes · pivot) xs
  refine ⟨perm, fun x mem => ?_, fun x mem => ?_⟩
  · have x_mem := within (perm.subset (List.mem_append_left _ mem))
    rcases of_mem_partition_left here mem with rfl | before
    · exact orders.refl pivot_mem
    · exact orders.before x_mem pivot_mem before
  · have x_mem := within (perm.subset (List.mem_append_right _ mem))
    rcases of_mem_partition_right here mem with rfl | behind
    · exact orders.refl pivot_mem
    · exact orders.behind x_mem pivot_mem behind

/-- The elements that the pivot does not precede, with it, and the others. -/
theorem around_above (orders : Orders precedes R whole) (within : xs ⊆ whole)
    (here : xs[place]? = some pivot) :
    Around R pivot xs (partitionAt place true (!precedes pivot ·) xs) := by
  have pivot_mem : pivot ∈ whole := within (List.mem_of_getElem? here)
  have perm := partitionAt_perm place true (!precedes pivot ·) xs
  refine ⟨perm, fun x mem => ?_, fun x mem => ?_⟩
  · have x_mem := within (perm.subset (List.mem_append_left _ mem))
    rcases of_mem_partition_left here mem with rfl | stay
    · exact orders.refl pivot_mem
    · exact orders.stays x_mem pivot_mem stay
  · have x_mem := within (perm.subset (List.mem_append_right _ mem))
    rcases of_mem_partition_right here mem with rfl | go
    · exact orders.refl pivot_mem
    · exact orders.goes x_mem pivot_mem go

/-- A pivot that nothing precedes, or that does not exceed an earlier one, is the least. -/
theorem least_pivot (orders : Orders precedes R whole) (within : xs ⊆ whole)
    (here : xs[place]? = some pivot) {ancestor : Option α}
    (above : ∀ low ∈ ancestor, low ∈ whole ∧ ∀ x ∈ xs, R low x)
    (least : ((partitionAt place false (precedes · pivot) xs).1.isEmpty ||
      ancestor.any (!precedes · pivot)) = true) : ∀ x ∈ xs, R pivot x := by
  have around := orders.around_below within here
  intro x mem
  rcases Bool.or_eq_true_iff.1 least with empty | not_above
  · have sides := List.mem_append.1 (around.perm.mem_iff.2 mem)
    rw [List.isEmpty_iff.1 empty] at sides
    exact around.high x (sides.resolve_left List.not_mem_nil)
  · obtain ⟨low, known, not_before⟩ := (Option.any_eq_true ..).1 not_above
    obtain ⟨low_mem, low_first⟩ := above low known
    have pivot_mem : pivot ∈ whole := within (List.mem_of_getElem? here)
    exact orders.trans (orders.stays pivot_mem low_mem not_before) (low_first x mem)

end Parts

/-- The elements on either side stay on it. -/
theorem pairwise_partitionSort (orders : Orders precedes R whole) (limit : Nat)
    {ancestor : Option α} (within : xs ⊆ whole)
    (above : ∀ low ∈ ancestor, low ∈ whole ∧ ∀ x ∈ xs, R low x) :
    (partitionSort precedes limit ancestor xs).Pairwise R := by
  induction limit generalizing ancestor xs with
  | zero =>
    unfold partitionSort
    split
    · exact orders.pairwise_sortBlock within
    · exact orders.pairwise_mergeBlocks within
  | succ limit ih =>
    unfold partitionSort
    split
    case isTrue => exact orders.pairwise_sortBlock within
    case isFalse long =>
      dsimp only
      split
      case h_1 missing =>
        have inside := pivotPlace_lt precedes xs.toArray
          (by rw [List.size_toArray]; unfold blockSize at long; omega)
        rw [List.size_toArray] at inside
        exact absurd (List.getElem?_eq_none_iff.1 missing) (Nat.not_le.2 inside)
      case h_2 pivot here =>
        have below := orders.around_below within here
        split
        case isTrue least =>
          have least := orders.least_pivot within here above least
          have around := orders.around_above within here
          have greater := List.Subset.trans around.right_subset within
          refine around.pairwise_append orders.trans (.refl _) (partitionSort_perm ..) ?_
            (ih greater fun _ none => nomatch none)
          refine List.pairwise_of_forall_mem_list fun a a_mem b b_mem => ?_
          exact orders.trans (around.low a a_mem) (least b (around.left_subset b_mem))
        case isFalse =>
          have less := List.Subset.trans below.left_subset within
          have others := List.Subset.trans below.right_subset within
          refine below.pairwise_append orders.trans (partitionSort_perm ..)
            (partitionSort_perm ..) (ih less fun low known => ?_) (ih others fun low known => ?_)
          · obtain ⟨low_mem, low_first⟩ := above low known
            exact ⟨low_mem, fun x mem => low_first x (below.left_subset mem)⟩
          · cases known
            exact ⟨within (List.mem_of_getElem? here), below.high⟩

theorem pairwise_adaptive (orders : Orders precedes R whole) (within : xs ⊆ whole) :
    (adaptive precedes xs).Pairwise R := by
  unfold adaptive
  split
  · exact orders.pairwise_sortBy within
  · split
    · exact orders.pairwise_mergeBlocks within
    · refine orders.pairwise_mergeRuns (cutUnsorted_keeps _) (cutUnsorted_isRight _) ?_ within
      refine ⟨fun _ => partitionSort_perm .., fun _ within => ?_⟩
      exact orders.pairwise_partitionSort _ within fun _ none => nomatch none

/-- Where no two elements stand before each other, there is one arrangement. -/
theorem adaptive_eq_sortBy (orders : Orders precedes R xs)
    (antisymm : ∀ a ∈ xs, ∀ b ∈ xs, R a b → R b a → a = b) :
    adaptive precedes xs = sortBy precedes xs := by
  have all := List.Subset.refl xs
  refine List.Perm.eq_of_pairwise (fun a b a_mem b_mem => ?_) (orders.pairwise_adaptive all)
    (orders.pairwise_sortBy all) ((adaptive_perm ..).trans (sortBy_perm ..).symm)
  exact antisymm a ((adaptive_perm ..).subset a_mem) b ((sortBy_perm ..).subset b_mem)

end Orders

end Vicinity.Sorting
