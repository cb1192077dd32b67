import Mathlib.Data.List.Basic
import Vicinity.Proofs.Sorting
import Vicinity.Sorting.Block

/-!
Merging two lists that are in order gives one that is.

Under a test that orders the elements, a merge from the front (`Orders.pairwise_merge`), one from
the back (`Orders.pairwise_mergeBack`) and one from both ends (`Orders.pairwise_mergeEnds`) all do.
In the last, what an end draws stands before all that it leaves (`Drawn`), and of the two lists no
more than one element lies between what the ends draw, or elements of one list only. A block is two
such halves (`Orders.pairwise_sortBlock`). When no two of its elements stand before each other, the
ends never draw one twice (`Orders.endsMeet`).
-/

namespace Vicinity.Sorting

variable {α : Type} {precedes : α → α → Bool} {R : α → α → Prop} {whole xs ys : List α}

/-- What stands before the first of a list in order stands before all of it. -/
theorem rel_of_rel_head (trans : ∀ {a b c}, R a b → R b c → R a c) {x y : α} (x_y : R x y)
    (sorted : (y :: ys).Pairwise R) : ∀ z ∈ y :: ys, R x z := by
  intro z mem
  rcases List.mem_cons.1 mem with rfl | later
  · exact x_y
  · exact trans x_y (List.rel_of_pairwise_cons sorted later)

/-! ### From one end -/

/-- A merge is in order when its test decides the relation between the two lists. -/
theorem pairwise_merge_of {stays : α → α → Bool} (trans : ∀ {a b c}, R a b → R b c → R a c)
    (front : ∀ x ∈ xs, ∀ y ∈ ys, stays x y = true → R x y)
    (back : ∀ x ∈ xs, ∀ y ∈ ys, stays x y = false → R y x) (left : xs.Pairwise R)
    (right : ys.Pairwise R) : (xs.merge ys stays).Pairwise R := by
  fun_induction List.merge xs ys stays with
  | case1 ys => exact right
  | case2 xs _ => exact left
  | case3 x xs y ys stay ih =>
    obtain ⟨x_first, left_rest⟩ := List.pairwise_cons.1 left
    have x_y : R x y := front x List.mem_cons_self y List.mem_cons_self stay
    refine List.pairwise_cons.2 ⟨fun z mem => ?_, ih ?_ ?_ left_rest right⟩
    · rcases List.mem_merge.1 mem with later | other
      · exact x_first z later
      · exact rel_of_rel_head (R := R) trans x_y right z other
    · exact fun a mem => front a (List.mem_cons_of_mem x mem)
    · exact fun a mem => back a (List.mem_cons_of_mem x mem)
  | case4 x xs y ys goes ih =>
    obtain ⟨y_first, right_rest⟩ := List.pairwise_cons.1 right
    have y_x : R y x :=
      back x List.mem_cons_self y List.mem_cons_self (Bool.eq_false_iff.2 goes)
    refine List.pairwise_cons.2 ⟨fun z mem => ?_, ih ?_ ?_ left right_rest⟩
    · rcases List.mem_merge.1 mem with other | later
      · exact rel_of_rel_head (R := R) trans y_x left z other
      · exact y_first z later
    · exact fun a a_mem b b_mem => front a a_mem b (List.mem_cons_of_mem y b_mem)
    · exact fun a a_mem b b_mem => back a a_mem b (List.mem_cons_of_mem y b_mem)

namespace Orders

/-- The left element stays in front where the right one does not precede it. -/
theorem stays (orders : Orders precedes R whole) {x y : α} (x_mem : x ∈ whole) (y_mem : y ∈ whole)
    (stay : (!precedes y x) = true) : R x y := by
  rw [Bool.not_eq_true'] at stay
  exact orders.behind y_mem x_mem stay

theorem goes (orders : Orders precedes R whole) {x y : α} (x_mem : x ∈ whole) (y_mem : y ∈ whole)
    (go : (!precedes y x) = false) : R y x := by
  rw [Bool.not_eq_false'] at go
  exact orders.before y_mem x_mem go

theorem pairwise_merge (orders : Orders precedes R whole) (xs_within : xs ⊆ whole)
    (ys_within : ys ⊆ whole) (left : xs.Pairwise R) (right : ys.Pairwise R) :
    (merge precedes xs ys).Pairwise R := by
  refine pairwise_merge_of orders.trans ?_ ?_ left right
  · exact fun x x_mem y y_mem => orders.stays (xs_within x_mem) (ys_within y_mem)
  · exact fun x x_mem y y_mem => orders.goes (xs_within x_mem) (ys_within y_mem)

theorem pairwise_mergeBack (orders : Orders precedes R whole) (xs_within : xs ⊆ whole)
    (ys_within : ys ⊆ whole) (left : xs.Pairwise R) (right : ys.Pairwise R) :
    (mergeBack precedes xs ys).Pairwise R := by
  refine List.pairwise_reverse.2 (pairwise_merge_of ?_ ?_ ?_ ?_ ?_)
  · exact fun first second => orders.trans second first
  · exact fun y y_mem x x_mem => orders.stays (xs_within (List.mem_reverse.1 x_mem))
      (ys_within (List.mem_reverse.1 y_mem))
  · exact fun y y_mem x x_mem => orders.goes (xs_within (List.mem_reverse.1 x_mem))
      (ys_within (List.mem_reverse.1 y_mem))
  · exact List.pairwise_reverse.2 right
  · exact List.pairwise_reverse.2 left

theorem pairwise_mergeShorter (orders : Orders precedes R whole) (xs_within : xs ⊆ whole)
    (ys_within : ys ⊆ whole) (left : xs.Pairwise R) (right : ys.Pairwise R) :
    (mergeShorter precedes xs ys).Pairwise R := by
  unfold mergeShorter
  split
  · exact orders.pairwise_merge xs_within ys_within left right
  · exact orders.pairwise_mergeBack xs_within ys_within left right

end Orders

/-! ### From both ends -/

/-- What has been drawn is in order and stands before all that is left, and either the count is
reached or one of the lists is used up. -/
structure Drawn (R : α → α → Prop) (count : Nat) (drawn xs ys : List α) : Prop where
  sorted : drawn.Pairwise R
  first : ∀ a ∈ drawn, ∀ b ∈ xs ++ ys, R a b
  stops : drawn.length = count ∨ xs = [] ∨ ys = []

/-- Drawing loses nothing. -/
theorem draw_perm (stays : α → α → Bool) (count : Nat) (xs ys : List α) :
    ((draw stays count xs ys).1 ++
      ((draw stays count xs ys).2.1 ++ (draw stays count xs ys).2.2)).Perm (xs ++ ys) := by
  fun_induction draw stays count xs ys with
  | case1 count x xs y ys _ drawn rest drawn_eq ih =>
    rw [drawn_eq] at ih
    exact ih.cons x
  | case2 count x xs y ys _ drawn rest drawn_eq ih =>
    rw [drawn_eq] at ih
    exact (ih.cons y).trans List.perm_middle.symm
  | case3 => exact .refl _

/-- An element before all that is drawn and all that is left may be drawn first. -/
theorem Drawn.cons {count : Nat} {x : α} {drawn all : List α} (later : Drawn R count drawn xs ys)
    (perm : (drawn ++ (xs ++ ys)).Perm all) (x_first : ∀ z ∈ all, R x z) :
    Drawn R (count + 1) (x :: drawn) xs ys := by
  refine ⟨List.pairwise_cons.2 ⟨fun z mem => ?_, later.sorted⟩, fun a mem b left => ?_, ?_⟩
  · exact x_first z (perm.mem_iff.1 (List.mem_append_left _ mem))
  · rcases List.mem_cons.1 mem with rfl | mem
    · exact x_first b (perm.mem_iff.1 (List.mem_append_right _ left))
    · exact later.first a mem b left
  · rw [List.length_cons, Nat.add_right_cancel_iff]
    exact later.stops

theorem drawn_draw {stays : α → α → Bool} (trans : ∀ {a b c}, R a b → R b c → R a c) (count : Nat)
    (front : ∀ x ∈ xs, ∀ y ∈ ys, stays x y = true → R x y)
    (back : ∀ x ∈ xs, ∀ y ∈ ys, stays x y = false → R y x) (left : xs.Pairwise R)
    (right : ys.Pairwise R) :
    Drawn R count (draw stays count xs ys).1 (draw stays count xs ys).2.1
      (draw stays count xs ys).2.2 := by
  fun_induction draw stays count xs ys with
  | case1 count x xs y ys stay drawn rest drawn_eq ih =>
    obtain ⟨x_first, left_rest⟩ := List.pairwise_cons.1 left
    have x_y : R x y := front x List.mem_cons_self y List.mem_cons_self stay
    have x_before (z : α) (mem : z ∈ xs ++ y :: ys) : R x z := by
      rcases List.mem_append.1 mem with later | other
      · exact x_first z later
      · exact rel_of_rel_head (R := R) trans x_y right z other
    have later := ih (fun a mem => front a (List.mem_cons_of_mem x mem))
      (fun a mem => back a (List.mem_cons_of_mem x mem)) left_rest right
    have all := draw_perm stays count xs (y :: ys)
    rw [drawn_eq] at later all
    exact later.cons all x_before
  | case2 count x xs y ys goes drawn rest drawn_eq ih =>
    obtain ⟨y_first, right_rest⟩ := List.pairwise_cons.1 right
    have y_x : R y x :=
      back x List.mem_cons_self y List.mem_cons_self (Bool.eq_false_iff.2 goes)
    have y_before (z : α) (mem : z ∈ x :: xs ++ ys) : R y z := by
      rcases List.mem_append.1 mem with other | later
      · exact rel_of_rel_head (R := R) trans y_x left z other
      · exact y_first z later
    have later := ih (fun a a_mem b b_mem => front a a_mem b (List.mem_cons_of_mem y b_mem))
      (fun a a_mem b b_mem => back a a_mem b (List.mem_cons_of_mem y b_mem)) left right_rest
    have all := draw_perm stays count (x :: xs) ys
    rw [drawn_eq] at later all
    exact later.cons all y_before
  | case3 count xs ys short =>
    refine ⟨.nil, fun _ none => absurd none List.not_mem_nil, ?_⟩
    cases count with
    | zero => exact .inl rfl
    | succ count =>
      cases xs with
      | nil => exact .inr (.inl rfl)
      | cons x xs =>
        cases ys with
        | nil => exact .inr (.inr rfl)
        | cons y ys => exact (short count x xs y ys rfl rfl rfl).elim

/-- The front end of a merge from both. -/
theorem Orders.drawn_front (orders : Orders precedes R whole) (count : Nat) (xs_within : xs ⊆ whole)
    (ys_within : ys ⊆ whole) (left : xs.Pairwise R) (right : ys.Pairwise R) :
    let drawn := draw (fun x y => !precedes y x) count xs ys
    Drawn R count drawn.1 drawn.2.1 drawn.2.2 := by
  refine drawn_draw ?_ count ?_ ?_ left right
  · exact fun first second => orders.trans first second
  · exact fun x x_mem y y_mem => orders.stays (xs_within x_mem) (ys_within y_mem)
  · exact fun x x_mem y y_mem => orders.goes (xs_within x_mem) (ys_within y_mem)

/-- The back end. -/
theorem Orders.drawn_back (orders : Orders precedes R whole) (count : Nat) (xs_within : xs ⊆ whole)
    (ys_within : ys ⊆ whole) (left : xs.Pairwise R) (right : ys.Pairwise R) :
    let drawn := draw (fun y x => !precedes y x) count ys.reverse xs.reverse
    Drawn (fun a b => R b a) count drawn.1 drawn.2.1 drawn.2.2 := by
  refine drawn_draw ?_ count ?_ ?_ ?_ ?_
  · exact fun first second => orders.trans second first
  · exact fun y y_mem x x_mem => orders.stays (xs_within (List.mem_reverse.1 x_mem))
      (ys_within (List.mem_reverse.1 y_mem))
  · exact fun y y_mem x x_mem => orders.goes (xs_within (List.mem_reverse.1 x_mem))
      (ys_within (List.mem_reverse.1 y_mem))
  · exact List.pairwise_reverse.2 right
  · exact List.pairwise_reverse.2 left

/-- What is drawn from both ends stands around what neither has drawn. -/
theorem Drawn.pairwise_around {count : Nat} {front back xMiddle yMiddle xs' ys' : List α}
    (first : Drawn R count front xs ys) (last : Drawn (fun a b => R b a) count back ys' xs')
    (left : xMiddle.Pairwise R) (right : yMiddle.Pairwise R) (one : xMiddle = [] ∨ yMiddle = [])
    (ahead : xMiddle ++ yMiddle ++ back ⊆ xs ++ ys) (behind : xMiddle ++ yMiddle ⊆ ys' ++ xs') :
    (front ++ xMiddle ++ yMiddle ++ back.reverse).Pairwise R := by
  have middle : (xMiddle ++ yMiddle).Pairwise R := by
    refine List.pairwise_append.2 ⟨left, right, fun x x_mem y y_mem => ?_⟩
    rcases one with none | none
    · rw [none] at x_mem
      cases x_mem
    · rw [none] at y_mem
      cases y_mem
  rw [List.append_assoc front, List.append_assoc front]
  refine List.pairwise_append.2 ⟨first.sorted, ?_, fun a a_mem b b_mem => ?_⟩
  · refine List.pairwise_append.2
      ⟨middle, List.pairwise_reverse.2 last.sorted, fun a a_mem b b_mem => ?_⟩
    exact last.first b (List.mem_reverse.1 b_mem) a (behind a_mem)
  · apply first.first a a_mem b
    apply ahead
    rcases List.mem_append.1 b_mem with here | here
    · exact List.mem_append_left _ here
    · exact List.mem_append_right _ (List.mem_reverse.1 here)

/-- What the back end draws from a list, the front end has left. -/
theorem take_reverse_subset_drop (xs : List α) {i k : Nat} (apart : i + k ≤ xs.length) :
    xs.reverse.take k ⊆ xs.drop i := by
  rw [List.take_reverse]
  intro a mem
  exact (List.drop_sublist_drop_left xs (by omega)).subset (List.mem_reverse.1 mem)

/-- The back end has left the middle of a list. -/
theorem middle_subset_drop_reverse (xs : List α) {i k : Nat} :
    (xs.drop i).take (xs.length - k - i) ⊆ xs.reverse.drop k := by
  rw [List.drop_reverse, ← List.drop_take]
  exact fun a mem => List.mem_reverse.2 (List.mem_of_mem_drop mem)

/-- Either end draws half of the elements at most. -/
theorem length_draw_le (stays : α → α → Bool) (count : Nat) (xs ys : List α) :
    (draw stays count xs ys).1.length ≤ count := by
  fun_induction draw stays count xs ys with
  | case1 count x xs y ys _ drawn rest drawn_eq ih =>
    rw [drawn_eq] at ih
    exact Nat.succ_le_succ ih
  | case2 count x xs y ys _ drawn rest drawn_eq ih =>
    rw [drawn_eq] at ih
    exact Nat.succ_le_succ ih
  | case3 => exact Nat.zero_le _

/-- Where both ends draw more than there is, they draw one element twice. -/
theorem exists_mem_take_both {xs : List α} {i k : Nat} (le : i ≤ xs.length) (le' : k ≤ xs.length)
    (twice : xs.length < i + k) : ∃ x, x ∈ xs.take i ∧ x ∈ xs.reverse.take k := by
  have lt : xs.length - k < xs.length := by omega
  refine ⟨xs[xs.length - k], ?_, ?_⟩
  · exact List.mem_take_iff_getElem.2 ⟨xs.length - k, by omega, rfl⟩
  · rw [List.take_reverse, List.mem_reverse]
    exact List.mem_drop_iff_getElem.2 ⟨0, by omega, rfl⟩

/-- Where both ends draw less, they leave one element both. -/
theorem exists_mem_drop_both {xs : List α} {i k : Nat} (short : i + k < xs.length) :
    ∃ x, x ∈ xs.drop i ∧ x ∈ xs.reverse.drop k := by
  refine ⟨xs[i], ?_, ?_⟩
  · exact List.mem_drop_iff_getElem.2 ⟨0, by omega, rfl⟩
  · rw [List.drop_reverse, List.mem_reverse]
    exact List.mem_take_iff_getElem.2 ⟨i, by omega, rfl⟩

/-- Between two lists whose elements have one order the ends draw no element twice: of the other
list they would leave one, and it would stand behind the first element as well as before it. -/
theorem Orders.endsMeet (orders : Orders precedes R whole) (xs_within : xs ⊆ whole)
    (ys_within : ys ⊆ whole) (left : xs.Pairwise R) (right : ys.Pairwise R)
    (apart : ∀ x ∈ xs, ∀ y ∈ ys, R x y → ¬R y x) : EndsMeet precedes xs ys := by
  have first := orders.drawn_front ((xs.length + ys.length) / 2) xs_within ys_within left right
  have last := orders.drawn_back ((xs.length + ys.length) / 2) xs_within ys_within left right
  have front_le := length_draw_le (fun x y => !precedes y x) ((xs.length + ys.length) / 2) xs ys
  have back_le := length_draw_le (fun y x => !precedes y x) ((xs.length + ys.length) / 2)
    ys.reverse xs.reverse
  obtain ⟨i, j, hi, hj, hx, hy, front⟩ :=
    draw_spec (fun x y => !precedes y x) ((xs.length + ys.length) / 2) xs ys
  obtain ⟨j', i', hj', hi', hy', hx', back⟩ :=
    draw_spec (fun y x => !precedes y x) ((xs.length + ys.length) / 2) ys.reverse xs.reverse
  dsimp only at first last
  rw [hx, hy] at first
  rw [hx', hy'] at last
  rw [front.length_eq] at front_le
  rw [back.length_eq] at back_le
  simp only [List.length_append, List.length_take, List.length_reverse] at hi' hj' front_le back_le
  simp only [EndsMeet, hx, hy, hx', hy', List.length_drop, List.length_reverse]
  constructor
  · by_contra twice
    obtain ⟨x, x_front, x_back⟩ := exists_mem_take_both hi hi' (by omega)
    obtain ⟨y, y_front, y_back⟩ : ∃ y, y ∈ ys.drop j ∧ y ∈ ys.reverse.drop j' :=
      exists_mem_drop_both (by omega)
    refine apart x (List.mem_of_mem_take x_front) y (List.mem_of_mem_drop y_front) ?_ ?_
    · exact first.first x (front.mem_iff.2 (List.mem_append_left _ x_front)) y
        (List.mem_append_right _ y_front)
    · exact last.first x (back.mem_iff.2 (List.mem_append_right _ x_back)) y
        (List.mem_append_left _ y_back)
  · by_contra twice
    obtain ⟨y, y_front, y_back⟩ := exists_mem_take_both hj hj' (by omega)
    obtain ⟨x, x_front, x_back⟩ : ∃ x, x ∈ xs.drop i ∧ x ∈ xs.reverse.drop i' :=
      exists_mem_drop_both (by omega)
    refine apart x (List.mem_of_mem_drop x_front) y (List.mem_of_mem_take y_front) ?_ ?_
    · exact last.first y (back.mem_iff.2 (List.mem_append_left _ y_back)) x
        (List.mem_append_right _ x_back)
    · exact first.first y (front.mem_iff.2 (List.mem_append_right _ y_front)) x
        (List.mem_append_left _ x_front)

/-- The ends draw from each list what lies before and behind its middle. -/
theorem Orders.pairwise_mergeEnds (orders : Orders precedes R whole) (xs_within : xs ⊆ whole)
    (ys_within : ys ⊆ whole) (left : xs.Pairwise R) (right : ys.Pairwise R) :
    (mergeEnds precedes xs ys).Pairwise R := by
  simp only [mergeEnds]
  split
  case isFalse => exact orders.pairwise_merge xs_within ys_within left right
  case isTrue apart =>
    have first := orders.drawn_front ((xs.length + ys.length) / 2) xs_within ys_within left right
    have last := orders.drawn_back ((xs.length + ys.length) / 2) xs_within ys_within left right
    obtain ⟨i, j, hi, hj, hx, hy, front⟩ :=
      draw_spec (fun x y => !precedes y x) ((xs.length + ys.length) / 2) xs ys
    obtain ⟨j', i', hj', hi', hy', hx', back⟩ :=
      draw_spec (fun y x => !precedes y x) ((xs.length + ys.length) / 2) ys.reverse xs.reverse
    dsimp only at first last
    rw [hx, hy] at first
    rw [hx', hy'] at last
    simp only [EndsMeet, hx, hy, hx', hy'] at apart ⊢
    have fronts := front.length_eq
    have backs := back.length_eq
    simp only [List.length_drop, List.length_reverse, List.length_append, List.length_take]
      at apart hi' hj' fronts backs ⊢
    rw [show xs.length - i + (xs.length - i') - xs.length = xs.length - i' - i by omega,
      show ys.length - j + (ys.length - j') - ys.length = ys.length - j' - j by omega]
    refine first.pairwise_around last ?_ ?_ ?_ ?_ ?_
    · exact left.sublist ((List.take_sublist ..).trans (List.drop_sublist ..))
    · exact right.sublist ((List.take_sublist ..).trans (List.drop_sublist ..))
    · have narrow : xs.length - i' - i = 0 ∨ ys.length - j' - j = 0 := by
        have front_stops := first.stops
        have back_stops := last.stops
        rw [List.drop_eq_nil_iff, List.drop_eq_nil_iff] at front_stops back_stops
        rw [List.length_reverse, List.length_reverse] at back_stops
        omega
      rcases narrow with none | none
      · exact .inl (by rw [none, List.take_zero])
      · exact .inr (by rw [none, List.take_zero])
    · have xBack := take_reverse_subset_drop xs (i := i) (k := i') (by omega)
      have yBack := take_reverse_subset_drop ys (i := j) (k := j') (by omega)
      intro a mem
      rw [List.append_assoc, List.mem_append, List.mem_append, back.mem_iff, List.mem_append] at mem
      rw [List.mem_append]
      rcases mem with here | here | here | here
      · exact .inl (List.mem_of_mem_take here)
      · exact .inr (List.mem_of_mem_take here)
      · exact .inr (yBack here)
      · exact .inl (xBack here)
    · have xLeft := middle_subset_drop_reverse xs (i := i) (k := i')
      have yLeft := middle_subset_drop_reverse ys (i := j) (k := j')
      intro a mem
      rw [List.mem_append] at mem ⊢
      exact mem.symm.imp (yLeft ·) (xLeft ·)

/-! ### Blocks -/

namespace Orders

theorem two_sorted (orders : Orders precedes R whole) {a b : α} (a_mem : a ∈ whole)
    (b_mem : b ∈ whole) : R (two precedes a b).1 (two precedes a b).2 := by
  unfold two
  split
  case isTrue before => exact orders.before b_mem a_mem before
  case isFalse behind => exact orders.behind b_mem a_mem (Bool.eq_false_iff.2 behind)

theorem two_mem (precedes : α → α → Bool) {a b : α} (a_mem : a ∈ whole) (b_mem : b ∈ whole) :
    (two precedes a b).1 ∈ whole ∧ (two precedes a b).2 ∈ whole := by
  unfold two
  split
  · exact ⟨b_mem, a_mem⟩
  · exact ⟨a_mem, b_mem⟩

/-- Two elements put in order between one that stands before both and one that stands behind. -/
theorem pairwise_between (orders : Orders precedes R whole) {least x y greatest : α}
    (x_mem : x ∈ whole) (y_mem : y ∈ whole) (least_x : R least x) (least_y : R least y)
    (x_greatest : R x greatest) (y_greatest : R y greatest) :
    [least, (two precedes x y).1, (two precedes x y).2, greatest].Pairwise R := by
  have middle := orders.two_sorted x_mem y_mem
  have outer : R least greatest := orders.trans least_x x_greatest
  unfold two at middle ⊢
  split at middle
  · simp [*]
  · simp [*]

theorem pairwise_four (orders : Orders precedes R whole) {a b c d : α}
    (within : [a, b, c, d] ⊆ whole) : (four precedes a b c d).Pairwise R := by
  have a_mem : a ∈ whole := within (by simp)
  have b_mem : b ∈ whole := within (by simp)
  have c_mem : c ∈ whole := within (by simp)
  have d_mem : d ∈ whole := within (by simp)
  have left := orders.two_sorted a_mem b_mem
  have right := orders.two_sorted c_mem d_mem
  obtain ⟨a_mem, b_mem⟩ := two_mem precedes a_mem b_mem
  obtain ⟨c_mem, d_mem⟩ := two_mem precedes c_mem d_mem
  simp only [four]
  generalize two precedes a b = front at *
  generalize two precedes c d = back at *
  cases low : precedes back.1 front.1 <;> cases high : precedes back.2 front.2
  · have a_c := orders.behind c_mem a_mem low
    have b_d := orders.behind d_mem b_mem high
    exact orders.pairwise_between b_mem c_mem left a_c b_d right
  · have a_c := orders.behind c_mem a_mem low
    have d_b := orders.before d_mem b_mem high
    exact orders.pairwise_between c_mem d_mem a_c (orders.trans a_c right)
      (orders.trans right d_b) d_b
  · have c_a := orders.before c_mem a_mem low
    have b_d := orders.behind d_mem b_mem high
    exact orders.pairwise_between a_mem b_mem c_a (orders.trans c_a left)
      (orders.trans left b_d) b_d
  · have c_a := orders.before c_mem a_mem low
    have d_b := orders.before d_mem b_mem high
    exact orders.pairwise_between a_mem d_mem c_a right left d_b

/-- Groups of the sizes in which blocks start. -/
theorem pairwise_sortGroup (orders : Orders precedes R whole) (within : xs ⊆ whole)
    (size : xs.length ≤ 1 ∨ xs.length = 4 ∨ xs.length = 8) :
    (sortGroup precedes xs).Pairwise R := by
  match xs, size with
  | [], _ => exact .nil
  | [a], _ => exact List.pairwise_singleton R a
  | [a, b, c, d], _ => exact orders.pairwise_four within
  | [a, b, c, d, e, f, g, h], _ =>
    have first : [a, b, c, d] ⊆ whole := fun x mem => within (List.mem_append_left [e, f, g, h] mem)
    have last : [e, f, g, h] ⊆ whole := fun x mem => within (List.mem_append_right [a, b, c, d] mem)
    have front_within := List.Subset.trans (four_perm precedes a b c d).subset first
    have back_within := List.Subset.trans (four_perm precedes e f g h).subset last
    exact orders.pairwise_mergeEnds front_within back_within (orders.pairwise_four first)
      (orders.pairwise_four last)

/-- A half that is as long as its group, or whose group is one element. -/
theorem pairwise_sortHalf (orders : Orders precedes R whole) (within : xs ⊆ whole) {group : Nat}
    (size : group = 1 ∨ (group = 4 ∨ group = 8) ∧ group ≤ xs.length) :
    (sortHalf precedes group xs).Pairwise R := by
  have front_within : xs.take group ⊆ whole := List.Subset.trans (List.take_subset ..) within
  have front : (sortGroup precedes (xs.take group)).Pairwise R := by
    refine orders.pairwise_sortGroup front_within ?_
    rw [List.length_take]
    omega
  refine List.pairwise_reverse.2 (orders.pairwise_foldl_insertBack ?_ ?_ ?_)
  · exact List.Subset.trans (List.drop_subset ..) within
  · exact fun a mem =>
      front_within ((sortGroup_perm ..).subset (List.mem_reverse.1 mem))
  · exact List.pairwise_reverse.2 front

/-- The halves of a block, each in order. -/
theorem pairwise_halves (orders : Orders precedes R whole) (within : xs ⊆ whole) :
    (sortHalf precedes (groupSize xs.length) (xs.take (xs.length / 2))).Pairwise R ∧
      (sortHalf precedes (groupSize xs.length) (xs.drop (xs.length / 2))).Pairwise R := by
  constructor
  · refine orders.pairwise_sortHalf (List.Subset.trans (List.take_subset ..) within) ?_
    rw [List.length_take, groupSize]
    split_ifs <;> omega
  · refine orders.pairwise_sortHalf (List.Subset.trans (List.drop_subset ..) within) ?_
    rw [List.length_drop, groupSize]
    split_ifs <;> omega

/-- They hold elements of the block. -/
theorem halves_subset (precedes : α → α → Bool) (within : xs ⊆ whole) :
    sortHalf precedes (groupSize xs.length) (xs.take (xs.length / 2)) ⊆ whole ∧
      sortHalf precedes (groupSize xs.length) (xs.drop (xs.length / 2)) ⊆ whole :=
  ⟨List.Subset.trans (sortHalf_perm ..).subset (List.Subset.trans (List.take_subset ..) within),
    List.Subset.trans (sortHalf_perm ..).subset (List.Subset.trans (List.drop_subset ..) within)⟩

theorem pairwise_sortBlock (orders : Orders precedes R whole) (within : xs ⊆ whole) :
    (sortBlock precedes xs).Pairwise R := by
  obtain ⟨front, back⟩ := orders.pairwise_halves within
  obtain ⟨front_within, back_within⟩ := halves_subset precedes within
  exact orders.pairwise_mergeEnds front_within back_within front back

/-! ### Where elements have one order -/

/-- The halves of a group of eight are merged without drawing an element twice. -/
theorem endsMeet_four (orders : Orders precedes R whole) {a b c d e f g h : α}
    (within : [a, b, c, d, e, f, g, h] ⊆ whole)
    (apart : [a, b, c, d, e, f, g, h].Pairwise fun x y => R x y → ¬R y x) :
    EndsMeet precedes (four precedes a b c d) (four precedes e f g h) := by
  have front : [a, b, c, d] ⊆ whole := fun x mem => within (List.mem_append_left [e, f, g, h] mem)
  have back : [e, f, g, h] ⊆ whole := fun x mem => within (List.mem_append_right [a, b, c, d] mem)
  have across := List.pairwise_append.1
    (show ([a, b, c, d] ++ [e, f, g, h]).Pairwise fun x y => R x y → ¬R y x from apart)
  refine orders.endsMeet (List.Subset.trans (four_perm ..).subset front)
    (List.Subset.trans (four_perm ..).subset back) (orders.pairwise_four front)
    (orders.pairwise_four back) fun x x_mem y y_mem => ?_
  exact across.2.2 x ((four_perm ..).subset x_mem) y ((four_perm ..).subset y_mem)

/-- So are the halves of a block. -/
theorem endsMeet_sortBlock (orders : Orders precedes R whole) (within : xs ⊆ whole)
    (apart : xs.Pairwise fun x y => R x y → ¬R y x) :
    EndsMeet precedes (sortHalf precedes (groupSize xs.length) (xs.take (xs.length / 2)))
      (sortHalf precedes (groupSize xs.length) (xs.drop (xs.length / 2))) := by
  obtain ⟨front, back⟩ := orders.pairwise_halves within
  obtain ⟨front_within, back_within⟩ := halves_subset precedes within
  rw [← List.take_append_drop (xs.length / 2) xs, List.pairwise_append] at apart
  refine orders.endsMeet front_within back_within front back fun x x_mem y y_mem => ?_
  exact apart.2.2 x ((sortHalf_perm ..).subset x_mem) y ((sortHalf_perm ..).subset y_mem)

end Orders

end Vicinity.Sorting
