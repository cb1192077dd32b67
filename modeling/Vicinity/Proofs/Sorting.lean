import Vicinity.Sorting

/-!
Insertion sort puts its elements in order.

A test `Orders` some elements by a transitive relation when of any two of them it puts one before
the other rightly; insertion sort then arranges them by that relation (`Orders.pairwise_sortBy`). So
it does under a strict weak order, where no two elements precede each other and an element that none
of two others follows directly does not come between them (`pairwise_sortBy`). A test that is such
an order on some elements only sorts these as one that is an order throughout (`sortBy_congr`).
Numbers are put in descending order where slots are freed (`pairwise_descending`).
-/

namespace Vicinity.Sorting

variable {α : Type} {precedes : α → α → Bool}

/-- What precedes another of the elements stands before it in the relation, and what does not stands
behind it or level with it. -/
structure Orders (precedes : α → α → Bool) (R : α → α → Prop) (whole : List α) : Prop where
  trans : ∀ {a b c}, R a b → R b c → R a c
  before : ∀ {a b}, a ∈ whole → b ∈ whole → precedes a b = true → R a b
  behind : ∀ {a b}, a ∈ whole → b ∈ whole → precedes a b = false → R b a

namespace Orders

variable {R : α → α → Prop} {whole : List α}

/-- The test decides between an element and itself, too. -/
theorem refl (orders : Orders precedes R whole) {a : α} (mem : a ∈ whole) : R a a := by
  cases test : precedes a a with
  | true => exact orders.before mem mem test
  | false => exact orders.behind mem mem test

theorem pairwise_insertBack (orders : Orders precedes R whole) {x : α} (mem : x ∈ whole)
    {sorted : List α} (within : sorted ⊆ whole) (backwards : sorted.Pairwise fun a b => R b a) :
    (insertBack precedes x sorted).Pairwise fun a b => R b a := by
  induction sorted with
  | nil => exact List.pairwise_singleton _ x
  | cons y ys ih =>
      obtain ⟨y_mem, ys_within⟩ := List.cons_subset.1 within
      obtain ⟨first, rest⟩ := List.pairwise_cons.1 backwards
      rw [insertBack]
      split
      case isTrue before =>
        refine List.pairwise_cons.2 ⟨fun z z_mem => ?_, ih ys_within rest⟩
        rcases List.mem_cons.1 ((insertBack_perm precedes x ys).mem_iff.1 z_mem) with rfl | later
        · exact orders.before mem y_mem before
        · exact first z later
      case isFalse not_before =>
        have y_first := orders.behind mem y_mem (Bool.eq_false_iff.2 not_before)
        refine List.pairwise_cons.2 ⟨fun z z_mem => ?_, backwards⟩
        rcases List.mem_cons.1 z_mem with rfl | later
        · exact y_first
        · exact orders.trans (first z later) y_first

/-- Inserting one by one keeps a list sorted. -/
theorem pairwise_foldl_insertBack (orders : Orders precedes R whole) {xs sorted : List α}
    (xs_within : xs ⊆ whole) (within : sorted ⊆ whole)
    (backwards : sorted.Pairwise fun a b => R b a) :
    (xs.foldl (fun sorted x => insertBack precedes x sorted) sorted).Pairwise fun a b => R b a := by
  induction xs generalizing sorted with
  | nil => exact backwards
  | cons x xs ih =>
      obtain ⟨mem, rest⟩ := List.cons_subset.1 xs_within
      refine ih rest ?_ (orders.pairwise_insertBack mem within backwards)
      exact fun z z_mem => List.cons_subset.2 ⟨mem, within⟩
        ((insertBack_perm precedes x sorted).mem_iff.1 z_mem)

theorem pairwise_sortBy (orders : Orders precedes R whole) {xs : List α} (within : xs ⊆ whole) :
    (sortBy precedes xs).Pairwise R :=
  List.pairwise_reverse.2
    (orders.pairwise_foldl_insertBack within (List.nil_subset whole) .nil)

end Orders

/-- A later element does not precede an earlier one. -/
theorem pairwise_sortBy (asymm : ∀ a b, precedes a b = true → precedes b a = false)
    (trans : ∀ a b c, precedes a b = false → precedes b c = false → precedes a c = false)
    (xs : List α) : (sortBy precedes xs).Pairwise fun a b => precedes b a = false := by
  have orders : Orders precedes (fun a b => precedes b a = false) xs := by
    refine ⟨fun {a b c} first second => ?_, fun {a b} _ _ before => ?_, fun _ _ behind => behind⟩
    · exact trans c b a second first
    · exact asymm a b before
  exact orders.pairwise_sortBy (List.Subset.refl xs)

/-- What has been inserted keeps its order. -/
theorem sublist_insertBack (precedes : α → α → Bool) (x : α) (sorted : List α) :
    sorted.Sublist (insertBack precedes x sorted) := by
  induction sorted with
  | nil => exact List.nil_sublist _
  | cons y ys ih =>
      rw [insertBack]
      split
      · exact ih.cons_cons y
      · exact List.sublist_cons_self x (y :: ys)

/-- So do the elements at the front, once they are sorted. -/
theorem sortBy_sublist_append (precedes : α → α → Bool) (xs ys : List α) :
    (sortBy precedes xs).Sublist (sortBy precedes (xs ++ ys)) := by
  have kept : ∀ sorted : List α,
      sorted.Sublist (ys.foldl (fun sorted y => insertBack precedes y sorted) sorted) := by
    induction ys with
    | nil => exact fun sorted => List.Sublist.refl sorted
    | cons y ys ih => exact fun sorted => (sublist_insertBack precedes y sorted).trans (ih _)
  rw [sortBy, sortBy, List.foldl_append, List.reverse_sublist]
  exact kept _

/-- Only what the test says about the elements matters. -/
theorem sortBy_congr {precedes' : α → α → Bool} {xs : List α}
    (same : ∀ a ∈ xs, ∀ b ∈ xs, precedes a b = precedes' a b) :
    sortBy precedes xs = sortBy precedes' xs := by
  have insert_same : ∀ (x : α) (sorted : List α), (∀ b ∈ sorted, precedes x b = precedes' x b) →
      insertBack precedes x sorted = insertBack precedes' x sorted := by
    intro x sorted agree
    induction sorted with
    | nil => rfl
    | cons y ys ih =>
        rw [insertBack, insertBack, agree y List.mem_cons_self,
          ih fun b mem => agree b (List.mem_cons_of_mem _ mem)]
  have fold_same : ∀ rest sorted : List α, (∀ x ∈ rest, x ∈ xs) → (∀ x ∈ sorted, x ∈ xs) →
      rest.foldl (fun sorted x => insertBack precedes x sorted) sorted =
        rest.foldl (fun sorted x => insertBack precedes' x sorted) sorted := by
    intro rest
    induction rest with
    | nil => exact fun _ _ _ => rfl
    | cons x rest ih =>
        intro sorted from_rest from_sorted
        have here := from_rest x List.mem_cons_self
        rw [List.foldl_cons, List.foldl_cons,
          ← insert_same x sorted fun b mem => same x here b (from_sorted b mem)]
        apply ih _ fun z mem => from_rest z (List.mem_cons_of_mem _ mem)
        intro z mem
        rcases List.mem_cons.1 ((insertBack_perm precedes x sorted).mem_iff.1 mem) with rfl | old
        · exact here
        · exact from_sorted z old
  exact congrArg List.reverse (fold_same xs [] (fun _ mem => mem) fun _ mem => by cases mem)

/-- Numbers without repetition in descending order descend strictly. -/
theorem pairwise_descending {ns : List Nat} (nodup : ns.Nodup) :
    (sortBy (fun a b => b < a) ns).Pairwise (· > ·) := by
  have sorted : (sortBy (fun a b => decide (b < a)) ns).Pairwise
      fun a b => decide (a < b) = false := by
    refine pairwise_sortBy (fun a b before => ?_) (fun a b c first second => ?_) ns
    · simp only [decide_eq_true_eq, decide_eq_false_iff_not] at before ⊢
      omega
    · simp only [decide_eq_false_iff_not] at first second ⊢
      omega
  have distinct : (sortBy (fun a b => decide (b < a)) ns).Nodup :=
    (sortBy_perm ..).nodup_iff.2 nodup
  refine (sorted.and distinct).imp fun ⟨not_before, ne⟩ => ?_
  have not_before := of_decide_eq_false not_before
  omega

end Vicinity.Sorting
