import Mathlib.Data.Prod.Lex
import Vicinity.Proofs.Binary64
import Vicinity.Proofs.LabelMap
import Vicinity.Proofs.Leading
import Vicinity.Proofs.Sorting
import Vicinity.Reply

/-!
Replies in order.

Among hits with numbers for scores, `Hit.precedes` compares scores by their keys and then labels
(`Hit.precedes_iff`), so a reply is sorted that way (`sorted_sortByScore`), and two lists of the
nearest of the same hits have the same scores (`SameScores`).
-/

namespace Vicinity

namespace Hit

/-- Where the score stands among numbers. -/
def key (hit : Hit) : Nat := hit.score.key.toNat

/-- By score, and by label at one score. -/
def rank (hit : Hit) : ℕ ×ₗ ℕ := toLex (hit.key, hit.label.toNat)

theorem compare_eq_lt_iff {x y : UInt64} : compare x y = .lt ↔ x.toNat < y.toNat := by
  rw [← UInt64.lt_iff_toNat_lt]
  show compareOfLessAndEq x y = .lt ↔ x < y
  exact compareOfLessAndEq_eq_lt

theorem compare_eq_eq_iff {x y : UInt64} : compare x y = .eq ↔ x.toNat = y.toNat := by
  rw [UInt64.toNat_inj]
  show compareOfLessAndEq x y = .eq ↔ x = y
  unfold compareOfLessAndEq
  by_cases same : x = y
  · simp [same]
  · by_cases less : x < y <;> simp [same, less]

theorem precedes_iff {a b : Hit} (number_a : a.score.isNaN = false)
    (number_b : b.score.isNaN = false) : a.precedes b = true ↔ a.rank < b.rank := by
  rw [precedes, compareByScore, Binary64.partialCompare, number_a, number_b, Bool.or_self,
    if_neg Bool.noConfusion, Option.getD_some, beq_iff_eq, Ordering.then_eq_lt,
    compare_eq_lt_iff, compare_eq_eq_iff, compare_eq_lt_iff, rank, rank, Prod.Lex.toLex_lt_toLex]
  rfl

/-- With a NaN among the scores, the labels decide. -/
theorem precedes_iff_of_nan {a b : Hit} (nan : (a.score.isNaN || b.score.isNaN) = true) :
    a.precedes b = true ↔ a.label.toNat < b.label.toNat := by
  rw [precedes, compareByScore, Binary64.partialCompare, if_pos nan, Option.getD_none, beq_iff_eq]
  exact compare_eq_lt_iff

theorem rank_lt_iff {a b : Hit} :
    a.rank < b.rank ↔ a.key < b.key ∨ a.key = b.key ∧ a.label.toNat < b.label.toNat :=
  Prod.Lex.toLex_lt_toLex

theorem key_le_of_rank_le {a b : Hit} (le : a.rank ≤ b.rank) : a.key ≤ b.key := by
  rcases Prod.Lex.toLex_le_toLex.1 le with less | ⟨same, _⟩
  · exact Nat.le_of_lt less
  · exact Nat.le_of_eq same

end Hit

namespace Reply

theorem isNumeric_iff {reply : Reply} :
    reply.isNumeric = true ↔ ∀ hit ∈ reply, hit.score.isNaN = false := by
  simp [isNumeric]

/-- Numeric hits are sorted by score and then by label. -/
theorem sorted_sortByScore {reply : Reply} (numeric : ∀ hit ∈ reply, hit.score.isNaN = false) :
    (sortByScore reply).Pairwise fun a b => a.rank ≤ b.rank := by
  have same : sortByScore reply = Sorting.sortBy (fun a b => decide (a.rank < b.rank)) reply := by
    rw [sortByScore, if_pos (isNumeric_iff.2 numeric)]
    apply Sorting.sortBy_congr
    intro a in_a b in_b
    rw [Bool.eq_iff_iff, decide_eq_true_eq]
    exact Hit.precedes_iff (numeric a in_a) (numeric b in_b)
  have sorted : (sortByScore reply).Pairwise fun a b => decide (b.rank < a.rank) = false := by
    rw [same]
    refine Sorting.pairwise_sortBy (fun a b before => ?_) (fun a b c first second => ?_) reply
    · exact decide_eq_false (of_decide_eq_true before).asymm
    · have first := not_lt.1 (of_decide_eq_false first)
      have second := not_lt.1 (of_decide_eq_false second)
      exact decide_eq_false (not_lt.2 (second.trans first))
  exact sorted.imp fun not_before => not_lt.1 (of_decide_eq_false not_before)

/-- When no two hits share a label, every hit precedes the later ones. -/
theorem precedes_of_sorted {reply : Reply} (numeric : ∀ hit ∈ reply, hit.score.isNaN = false)
    (sorted : reply.Pairwise fun a b => a.rank ≤ b.rank) (nodup : reply.labels.Nodup) :
    reply.Pairwise fun a b => a.precedes b = true := by
  refine (sorted.and (List.pairwise_map.1 nodup)).imp_of_mem fun {a b} in_a in_b ⟨le, other⟩ => ?_
  refine (Hit.precedes_iff (numeric a in_a) (numeric b in_b)).2 (lt_of_le_of_ne le fun same => ?_)
  have same_label := congrArg (fun rank => (ofLex rank).2) same
  exact other (UInt64.toNat_inj.1 same_label)

/-- Both replies have the same scores in the same order. -/
def SameScores (a b : Reply) : Prop := List.Forall₂ (fun x y => x.score.Equals y.score) a b

/-- Numeric hits with the same keys have the same scores. -/
theorem sameScores_of_map_key_eq {a b : Reply} (numeric_a : ∀ hit ∈ a, hit.score.isNaN = false)
    (numeric_b : ∀ hit ∈ b, hit.score.isNaN = false) (same : a.map Hit.key = b.map Hit.key) :
    SameScores a b := by
  have keys : List.Forall₂ (fun x y : Hit => x.key = y.key) a b := by
    rwa [← List.forall₂_eq_eq_eq, List.forall₂_map_left_iff, List.forall₂_map_right_iff] at same
  have in_a := (List.forall₂_and_left a b).2 ⟨fun _ here => here, keys⟩
  have in_both := (List.forall₂_and_left b a).2 ⟨fun _ here => here, in_a.flip⟩
  refine in_both.flip.imp fun x y ⟨from_b, from_a, same⟩ => ?_
  exact (Binary64.equals_iff (numeric_a x from_a) (numeric_b y from_b)).2 same

/-- The nearest of the same hits have the same scores, whichever of them are listed. -/
theorem sameScores_of_leading {k : Nat} {hits : List Hit} {a b : Reply}
    (numeric : ∀ hit ∈ hits, hit.score.isNaN = false) (first : Leading Hit.key k hits a)
    (second : Leading Hit.key k hits b) : SameScores a b :=
  sameScores_of_map_key_eq (fun x here => numeric x (first.mem here))
    (fun y here => numeric y (second.mem here)) (first.map_key_eq second)

/-! ### One hit a label -/

theorem nodup_labels_toReply (best : BestHits) : best.toReply.labels.Nodup := by
  have same : best.toReply.labels = best.scores.labels := by
    rw [labels, BestHits.toReply, List.map_map]
    rfl
  rw [same]
  exact LabelMap.nodup_labels best.scores

theorem nodup_labels_sortByScore {reply : Reply} (nodup : reply.labels.Nodup) :
    reply.sortByScore.labels.Nodup :=
  ((sortByScore_perm reply).map _).nodup_iff.2 nodup

theorem nodup_labels_take {reply : Reply} (nodup : reply.labels.Nodup) (k : Nat) :
    (labels (reply.take k)).Nodup :=
  nodup.sublist ((List.take_sublist k reply).map _)

end Reply

end Vicinity
