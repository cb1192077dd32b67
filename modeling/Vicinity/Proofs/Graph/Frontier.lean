import Mathlib.Data.Prod.Lex
import Vicinity.Graph.Frontier
import Vicinity.Proofs.Binary64
import Vicinity.Proofs.Sorting

/-!
The order of candidates, and what a frontier has seen.

Candidates are ranked by distance in the total order and then by id, which tells any two of them
apart (`precedes_iff`); a queue that is sorted stays so when a candidate is put in at its place. A
node enters a frontier when it was not seen before, and from then on it is (`seen_of_enter?`).
-/

namespace Vicinity.Graph

namespace Candidate

/-- By distance in the total order, and by id at one distance. -/
def rank (c : Candidate) : ℕ ×ₗ ℕ := toLex (c.distance.totalKey.toNat, c.id)

theorem precedes_iff {a b : Candidate} : a.precedes b = true ↔ a.rank < b.rank := by
  have same_key : a.distance = b.distance ↔
      a.distance.totalKey.toNat = b.distance.totalKey.toNat := by
    constructor
    · exact fun same => by rw [same]
    · exact fun same => Binary64.totalKey_injective (UInt64.toNat_inj.1 same)
  rw [precedes, Bool.or_eq_true, Bool.and_eq_true, Binary64.totalLt_iff, beq_iff_eq, same_key,
    decide_eq_true_eq, rank, rank, Prod.Lex.toLex_lt_toLex]

theorem precedes_eq_false_iff {a b : Candidate} : a.precedes b = false ↔ b.rank ≤ a.rank := by
  rw [← not_lt, ← precedes_iff, Bool.not_eq_true]

/-- A candidate that does not come later is not farther either. -/
theorem key_le_of_rank_le {a b : Candidate} (le : a.rank ≤ b.rank) :
    a.distance.key.toNat ≤ b.distance.key.toNat := by
  by_contra farther
  have less := Binary64.totalKey_lt_of_key_lt (Nat.not_le.1 farther)
  have before : b.rank < a.rank := Prod.Lex.toLex_lt_toLex.2 (.inl less)
  exact not_lt.2 le before

theorem totalLt_eq_false_of_rank_le {a b : Candidate} (le : a.rank ≤ b.rank) :
    b.distance.totalLt a.distance = false := by
  rw [Bool.eq_false_iff, Ne, Binary64.totalLt_iff]
  intro less
  have before : b.rank < a.rank := Prod.Lex.toLex_lt_toLex.2 (.inl less)
  exact not_lt.2 le before

theorem insertSorted_perm (c : Candidate) (ds : List Candidate) :
    (insertSorted c ds).Perm (c :: ds) := by
  induction ds with
  | nil => exact .refl _
  | cons d ds ih =>
      rw [insertSorted]
      split
      · exact .refl _
      · exact (ih.cons d).trans (.swap c d ds)

/-- No candidate of a queue precedes an earlier one. -/
def Queued (queue : List Candidate) : Prop := queue.Pairwise fun a b => a.rank ≤ b.rank

/-- Nothing that waits is nearer than the first. -/
theorem Queued.first_le {c d : Candidate} {rest : List Candidate} (queued : Queued (c :: rest))
    (waits : d ∈ c :: rest) (number_c : c.distance.isNaN = false)
    (number_d : d.distance.isNaN = false) : c.distance.le d.distance = true := by
  have not_before : c.rank ≤ d.rank := by
    rcases List.mem_cons.1 waits with rfl | later
    · exact le_refl _
    · exact (List.pairwise_cons.1 queued).1 d later
  exact (Binary64.le_iff number_c number_d).2 (key_le_of_rank_le not_before)

theorem Queued.insertSorted {queue : List Candidate} (queued : Queued queue) (c : Candidate) :
    Queued (insertSorted c queue) := by
  induction queue with
  | nil => exact List.pairwise_singleton _ c
  | cons d ds ih =>
      obtain ⟨first, rest⟩ := List.pairwise_cons.1 queued
      rw [Candidate.insertSorted]
      split
      case isTrue before =>
        have lt := precedes_iff.1 before
        refine List.pairwise_cons.2 ⟨fun x mem => ?_, queued⟩
        rcases List.mem_cons.1 mem with rfl | later
        · exact lt.le
        · exact lt.le.trans (first x later)
      case isFalse not_before =>
        have le := precedes_eq_false_iff.1 (Bool.eq_false_iff.2 not_before)
        refine List.pairwise_cons.2 ⟨fun x mem => ?_, ih rest⟩
        rcases List.mem_cons.1 ((insertSorted_perm c ds).mem_iff.1 mem) with rfl | later
        · exact le
        · exact first x later

theorem sort_perm (cs : List Candidate) : (sort cs).Perm cs := Sorting.sortBy_perm ..

theorem queued_sort (cs : List Candidate) : Queued (sort cs) := by
  have sorted : (sort cs).Pairwise fun a b => precedes b a = false := by
    refine Sorting.pairwise_sortBy (fun a b before => ?_) (fun a b c first second => ?_) cs
    · exact precedes_eq_false_iff.2 (precedes_iff.1 before).le
    · rw [precedes_eq_false_iff] at first second ⊢
      exact second.trans first
  exact sorted.imp fun not_before => precedes_eq_false_iff.1 not_before

end Candidate

namespace Frontier

/-- The node was seen. -/
def Seen (f : Frontier) (id : Nat) : Prop := f.seen[id]? = some true

theorem seen_start {count : Nat} {c : Candidate} (inside : c.id < count) (id : Nat) :
    (start count c).Seen id ↔ id = c.id := by
  unfold Seen start
  by_cases same : c.id = id
  · subst same
    simp [inside]
  · simp [same, Ne.symm same, Array.getElem?_replicate]

theorem queue_enter? {f f' : Frontier} {id : Nat} (entered : f.enter? id = some f') :
    f'.queue = f.queue := by
  unfold enter? at entered
  split at entered
  · split at entered
    · contradiction
    · cases entered
      rfl
  · contradiction

/-- A node of the graph that does not enter was seen before. -/
theorem seen_of_enter?_none {f : Frontier} {id : Nat} (inside : id < f.seen.size)
    (refused : f.enter? id = none) : f.Seen id := by
  rw [enter?, dif_pos inside] at refused
  split at refused
  case isTrue seen => rw [Seen, Array.getElem?_eq_getElem inside, seen]
  case isFalse => contradiction

theorem enter?_eq_some {f f' : Frontier} {id : Nat} (entered : f.enter? id = some f') :
    f'.seen.size = f.seen.size ∧ ¬ f.Seen id ∧ ∀ j, f'.Seen j ↔ j = id ∨ f.Seen j := by
  unfold enter? at entered
  split at entered
  case isFalse => contradiction
  case isTrue inside =>
    split at entered
    · contradiction
    case isFalse unseen =>
      cases entered
      refine ⟨Array.size_set inside, fun seen => ?_, fun j => ?_⟩
      · rw [Seen, Array.getElem?_eq_getElem inside] at seen
        exact unseen (Option.some.inj seen)
      · unfold Seen
        rw [Array.getElem?_set]
        split
        case isTrue same => simp [same]
        case isFalse other => simp [Ne.symm other]

end Frontier

end Vicinity.Graph
