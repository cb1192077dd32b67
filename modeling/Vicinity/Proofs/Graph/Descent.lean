import Vicinity.Proofs.Binary64
import Vicinity.Proofs.Graph.Finding
import Vicinity.Proofs.Graph.Guarded.Insertion

/-!
Where a greedy descent ends.

A descent goes in rounds. Each compares the place it has come to with all neighbours that the node
has there, moving on to nearer ones as it meets them; a round that moves nothing is the last one. A
round that moves something ends nearer to the query (`round_eq_or_lt`), so there are no more of them
than nodes that are nearer than the start, and the last one has found no neighbour nearer than the
place (`not_lt_foldl_nearer`).

Distances that are not numbers change nothing of this. Such a neighbour is nearer than no place, and
from such a start no neighbour is nearer, so the descent ends there at once.
-/

namespace Vicinity.Graph

variable {α : Type} [Element α]

/-! ### One round -/

/-- The candidates that are compared come nearer or stay what they are. -/
theorem foldl_nearer_eq_or_lt (g : Graph α) (query : List α) (ids : List Nat) (best : Candidate) :
    ids.foldl (g.nearer query) best = best ∨
      (ids.foldl (g.nearer query) best).distance.lt best.distance = true := by
  induction ids generalizing best with
  | nil => exact .inl rfl
  | cons id ids ih =>
      have rest := ih (g.nearer query best id)
      rw [List.foldl_cons]
      rw [nearer_eq] at rest ⊢
      split at rest
      case isTrue nearer =>
        rw [if_pos nearer]
        rcases rest with same | less
        · rw [same]
          exact .inr nearer
        · exact .inr (Binary64.lt_trans less nearer)
      case isFalse other =>
        rw [if_neg other]
        exact rest

/-- What is not nearer than a candidate is not nearer than the nearest one either. -/
theorem not_lt_foldl_nearer_of_not_lt (g : Graph α) (query : List α) (ids : List Nat)
    {best : Candidate} {distance : Binary64} (not_less : distance.lt best.distance = false) :
    distance.lt (ids.foldl (g.nearer query) best).distance = false := by
  rcases foldl_nearer_eq_or_lt g query ids best with same | less
  · rwa [same]
  · refine Bool.eq_false_iff.2 fun below => ?_
    rw [Binary64.lt_trans below less] at not_less
    cases not_less

/-- None of the nodes that were compared is nearer than the candidate that is left. -/
theorem not_lt_foldl_nearer (g : Graph α) (query : List α) {ids : List Nat} (best : Candidate)
    {id : Nat} (compared : id ∈ ids) :
    (g.distanceTo query id).lt (ids.foldl (g.nearer query) best).distance = false := by
  induction ids generalizing best with
  | nil => cases compared
  | cons first ids ih =>
      rw [List.foldl_cons]
      rcases List.mem_cons.1 compared with rfl | later
      · apply not_lt_foldl_nearer_of_not_lt
        rw [nearer_eq]
        split
        · exact Binary64.lt_irrefl _
        case isFalse not_less => exact Bool.eq_false_iff.2 not_less
      · exact ih _ later

/-- A round that moves the place brings it nearer. -/
theorem round_eq_or_lt (g : Graph α) (query : List α) (layer : Nat) (place : Candidate) :
    g.round query layer place = place ∨
      (g.round query layer place).distance.lt place.distance = true :=
  foldl_nearer_eq_or_lt ..

/-! ### All rounds -/

/-- A descent goes on as long as rounds move the place, which they do less often than there are
nodes nearer than the start. -/
theorem descend_eq_iterate (g : Graph α) (query : List α) (layer : Nat) (place : Candidate) :
    ∃ rounds ≤ g.countNearer query place.distance,
      g.descend query layer place = (g.round query layer)^[rounds] place ∧
      (∀ i < rounds, ((g.round query layer)^[i + 1] place).distance.lt
        ((g.round query layer)^[i] place).distance = true) ∧
      (g.round query layer)^[rounds + 1] place = (g.round query layer)^[rounds] place := by
  fun_induction descend g query layer place with
  | case1 place next closer ih =>
      obtain ⟨rounds, few, ends, moves, last⟩ := ih
      have fewer : g.countNearer query next.distance < g.countNearer query place.distance :=
        countNearer_lt g query closer
      refine ⟨rounds + 1, Nat.le_trans (Nat.succ_le_succ few) fewer, ends, fun i lt => ?_, last⟩
      cases i with
      | zero => exact closer
      | succ i => exact moves i (Nat.lt_of_succ_lt_succ lt)
  | case2 place next stays =>
      have same := (round_eq_or_lt g query layer place).resolve_right stays
      exact ⟨0, Nat.zero_le _, rfl, fun _ lt => absurd lt (Nat.not_lt_zero _), same⟩

/-- Rounds only bring the place nearer. -/
theorem iterate_round_eq_or_lt (g : Graph α) (query : List α) (layer : Nat) (place : Candidate)
    (rounds : Nat) : (g.round query layer)^[rounds] place = place ∨
      ((g.round query layer)^[rounds] place).distance.lt place.distance = true := by
  induction rounds with
  | zero => exact .inl rfl
  | succ rounds ih =>
      rw [Function.iterate_succ_apply']
      rcases round_eq_or_lt g query layer ((g.round query layer)^[rounds] place) with same | less
      · rwa [same]
      · rcases ih with start | before
        · rw [start] at less ⊢
          exact .inr less
        · exact .inr (Binary64.lt_trans less before)

/-! ### The end -/

/-- Where a descent that started at a node ends. -/
structure Descended (g : Graph α) (query : List α) (layer start : Nat) (found : Candidate) :
    Prop where
  stands : g.Stands found.id layer
  reached : g.Reaches layer start found.id
  distance_eq : found.distance = g.distanceTo query found.id
  start_or_nearer : found.id = start ∨ found.distance.lt (g.distanceTo query start) = true
  no_farther : (g.distanceTo query start).lt found.distance = false
  none_nearer : ∀ n ∈ (g.links found.id layer).out,
    (g.distanceTo query n).lt found.distance = false

/-- From a node of the layer a descent comes to its end, in at most as many rounds as there are
nodes nearer than the start and with one more that moves nothing. It reads the links of nodes of the
layer and the vectors of nodes only, and ends at one that is reached by their edges and has no
nearer neighbour. -/
theorem Paired.descended {g : Graph α} (paired : g.Paired) (vectored : g.Vectored)
    {start layer : Nat} (stands : g.Stands start layer) (query : List α) :
    let place : Candidate := ⟨g.distanceTo query start, start⟩
    ∃ rounds ≤ g.countNearer query place.distance,
      (∀ i < rounds, ((g.round query layer)^[i + 1] place).distance.lt
        ((g.round query layer)^[i] place).distance = true) ∧
      (g.round query layer)^[rounds + 1] place = (g.round query layer)^[rounds] place ∧
      g.descend query layer place = (g.round query layer)^[rounds] place ∧
      Guarded.descend g query layer place = some (g.descend query layer place) ∧
      g.Descended query layer start (g.descend query layer place) := by
  intro place
  obtain ⟨rounds, few, ends, moves, last⟩ := descend_eq_iterate g query layer place
  refine ⟨rounds, few, moves, last, ends,
    Guarded.descend_eq_some vectored paired query layer place stands, ?_⟩
  have start_or_nearer := iterate_round_eq_or_lt g query layer place rounds
  rw [← ends] at start_or_nearer
  constructor
  case stands => exact descend_keeps (paired.passes_stands layer) query place stands
  case reached =>
    have passes : g.Passes layer (g.Reaches layer start) := fun _ way _ edge => way.tail edge
    exact descend_keeps passes query place .refl
  case distance_eq => exact distance_descend rfl layer
  case start_or_nearer =>
    exact start_or_nearer.imp_left (congrArg Candidate.id)
  case no_farther =>
    rcases start_or_nearer with same | less
    · rw [same]
      exact Binary64.lt_irrefl _
    · exact Binary64.not_lt_of_le (Binary64.le_of_lt less)
  case none_nearer =>
    intro n edge
    rw [Function.iterate_succ_apply', ← ends] at last
    have compared := not_lt_foldl_nearer g query (g.descend query layer place) edge
    rwa [← round, last] at compared

/-- Three nodes in a row towards the origin, and beside the first one a node that is at no distance
from anywhere. -/
def hillside : Graph Binary64 where
  config := { dim := 1, metric := .l2 }
  nodes := #[
    { label := 1, generation := 0, layers := [⟨[1, 2], []⟩] },
    { label := 2, generation := 1, layers := [⟨[], [0]⟩] },
    { label := 3, generation := 2, layers := [⟨[3], [0]⟩] },
    { label := 4, generation := 3, layers := [⟨[], [2]⟩] }]
  vectors := #[.one + .one, .nan, .one, .zero]
  labels := (((LabelMap.empty.insert 1 [0]).insert 2 [1]).insert 3 [2]).insert 4 [3]
  entryPoint := some 0
  capacity := 1024
  nextGeneration := 4

/-- The descent passes the node without a distance by and ends at the foot. -/
theorem descended_hillside :
    let place : Candidate := ⟨hillside.distanceTo [.zero] 0, 0⟩
    hillside.Paired ∧ hillside.Vectored ∧ hillside.Stands 0 0 ∧
      (hillside.distanceTo [.zero] 1).isNaN = true ∧
      hillside.descend [.zero] 0 place = ⟨.zero, 3⟩ ∧
      hillside.Descended [.zero] 0 0 (hillside.descend [.zero] 0 place) := by
  intro place
  have obtained : Obtained hillside :=
    .loaded (by decide +kernel : Image.load (Image.write hillside) = _)
  have sturdy := obtained.sturdy.1
  have paired := sturdy.paired
  have vectored := sturdy.filled.vectored
  have stands : hillside.Stands 0 0 := by decide
  obtain ⟨_, _, _, _, _, _, descended⟩ := paired.descended vectored stands [Binary64.zero]
  exact ⟨paired, vectored, stands, by decide +kernel, by decide +kernel, descended⟩

end Vicinity.Graph
