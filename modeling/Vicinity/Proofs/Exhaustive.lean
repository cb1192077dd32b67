import Vicinity.Proofs.Holdings
import Vicinity.Proofs.Reply

/-!
What a query finds among stored vectors.

Each vector is a hit at its distance. When no distance is NaN, an exhaustive search lists the first
hits by score and then by label (`Flat.search_leading`). These are the scores that any other search
has to come up with.
-/

namespace Vicinity

variable {α : Type} [Element α]

namespace Holdings

/-- The vectors as hits of a query. -/
def hits (metric : Metric) (query : List α) (held : Holdings α) : List Hit :=
  held.map fun pair => ⟨pair.1, metric.distance query pair.2⟩

/-- No vector is at a distance from the query that is NaN. -/
def Comparable (metric : Metric) (query : List α) (held : Holdings α) : Prop :=
  ∀ pair ∈ held, (metric.distance query pair.2).isNaN = false

/-- No two vectors are at the same distance from the query. -/
def Apart (metric : Metric) (query : List α) (held : Holdings α) : Prop :=
  held.Pairwise fun a b => ¬ (metric.distance query a.2).Equals (metric.distance query b.2)

variable {metric : Metric} {query : List α} {held other : Holdings α}

theorem length_hits (metric : Metric) (query : List α) (held : Holdings α) :
    (held.hits metric query).length = held.length := List.length_map _

theorem labels_hits (metric : Metric) (query : List α) (held : Holdings α) :
    Reply.labels (held.hits metric query) = held.map (·.1) := by
  rw [Reply.labels, hits, List.map_map]
  rfl

theorem hits_append (a b : Holdings α) :
    hits metric query (a ++ b) = a.hits metric query ++ b.hits metric query := List.map_append

theorem perm_hits (same : other.Perm held) :
    (other.hits metric query).Perm (held.hits metric query) := same.map _

theorem Comparable.perm (comparable : held.Comparable metric query) (same : other.Perm held) :
    other.Comparable metric query :=
  fun pair here => comparable pair (same.mem_iff.1 here)

theorem Comparable.numeric (comparable : held.Comparable metric query) :
    ∀ hit ∈ held.hits metric query, hit.score.isNaN = false := by
  intro hit here
  obtain ⟨pair, stored, rfl⟩ := List.mem_map.1 here
  exact comparable pair stored

/-- A hit is told from the others by its score alone. -/
theorem Comparable.eq_of_key_eq (comparable : held.Comparable metric query)
    (apart : held.Apart metric query) :
    ∀ a ∈ held.hits metric query, ∀ b ∈ held.hits metric query, a.key = b.key → a = b := by
  have nodup : ((held.hits metric query).map Hit.key).Nodup := by
    rw [hits, List.map_map]
    refine List.pairwise_map.2 (apart.imp_of_mem fun {a b} in_a in_b other same => other ?_)
    exact (Binary64.equals_iff (comparable a in_a) (comparable b in_b)).2 same
  exact fun a in_a b in_b => List.inj_on_of_nodup_map nodup in_a in_b

end Holdings

namespace Flat

theorem gather_eq (f : Flat α) (query : List α) (keep : Binary64 → Bool) :
    f.gather query keep =
      Reply.gather f.multi ((f.holdings.hits f.metric query).filter fun hit => keep hit.score) := by
  rw [gather, Holdings.hits, holdings, List.map_map]
  rfl

theorem gather_all (f : Flat α) (single : f.multi = false) (query : List α) :
    f.gather query (fun _ => true) = f.holdings.hits f.metric query := by
  rw [gather_eq, single, Reply.gather, if_neg Bool.noConfusion, List.filter_true]

/-- An exhaustive search finds the first hits, in the order of a reply. -/
theorem search_leading {f : Flat α} (single : f.multi = false) {query : List α}
    (fits : checkDimension f.dim query.length = .ok ())
    (comparable : f.holdings.Comparable f.metric (f.metric.prepare query)) (k : Nat) :
    ∃ reply, f.search query k = .ok reply ∧
      Leading Hit.key k (f.holdings.hits f.metric (f.metric.prepare query)) reply := by
  let hits : Reply := f.holdings.hits f.metric (f.metric.prepare query)
  refine ⟨(Reply.sortByScore hits).take k, ?_, ?_⟩
  · rw [search, fits]
    dsimp only
    rw [gather_all f single]
    split
    case isTrue none => rw [none, List.take_zero]
    case isFalse => rfl
  · have sorted := Reply.sorted_sortByScore comparable.numeric
    exact .of_sorted (sorted.imp Hit.key_le_of_rank_le) (Reply.sortByScore_perm hits) k

end Flat

end Vicinity
