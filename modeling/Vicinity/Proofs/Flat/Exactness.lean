import Vicinity.Proofs.BestHits
import Vicinity.Proofs.Binary64.Arithmetic
import Vicinity.Proofs.Exhaustive
import Vicinity.Proofs.Flat.Calls

/-!
Exhaustive queries are exact.

The hits of a query determine one ranking of the labels, each with its best score (`Reply.Ranks`),
down to the bits of the scores, since no distance is the negative zero
(`Metric.distance_ne_negZero`). A search lists the front of that ranking and a range query the part
within the radius, whichever calls led to what is stored (`Reachable.ranked`), and in whatever order
the best hits come out of the container that merges them (`Reachable.answers_of_perm`).
-/

namespace Vicinity

/-! ### Rankings -/

/-- Numbers at one place are the same word, unless one is the negative zero. -/
theorem Binary64.eq_of_key_eq {x y : Binary64} (proper_x : x ≠ negZero) (proper_y : y ≠ negZero)
    (same : x.key = y.key) : x = y := by
  rcases eq_or_isZero_of_key_eq same with eq | ⟨none_x, none_y⟩
  · exact eq
  · rw [(eq_zero_or_negZero none_x).resolve_right proper_x,
      (eq_zero_or_negZero none_y).resolve_right proper_y]

namespace Reply

/-- Every label once with its best score, by score and then by label. -/
structure Ranks (hits : List Hit) (ranking : Reply) : Prop where
  best : ∀ hit ∈ ranking, hit.IsBest hits
  perm_labels : ranking.labels.Perm (labels hits).dedup
  ordered : ranking.Pairwise fun a b => a.precedes b = true

namespace Ranks

variable {hits hits' : List Hit} {ranking other : Reply}

theorem nodup_labels (ranks : Ranks hits ranking) : ranking.labels.Nodup :=
  ranks.perm_labels.nodup_iff.2 (List.nodup_dedup _)

theorem mem_labels (ranks : Ranks hits ranking) {label : Label} :
    label ∈ ranking.labels ↔ label ∈ labels hits := by
  rw [ranks.perm_labels.mem_iff, List.mem_dedup]

theorem perm (ranks : Ranks hits ranking) (same : hits'.Perm hits) : Ranks hits' ranking where
  best hit mem := (ranks.best hit mem).perm same
  perm_labels := ranks.perm_labels.trans (same.map _).dedup.symm
  ordered := ranks.ordered

/-- Best hits for all labels are ranked by sorting them. -/
theorem of_best {reply : Reply} (numeric : ∀ hit ∈ hits, hit.score.isNaN = false)
    (best : ∀ hit ∈ reply, hit.IsBest hits) (all : reply.labels.Perm (labels hits).dedup) :
    Ranks hits reply.sortByScore := by
  have sorted := reply.sortByScore_perm
  have numeric' : ∀ hit ∈ reply, hit.score.isNaN = false := fun hit mem =>
    numeric hit (best hit mem).1
  have all' := (sorted.map Hit.label).trans all
  refine ⟨fun hit mem => best hit (sorted.mem_iff.1 mem), all', ?_⟩
  refine precedes_of_sorted (fun hit mem => numeric' hit (sorted.mem_iff.1 mem))
    (sorted_sortByScore numeric') (all'.nodup_iff.2 (List.nodup_dedup _))

/-- What is within a radius is ranked as before: a label is within it if its best hit is. -/
theorem filter (ranks : Ranks hits ranking) (numeric : ∀ hit ∈ hits, hit.score.isNaN = false)
    (radius : Binary64) :
    Ranks (hits.filter (·.score.le radius)) (ranking.filter (·.score.le radius)) where
  best hit mem := by
    obtain ⟨ranked, within⟩ := List.mem_filter.1 mem
    have best := ranks.best hit ranked
    refine ⟨List.mem_filter.2 ⟨best.1, within⟩, fun other among same => ?_⟩
    exact best.2 other (List.mem_filter.1 among).1 same
  perm_labels := by
    have nodup : (labels (ranking.filter (·.score.le radius))).Nodup :=
      ranks.nodup_labels.sublist (List.filter_sublist.map Hit.label)
    refine (List.perm_ext_iff_of_nodup nodup (List.nodup_dedup _)).2 fun label => ?_
    rw [List.mem_dedup]
    constructor
    · intro mem
      obtain ⟨hit, among, rfl⟩ := List.mem_map.1 mem
      obtain ⟨ranked, within⟩ := List.mem_filter.1 among
      exact List.mem_map_of_mem (List.mem_filter.2 ⟨(ranks.best hit ranked).1, within⟩)
    · intro mem
      obtain ⟨hit, among, rfl⟩ := List.mem_map.1 mem
      obtain ⟨here, within⟩ := List.mem_filter.1 among
      obtain ⟨first, ranked, same⟩ := List.mem_map.1 (ranks.mem_labels.2 (List.mem_map_of_mem here))
      have best := ranks.best first ranked
      have closer : first.score.le hit.score = true :=
        (Binary64.le_iff (numeric first best.1) (numeric hit here)).2 (best.2 hit here same.symm)
      rw [← same]
      exact List.mem_map_of_mem (List.mem_filter.2 ⟨ranked, Binary64.le_trans closer within⟩)
  ordered := ranks.ordered.filter _

/-- There is one ranking, unless a score is the negative zero. -/
theorem unique (first : Ranks hits ranking) (second : Ranks hits other)
    (numeric : ∀ hit ∈ hits, hit.score.isNaN = false)
    (proper : ∀ hit ∈ hits, hit.score ≠ .negZero) : ranking = other := by
  have included : ∀ {a b : Reply}, Ranks hits a → Ranks hits b → ∀ hit ∈ a, hit ∈ b := by
    intro a b ranks_a ranks_b hit mem
    have best := ranks_a.best hit mem
    obtain ⟨hit', mem', same⟩ := List.mem_map.1
      (ranks_b.mem_labels.2 (List.mem_map_of_mem best.1))
    have best' := ranks_b.best hit' mem'
    have keys := Nat.le_antisymm (best.2 hit' best'.1 same) (best'.2 hit best.1 same.symm)
    have scores := Binary64.eq_of_key_eq (proper hit best.1) (proper hit' best'.1)
      (UInt64.toNat_inj.1 keys)
    have : hit = hit' := by
      cases hit
      cases hit'
      cases same
      cases scores
      rfl
    exact this ▸ mem'
  have perm : ranking.Perm other :=
    (List.perm_ext_iff_of_nodup (.of_map Hit.label first.nodup_labels)
      (.of_map Hit.label second.nodup_labels)).2
      fun hit => ⟨included first second hit, included second first hit⟩
  refine perm.eq_of_pairwise (fun a b in_a in_b before after => ?_) first.ordered second.ordered
  have number_a := numeric a (first.best a in_a).1
  have number_b := numeric b (second.best b in_b).1
  have before := (Hit.precedes_iff number_a number_b).1 before
  have after := (Hit.precedes_iff number_b number_a).1 after
  exact absurd before after.asymm

end Ranks

section Gather

variable {multi : Bool} {hits : List Hit}

theorem isBest_gather (numeric : ∀ hit ∈ hits, hit.score.isNaN = false)
    (once : multi = false → (labels hits).Nodup) :
    ∀ hit ∈ gather multi hits, hit.IsBest hits := by
  rw [gather]
  split
  case isTrue => exact (BestHits.collects_ofHits hits).isBest numeric
  case isFalse single =>
    have nodup := once (Bool.eq_false_iff.2 single)
    refine fun hit mem => ⟨mem, fun other there same => ?_⟩
    rw [List.inj_on_of_nodup_map nodup there mem same]

theorem perm_labels_gather (once : multi = false → (labels hits).Nodup) :
    (labels (gather multi hits)).Perm (labels hits).dedup := by
  rw [gather]
  split
  case isTrue => exact (BestHits.collects_ofHits hits).perm_labels
  case isFalse single => rw [(once (Bool.eq_false_iff.2 single)).dedup]

/-- What is gathered is ranked by sorting it, in whatever order it is handed out. -/
theorem ranks_of_perm_gather (numeric : ∀ hit ∈ hits, hit.score.isNaN = false)
    (once : multi = false → (labels hits).Nodup) {results : Reply}
    (shuffled : results.Perm (gather multi hits)) : Ranks hits results.sortByScore :=
  .of_best numeric (fun hit mem => isBest_gather numeric once hit (shuffled.mem_iff.1 mem))
    ((shuffled.map Hit.label).trans (perm_labels_gather once))

theorem ranks_gather (numeric : ∀ hit ∈ hits, hit.score.isNaN = false)
    (once : multi = false → (labels hits).Nodup) : Ranks hits (gather multi hits).sortByScore :=
  ranks_of_perm_gather numeric once (.refl _)

end Gather

end Reply

/-! ### Distances -/

variable {α : Type} [Element α]

/-- A distance from zero is zero with the positive sign. -/
theorem Metric.distance_ne_negZero (metric : Metric) {a b : List α} (some_a : a ≠ [])
    (some_b : b ≠ []) : metric.distance a b ≠ .negZero := by
  cases metric with
  | l2 =>
      have some : a.zipWith squaredGap b ≠ [] := by
        cases a with
        | nil => exact absurd rfl some_a
        | cons =>
            cases b with
            | nil => exact absurd rfl some_b
            | cons => exact List.cons_ne_nil _ _
      have unsigned : ∀ x ∈ a.zipWith squaredGap b, x.Unsigned := by
        intro x mem
        rw [← List.map_uncurry_zip_eq_zipWith] at mem
        obtain ⟨⟨p, q⟩, _, rfl⟩ := List.mem_map.1 mem
        exact Binary64.unsigned_mul_self _
      intro same
      have positive := Binary64.unsigned_sum some unsigned
      rw [distance] at same
      rw [same] at positive
      exact absurd (positive (by decide)) (by decide)
  | innerProduct | cosine => exact Binary64.one_sub_ne_negZero _

namespace Flat

variable {f : Flat α}

theorem OnePerLabel.nodup_labels_hits (once : f.OnePerLabel) (metric : Metric) (query : List α) :
    f.multi = false → (Reply.labels (f.holdings.hits metric query)).Nodup := by
  intro single
  rw [Holdings.labels_hits, holdings, List.map_map]
  exact once single

/-- The hits of what is stored have no negative zero for a score. -/
theorem WellFormed.proper_hits (wf : f.WellFormed) {query : List α}
    (accepted : checkDimension f.dim query.length = .ok ()) :
    ∀ hit ∈ f.holdings.hits f.metric (f.metric.prepare query), hit.score ≠ .negZero := by
  obtain ⟨length, positive⟩ := checkDimension_eq_ok_iff.1 accepted
  have nonempty : ∀ v : List α, v.length = f.dim → v ≠ [] := by
    rintro v same rfl
    exact positive same.symm
  intro hit mem
  obtain ⟨pair, stored, rfl⟩ := List.mem_map.1 mem
  obtain ⟨row, in_slots, rfl⟩ := List.mem_map.1 stored
  apply Metric.distance_ne_negZero
  · exact nonempty _ ((Metric.length_prepare ..).trans length)
  · exact nonempty _ (wf.vector_length row in_slots)

/-- A search lists the front of a ranking, and a range query the part within the radius. -/
structure Answers (f : Flat α) (query : List α) (ranking : Reply) : Prop where
  search : ∀ k, f.search query k = .ok (ranking.take k)
  range : ∀ radius, f.range query radius = .ok (ranking.filter (·.score.le radius))

/-- The hits that pass a test have one ranking: sorting them gives it, in whatever order they are
handed out. -/
theorem WellFormed.sortByScore_eq (wf : f.WellFormed) (once : f.OnePerLabel) {query : List α}
    (accepted : checkDimension f.dim query.length = .ok ())
    (comparable : f.holdings.Comparable f.metric (f.metric.prepare query))
    {keep : Binary64 → Bool} {results ranking : Reply}
    (shuffled : results.Perm (f.gather (f.metric.prepare query) keep))
    (ranks : Reply.Ranks ((f.holdings.hits f.metric (f.metric.prepare query)).filter
      fun hit => keep hit.score) ranking) : results.sortByScore = ranking := by
  let hits := f.holdings.hits f.metric (f.metric.prepare query)
  have numeric : ∀ hit ∈ hits.filter (fun hit => keep hit.score), hit.score.isNaN = false :=
    fun hit mem => comparable.numeric hit (List.mem_filter.1 mem).1
  have nodup : f.multi = false →
      (Reply.labels (hits.filter fun hit => keep hit.score)).Nodup := fun single =>
    (once.nodup_labels_hits f.metric (f.metric.prepare query) single).sublist
      (List.filter_sublist.map Hit.label)
  rw [gather_eq] at shuffled
  exact (Reply.ranks_of_perm_gather numeric nodup shuffled).unique ranks numeric
    fun hit mem => wf.proper_hits accepted hit (List.mem_filter.1 mem).1

theorem WellFormed.answers (wf : f.WellFormed) (once : f.OnePerLabel) {query : List α}
    (accepted : checkDimension f.dim query.length = .ok ())
    (comparable : f.holdings.Comparable f.metric (f.metric.prepare query)) {ranking : Reply}
    (ranks : Reply.Ranks (f.holdings.hits f.metric (f.metric.prepare query)) ranking) :
    f.Answers query ranking := by
  constructor
  · intro k
    rw [search, accepted]
    dsimp only
    split
    case isTrue none => rw [none, List.take_zero]
    case isFalse =>
      rw [wf.sortByScore_eq once accepted comparable (.refl _) (by rwa [List.filter_true])]
  · intro radius
    rw [range, accepted]
    dsimp only
    rw [wf.sortByScore_eq once accepted comparable (.refl _)
      (ranks.filter comparable.numeric radius)]

/-- The order in which the best hits are handed out does not show in an answer. -/
theorem Reachable.answers_of_perm (reachable : f.Reachable) {query : List α}
    (accepted : checkDimension f.dim query.length = .ok ())
    (comparable : f.holdings.Comparable f.metric (f.metric.prepare query)) :
    (∀ results : Reply, results.Perm (f.gather (f.metric.prepare query) fun _ => true) →
      ∀ k, f.search query k = .ok (results.sortByScore.take k)) ∧
    ∀ radius, ∀ results : Reply,
      results.Perm (f.gather (f.metric.prepare query) (·.le radius)) →
      f.range query radius = .ok results.sortByScore := by
  have wf := reachable.wellFormed
  have once := reachable.onePerLabel
  have ranks := Reply.ranks_gather comparable.numeric
    (once.nodup_labels_hits f.metric (f.metric.prepare query))
  have answers := wf.answers once accepted comparable ranks
  constructor
  · intro results shuffled k
    rw [answers.search, wf.sortByScore_eq once accepted comparable shuffled
      (by rwa [List.filter_true])]
  · intro radius results shuffled
    rw [answers.range, wf.sortByScore_eq once accepted comparable shuffled
      (ranks.filter comparable.numeric radius)]

/-- Queries are answered from the one ranking of what is stored, and so by any index that holds the
same vectors under the same labels, whatever calls led there. -/
theorem Reachable.ranked (reachable : f.Reachable) {query : List α}
    (accepted : checkDimension f.dim query.length = .ok ())
    (comparable : f.holdings.Comparable f.metric (f.metric.prepare query)) :
    ∃ ranking : Reply,
      Reply.Ranks (f.holdings.hits f.metric (f.metric.prepare query)) ranking ∧
      ranking.labels.Perm f.labels ∧
      f.Answers query ranking ∧
      ∀ g : Flat α, g.Reachable → g.dim = f.dim → g.metric = f.metric →
        g.holdings.Perm f.holdings → g.Answers query ranking := by
  obtain ⟨ranking, ranks⟩ : ∃ ranking,
      Reply.Ranks (f.holdings.hits f.metric (f.metric.prepare query)) ranking :=
    ⟨_, Reply.ranks_gather comparable.numeric
      (reachable.onePerLabel.nodup_labels_hits f.metric (f.metric.prepare query))⟩
  have answers :=
    reachable.wellFormed.answers reachable.onePerLabel accepted comparable ranks
  refine ⟨ranking, ranks, ?_, answers, fun g reachable' same_dim same_metric same => ?_⟩
  · refine (List.perm_ext_iff_of_nodup ranks.nodup_labels (nodup_labels f)).2 fun label => ?_
    rw [ranks.mem_labels, mem_labels reachable.wellFormed, Holdings.labels_hits,
      Holdings.count_eq, List.count_pos_iff]
  · rw [← same_metric] at comparable ranks
    exact reachable'.wellFormed.answers reachable'.onePerLabel (same_dim ▸ accepted)
      (comparable.perm same) (ranks.perm (Holdings.perm_hits same))

/-- A label with two vectors is ranked by the closer one. -/
theorem ranked_twice_stored : ∃ (f : Flat Binary64) (ranking : Reply), f.Reachable ∧
    f.holdings = [(7, [.zero]), (8, [.zero]), (7, [.one])] ∧
    ranking.labels.Perm [7, 8] ∧ f.Answers [.one] ranking := by
  let calls : List (Call Binary64) :=
    [.add 7 [.zero], .addEntry 8 [.zero], .add 7 [.one]]
  have reachable := (Reachable.new 1 .l2 true 1024).after calls
  have comparable : ((new 1 .l2 true 1024).after calls).holdings.Comparable .l2 [.one] := by
    unfold Holdings.Comparable
    decide +kernel
  have accepted : checkDimension ((new 1 .l2 true 1024).after calls).dim [Binary64.one].length =
      .ok () := by
    decide +kernel
  obtain ⟨ranking, _, listed, answers, _⟩ := reachable.ranked accepted comparable
  have labels : ((new 1 .l2 true 1024).after calls).labels = [7, 8] := by decide +kernel
  exact ⟨_, ranking, reachable, by decide +kernel, labels ▸ listed, answers⟩

end Flat

end Vicinity
