import Mathlib.Data.List.Induction
import Vicinity.Proofs.Graph.Replies

/-!
One hit for each label.

A hit is best among some hits when none of its label has a lower score. `Condenses hits n reply`
says that the reply lists best hits for `n` labels, or for all if there are fewer, and that no other
label has a best hit with a lower score. So the scores of such a reply are determined
(`Condenses.sameScores`).

There are two ways to come by one. A collector has a hit for each label (`BestHits.Collects`): the
first if its score is a NaN, and otherwise one with the lowest number (`Hit.IsKept`). Without NaN
scores these are best hits, and sorting them puts the best labels first (`condenses_ofHits`). Going
through hits in order and taking the first of each label finds the best hits, too, but only of
labels that are among the hits gone through (`condenses_firstPerLabel`).
-/

namespace Vicinity

namespace Hit

/-- No hit of the label has a lower score. -/
def IsBest (hits : List Hit) (hit : Hit) : Prop :=
  hit ∈ hits ∧ ∀ other ∈ hits, other.label = hit.label → hit.key ≤ other.key

theorem IsBest.perm {hits hits' : List Hit} {hit : Hit} (best : hit.IsBest hits)
    (same : hits'.Perm hits) : hit.IsBest hits' :=
  ⟨same.mem_iff.2 best.1, fun other mem => best.2 other (same.mem_iff.1 mem)⟩

end Hit

namespace Reply

theorem labels_take (reply : Reply) (k : Nat) : labels (reply.take k) = reply.labels.take k :=
  List.map_take

/-! ### The best score of a label -/

/-- Where the best score of a label stands. -/
def bestKey (hits : List Hit) (label : Label) : Nat :=
  ((hits.filter (·.label == label)).map Hit.key).min?.getD 0

theorem bestKey_eq {hits : List Hit} {hit : Hit} (best : hit.IsBest hits) :
    bestKey hits hit.label = hit.key := by
  have least : ((hits.filter (·.label == hit.label)).map Hit.key).min? = some hit.key := by
    refine List.min?_eq_some_iff.2 ⟨?_, fun key mem => ?_⟩
    · exact List.mem_map_of_mem (List.mem_filter.2 ⟨best.1, beq_self_eq_true _⟩)
    · obtain ⟨other, among, rfl⟩ := List.mem_map.1 mem
      obtain ⟨here, same⟩ := List.mem_filter.1 among
      exact best.2 other here (beq_iff_eq.1 same)
  rw [bestKey, least, Option.getD_some]

/-- A label that was hit has a best hit. -/
theorem exists_best {hits : List Hit} {label : Label} (hit_label : label ∈ labels hits) :
    ∃ hit : Hit, hit.IsBest hits ∧ hit.label = label := by
  let keys := (hits.filter (·.label == label)).map Hit.key
  have some_key : keys ≠ [] := by
    obtain ⟨hit, mem, same⟩ := List.mem_map.1 hit_label
    apply List.ne_nil_of_mem
    exact List.mem_map_of_mem (List.mem_filter.2 ⟨mem, beq_iff_eq.2 same⟩)
  obtain ⟨least, found⟩ := Option.ne_none_iff_exists'.1 (mt List.min?_eq_none_iff.1 some_key)
  obtain ⟨mem, lower⟩ := List.min?_eq_some_iff.1 found
  obtain ⟨hit, among, rfl⟩ := List.mem_map.1 mem
  obtain ⟨here, same⟩ := List.mem_filter.1 among
  refine ⟨hit, ⟨here, fun other mem own => ?_⟩, beq_iff_eq.1 same⟩
  apply lower
  apply List.mem_map_of_mem
  exact List.mem_filter.2 ⟨mem, beq_iff_eq.2 (own.trans (beq_iff_eq.1 same))⟩

/-- The order of the hits does not matter. -/
theorem bestKey_perm {hits hits' : List Hit} (same : hits'.Perm hits) :
    bestKey hits' = bestKey hits := by
  funext label
  by_cases hit_label : label ∈ labels hits
  · obtain ⟨hit, best, rfl⟩ := exists_best hit_label
    rw [bestKey_eq best, bestKey_eq (best.perm same)]
  · have none : hits.filter (·.label == label) = [] := by
      refine List.filter_eq_nil_iff.2 fun hit mem own => hit_label ?_
      exact List.mem_map.2 ⟨hit, mem, beq_iff_eq.1 own⟩
    have none' := (same.filter (·.label == label)).symm
    rw [none] at none'
    rw [bestKey, bestKey, none, none'.nil_eq]

/-- Best hits of the `n` labels whose best scores are lowest, or of all labels. -/
structure Condenses (hits : List Hit) (n : Nat) (reply : Reply) : Prop where
  best : ∀ hit ∈ reply, hit.IsBest hits
  leading : Leading (bestKey hits) n (labels hits).dedup reply.labels

namespace Condenses

variable {hits : List Hit} {n : Nat} {reply other : Reply}

theorem nodup (condenses : Condenses hits n reply) : reply.labels.Nodup := by
  have all : ((labels hits).dedup.map id).Nodup := by
    rw [List.map_id]
    exact List.nodup_dedup _
  have listed := condenses.leading.nodup_map all
  rwa [List.map_id] at listed

theorem length_eq (condenses : Condenses hits n reply) :
    reply.length = min n (labels hits).dedup.length := by
  rw [← condenses.leading.length_eq, labels, List.length_map]

theorem perm (condenses : Condenses hits n reply) {hits' : List Hit} (same : hits'.Perm hits) :
    Condenses hits' n reply := by
  refine ⟨fun hit mem => (condenses.best hit mem).perm same, ?_⟩
  rw [bestKey_perm same]
  exact condenses.leading.perm (same.map _).dedup.symm

theorem take (condenses : Condenses hits n reply) {j : Nat} (le : j ≤ n) :
    Condenses hits j (reply.take j) := by
  refine ⟨fun hit mem => condenses.best hit (List.mem_of_mem_take mem), ?_⟩
  rw [labels_take]
  exact condenses.leading.take le

/-- The front of a reply that is all there is. -/
theorem front (condenses : Condenses hits reply.length reply) (k : Nat) :
    Condenses hits (reply.take k).length (reply.take k) := by
  have shorter := condenses.take (List.length_take_le' k reply)
  have same : reply.take (reply.take k).length = reply.take k := by
    rw [List.length_take, ← List.take_eq_take_min]
  rwa [same] at shorter

theorem map_key_eq (condenses : Condenses hits n reply) :
    reply.map Hit.key = reply.labels.map (bestKey hits) := by
  rw [labels, List.map_map]
  exact List.map_congr_left fun hit mem => (bestKey_eq (condenses.best hit mem)).symm

/-- The scores are determined. -/
theorem sameScores (numeric : ∀ hit ∈ hits, hit.score.isNaN = false)
    (first : Condenses hits n reply) (second : Condenses hits n other) :
    SameScores reply other := by
  apply sameScores_of_map_key_eq
  · exact fun hit mem => numeric hit (first.best hit mem).1
  · exact fun hit mem => numeric hit (second.best hit mem).1
  · rw [first.map_key_eq, second.map_key_eq, first.leading.map_key_eq second.leading]

end Condenses

/-! ### The first hit of each label -/

theorem mem_labels_firstPerLabel {seen : List Label} {hits : List Hit} {label : Label} :
    label ∈ labels (Graph.firstPerLabel seen hits) ↔ label ∈ labels hits ∧ label ∉ seen := by
  induction hits generalizing seen with
  | nil => simp [Graph.firstPerLabel, labels]
  | cons hit hits ih =>
      rw [Graph.firstPerLabel]
      simp only [labels, List.map_cons, List.mem_cons] at ih ⊢
      split
      case isTrue old =>
        rw [ih]
        refine and_congr_left fun unseen => (or_iff_right ?_).symm
        rintro rfl
        exact unseen old
      case isFalse fresh =>
        rw [List.map_cons, List.mem_cons, ih, List.mem_cons, not_or]
        by_cases same : label = hit.label
        · subst same
          exact iff_of_true (.inl rfl) ⟨.inl rfl, fresh⟩
        · simp only [same, false_or, not_false_eq_true, true_and]

theorem perm_labels_firstPerLabel (hits : List Hit) :
    (labels (Graph.firstPerLabel [] hits)).Perm (labels hits).dedup := by
  refine (List.perm_ext_iff_of_nodup (Graph.firstPerLabel_spec [] hits).1
    (List.nodup_dedup _)).2 fun label => ?_
  rw [mem_labels_firstPerLabel, List.mem_dedup, and_iff_left List.not_mem_nil]

theorem length_firstPerLabel (hits : List Hit) :
    (Graph.firstPerLabel [] hits).length = (labels hits).dedup.length := by
  rw [← (perm_labels_firstPerLabel hits).length_eq, labels, List.length_map]

/-- Among hits in order the first one of a label is best. -/
theorem firstPerLabel_le {seen : List Label} {hits : List Hit}
    (ordered : hits.Pairwise fun a b => a.key ≤ b.key) {hit other : Hit}
    (mem : hit ∈ Graph.firstPerLabel seen hits) (there : other ∈ hits)
    (same : other.label = hit.label) : hit.key ≤ other.key := by
  induction hits generalizing seen with
  | nil => cases there
  | cons first hits ih =>
      obtain ⟨below, ordered⟩ := List.pairwise_cons.1 ordered
      have unseen := (mem_labels_firstPerLabel.1 (List.mem_map_of_mem mem)).2
      rw [Graph.firstPerLabel] at mem
      split at mem
      case isTrue old =>
        rcases List.mem_cons.1 there with rfl | later
        · exact absurd (same ▸ old) unseen
        · exact ih ordered mem later
      case isFalse =>
        rcases List.mem_cons.1 mem with rfl | behind
        · rcases List.mem_cons.1 there with rfl | later
          · exact Nat.le_refl _
          · exact below other later
        · rcases List.mem_cons.1 there with rfl | later
          · have apart := (mem_labels_firstPerLabel.1 (List.mem_map_of_mem behind)).2
            exact absurd (same ▸ List.mem_cons_self) apart
          · exact ih ordered behind later

/-- The first hit of each label among the nearest hits: these are best hits, and the labels that are
not among them have no better one. -/
theorem condenses_firstPerLabel {hits nearest : List Hit} {ef : Nat}
    (leading : Leading Hit.key ef hits nearest) :
    Condenses hits (Graph.firstPerLabel [] nearest).length (Graph.firstPerLabel [] nearest) := by
  let reply : Reply := Graph.firstPerLabel [] nearest
  have sub : reply.Sublist nearest := Graph.firstPerLabel_sublist [] nearest
  obtain ⟨rest, all, beyond⟩ := leading.split
  have best : ∀ hit ∈ reply, hit.IsBest hits := by
    intro hit mem
    refine ⟨leading.mem (sub.subset mem), fun other there same => ?_⟩
    rcases List.mem_append.1 (all.mem_iff.2 there) with near | far
    · exact firstPerLabel_le leading.ordered mem near same
    · exact beyond hit (sub.subset mem) other far
  have nodup : reply.labels.Nodup := (Graph.firstPerLabel_spec [] nearest).1
  have listed : ∀ label ∈ reply.labels, label ∈ (labels hits).dedup := by
    intro label mem
    obtain ⟨hit, here, rfl⟩ := List.mem_map.1 mem
    exact List.mem_dedup.2 (List.mem_map_of_mem (best hit here).1)
  have split := Graph.perm_append_filter_not_mem nodup listed (List.nodup_dedup _)
  refine ⟨best, ?_, ⟨_, split, fun a here b outside => ?_⟩, ?_⟩
  · have ordered := leading.ordered.sublist sub
    refine List.pairwise_map.2 (ordered.imp_of_mem fun {a b} in_a in_b le => ?_)
    rwa [bestKey_eq (best a in_a), bestKey_eq (best b in_b)]
  · obtain ⟨label_hit, not_listed⟩ := List.mem_filter.1 outside
    obtain ⟨hit, mem, rfl⟩ := List.mem_map.1 here
    obtain ⟨other, best_other, rfl⟩ := exists_best (List.mem_dedup.1 label_hit)
    rw [bestKey_eq (best hit mem), bestKey_eq best_other]
    rcases List.mem_append.1 (all.mem_iff.2 best_other.1) with near | far
    · have taken := mem_labels_firstPerLabel.2 ⟨List.mem_map_of_mem near, List.not_mem_nil⟩
      exact absurd taken (of_decide_eq_true not_listed)
    · exact beyond hit (sub.subset mem) other far
  · have few := split.length_eq
    have same : reply.labels.length = reply.length := List.length_map _
    rw [List.length_append, same] at few
    change reply.labels.length = min reply.length _
    omega

end Reply

/-! ### The best hit of each label -/

namespace Hit

/-- The hit with which a label is first met. -/
def opening (hits : List Hit) (label : Label) : Option Hit := hits.find? (·.label == label)

theorem exists_opening {hits : List Hit} {hit : Hit} (mem : hit ∈ hits) :
    ∃ first ∈ hits, first.label = hit.label ∧ opening hits hit.label = some first := by
  have met : (opening hits hit.label).isSome = true :=
    List.find?_isSome.2 ⟨hit, mem, beq_self_eq_true _⟩
  obtain ⟨first, found⟩ := Option.isSome_iff_exists.1 met
  rw [opening] at found
  exact ⟨first, List.mem_of_find?_eq_some found, beq_iff_eq.1 (List.find?_some found :), found⟩

theorem opening_concat {hits : List Hit} {hit : Hit} (mem : hit ∈ hits) (last : Hit) :
    opening (hits ++ [last]) hit.label = opening hits hit.label := by
  obtain ⟨first, _, _, found⟩ := exists_opening mem
  rw [opening, List.find?_append, ← opening, found, Option.some_or]

/-- What is kept for a label: the first hit if its score is a NaN, and otherwise one whose score is
the lowest of its numbers. -/
structure IsKept (hits : List Hit) (hit : Hit) : Prop where
  mem : hit ∈ hits
  of_nan : ∀ first, opening hits hit.label = some first → first.score.isNaN = true → hit = first
  of_number : ∀ first, opening hits hit.label = some first → first.score.isNaN = false →
    hit.score.isNaN = false ∧
      ∀ other ∈ hits, other.label = hit.label → other.score.lt hit.score = false

namespace IsKept

variable {hits : List Hit} {hit last : Hit}

/-- A label's first hit. -/
theorem concat_new (unmet : ∀ other ∈ hits, other.label ≠ last.label) :
    last.IsKept (hits ++ [last]) := by
  have first_met : opening (hits ++ [last]) last.label = some last := by
    have none : hits.find? (·.label == last.label) = none :=
      List.find?_eq_none.2 fun other mem same => unmet other mem (beq_iff_eq.1 same)
    rw [opening, List.find?_append, none, Option.none_or]
    exact List.find?_cons_of_pos (beq_self_eq_true _)
  refine ⟨List.mem_append_right _ (List.mem_singleton_self last), fun first met _ => ?_,
    fun first met number => ?_⟩
  · exact Option.some.inj (first_met.symm.trans met)
  · cases first_met.symm.trans met
    refine ⟨number, fun other mem same => ?_⟩
    rcases List.mem_append.1 mem with old | new
    · exact absurd same (unmet other old)
    · rw [List.mem_singleton.1 new]
      exact Binary64.lt_irrefl _

/-- A hit that is not lower does not matter, nor does one of another label. -/
theorem concat (kept : hit.IsKept hits)
    (no_better : last.label = hit.label → last.score.lt hit.score = false) :
    hit.IsKept (hits ++ [last]) := by
  refine ⟨List.mem_append_left _ kept.mem, fun first met nan => ?_, fun first met number => ?_⟩
  · rw [opening_concat kept.mem] at met
    exact kept.of_nan first met nan
  · rw [opening_concat kept.mem] at met
    obtain ⟨number, lowest⟩ := kept.of_number first met number
    refine ⟨number, fun other mem same => ?_⟩
    rcases List.mem_append.1 mem with old | new
    · exact lowest other old same
    · rw [List.mem_singleton.1 new] at same ⊢
      exact no_better same

/-- A lower score is kept instead. -/
theorem concat_lower (kept : hit.IsKept hits) (same_label : hit.label = last.label)
    (lower : last.score.lt hit.score = true) : last.IsKept (hits ++ [last]) := by
  obtain ⟨last_number, hit_number⟩ := Binary64.numbers_of_lt lower
  refine ⟨List.mem_append_right _ (List.mem_singleton_self last), fun first met nan => ?_,
    fun first met number => ⟨last_number, fun other mem same => ?_⟩⟩
  · rw [← same_label, opening_concat kept.mem] at met
    rw [← kept.of_nan first met nan, hit_number] at nan
    cases nan
  · rw [← same_label, opening_concat kept.mem] at met
    obtain ⟨_, lowest⟩ := kept.of_number first met number
    rcases List.mem_append.1 mem with old | new
    · refine Bool.eq_false_iff.2 fun less => ?_
      have below := Binary64.lt_trans less lower
      rw [lowest other old (same.trans same_label.symm)] at below
      cases below
    · rw [List.mem_singleton.1 new]
      exact Binary64.lt_irrefl _

/-- Among numbers, the best hit is kept. -/
theorem isBest (kept : hit.IsKept hits)
    (numeric : ∀ other ∈ hits, other.label = hit.label → other.score.isNaN = false) :
    hit.IsBest hits := by
  refine ⟨kept.mem, fun other mem same => ?_⟩
  obtain ⟨first, first_mem, first_label, met⟩ := exists_opening kept.mem
  obtain ⟨number, lowest⟩ := kept.of_number first met (numeric first first_mem first_label)
  have other_number := numeric other mem same
  have le := Binary64.le_of_not_lt other_number number (lowest other mem same)
  exact (Binary64.le_iff number other_number).1 le

end IsKept

end Hit

namespace BestHits

/-- The collector has what is kept of the hits, for every label hit. -/
structure Collects (best : BestHits) (hits : List Hit) : Prop where
  kept : ∀ label score, best.scores.find? label = some score → Hit.IsKept hits ⟨label, score⟩
  covered : ∀ hit ∈ hits, best.scores.find? hit.label ≠ none

theorem collects_empty : empty.Collects [] where
  kept _ _ found := by cases found
  covered _ mem := by cases mem

/-- A hit that is kept is entered. -/
theorem Collects.insert {best : BestHits} {hits : List Hit} (collects : best.Collects hits)
    {last : Hit} (now_kept : last.IsKept (hits ++ [last])) :
    (⟨best.scores.insert last.label last.score⟩ : BestHits).Collects (hits ++ [last]) where
  kept := by
    intro label score found
    rw [LabelMap.find?_insert] at found
    split at found
    case isTrue same =>
      cases found
      subst same
      exact now_kept
    case isFalse other =>
      exact (collects.kept label score found).concat fun same => absurd same other
  covered := by
    intro hit mem
    rw [LabelMap.find?_insert]
    split
    case isTrue => exact Option.some_ne_none _
    case isFalse other =>
      rcases List.mem_append.1 mem with old | new
      · exact collects.covered hit old
      · rw [List.mem_singleton.1 new] at other
        exact absurd rfl other

/-- A hit that is not lower than what its label has is left out. -/
theorem Collects.leave {best : BestHits} {hits : List Hit} (collects : best.Collects hits)
    {last : Hit} {score : Binary64} (found : best.scores.find? last.label = some score)
    (not_lower : last.score.lt score = false) : best.Collects (hits ++ [last]) where
  kept := by
    intro label score' found'
    refine (collects.kept label score' found').concat fun same => ?_
    dsimp only at same
    subst same
    cases found.symm.trans found'
    exact not_lower
  covered := by
    intro hit mem
    rcases List.mem_append.1 mem with old | new
    · exact collects.covered hit old
    · rw [List.mem_singleton.1 new, found]
      exact Option.some_ne_none _

theorem Collects.add {best : BestHits} {hits : List Hit} (collects : best.Collects hits)
    (last : Hit) : (best.add last).Collects (hits ++ [last]) := by
  unfold BestHits.add
  split
  case h_1 none =>
    refine collects.insert (Hit.IsKept.concat_new fun other mem same => ?_)
    exact absurd (same ▸ none) (collects.covered other mem)
  case h_2 score found =>
    split
    case isTrue lower =>
      exact collects.insert ((collects.kept _ _ found).concat_lower rfl lower)
    case isFalse not_lower => exact collects.leave found (Bool.eq_false_iff.2 not_lower)

theorem collects_ofHits (hits : List Hit) : (ofHits hits).Collects hits := by
  induction hits using List.reverseRecOn with
  | nil => exact collects_empty
  | append_singleton hits last ih =>
      rw [ofHits, List.foldl_append, ← ofHits]
      exact ih.add last

theorem Collects.isKept {best : BestHits} {hits : List Hit} (collects : best.Collects hits) :
    ∀ hit ∈ best.toReply, hit.IsKept hits := by
  intro hit mem
  obtain ⟨⟨label, score⟩, entry, rfl⟩ := List.mem_map.1 mem
  exact collects.kept label score (LabelMap.find?_eq_some_iff.2 entry)

/-- Among numbers these are best hits. -/
theorem Collects.isBest {best : BestHits} {hits : List Hit} (collects : best.Collects hits)
    (numeric : ∀ hit ∈ hits, hit.score.isNaN = false) : ∀ hit ∈ best.toReply, hit.IsBest hits :=
  fun hit mem => (collects.isKept hit mem).isBest fun other there _ => numeric other there

theorem Collects.perm_labels {best : BestHits} {hits : List Hit} (collects : best.Collects hits) :
    best.toReply.labels.Perm (Reply.labels hits).dedup := by
  refine (List.perm_ext_iff_of_nodup (Reply.nodup_labels_toReply _) (List.nodup_dedup _)).2
    fun label => ?_
  rw [List.mem_dedup]
  constructor
  · intro mem
    obtain ⟨hit, here, rfl⟩ := List.mem_map.1 mem
    exact List.mem_map_of_mem (collects.isKept hit here).mem
  · intro mem
    obtain ⟨hit, here, rfl⟩ := List.mem_map.1 mem
    obtain ⟨score, found⟩ := Option.ne_none_iff_exists'.1 (collects.covered hit here)
    exact List.mem_map.2
      ⟨⟨hit.label, score⟩, List.mem_map_of_mem (LabelMap.find?_eq_some_iff.1 found), rfl⟩

/-- Sorted, the best hits have the best labels first. -/
theorem condenses_ofHits {hits : List Hit} (numeric : ∀ hit ∈ hits, hit.score.isNaN = false)
    (k : Nat) : Reply.Condenses hits k ((ofHits hits).toReply.sortByScore.take k) := by
  have collects := collects_ofHits hits
  let reply := (ofHits hits).toReply
  have sorted := reply.sortByScore_perm
  have best : ∀ hit ∈ reply.sortByScore, hit.IsBest hits := fun hit mem =>
    collects.isBest numeric hit (sorted.mem_iff.1 mem)
  refine ⟨fun hit mem => best hit (List.mem_of_mem_take mem), ?_⟩
  rw [Reply.labels_take]
  refine .of_sorted (List.pairwise_map.2 ?_) ((sorted.map _).trans collects.perm_labels) k
  have numeric' : ∀ hit ∈ reply, hit.score.isNaN = false := fun hit mem =>
    numeric hit (collects.isKept hit mem).mem
  refine (Reply.sorted_sortByScore numeric').imp_of_mem fun {a b} in_a in_b le => ?_
  rw [Reply.bestKey_eq (best a in_a), Reply.bestKey_eq (best b in_b)]
  exact Hit.key_le_of_rank_le le

end BestHits

end Vicinity
