import Mathlib.Algebra.BigOperators.Group.List.Lemmas
import Mathlib.Algebra.Group.Action.Defs
import Mathlib.Algebra.Order.BigOperators.Group.List
import Mathlib.Algebra.Order.Ring.Nat
import Vicinity.Proofs.BestHits
import Vicinity.Proofs.Correspondence
import Vicinity.Proofs.Graph.Finding

/-!
Searches with several vectors a label.

A graph and an exhaustive index that took the same calls hold the same vectors
(`InStep.perm_holdings`), and where all nodes of the graph are linked with each other both find best
hits of labels, the lowest scores first. The exhaustive index goes through all vectors and so finds
as many labels as asked for, if there are as many. The beam of the graph holds vectors, and a label
counts once when they are reported; so the graph finds the labels that the nearest `ef` vectors
have, and no other (`Twins.search_deduplicated`). These can be fewer than asked for
(`Crowded.one_label_of_two`), unless the beam is so wide that no few labels can fill it.
-/

namespace Vicinity

variable {α : Type}

/-! ### The same vectors -/

/-- Holdings with the same vectors under each label are the same but for the order. -/
theorem Holdings.perm_of_vectors {a b : Holdings α}
    (same : ∀ label, ((a.filter (·.1 == label)).map fun pair => some pair.2).Perm
      ((b.filter (·.1 == label)).map fun pair => some pair.2)) : a.Perm b := by
  classical
  have counted (held : Holdings α) (label : Label) (vector : List α) :
      List.count (label, vector) held =
        List.count (some vector) ((held.filter (·.1 == label)).map fun pair => some pair.2) := by
    rw [List.count_eq_countP, List.count_eq_countP, List.countP_map, List.countP_filter]
    refine List.countP_congr fun pair _ => ?_
    simp [Prod.ext_iff, and_comm]
  refine List.perm_iff_count.2 fun ⟨label, vector⟩ => ?_
  rw [counted, counted, (same label).count_eq]

theorem Flat.perm_vectorsOf {f : Flat α} (wf : f.WellFormed) (label : Label) :
    (f.vectorsOf label).Perm
      ((f.holdings.filter (·.1 == label)).map fun pair => some pair.2) := by
  refine ((wf.perm_entriesOf label).map _).trans (.of_eq ?_)
  rw [holdings, List.filter_map, List.map_map, List.map_map]
  refine List.map_congr_left fun row mem => ?_
  have found := wf.entry?_eq (List.mem_filter.1 mem).1
  simp only [Function.comp_apply, found, Option.map_some]

theorem Graph.perm_vectorsOf {g : Graph α} (labelled : g.Labelled) (filled : g.Filled)
    (label : Label) :
    (g.vectorsOf label).Perm
      ((g.holdings.filter (·.1 == label)).map fun pair => some pair.2) := by
  refine ((perm_idsOf labelled filled label).map _).trans (.of_eq ?_)
  rw [holdings, List.filter_filterMap, List.map_filterMap, ← List.filterMap_eq_map,
    List.filterMap_filter]
  refine List.filterMap_congr fun id _ => ?_
  cases held : g.held? id with
  | none => simp
  | some pair =>
      obtain ⟨_, _, vector⟩ := held?_eq_some_iff.1 held
      obtain ⟨l, v⟩ := pair
      by_cases same : l = label <;> simp [same, vector]

namespace InStep

variable {f : Flat α} {g : Graph α}

theorem perm_holdings (inStep : InStep f g) : f.holdings.Perm g.holdings := by
  refine Holdings.perm_of_vectors fun label => ?_
  have same := Graph.perm_vectorsOf inStep.graph_wf.labelled inStep.graph_wf.stocked.toFilled label
  rw [← inStep.vectors] at same
  exact (Flat.perm_vectorsOf inStep.flat_wf label).symm.trans same

end InStep

/-- The labels of a graph are those of its vectors. -/
theorem Graph.labelCount_eq {g : Graph α} (labelled : g.Labelled) (filled : g.Filled) :
    g.labelCount = g.holdings.labels.length := by
  have same : g.labels.labels.Perm g.holdings.labels := by
    refine (List.perm_ext_iff_of_nodup (LabelMap.nodup_labels _) (List.nodup_dedup _)).2
      fun label => ?_
    rw [← LabelMap.contains_iff_mem_labels]
    change g.contains label = true ↔ label ∈ g.holdings.labels
    rw [contains_iff labelled filled, Holdings.mem_labels]
  rw [← same.length_eq, LabelMap.labels, List.length_map]
  rfl

/-! ### How many labels the nearest hits have -/

namespace Leading

variable {key : Hit → Nat} {ef : Nat} {hits nearest : List Hit}

/-- Each label of the nearest hits is a label of all. -/
theorem labels_le (leading : Leading key ef hits nearest) :
    (Reply.labels nearest).dedup.length ≤ (Reply.labels hits).dedup.length := by
  refine (List.Nodup.subperm (List.nodup_dedup _) fun label mem => ?_).length_le
  obtain ⟨hit, near, rfl⟩ := List.mem_map.1 (List.mem_dedup.1 mem)
  exact List.mem_dedup.2 (List.mem_map_of_mem (leading.mem near))

/-- A beam that holds every hit has all labels. -/
theorem labels_of_wide (leading : Leading key ef hits nearest) (wide : hits.length ≤ ef) :
    (Reply.labels nearest).dedup.length = (Reply.labels hits).dedup.length := by
  obtain ⟨rest, all, _⟩ := leading.split
  have length := all.length_eq
  rw [List.length_append, leading.length_eq, Nat.min_eq_right wide] at length
  have none : rest = [] := List.eq_nil_of_length_eq_zero (by omega)
  rw [none, List.append_nil] at all
  exact ((all.map _).dedup).length_eq

/-- Labels with few hits each cannot fill a wide beam. -/
theorem le_labels_of_spread (leading : Leading key ef hits nearest) {most : Nat}
    (spread : ∀ label, (Reply.labels hits).count label ≤ most) (narrow : ef < hits.length) :
    ef ≤ (Reply.labels nearest).dedup.length * most := by
  obtain ⟨rest, all, _⟩ := leading.split
  have few : ∀ label, (Reply.labels nearest).count label ≤ most := by
    intro label
    refine Nat.le_trans ?_ (spread label)
    have total := (all.map (·.label)).count_eq label
    rw [List.map_append, List.count_append] at total
    exact Nat.le.intro total
  have length : (Reply.labels nearest).length = ef := by
    rw [Reply.labels, List.length_map, leading.length_eq, Nat.min_eq_left (Nat.le_of_lt narrow)]
  calc ef = ((Reply.labels nearest).dedup.map (Reply.labels nearest).count).sum := by
        rw [List.sum_map_count_dedup_eq_length, length]
    _ ≤ ((Reply.labels nearest).dedup.map (Reply.labels nearest).count).length • most := by
        refine List.sum_le_card_nsmul _ _ fun count mem => ?_
        obtain ⟨label, _, rfl⟩ := List.mem_map.1 mem
        exact few label
    _ = (Reply.labels nearest).dedup.length * most := by
        rw [List.length_map, smul_eq_mul]

/-- So a beam that is wider than all but one of the labels asked for can fill finds them all. -/
theorem min_labels_of_spread (leading : Leading key ef hits nearest) {most k : Nat}
    (spread : ∀ label, (Reply.labels hits).count label ≤ most) (wide : (k - 1) * most < ef) :
    min k (Reply.labels nearest).dedup.length = min k (Reply.labels hits).dedup.length := by
  rcases Nat.lt_or_ge ef hits.length with narrow | room
  · have filled := leading.le_labels_of_spread spread narrow
    have enough : k - 1 < (Reply.labels nearest).dedup.length :=
      Nat.lt_of_mul_lt_mul_right (Nat.lt_of_lt_of_le wide filled)
    have more := leading.labels_le
    omega
  · rw [leading.labels_of_wide room]

end Leading

/-! ### Searches -/

variable [Element α]

/-- With several vectors a label an exhaustive search lists best hits. -/
theorem Flat.search_condenses {f : Flat α} (multi : f.multi = true) {query : List α}
    (fits : checkDimension f.dim query.length = .ok ())
    (comparable : f.holdings.Comparable f.metric (f.metric.prepare query)) (k : Nat) :
    ∃ reply, f.search query k = .ok reply ∧
      Reply.Condenses (f.holdings.hits f.metric (f.metric.prepare query)) k reply := by
  let hits : List Hit := f.holdings.hits f.metric (f.metric.prepare query)
  have gathered : f.gather (f.metric.prepare query) (fun _ => true) =
      (BestHits.ofHits hits).toReply := by
    rw [gather, multi, Reply.gather, if_pos rfl, List.filter_true]
    simp only [hits, Holdings.hits, holdings, List.map_map]
    rfl
  refine ⟨(BestHits.ofHits hits).toReply.sortByScore.take k, ?_, ?_⟩
  · rw [search, fits]
    dsimp only
    rw [gathered]
    split
    case isTrue none => rw [none, List.take_zero]
    case isFalse => rfl
  · exact BestHits.condenses_ofHits comparable.numeric k

namespace InStep

variable {f : Flat α} {g : Graph α} {query : List α}

/-- Without deleted nodes a search passes through live ones only, so it gets to a place from which
edges lead to every other, when all are linked with each other. -/
theorem vantage (inStep : InStep f g)
    (linked : ∀ a b, g.isLive a = true → g.isLive b = true → a ≠ b → b ∈ (g.links a 0).out)
    {place : Graph.Candidate} (arrives : g.entryOn? query 0 = some place) :
    g.Vantage query place where
  paired := inStep.graph_wf.linked.toPaired
  filled := inStep.graph_wf.stocked.toFilled
  inside := inStep.graph_wf.sturdy.lt_nodeCount_of_entryOn? arrives
  distance_eq := Graph.distance_entryOn? arrives
  reaches id live := by
    have alive : g.isLive place.id = true := by
      refine inStep.graph_wf.sturdy.isLive_entryOn? (fun j deleted => ?_) arrives
      rw [inStep.undeleted] at deleted
      cases deleted
    by_cases same : place.id = id
    · exact same ▸ .refl
    · exact .tail .refl (linked place.id id alive live same)
  together := linked

/-- The reply of the graph has the first hit of each label among the nearest vectors. -/
theorem search_nearest (inStep : InStep f g) (multi : g.config.multi = true)
    (linked : ∀ a b, g.isLive a = true → g.isLive b = true → a ≠ b → b ∈ (g.links a 0).out)
    (fits : checkDimension g.config.dim.toNat query.length = .ok ())
    (comparable : g.holdings.Comparable g.config.metric (g.config.metric.prepare query))
    {k ef : Nat} (asked : 0 < k) (enough : k ≤ ef) :
    ∃ nearest,
      Leading Hit.key ef (g.holdings.hits g.config.metric (g.config.metric.prepare query)) nearest ∧
        g.search query k ef = .ok ((Graph.firstPerLabel [] nearest).take k) := by
  have filled := inStep.graph_wf.stocked.toFilled
  cases at_entry : g.entryPoint with
  | none =>
      refine ⟨[], ?_, ?_⟩
      · rw [Graph.hits_holdings filled, inStep.graph_wf.rooted.liveIds_eq_nil at_entry]
        exact .nil ef
      · rw [Graph.search_of_no_entry fits enough at_entry, Graph.firstPerLabel, List.take_nil]
  | some entry =>
      obtain ⟨place, arrives⟩ := Graph.exists_entryOn? at_entry (g.config.metric.prepare query) 0
      have leading := (inStep.vantage linked arrives).leading
        (Graph.comparable_of_holdings filled comparable) (Nat.lt_of_lt_of_le asked enough)
      refine ⟨_, leading, ?_⟩
      rw [Graph.search_of_arrives fits asked enough arrives, Graph.toHits_multi multi]

/-- The reply of the exhaustive index has best hits of all labels. -/
theorem exhaustive_condenses (inStep : InStep f g) (multi : g.config.multi = true)
    (fits : checkDimension g.config.dim.toNat query.length = .ok ())
    (comparable : g.holdings.Comparable g.config.metric (g.config.metric.prepare query)) (k : Nat) :
    ∃ reply, f.search query k = .ok reply ∧ Reply.Condenses
      (g.holdings.hits g.config.metric (g.config.metric.prepare query)) k reply := by
  have comparable' := comparable.perm inStep.perm_holdings
  rw [← inStep.metric_eq] at comparable'
  obtain ⟨reply, scanned, condenses⟩ := Flat.search_condenses (inStep.multi_eq.trans multi)
    (inStep.dim_eq ▸ fits) comparable' k
  rw [inStep.metric_eq] at condenses
  exact ⟨reply, scanned, condenses.perm (Holdings.perm_hits inStep.perm_holdings.symm)⟩

end InStep

/-- A reply with one hit a label beside that of an exhaustive search of the same vectors. -/
structure Graph.Deduplicated (g : Graph α) (query : List α) (k ef : Nat)
    (found expected : Reply) : Prop where
  distinct : found.labels.Nodup
  expected_distinct : expected.labels.Nodup
  expected_length : expected.length = min k g.labelCount
  /-- The labels found are those of the nearest `ef` vectors, up to the number asked for. -/
  found_length : ∃ nearest,
    Leading Hit.key ef (g.holdings.hits g.config.metric (g.config.metric.prepare query)) nearest ∧
      found.length = min k (Reply.labels nearest).dedup.length
  /-- As far as it goes, the reply has the right scores. -/
  scores : Reply.SameScores found (expected.take found.length)
  of_wide : g.size ≤ ef → found.length = min k g.labelCount
  of_spread : ∀ most, (∀ label, g.holdings.count label ≤ most) → (k - 1) * most < ef →
    found.length = min k g.labelCount

/-- A search of a graph whose nodes are linked with each other finds the labels of the nearest `ef`
vectors with the scores that an exhaustive search finds, and nothing in place of those that it does
not find. -/
theorem Twins.search_deduplicated {config : Graph.Config} {f : Flat α} {g : Graph α}
    (twins : Twins config f g) (multi : g.config.multi = true)
    (linked : ∀ a b, g.isLive a = true → g.isLive b = true → a ≠ b → b ∈ (g.links a 0).out)
    {query : List α} (fits : query.length = g.config.dim.toNat)
    (comparable : g.holdings.Comparable g.config.metric (g.config.metric.prepare query))
    {k ef : Nat} (asked : 1 ≤ k) (enough : k ≤ ef) :
    ∃ found expected, g.search query k ef = .ok found ∧ f.search query k = .ok expected ∧
      g.Deduplicated query k ef found expected := by
  have inStep := twins.inStep
  have labelled := inStep.graph_wf.labelled
  have filled := inStep.graph_wf.stocked.toFilled
  have dimension : checkDimension g.config.dim.toNat query.length = .ok () :=
    checkDimension_eq_ok_iff.2 ⟨fits, Graph.dim_pos inStep.graph_wf.usable⟩
  obtain ⟨nearest, leading, searched⟩ :=
    inStep.search_nearest multi linked dimension comparable asked enough
  obtain ⟨expected, scanned, all⟩ := inStep.exhaustive_condenses multi dimension comparable k
  let firsts : Reply := Graph.firstPerLabel [] nearest
  have found := (Reply.condenses_firstPerLabel leading).front k
  have found_length : (firsts.take k).length = min k (Reply.labels nearest).dedup.length := by
    rw [List.length_take, Reply.length_firstPerLabel]
  have label_count : g.labelCount = (Reply.labels
      (g.holdings.hits g.config.metric (g.config.metric.prepare query))).dedup.length := by
    rw [Graph.labelCount_eq labelled filled, Holdings.labels_hits, Holdings.labels]
  refine ⟨firsts.take k, expected, searched, scanned, ?_⟩
  constructor
  case distinct => exact found.nodup
  case expected_distinct => exact all.nodup
  case expected_length => rw [all.length_eq, label_count]
  case found_length => exact ⟨nearest, leading, found_length⟩
  case scores =>
    exact found.sameScores comparable.numeric (all.take (List.length_take_le k firsts))
  case of_wide =>
    intro wide
    rw [← Graph.length_holdings filled, ← Holdings.length_hits g.config.metric
      (g.config.metric.prepare query)] at wide
    rw [found_length, leading.labels_of_wide wide, label_count]
  case of_spread =>
    intro most spread wide
    rw [found_length, leading.min_labels_of_spread (fun label => ?_) wide, label_count]
    rw [Holdings.labels_hits, ← Holdings.count_eq]
    exact spread label

/-! ### A label that fills the beam -/

namespace Crowded

/-- Vectors on a line, several a label. -/
def config : Graph.Config := { dim := 1, metric := .l2, multi := true }

/-- Store two vectors under the label 1 and one further away under the label 2. -/
def fill {ι : Type} [VectorIndex ι Binary64] (index : ι) : ι :=
  let first := ((Change.add 1 [Binary64.zero]).make index).1
  let second := ((Change.add 1 [Binary64.zero]).make first).1
  ((Change.add 2 [Binary64.one]).make second).1

def flat : Flat Binary64 := fill (.new 1 .l2 true 1)

def graph : Graph Binary64 := fill { config }

theorem twins : Twins config flat graph ∧ Graph.SmallMesh config graph := by
  have wide : config.IsWide := (by decide : 2 * config.m.toNat ≤ _)
  have empty : Twins config (.new 1 .l2 true 1 : Flat Binary64) { config } := .new 1 rfl
  obtain ⟨twins₁, mesh₁⟩ := empty.add_mesh (.new rfl) wide 1 [.zero]
    (by decide : 0 < Graph.idLimit) (by decide : 1 ≤ config.meshLimit)
  obtain ⟨twins₂, mesh₂⟩ := twins₁.add_mesh mesh₁ wide 1 [.zero]
    (by decide : 1 < Graph.idLimit) (by decide : 2 ≤ config.meshLimit)
  exact twins₂.add_mesh mesh₂ wide 2 [.one]
    (by decide : 2 < Graph.idLimit) (by decide : 3 ≤ config.meshLimit)

theorem holdings_flat : flat.holdings = [(1, [.zero]), (1, [.zero]), (2, [.one])] := rfl

theorem perm_holdings :
    List.Perm [(1, [Binary64.zero]), (1, [.zero]), (2, [.one])] graph.holdings :=
  holdings_flat ▸ twins.1.inStep.perm_holdings

theorem comparable : graph.holdings.Comparable .l2 [Binary64.zero] := by
  refine Holdings.Comparable.perm ?_ perm_holdings.symm
  rw [Holdings.Comparable]
  decide

/-- With a beam that is wide enough both labels are found. -/
theorem search_deduplicated_crowded :
    Twins config flat graph ∧ graph.config = config ∧
      ∃ found expected, graph.search [.zero] 2 3 = .ok found ∧
        flat.search [.zero] 2 = .ok expected ∧ graph.Deduplicated [.zero] 2 3 found expected := by
  obtain ⟨twins, mesh⟩ := twins
  have same := mesh.config_eq
  refine ⟨twins, same, ?_⟩
  exact twins.search_deduplicated (same ▸ rfl) mesh.meshed.together (same ▸ rfl)
    (same ▸ comparable) (by decide) (by decide)

theorem leading_pair :
    Leading Hit.key 2 (flat.holdings.hits .l2 [Binary64.zero]) [⟨1, .zero⟩, ⟨1, .zero⟩] where
  ordered := by decide
  split := ⟨[⟨2, .one⟩], .refl _, by decide⟩
  length_eq := rfl

theorem key_injective :
    ∀ a ∈ flat.holdings.hits .l2 [Binary64.zero], ∀ b ∈ flat.holdings.hits .l2 [Binary64.zero],
      a.key = b.key → a = b := by
  decide

/-- The two vectors under the label 1 are nearest, and then there is no room for another label. -/
theorem one_label_of_two :
    Twins config flat graph ∧ graph.config.multi = true ∧
      (∀ a b, graph.isLive a = true → graph.isLive b = true → a ≠ b → b ∈ (graph.links a 0).out) ∧
      graph.holdings.Comparable .l2 [.zero] ∧ graph.labelCount = 2 ∧
      graph.search [.zero] 2 2 = .ok [⟨1, .zero⟩] ∧
      flat.search [.zero] 2 = .ok [⟨1, .zero⟩, ⟨2, .one⟩] := by
  obtain ⟨twins, mesh⟩ := twins
  have inStep := twins.inStep
  have multi : graph.config.multi = true := mesh.config_eq ▸ rfl
  refine ⟨twins, multi, mesh.meshed.together, comparable, ?_, ?_, by decide +kernel⟩
  · rw [Graph.labelCount_eq inStep.graph_wf.labelled inStep.graph_wf.stocked.toFilled,
      Holdings.labels, ← (perm_holdings.map _).dedup.length_eq]
    rfl
  · have metric : graph.config.metric = .l2 := mesh.config_eq ▸ rfl
    have dimension : checkDimension graph.config.dim.toNat [Binary64.zero].length = .ok () :=
      mesh.config_eq ▸ rfl
    obtain ⟨nearest, leading, searched⟩ := inStep.search_nearest multi mesh.meshed.together
      dimension (metric ▸ comparable) Nat.two_pos (Nat.le_refl 2)
    rw [metric] at leading
    have same : (flat.holdings.hits .l2 [Binary64.zero]).Perm
        (graph.holdings.hits .l2 [.zero]) := Holdings.perm_hits inStep.perm_holdings
    have pair : nearest = [⟨1, .zero⟩, ⟨1, .zero⟩] := by
      refine leading.eq_of_injOn (leading_pair.perm same) fun a in_a b in_b => ?_
      exact key_injective a (same.mem_iff.2 in_a) b (same.mem_iff.2 in_b)
    rw [searched, pair]
    rfl

end Crowded

end Vicinity
