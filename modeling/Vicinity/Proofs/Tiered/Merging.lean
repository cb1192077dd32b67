import Vicinity.Proofs.Graph.Replies
import Vicinity.Proofs.LabelMap
import Vicinity.Proofs.Tiered.Interleaving

/-!
Which score a label gets when both parts know it.

With several vectors a label the parts can both have some of them, and each part reports its best
score. The merged reply takes the one of the buffer (`scoreOf?_merge`), whichever is lower, so it is
the best score of the label exactly when the graph has no lower one (`Overlaid.lowest_iff`). That
holds of every search in every state that calls, jobs and passes lead to
(`World.Reachable.overlaid`), and a state where the graph has the lower score is easily reached
(`World.lower_score_passed_over`).
-/

namespace Vicinity

namespace Reply

/-! ### Scores by label -/

/-- The score of a label, the first one if it has several. -/
def scoreOf? (reply : Reply) (label : Label) : Option Binary64 :=
  (reply.find? (·.label == label)).map (·.score)

/-- The lower of two scores, or the one there is; the first one when neither is lower. -/
def lower? : Option Binary64 → Option Binary64 → Option Binary64
  | some a, some b => some (if b.lt a then b else a)
  | some a, none => some a
  | none, b => b

theorem scoreOf?_eq_some_iff {reply : Reply} (nodup : reply.labels.Nodup) {label : Label}
    {score : Binary64} : reply.scoreOf? label = some score ↔ ⟨label, score⟩ ∈ reply := by
  rw [scoreOf?, Option.map_eq_some_iff]
  constructor
  · rintro ⟨hit, found, rfl⟩
    have same : hit.label = label := by simpa using List.find?_some found
    rw [← same]
    exact List.mem_of_find?_eq_some found
  · intro mem
    obtain ⟨hit, found⟩ : ∃ hit, reply.find? (·.label == label) = some hit :=
      Option.isSome_iff_exists.1 (List.find?_isSome.2 ⟨⟨label, score⟩, mem, by simp⟩)
    have same : hit.label = label := by simpa using List.find?_some found
    have unique := List.inj_on_of_nodup_map nodup (List.mem_of_find?_eq_some found) mem same
    exact ⟨hit, found, congrArg Hit.score unique⟩

theorem scoreOf?_eq_none_iff {reply : Reply} {label : Label} :
    reply.scoreOf? label = none ↔ label ∉ reply.labels := by
  simp [scoreOf?, labels]

/-- The lower of two scores is the first one unless the second one is lower. -/
theorem or_eq_lower?_iff (a b : Option Binary64) :
    a.or b = lower? a b ↔ ∀ x y, a = some x → b = some y → y.lt x = false := by
  cases a with
  | none => simp [lower?]
  | some x =>
      cases b with
      | none => simp [lower?]
      | some y =>
          cases lower : y.lt x with
          | false => simp [lower?, lower]
          | true =>
              have other : x ≠ y := by
                rintro rfl
                rw [Binary64.lt_irrefl] at lower
                cases lower
              simp [lower?, lower, other]

end Reply

namespace Graph

variable {α : Type} [Element α]

theorem nodup_labels_search {g : Graph α} (multi : g.config.multi = true) {query : List α}
    {k ef : Nat} {reply : Reply} (searched : g.search query k ef = .ok reply) :
    reply.labels.Nodup := by
  unfold search at searched
  split at searched
  · cases searched
  · split at searched
    · cases searched
    · split at searched
      · cases searched
        exact List.nodup_nil
      · dsimp only at searched
        split at searched
        · cases searched
          exact List.nodup_nil
        · cases searched
          exact Reply.nodup_labels_take (nodup_labels_toHits multi _) k

theorem nodup_labels_rangeSearch {g : Graph α} (multi : g.config.multi = true) {query : List α}
    {radius epsilon : Binary64} {reply : Reply}
    (searched : g.rangeSearch query radius epsilon = .ok reply) : reply.labels.Nodup := by
  unfold rangeSearch at searched
  split at searched
  · cases searched
  · split at searched
    · cases searched
    · dsimp only at searched
      split at searched
      · cases searched
        exact List.nodup_nil
      · cases searched
        exact nodup_labels_toHits multi _

end Graph

namespace Flat

variable {α : Type} [Element α] {f : Flat α} (multi : f.multi = true)

include multi

theorem nodup_labels_gather (query : List α) (keep : Binary64 → Bool) :
    (f.gather query keep).labels.Nodup := by
  rw [gather, Reply.gather, if_pos multi]
  exact Reply.nodup_labels_toReply _

theorem nodup_labels_search {query : List α} {k : Nat} {reply : Reply}
    (searched : f.search query k = .ok reply) : reply.labels.Nodup := by
  unfold search at searched
  split at searched
  · cases searched
  · split at searched
    · cases searched
      exact List.nodup_nil
    · cases searched
      apply Reply.nodup_labels_take
      exact Reply.nodup_labels_sortByScore (nodup_labels_gather multi ..)

theorem nodup_labels_range {query : List α} {radius : Binary64} {reply : Reply}
    (searched : f.range query radius = .ok reply) : reply.labels.Nodup := by
  unfold range at searched
  split at searched
  · cases searched
  · cases searched
    exact Reply.nodup_labels_sortByScore (nodup_labels_gather multi ..)

end Flat

namespace Tiered

/-! ### Both parts in one reply -/

theorem mem_merge_iff {buffered found : Reply} {hit : Hit} :
    hit ∈ merge buffered found ↔
      hit ∈ buffered ∨ (hit ∈ found ∧ hit.label ∉ buffered.labels) := by
  rw [merge, (Reply.sortByScore_perm _).mem_iff, List.mem_append, List.mem_filter]
  simp

theorem nodup_labels_merge {buffered found : Reply} (first : buffered.labels.Nodup)
    (second : found.labels.Nodup) : (merge buffered found).labels.Nodup := by
  refine Reply.nodup_labels_sortByScore ?_
  rw [Reply.labels, List.map_append, List.nodup_append]
  refine ⟨first, second.sublist (List.filter_sublist.map _), ?_⟩
  rintro label in_buffered _ in_found rfl
  obtain ⟨hit, kept, rfl⟩ := List.mem_map.1 in_found
  have unlisted : hit.label ∉ buffered.labels := by simpa using (List.mem_filter.1 kept).2
  exact unlisted in_buffered

/-- The buffer's score counts, and the graph's where the buffer has none. -/
theorem scoreOf?_merge {buffered found : Reply} (first : buffered.labels.Nodup)
    (second : found.labels.Nodup) (label : Label) :
    (merge buffered found).scoreOf? label =
      (buffered.scoreOf? label).or (found.scoreOf? label) := by
  refine Option.ext fun score => ?_
  rw [Reply.scoreOf?_eq_some_iff (nodup_labels_merge first second), mem_merge_iff,
    Option.or_eq_some_iff, Reply.scoreOf?_eq_some_iff first, Reply.scoreOf?_eq_some_iff second,
    Reply.scoreOf?_eq_none_iff, and_comm (a := Hit.mk label score ∈ found)]

/-- A reply that was made from those of both parts: each label once, with the score that the buffer
has for it. -/
structure Overlaid (buffered found reply : Reply) : Prop where
  buffered_nodup : buffered.labels.Nodup
  found_nodup : found.labels.Nodup
  nodup : reply.labels.Nodup
  score_eq : ∀ hit ∈ reply,
    some hit.score = (buffered.scoreOf? hit.label).or (found.scoreOf? hit.label)
  /-- The score is the best one unless the graph has a lower one. -/
  lowest_iff : ∀ hit ∈ reply,
    some hit.score = Reply.lower? (buffered.scoreOf? hit.label) (found.scoreOf? hit.label) ↔
      ∀ x y, buffered.scoreOf? hit.label = some x → found.scoreOf? hit.label = some y →
        y.lt x = false

/-- Whatever is cut off a merged reply. -/
theorem overlaid_of_sublist {buffered found reply : Reply} (first : buffered.labels.Nodup)
    (second : found.labels.Nodup) (part : reply.Sublist (merge buffered found)) :
    Overlaid buffered found reply := by
  have nodup := nodup_labels_merge first second
  have score_eq : ∀ hit ∈ reply,
      some hit.score = (buffered.scoreOf? hit.label).or (found.scoreOf? hit.label) := by
    intro hit mem
    rw [← scoreOf?_merge first second]
    exact ((Reply.scoreOf?_eq_some_iff nodup).2 (part.subset mem)).symm
  refine ⟨first, second, nodup.sublist (part.map _), score_eq, fun hit mem => ?_⟩
  rw [score_eq hit mem]
  exact Reply.or_eq_lower?_iff ..

namespace World

variable {α : Type} [Element α]

/-- In every state of an index with several vectors a label, a search and a range search report each
label once, with the score that the buffer has for it: the best one of both parts unless the graph
has a lower one. -/
theorem Reachable.overlaid {config : Config} {w : World α} (reachable : Reachable config w)
    (multi : config.graph.multi = true) (query : List α) (parameters : Query.Parameters) :
    (∀ k reply, w.index.search query k parameters = .ok reply →
      ∃ buffered found, w.index.flat.search query k = .ok buffered ∧
        w.index.graph.topK query k parameters = .ok found ∧ Overlaid buffered found reply) ∧
      ∀ radius reply, w.index.range query radius parameters = .ok reply →
        ∃ buffered found, w.index.flat.range query radius = .ok buffered ∧
          w.index.graph.rangeQuery query radius parameters = .ok found ∧
            Overlaid buffered found reply := by
  obtain ⟨config_eq, tracked, -, -⟩ := reachable.consistent
  have flat_multi : w.index.flat.multi = true := by rw [tracked.flat_multi, config_eq, multi]
  have graph_multi : w.index.graph.config.multi = true := by
    rw [tracked.graph_config, config_eq, multi]
  constructor
  · intro k reply searched
    unfold search at searched
    split at searched
    · cases searched
    case h_2 buffered scanned =>
      split at searched
      · cases searched
      case h_2 found walked =>
        cases searched
        exact ⟨buffered, found, scanned, walked, overlaid_of_sublist
          (Flat.nodup_labels_search flat_multi scanned)
          (Graph.nodup_labels_search graph_multi walked) (List.take_sublist ..)⟩
  · intro radius reply searched
    unfold range at searched
    split at searched
    · cases searched
    case h_2 buffered scanned =>
      split at searched
      · cases searched
      case h_2 found walked =>
        cases searched
        exact ⟨buffered, found, scanned, walked, overlaid_of_sublist
          (Flat.nodup_labels_range flat_multi scanned)
          (Graph.nodup_labels_rangeSearch graph_multi walked) (List.Sublist.refl _)⟩

/-- A state with a vector stored, whichever part it went to. -/
def written (w : World α) (label : Label) (vector : List α) : World α :=
  { w with
    index := (w.index.write label vector).1
    due := w.due ++ (w.index.write label vector).2.1.tasks }

theorem Reachable.written {config : Config} {w : World α} (reachable : Reachable config w)
    (label : Label) (vector : List α)
    (few : w.index.graph.nodeCount + w.index.flat.size < Graph.idLimit) :
    Reachable config (w.written label vector) := reachable.step (.write label vector few rfl)

/-- An empty index over planes of two doubles with several vectors a label and room for one vector
in the buffer. -/
def emptyShared : Tiered Binary64 :=
  { ofGraph
      { graph := { dim := 2, metric := .l2, multi := true }, flatBufferLimit := 1 }
      { config := { dim := 2, metric := .l2, multi := true } } with
    sharesJournal := true }

/-- A vector was stored, which takes all the room in the buffer. -/
def bufferFull : World Binary64 := World.written { index := emptyShared } 1 [.one, .zero]

/-- Another one was stored under the same label, directly in the graph. -/
def inBothParts : World Binary64 := bufferFull.written 1 [.zero, .one]

theorem reachable_inBothParts : Reachable emptyShared.config inBothParts := by
  have empty : Reachable emptyShared.config { index := emptyShared } := .new rfl
  have buffered := empty.written 1 [.one, .zero] (by decide)
  have few : bufferFull.index.graph.nodeCount + bufferFull.index.flat.size < Graph.idLimit := by
    decide
  exact buffered.written 1 [.zero, .one] few

theorem graph_inBothParts : ∃ level, inBothParts.index.graph =
    (({ config := emptyShared.config.graph, capacity := 1024 } : Graph Binary64).append 1
      [.zero, .one] level).setEntry 0 level :=
  ⟨Graph.Level.draw emptyShared.config.graph 0, rfl⟩

/-- The buffer finds its vector at distance two. -/
theorem scan_inBothParts :
    inBothParts.index.flat.search [.zero, .one] 1 = .ok [⟨1, ⟨0x4000000000000000⟩⟩] := rfl

/-- The graph finds the vector that is equal to the query, at distance zero. -/
theorem topK_inBothParts :
    inBothParts.index.graph.topK [.zero, .one] 1 {} = .ok [⟨1, .zero⟩] := by
  obtain ⟨level, graph_eq⟩ := graph_inBothParts
  rw [graph_eq]
  have alone : ((({ config := emptyShared.config.graph, capacity := 1024 } :
      Graph Binary64).append 1 [.zero, .one] level).setEntry 0 level).Isolated 0 := fun layer =>
    Graph.isolated_append_self { config := emptyShared.config.graph, capacity := 1024 } 1
      [Binary64.zero, Binary64.one] level layer
  have fits : checkDimension 2 [Binary64.zero, .one].length = .ok () := rfl
  have near : ((({ config := emptyShared.config.graph, capacity := 1024 } :
      Graph Binary64).append 1 [.zero, .one] level).setEntry 0 level).distanceTo
        [.zero, .one] 0 = .zero :=
    Graph.distanceTo_append (g := { config := emptyShared.config.graph, capacity := 1024 }) rfl 1
      (rfl : [Binary64.zero, .one].length = 2) level [.zero, .one] 0
  refine (Graph.search_of_isolated rfl alone rfl rfl fits Nat.zero_lt_one
    (Nat.le_max_right ..)).trans ?_
  exact congrArg (fun score : Binary64 => Except.ok [(⟨1, score⟩ : Hit)]) near

theorem search_inBothParts :
    inBothParts.index.search [.zero, .one] 1 {} = .ok [⟨1, ⟨0x4000000000000000⟩⟩] := by
  rw [search, scan_inBothParts]
  dsimp only
  rw [topK_inBothParts]
  rfl

/-- What is reported for the label comes from the buffer. -/
theorem overlaid_inBothParts :
    Reachable emptyShared.config inBothParts ∧
      ∃ buffered found, inBothParts.index.flat.search [.zero, .one] 1 = .ok buffered ∧
        inBothParts.index.graph.topK [.zero, .one] 1 {} = .ok found ∧
        Overlaid buffered found [⟨1, ⟨0x4000000000000000⟩⟩] :=
  ⟨reachable_inBothParts,
    (reachable_inBothParts.overlaid rfl [.zero, .one] {}).1 1 _ search_inBothParts⟩

/-- The score of the later vector is the lower one, and yet that of the earlier one is reported. -/
theorem lower_score_passed_over :
    Reachable emptyShared.config inBothParts ∧
      ∃ buffered found hit, inBothParts.index.flat.search [.zero, .one] 1 = .ok buffered ∧
        inBothParts.index.graph.topK [.zero, .one] 1 {} = .ok found ∧
        inBothParts.index.search [.zero, .one] 1 {} = .ok [hit] ∧
        some hit.score ≠ Reply.lower? (buffered.scoreOf? hit.label) (found.scoreOf? hit.label) :=
  ⟨reachable_inBothParts, _, _, _, scan_inBothParts, topK_inBothParts, search_inBothParts,
    by decide⟩

end World

end Tiered

end Vicinity
