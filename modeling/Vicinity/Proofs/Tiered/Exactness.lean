import Vicinity.Proofs.Graph.Exactness
import Vicinity.Proofs.Tiered.Meshing

/-!
What a search of a buffered index finds does not depend on its background work.

A vector stands in one part only, so the replies of both parts have no label in common, and the
first hits of both together are the first of all (`leading_merge`). Each part finds its own exactly,
the graph as long as it is small. So the scores of a search are those of an exhaustive search of
what the calls have left, in every state that calls, jobs and passes lead to in any order
(`Confined.search_contents`).
-/

namespace Vicinity.Tiered

variable {α : Type}

/-! ### Both parts in one reply -/

/-- Without a label in common, replies are merged by sorting all their hits. -/
theorem merge_eq {buffered found : Reply}
    (apart : ∀ hit ∈ found, hit.label ∉ buffered.labels) :
    merge buffered found = (buffered ++ found).sortByScore := by
  rw [merge, List.filter_eq_self.2]
  intro hit here
  simpa using apart hit here

/-- The first hits of both parts are the first of all hits, in the order of a reply. -/
theorem leading_merge {k : Nat} {as bs : List Hit} {buffered found : Reply}
    (first : Leading Hit.key k as buffered) (second : Leading Hit.key k bs found)
    (numeric : ∀ hit ∈ as ++ bs, hit.score.isNaN = false)
    (nodup : (Reply.labels (as ++ bs)).Nodup) :
    Leading Hit.key k (as ++ bs) ((merge buffered found).take k) ∧
      (Reply.labels ((merge buffered found).take k)).Nodup ∧
      ((merge buffered found).take k).Pairwise fun a b => a.precedes b = true := by
  have apart : ∀ hit ∈ found, hit.label ∉ buffered.labels := by
    intro hit here again
    obtain ⟨other, there, same⟩ := List.mem_map.1 again
    rw [Reply.labels, List.map_append, List.nodup_append] at nodup
    exact nodup.2.2 _ (List.mem_map_of_mem (first.mem there)) _
      (List.mem_map_of_mem (second.mem here)) same
  have numeric' : ∀ hit ∈ buffered ++ found, hit.score.isNaN = false := by
    intro hit here
    apply numeric
    exact List.mem_append.2 ((List.mem_append.1 here).imp first.mem second.mem)
  rw [merge_eq apart]
  have sorted := Reply.sorted_sortByScore numeric'
  have leading := first.merge second (Reply.sortByScore_perm _) (sorted.imp Hit.key_le_of_rank_le)
  have distinct := leading.nodup_map nodup
  refine ⟨leading, distinct, ?_⟩
  apply Reply.precedes_of_sorted
  · exact fun hit here => numeric hit (leading.mem here)
  · exact sorted.sublist (List.take_sublist k _)
  · exact distinct

variable [Element α]

/-- A search of both parts finds the first of all hits, if the graph finds the first of its own. -/
theorem search_leading {t : Tiered α} {tasks : List Task} {given : Holdings α}
    (tracked : Tracked t tasks) (holds : Holds t given) (single : t.config.graph.multi = false)
    (plain : t.config.graph.metric.normalizes = false) (once : ∀ label, given.count label ≤ 1)
    (mesh : Graph.SmallMesh t.config.graph t.graph) {query : List α}
    (fits : checkDimension t.config.graph.dim.toNat query.length = .ok ())
    (comparable : given.Comparable t.config.graph.metric query) (k : Nat)
    (parameters : Query.Parameters) :
    ∃ reply, t.search query k parameters = .ok reply ∧
      Leading Hit.key k (given.hits t.config.graph.metric query) reply ∧ reply.labels.Nodup ∧
      reply.Pairwise fun a b => a.precedes b = true := by
  have same := holds.agrees.2 plain
  have prepared : t.config.graph.metric.prepare query = query := prepare_of_plain plain query
  have comparable' := comparable.perm same
  have in_flat : t.flat.holdings.Comparable t.flat.metric (t.flat.metric.prepare query) := by
    rw [holds.metric_eq, prepared]
    exact fun pair here => comparable' pair (List.mem_append_left _ here)
  have in_graph : t.graph.holdings.Comparable t.config.graph.metric
      (t.config.graph.metric.prepare query) := by
    rw [prepared]
    exact fun pair here => comparable' pair (List.mem_append_right _ here)
  have enough : k ≤ t.graph.beamWidth k parameters := Nat.le_max_right ..
  obtain ⟨buffered, scanned, first⟩ :=
    Flat.search_leading (tracked.flat_multi.trans single) (tracked.flat_dim ▸ fits) in_flat k
  obtain ⟨found, searched, second⟩ := mesh.search_leading single fits in_graph enough
  rw [holds.metric_eq, prepared] at first
  rw [prepared] at second
  have hits : t.holdings.hits t.config.graph.metric query =
      t.flat.holdings.hits t.config.graph.metric query ++
        t.graph.holdings.hits t.config.graph.metric query := Holdings.hits_append ..
  have nodup : (Reply.labels (t.holdings.hits t.config.graph.metric query)).Nodup := by
    rw [Holdings.labels_hits, (same.map _).nodup_iff, List.nodup_iff_count_le_one]
    intro label
    rw [← Holdings.count_eq]
    exact once label
  have numeric := comparable'.numeric
  rw [hits] at nodup numeric
  obtain ⟨leading, distinct, sorted⟩ := leading_merge first second numeric nodup
  refine ⟨(merge buffered found).take k, ?_, ?_, distinct, sorted⟩
  · rw [search, scanned]
    dsimp only
    rw [Graph.topK, searched]
  · rw [← hits] at leading
    exact leading.perm (same.map _)

namespace World

/-- A search finds what an exhaustive search of the contents finds, wherever the vectors stand and
whatever is still to be done. -/
theorem Confined.search_contents {config : Config} (single : config.graph.multi = false)
    (plain : config.graph.metric.normalizes = false) (wide : config.graph.IsWide) {w : World α}
    {given : Holdings α} (confined : Confined config config.graph.meshLimit w given) {f : Flat α}
    (exhaustive_single : f.multi = false) (same_dim : f.dim = config.graph.dim.toNat)
    (same_metric : f.metric = config.graph.metric) (same_vectors : f.holdings.Perm given)
    {query : List α} (fits : query.length = config.graph.dim.toNat)
    (comparable : given.Comparable config.graph.metric query) (k : Nat)
    (parameters : Query.Parameters) :
    ∃ reply expected, w.index.search query k parameters = .ok reply ∧
      f.search query k = .ok expected ∧ reply.labels.Nodup ∧
      (reply.Pairwise fun a b => a.precedes b = true) ∧ Reply.SameScores reply expected := by
  obtain ⟨consistent, holds⟩ := confined.held.holds
  have once := confined.held.count_le single
  have mesh := confined.mesh single wide
  have nonzero := Graph.dim_pos mesh.wf.usable
  obtain rfl := consistent.config_eq
  rw [mesh.config_eq] at nonzero
  have dimension := checkDimension_eq_ok_iff.2 ⟨fits, nonzero⟩
  obtain ⟨reply, searched, leading, distinct, sorted⟩ := search_leading consistent.tracked holds
    single plain once mesh dimension comparable k parameters
  have prepared : f.metric.prepare query = query := by
    rw [same_metric]
    exact prepare_of_plain plain query
  have comparable' := comparable.perm same_vectors
  rw [← same_metric] at comparable'
  obtain ⟨expected, scanned, leading'⟩ := Flat.search_leading exhaustive_single
    (same_dim ▸ dimension) (prepared.symm ▸ comparable') k
  rw [prepared, same_metric] at leading'
  have leading' := leading'.perm (same_vectors.map _)
  exact ⟨reply, expected, searched, scanned, distinct, sorted,
    Reply.sameScores_of_leading comparable.numeric leading leading'⟩

/-- Two vectors were stored, and the insert of the second one is still to be handed out. -/
def bothBuffered : Tiered Binary64 :=
  (((emptyPlanes.write 7 [.zero, .one]).1.submit (.insert 0 7)).write 8 [.one, .zero]).1

/-- The first of them was moved into the graph by a job that is not over. -/
def firstMoved : World Binary64 :=
  let moved := (bothBuffered.begin (.insert 0 7)).perform (.insert 0 7)
  { index := moved.1, due := [.insert 1 8], ending := [(.insert 0 7, moved.2.1)] }

/-- With one vector in the graph and one in the buffer, a search is that of an index over both. -/
theorem search_contents_of_firstMoved :
    let given : Holdings Binary64 := [(7, [.zero, .one]), (8, [.one, .zero])]
    let f : Flat Binary64 := ((Flat.new 2 .l2 false 1).push 7 [.zero, .one]).push 8 [.one, .zero]
    Confined emptyPlanes.config 33 firstMoved given ∧
      ∃ reply expected, firstMoved.index.search [.zero, .zero] 2 {} = .ok reply ∧
        f.search [.zero, .zero] 2 = .ok expected ∧ reply.labels.Nodup ∧
        (reply.Pairwise fun a b => a.precedes b = true) ∧ Reply.SameScores reply expected := by
  intro given f
  have empty : Confined emptyPlanes.config 33 { index := emptyPlanes } [] := .new rfl
  have written := empty.write 7 [.zero, .one] (by decide) rfl (Nat.zero_le _)
  have submitted := written.background (.submit [] [] (.insert 0 7) rfl) (Nat.zero_le _)
  have buffered := submitted.write 8 [.one, .zero] (by decide) rfl (Nat.zero_le _)
  have run : Background { index := bothBuffered, due := [.insert 1 8], handed := [.insert 0 7] }
      firstMoved := .run [] [] (.insert 0 7) rfl rfl
  have few : firstMoved.index.graph.nodeCount ≤ 33 := by decide
  have moved := buffered.background run few
  have comparable : given.Comparable .l2 [Binary64.zero, .zero] := by
    rw [Holdings.Comparable]
    decide
  have wide : emptyPlanes.config.graph.IsWide := (by decide : 2 * 16 ≤ 200)
  refine ⟨moved, ?_⟩
  exact moved.search_contents rfl rfl wide rfl rfl rfl (.refl _) rfl comparable 2 {}

end World

end Vicinity.Tiered
