import Vicinity.Proofs.Tiered.SwapJobs

/-!
What a caller sees of a buffered graph.

Counts, sizes, the answer to whether a label is there and what deletions and writes return are those
of a plain list on which only the calls act (`World.Faithful`). Neither the part in which a vector
stands nor the work that is still to be done on it shows.
-/

namespace Vicinity.Tiered

variable {α : Type}

theorem contains_iff {t : Tiered α} (buffered : t.flat.WellFormed) (labelled : t.graph.Labelled)
    (filled : t.graph.Filled) (label : Label) :
    t.contains label = true ↔ 0 < t.holdings.count label := by
  rw [Tiered.contains, Bool.or_eq_true, Flat.contains_iff buffered,
    Graph.contains_iff labelled filled, holdings, Holdings.count_append]
  omega

variable [Element α]

/-- The labels of the graph and those that only the buffer has are all the labels, once each. -/
theorem labelCount_info {t : Tiered α} (buffered : t.flat.WellFormed)
    (labelled : t.graph.Labelled) (filled : t.graph.Filled) :
    t.info.labelCount = t.holdings.labels.length := by
  have listed : t.info.labelCount = (t.graph.labels.labels ++
      t.flat.labels.filter fun label => (t.graph.idsOf label).isEmpty).length := by
    rw [List.length_append]
    simp [info, Graph.labelCount, LabelMap.size, LabelMap.labels]
  have in_graph : ∀ label, label ∈ t.graph.labels.labels ↔ 0 < t.graph.holdings.count label :=
    fun label => LabelMap.contains_iff_mem_labels.symm.trans
      (Graph.contains_iff labelled filled label)
  have none_in_graph : ∀ label, (t.graph.idsOf label).isEmpty = true ↔
      t.graph.holdings.count label = 0 := fun label => by
    rw [← Graph.length_idsOf labelled filled, List.isEmpty_iff_length_eq_zero]
  rw [listed]
  refine List.Perm.length_eq ?_
  refine (List.perm_ext_iff_of_nodup ?_ (List.nodup_dedup _)).2 fun label => ?_
  · refine List.nodup_append.2 ⟨LabelMap.nodup_labels _, (Flat.nodup_labels _).filter _, ?_⟩
    rintro a mem_a b mem_b rfl
    have present := (in_graph a).1 mem_a
    have absent := (none_in_graph a).1 (List.mem_filter.1 mem_b).2
    omega
  · change _ ↔ label ∈ t.holdings.labels
    rw [Holdings.mem_labels, holdings, Holdings.count_append, List.mem_append, List.mem_filter,
      in_graph, Flat.mem_labels buffered, none_in_graph]
    omega

namespace World

/-- What a caller sees of a buffered index is what a plain list would show. -/
structure Faithful (config : Config) (w : World α) (given : Holdings α) : Prop where
  count : ∀ label, w.index.flat.slots.countP (·.label == label) +
    w.index.graph.nodes.countP (fun node => !node.deleted && node.label == label) =
      given.count label
  once : config.graph.multi = false → ∀ label, given.count label ≤ 1
  vectors : config.graph.metric.normalizes = false → w.index.holdings.Perm given
  contains : ∀ label, w.index.contains label = true ↔ 0 < given.count label
  size : w.index.size = given.length
  info_size : w.index.info.size = given.length
  info_labelCount : w.index.info.labelCount = given.labels.length
  deletes : ∀ label, (w.index.removeLabel label).2.2 = .ok (given.count label)
  writes : ∀ label vector, w.index.graph.nodeCount + w.index.flat.size < Graph.idLimit →
    checkDimension config.graph.dim.toNat vector.length = .ok () →
      (w.index.write label vector).2.2 = .ok ()
  refuses : ∀ label vector fault,
    checkDimension config.graph.dim.toNat vector.length = .error fault →
      w.index.write label vector = (w.index, {}, .error (.vector fault))

theorem faithful_of_holds {config : Config} {w : World α} {given : Holdings α}
    (holds : Holds w.index given) (consistent : Consistent config w)
    (once : config.graph.multi = false → ∀ label, given.count label ≤ 1) :
    Faithful config w given := by
  obtain ⟨config_eq, tracked, _, _⟩ := consistent
  have buffered := tracked.flat_wf
  have labelled := tracked.graph_wf.labelled
  have filled := tracked.graph_wf.stocked.toFilled
  have agrees := holds.agrees
  constructor
  case count =>
    intro label
    rw [← agrees.count_eq, holdings, Holdings.count_append, Flat.count_holdings_slots,
      Graph.count_holdings filled]
  case once => exact once
  case vectors => exact fun plain => agrees.2 (config_eq ▸ plain)
  case contains =>
    intro label
    rw [contains_iff buffered labelled filled, agrees.count_eq]
  case size => rw [size_eq filled, agrees.length_eq]
  case info_size =>
    change w.index.size = given.length
    rw [size_eq filled, agrees.length_eq]
  case info_labelCount =>
    rw [labelCount_info buffered labelled filled]
    refine (List.Perm.dedup ?_).length_eq
    exact agrees.1
  case deletes => exact fun label => (holds.removeLabel tracked rfl).2
  case writes =>
    intro label vector few fits
    have written : w.index.write label vector = (_, _, _) := rfl
    rcases holds.write tracked few written with ⟨_, done, _⟩ | ⟨fault, unfit, _⟩
    · exact done
    · rw [config_eq, fits] at unfit
      cases unfit
  case refuses =>
    intro label vector fault unfit
    simp only [Tiered.write, config_eq, unfit]

/-- In every state that calls, jobs and passes lead to in any order, a caller sees what the calls
have left, and goes on to do so whatever happens without a call. -/
theorem Held.faithful {config : Config} {w : World α} {given : Holdings α}
    (held : Held config w given) :
    Faithful config w given ∧ ∀ w', Background w w' → Faithful config w' given := by
  obtain ⟨consistent, holds⟩ := held.holds
  have once := fun single => held.count_le single
  refine ⟨faithful_of_holds holds consistent once, fun w' background => ?_⟩
  obtain ⟨consistent', holds'⟩ := (held.background background).holds
  exact faithful_of_holds holds' consistent' once

/-- Two of three linked nodes are deleted and wait for their repairs. The vector of the third one,
which moves into a lower slot in the end, is there whatever happens next without a call. -/
theorem faithful_before_repairs :
    ∃ w : World Binary64, Held eager w [(2, [.one])] ∧
      2 ∈ (w.index.graph.links 0 0).out ∧ 0 ∈ (w.index.graph.links 2 0).out ∧
      (∃ x y, .repair 0 x ∈ w.outstanding ∧ .repair 1 y ∈ w.outstanding) ∧
      Faithful eager w [(2, [.one])] ∧ ∀ w', Background w w' → Faithful eager w' [(2, [.one])] := by
  have empty : Held eager { index := emptyLine } [] := .new rfl
  obtain ⟨t₁, stored₁, mesh₁, count₁, ids₁⟩ := empty.write_eager (.new rfl) (by decide) 1 .zero
  have count₁ : t₁.graph.nodeCount = 1 := count₁
  obtain ⟨t₂, stored₂, mesh₂, count₂, ids₂⟩ := stored₁.write_eager mesh₁ (by omega) 1 .zero
  obtain ⟨t₃, stored₃, mesh₃, count₃, ids₃⟩ := stored₂.write_eager mesh₂ (by omega) 2 .one
  have other : ¬(2 : Label) = 1 := by decide
  have deleted : t₃.graph.idsOf 1 = [0, 1] := by
    rw [ids₃, if_neg other, ids₂, if_pos rfl, ids₁, if_pos rfl, count₁]
    rfl
  have kept : t₃.graph.idsOf 2 = [2] := by
    rw [ids₃, if_pos rfl, ids₂, if_neg (Ne.symm other), ids₁, if_neg (Ne.symm other), count₂,
      count₁]
    rfl
  have live : t₃.graph.isLive 2 = true :=
    ((mesh₃.wf.labelled.mem_idsOf 2 2).1 (kept ▸ List.mem_singleton_self 2)).1
  obtain ⟨w, held, _, _, await⟩ := stored₃.await_repairs mesh₃ 1
  rw [deleted] at await
  obtain ⟨forth, back, x, first⟩ := await 0 (by simp) 2 live (by decide)
  obtain ⟨_, _, y, second⟩ := await 1 (by simp) 2 live (by decide)
  exact ⟨w, held, forth, back,
    ⟨x, y, List.mem_append_left _ first, List.mem_append_left _ second⟩, held.faithful⟩

end World

end Vicinity.Tiered
