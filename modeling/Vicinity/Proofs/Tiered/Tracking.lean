import Vicinity.Proofs.Tiered.Buffering
import Vicinity.Proofs.Tiered.Tending

/-!
The invariant of a buffered graph and the tasks that are outstanding for it.

`Tracked t tasks` says that the tasks are what is left to do for `t`: every deleted node is tended,
every buffered vector has its insert, the repairs are as many as counted, and with one vector a
label no label is in both parts. Each operation keeps it: a write adds the tasks it returns
(`Tracked.write`), a task that is carried out leaves the others and the one it submits
(`Tracked.perform`), and a pass leaves all of them (`Tracked.runGc`). Carrying out a task never
fails, and a repair that is tracked is never skipped.

Two things are asked of a caller: the index starts empty, and there is an id for every vector.
-/

namespace Vicinity.Tiered

variable {α : Type}

/-- The tasks are what is left to do. -/
structure Tracked (t : Tiered α) (tasks : List Task) : Prop where
  graph_wf : t.graph.WellFormed
  graph_config : t.graph.config = t.config.graph
  flat_wf : t.flat.WellFormed
  flat_dim : t.flat.dim = t.config.graph.dim.toNat
  flat_multi : t.flat.multi = t.config.graph.multi
  tended : Tended t.graph t.ready (repairsOf tasks)
  buffered : Buffered t.flat (insertsOf tasks)
  label_nodup : t.config.graph.multi = false → (t.flat.rows.map (·.label)).Nodup
  unmapped : t.config.graph.multi = false →
    ∀ row ∈ t.flat.rows, t.graph.contains row.label = false
  limit : t.flat.size ≤ t.config.flatBufferLimit.toNat
  pending : t.pendingRepairs = (repairsOf tasks).length
  room : t.graph.nodeCount + t.flat.size ≤ Graph.idLimit

/-- Nothing is left to do for an empty index. -/
theorem tracked_new {config : Config} {t : Tiered α} (made : Tiered.new config = .ok t) :
    Tracked t [] ∧ t.registry = {} ∧ t.config = config := by
  unfold Tiered.new Graph.new at made
  split at made
  · contradiction
  case h_2 graph graph_made =>
    split at graph_made
    · contradiction
    case h_2 usable =>
      cases graph_made
      cases made
      exact
        ⟨{ graph_wf := Graph.wellFormed_empty usable
           graph_config := rfl
           flat_wf := Flat.wellFormed_new ..
           flat_dim := rfl
           flat_multi := rfl
           tended := .empty _
           buffered := .empty rfl
           label_nodup := fun _ => List.nodup_nil
           unmapped := fun _ _ mem => by cases mem
           limit := Nat.zero_le _
           pending := rfl
           room := Nat.zero_le _ }, rfl, rfl⟩

/-! ### What does not matter -/

/-- The order of the tasks does not matter. -/
theorem Tracked.perm {t : Tiered α} {tasks tasks' : List Task} (tracked : Tracked t tasks)
    (same : tasks'.Perm tasks) : Tracked t tasks' :=
  { tracked with
    tended := tracked.tended.perm (.refl _) (same.filterMap _)
    buffered := tracked.buffered.perm (same.filterMap _)
    pending := tracked.pending.trans (same.filterMap _).length_eq.symm }

/-- Neither do the counts of jobs. -/
theorem Tracked.withRegistry {t : Tiered α} {tasks : List Task} (tracked : Tracked t tasks)
    (registry : Registry) : Tracked { t with registry } tasks :=
  ⟨tracked.graph_wf, tracked.graph_config, tracked.flat_wf, tracked.flat_dim, tracked.flat_multi,
    tracked.tended, tracked.buffered, tracked.label_nodup, tracked.unmapped, tracked.limit,
    tracked.pending, tracked.room⟩

/-- A graph taken over differs from the one given in what it has logged, and the index in its graph
and in what it has logged. -/
theorem withGraph_eq (t : Tiered α) (g : Graph α) :
    ∃ journal own, t.withGraph g = { t with graph := { g with journal := own }, journal } := by
  unfold withGraph
  split
  · exact ⟨_, [], rfl⟩
  · exact ⟨t.journal, g.journal, rfl⟩

/-! ### Taking a label out of the buffer -/

theorem size_deleteLabel_le {f : Flat α} (wf : f.WellFormed) (label : Label) :
    (f.deleteLabel label).1.size ≤ f.size := by
  have perm := Flat.perm_deleteLabel wf label
  have := (List.length_filter_le (fun row : Flat.Row α => row.label != label) f.rows)
  rwa [← perm.length_eq, Flat.length_rows, Flat.length_rows] at this

theorem mem_rows_deleteLabel {f : Flat α} (wf : f.WellFormed) {label : Label} {row : Flat.Row α} :
    row ∈ (f.deleteLabel label).1.rows ↔ row ∈ f.rows ∧ row.label ≠ label := by
  rw [(Flat.perm_deleteLabel wf label).mem_iff, List.mem_filter, bne_iff_ne]

theorem Tracked.deleteLabel {t : Tiered α} {tasks : List Task} (tracked : Tracked t tasks)
    (label : Label) : Tracked { t with flat := (t.flat.deleteLabel label).1 } tasks where
  graph_wf := tracked.graph_wf
  graph_config := tracked.graph_config
  flat_wf := tracked.flat_wf.deleteLabel label
  flat_dim := by
    rw [Flat.deleteLabel_eq]
    exact tracked.flat_dim
  flat_multi := by
    rw [Flat.deleteLabel_eq]
    exact tracked.flat_multi
  tended := tracked.tended
  buffered := by
    refine tracked.buffered.shrink (fun row mem => ?_) ?_
    · exact ((mem_rows_deleteLabel tracked.flat_wf).1 mem).1
    · rw [Flat.deleteLabel_eq]
      rfl
  label_nodup single := by
    have perm := (Flat.perm_deleteLabel tracked.flat_wf label).map (·.label)
    exact perm.nodup_iff.2 ((tracked.label_nodup single).sublist (List.filter_sublist.map _))
  unmapped single row mem :=
    tracked.unmapped single row ((mem_rows_deleteLabel tracked.flat_wf).1 mem).1
  limit := Nat.le_trans (size_deleteLabel_le tracked.flat_wf label) tracked.limit
  pending := tracked.pending
  room := Nat.le_trans
    (Nat.add_le_add_left (size_deleteLabel_le tracked.flat_wf label) _) tracked.room

/-! ### Marking nodes -/

/-- What marking nodes changes and leaves alone. -/
structure Marked (t : Tiered α) (ids : List Nat) (t' : Tiered α) : Prop where
  config_eq : t'.config = t.config
  flat_eq : t'.flat = t.flat
  registry_eq : t'.registry = t.registry
  swapScheduled_eq : t'.swapScheduled = t.swapScheduled
  nodeCount_eq : t'.graph.nodeCount = t.graph.nodeCount
  links_eq (j layer : Nat) : t'.graph.links j layer = t.graph.links j layer
  isLive_iff (j : Nat) : t'.graph.isLive j = true ↔ j ∉ ids ∧ t.graph.isLive j = true
  idsOf_eq (l : Label) : t'.graph.idsOf l = (t.graph.idsOf l).filter fun j => !ids.contains j

theorem Marked.refl (t : Tiered α) : Marked t [] t :=
  ⟨rfl, rfl, rfl, rfl, rfl, fun _ _ => rfl, fun _ => by simp, fun _ => by simp⟩

theorem Marked.trans {t t₁ t₂ : Tiered α} {id : Nat} {ids : List Nat} (first : Marked t [id] t₁)
    (rest : Marked t₁ ids t₂) : Marked t (id :: ids) t₂ where
  config_eq := rest.config_eq.trans first.config_eq
  flat_eq := rest.flat_eq.trans first.flat_eq
  registry_eq := rest.registry_eq.trans first.registry_eq
  swapScheduled_eq := rest.swapScheduled_eq.trans first.swapScheduled_eq
  nodeCount_eq := rest.nodeCount_eq.trans first.nodeCount_eq
  links_eq j layer := (rest.links_eq j layer).trans (first.links_eq j layer)
  isLive_iff j := by
    rw [rest.isLive_iff, first.isLive_iff, List.mem_singleton, List.mem_cons, not_or]
    tauto
  idsOf_eq l := by
    rw [rest.idsOf_eq, first.idsOf_eq, List.filter_filter]
    refine List.filter_congr fun j _ => ?_
    simp [Bool.and_comm]

theorem marked_of_marks {t : Tiered α} {id : Nat} {h : Graph α} (marks : t.graph.Marks id h)
    (journal own : Log.Journal) (ready : List Nat) (pendingRepairs : Nat) :
    Marked t [id]
      { t with graph := { h with journal := own }, journal, ready, pendingRepairs } where
  config_eq := rfl
  flat_eq := rfl
  registry_eq := rfl
  swapScheduled_eq := rfl
  nodeCount_eq := marks.nodeCount_eq
  links_eq := marks.links_eq
  isLive_iff j := by
    rw [List.mem_singleton]
    exact marks.isLive_iff j
  idsOf_eq l := by
    refine (marks.idsOf_eq l).trans (List.filter_congr fun j _ => ?_)
    by_cases same : j = id <;> simp [same]

/-- Marking a live node hands it to the ready list or to a new repair. -/
theorem Tracked.markNode {t : Tiered α} {tasks : List Task} {followup : Followup}
    (tracked : Tracked t (followup.repairs ++ tasks)) {id : Nat} (live : t.graph.isLive id = true) :
    ∃ t' followup', t.markNode followup id = .ok (t', followup') ∧
      Tracked t' (followup'.repairs ++ tasks) ∧ Marked t [id] t' ∧
      followup'.insert = followup.insert ∧
      followup'.gcDue = decide (t'.config.gcThreshold ≤ t'.ready.length) := by
  obtain ⟨h, made⟩ := Graph.markDeleted_eq_ok live
  obtain ⟨wf, marks, _⟩ := tracked.graph_wf.markDeleted made
  obtain ⟨journal, own, taken⟩ := withGraph_eq t h
  have unmapped : t.config.graph.multi = false → ∀ row ∈ t.flat.rows,
      h.contains row.label = false := by
    intro single row mem
    have none := (Graph.contains_eq_false_iff tracked.graph_wf.labelled).1
      (tracked.unmapped single row mem)
    refine (Graph.contains_eq_false_iff wf.labelled).2 ?_
    rw [marks.idsOf_eq, none, List.filter_nil]
  have room : h.nodeCount + t.flat.size ≤ Graph.idLimit := by
    rw [marks.nodeCount_eq]
    exact tracked.room
  have config := marks.config_eq.trans tracked.graph_config
  simp only [Tiered.markNode, made, taken]
  cases alone : h.isIsolated id with
  | true =>
      have isolated := (Graph.isIsolated_iff.1 alone).2
      refine ⟨_, _, rfl, ?_, marked_of_marks marks .., rfl, rfl⟩
      exact
        { tracked with
          graph_wf := wf.withJournal own
          graph_config := config
          tended := (tracked.tended.mark_ready marks live isolated).of_nodes_eq rfl
          unmapped := unmapped
          room := room }
  | false =>
      obtain ⟨node, at_id, _⟩ := Graph.isLive_eq_true_iff.1 live
      have generation : h.generation? id = some node.generation := by
        rw [marks.generation?_eq, Graph.generation?, at_id, Option.map_some]
      simp only [generation]
      refine ⟨_, _, rfl, ?_, marked_of_marks marks .., rfl, rfl⟩
      have last : (followup.repairs ++ [Task.repair id node.generation] ++ tasks).Perm
          (Task.repair id node.generation :: (followup.repairs ++ tasks)) := by
        rw [List.append_assoc]
        exact List.perm_middle
      refine Tracked.perm ?_ last
      exact
        { tracked with
          graph_wf := wf.withJournal own
          graph_config := config
          tended := (tracked.tended.mark_awaited marks live generation).of_nodes_eq rfl
          unmapped := unmapped
          pending := congrArg Nat.succ tracked.pending
          room := room }

/-- Marking the nodes of a list, all of them live, goes through to the end. -/
theorem Tracked.markNodes {ids : List Nat} {t t' : Tiered α} {tasks : List Task}
    {followup followup' : Followup} {removed : Nat} {result : Except Failure Nat}
    (tracked : Tracked t (followup.repairs ++ tasks)) (nodup : ids.Nodup)
    (live : ∀ id ∈ ids, t.graph.isLive id = true)
    (made : t.markNodes followup removed ids = (t', followup', result)) :
    result = .ok (removed + ids.length) ∧ Tracked t' (followup'.repairs ++ tasks) ∧
      Marked t ids t' ∧ followup'.insert = followup.insert ∧
      (followup'.gcDue = decide (t'.config.gcThreshold ≤ t'.ready.length) ∨
        t'.ready = t.ready ∧ followup'.gcDue = followup.gcDue) := by
  induction ids generalizing t followup removed with
  | nil =>
      cases made
      exact ⟨rfl, tracked, .refl _, rfl, .inr ⟨rfl, rfl⟩⟩
  | cons id ids ih =>
      obtain ⟨once, nodup⟩ := List.nodup_cons.1 nodup
      obtain ⟨here, later⟩ := List.forall_mem_cons.1 live
      obtain ⟨t₁, followup₁, made₁, tracked₁, marked, insert_eq, due⟩ := tracked.markNode here
      have live₁ : ∀ j ∈ ids, t₁.graph.isLive j = true := by
        intro j mem
        refine (marked.isLive_iff j).2 ⟨fun same => once ?_, later j mem⟩
        rwa [← List.mem_singleton.1 same]
      rw [Tiered.markNodes, made₁] at made
      obtain ⟨result_eq, tracked', marked', insert_eq', due'⟩ := ih tracked₁ nodup live₁ made
      refine ⟨?_, tracked', marked.trans marked', insert_eq'.trans insert_eq, .inl ?_⟩
      · rw [result_eq, List.length_cons, Nat.add_assoc, Nat.add_comm 1]
      · rcases due' with due' | ⟨same, due'⟩
        · exact due'
        · rw [due', due, same, marked'.config_eq]

theorem Followup.tasks_of_no_insert {followup : Followup} (none : followup.insert = none) :
    followup.tasks = followup.repairs := by
  rw [Followup.tasks, none, Option.toList_none, List.append_nil]

/-- Removing a label takes it out of the buffer and marks its nodes. -/
theorem Tracked.marked_removeLabel {t t' : Tiered α} {tasks : List Task} (tracked : Tracked t tasks)
    {label : Label} {followup : Followup} {result : Except Failure Nat}
    (removed : t.removeLabel label = (t', followup, result)) :
    (∃ count, result = .ok count) ∧ Tracked t' (followup.tasks ++ tasks) ∧
      Marked { t with flat := (t.flat.deleteLabel label).1 } (t.graph.idsOf label) t' ∧
      followup.insert = none ∧
      (followup.gcDue = decide (t'.config.gcThreshold ≤ t'.ready.length) ∨
        t'.ready = t.ready ∧ followup.gcDue = false) := by
  have labelled := tracked.graph_wf.labelled
  have live : ∀ id ∈ t.graph.idsOf label, t.graph.isLive id = true := fun id mem =>
    ((labelled.mem_idsOf label id).1 mem).1
  have shorter : Tracked { t with flat := (t.flat.deleteLabel label).1 }
      (({} : Followup).repairs ++ tasks) := tracked.deleteLabel label
  obtain ⟨result_eq, tracked', marked, none, due⟩ :=
    shorter.markNodes (labelled.nodup label) live removed
  rw [Followup.tasks_of_no_insert none]
  exact ⟨⟨_, result_eq⟩, tracked', marked, none, due⟩

/-- Removing a label leaves it in neither part. -/
theorem Tracked.removeLabel {t t' : Tiered α} {tasks : List Task} (tracked : Tracked t tasks)
    {label : Label} {followup : Followup} {result : Except Failure Nat}
    (removed : t.removeLabel label = (t', followup, result)) :
    (∃ count, result = .ok count) ∧ Tracked t' (followup.tasks ++ tasks) ∧
      followup.insert = none ∧ t'.config = t.config ∧ t'.registry = t.registry ∧
      t'.swapScheduled = t.swapScheduled ∧
      t'.graph.nodeCount + t'.flat.size ≤ t.graph.nodeCount + t.flat.size ∧
      (∀ row ∈ t'.flat.rows, row.label ≠ label) ∧ t'.graph.contains label = false ∧
      (followup.gcDue = decide (t'.config.gcThreshold ≤ t'.ready.length) ∨
        t'.ready = t.ready ∧ followup.gcDue = false) := by
  obtain ⟨counted, tracked', marked, none, due⟩ := tracked.marked_removeLabel removed
  refine ⟨counted, tracked', none, marked.config_eq, marked.registry_eq,
    marked.swapScheduled_eq, ?_, ?_, ?_, due⟩
  · rw [marked.nodeCount_eq, marked.flat_eq]
    exact Nat.add_le_add_left (size_deleteLabel_le tracked.flat_wf label) _
  · intro row mem
    rw [marked.flat_eq] at mem
    exact ((mem_rows_deleteLabel tracked.flat_wf).1 mem).2
  · refine (Graph.contains_eq_false_iff tracked'.graph_wf.labelled).2 ?_
    rw [marked.idsOf_eq]
    simp

/-! ### Storing a vector -/

/-- The graph that takes a vector in, with a free slot made if need be. -/
def grownGraph (t : Tiered α) : Graph α := (t.withGraph t.graph.ensureCapacity).graph

theorem grownGraph_same (t : Tiered α) :
    t.grownGraph.config = t.graph.config ∧ t.grownGraph.nodes = t.graph.nodes ∧
      t.grownGraph.vectors = t.graph.vectors ∧ t.grownGraph.labels = t.graph.labels := by
  obtain ⟨journal, own, taken⟩ := withGraph_eq t t.graph.ensureCapacity
  rw [grownGraph, taken]
  dsimp only
  rw [Graph.ensureCapacity_eq]
  exact ⟨rfl, rfl, rfl, rfl⟩

theorem wellFormed_grownGraph {t : Tiered α} (wf : t.graph.WellFormed)
    (few : t.graph.nodeCount < Graph.idLimit) :
    t.grownGraph.WellFormed ∧ t.grownGraph.isFull = false := by
  obtain ⟨journal, own, taken⟩ := withGraph_eq t t.graph.ensureCapacity
  rw [grownGraph, taken]
  exact ⟨(wf.ensureCapacity few).withJournal own, Graph.room_of_ensureCapacity wf few⟩

variable [Element α]

/-- A graph with an id left takes a vector of its dimension in, and only that. -/
theorem insert_grownGraph {t : Tiered α} {awaited : List (Nat × Nat)} (wf : t.graph.WellFormed)
    (tended : Tended t.graph t.ready awaited) (few : t.graph.nodeCount < Graph.idLimit)
    {label : Label} (absent : t.graph.config.multi = false → t.graph.contains label = false)
    {vector : List α} (fits : checkDimension t.graph.config.dim.toNat vector.length = .ok ()) :
    ∃ g id, t.grownGraph.insert label vector = .ok (g, id) ∧ g.WellFormed ∧
      g.config = t.graph.config ∧ Tended g t.ready awaited ∧
      g.nodeCount = t.graph.nodeCount + 1 ∧
      ∀ l, l ≠ label → t.graph.contains l = false → g.contains l = false := by
  obtain ⟨config, nodes, _, labels⟩ := grownGraph_same t
  obtain ⟨wf_grown, room⟩ := wellFormed_grownGraph wf few
  have contains_eq : ∀ l, t.grownGraph.contains l = t.graph.contains l := fun l => by
    rw [Graph.contains, labels, ← Graph.contains]
  have count : t.grownGraph.nodeCount = t.graph.nodeCount := by
    rw [Graph.nodeCount, nodes, ← Graph.nodeCount]
  obtain ⟨g, inserted⟩ := Graph.insert_eq_ok label (config ▸ fits) room
  have absent : t.grownGraph.config.multi = false → t.grownGraph.contains label = false := by
    rw [config, contains_eq]
    exact absent
  obtain ⟨wf_g, stores, _⟩ := wf_grown.insert absent inserted
  refine ⟨g, _, inserted, wf_g, stores.config_eq.trans config,
    (tended.of_nodes_eq nodes).store stores, ?_, fun l other none => ?_⟩
  · rw [stores.nodeCount_eq, count]
  · rw [← contains_eq, Graph.contains_eq_false_iff wf_grown.labelled] at none
    rw [Graph.contains_eq_false_iff wf_g.labelled, stores.idsOf_eq, if_neg (Ne.symm other), none]

/-- Placing a vector whose label may be added goes through, into the part where it belongs. -/
theorem Tracked.place {t t' : Tiered α} {tasks : List Task} {followup followup' : Followup}
    (tracked : Tracked t (followup.tasks ++ tasks)) (no_insert : followup.insert = none)
    (few : t.graph.nodeCount + t.flat.size < Graph.idLimit) {label : Label}
    (unbuffered : t.config.graph.multi = false →
      ∀ row ∈ t.flat.rows, row.label ≠ label)
    (absent : t.config.graph.multi = false → t.graph.contains label = false) {vector : List α}
    (fits : checkDimension t.config.graph.dim.toNat vector.length = .ok ())
    {result : Except Failure Unit}
    (placed : t.place followup label vector = (t', followup', result)) :
    result = .ok () ∧ Tracked t' (followup'.tasks ++ tasks) ∧ t'.config = t.config ∧
      t'.registry = t.registry ∧ t'.ready = t.ready ∧ t'.swapScheduled = t.swapScheduled ∧
      followup'.gcDue = followup.gcDue := by
  have config := tracked.graph_config
  rw [Tiered.place] at placed
  by_cases direct : t.writesDirectly = true
  · rw [if_pos direct] at placed
    rw [← config] at absent fits
    obtain ⟨g, id, inserted, wf, config_g, tended, count, others⟩ :=
      insert_grownGraph tracked.graph_wf tracked.tended (by omega) absent fits
    rw [grownGraph] at inserted
    obtain ⟨journal, own, taken⟩ := withGraph_eq t t.graph.ensureCapacity
    obtain ⟨journal', own', taken'⟩ := withGraph_eq (t.withGraph t.graph.ensureCapacity) g
    dsimp only at placed
    rw [inserted] at placed
    dsimp only at placed
    rw [taken', taken] at placed
    cases placed
    refine ⟨rfl, ?_, rfl, rfl, rfl, rfl, rfl⟩
    exact
      { tracked with
        graph_wf := wf.withJournal own'
        graph_config := config_g.trans config
        tended := tended.of_nodes_eq rfl
        unmapped := fun single row mem =>
          others _ (unbuffered single row mem) (tracked.unmapped single row mem)
        room := by
          change g.nodeCount + t.flat.size ≤ Graph.idLimit
          omega }
  · rw [if_neg direct] at placed
    have below : t.flat.size < t.config.flatBufferLimit.toNat := by
      rw [writesDirectly, Bool.or_eq_true, not_or, decide_eq_true_eq] at direct
      exact Nat.not_le.1 (of_decide_eq_false (Bool.eq_false_iff.2 direct.2))
    have added := Flat.addEntry_eq_ok tracked.flat_wf label
      (tracked.flat_dim ▸ fits : checkDimension t.flat.dim _ = _) (tracked.flat_multi ▸ unbuffered)
    rw [added] at placed
    cases placed
    refine ⟨rfl, ?_, rfl, rfl, rfl, rfl, rfl⟩
    have last : (({ followup with insert := some (Task.insert t.flat.nextEntry label) } :
        Followup).tasks ++ tasks).Perm
          (Task.insert t.flat.nextEntry label :: (followup.tasks ++ tasks)) := by
      rw [Followup.tasks_of_no_insert no_insert, Followup.tasks, Option.toList_some,
        List.append_assoc]
      exact List.perm_middle
    have length : vector.length = t.flat.dim := by
      rw [tracked.flat_dim]
      exact (checkDimension_eq_ok_iff.1 fits).1
    have grown : (t.flat.push label vector).size = t.flat.size + 1 := Array.size_push ..
    refine Tracked.perm ?_ last
    constructor
    case graph_wf => exact tracked.graph_wf
    case graph_config => exact config
    case flat_wf => exact tracked.flat_wf.push label length
    case flat_dim => exact tracked.flat_dim
    case flat_multi => exact tracked.flat_multi
    case tended => exact tracked.tended
    case buffered => exact tracked.buffered.push label vector
    case label_nodup =>
      intro single
      have perm : ((t.flat.push label vector).rows.map (·.label)).Perm
          (label :: t.flat.rows.map (·.label)) := by
        rw [Flat.rows_push tracked.flat_wf label length, List.map_append]
        exact List.perm_append_singleton ..
      refine perm.nodup_iff.2 (List.nodup_cons.2 ⟨fun again => ?_, tracked.label_nodup single⟩)
      obtain ⟨row, mem, same⟩ := List.mem_map.1 again
      exact unbuffered single row mem same
    case unmapped =>
      intro single row mem
      rcases (Flat.mem_rows_push tracked.flat_wf length).1 mem with old | rfl
      · exact tracked.unmapped single row old
      · exact absent single
    case limit =>
      change (t.flat.push label vector).size ≤ t.config.flatBufferLimit.toNat
      omega
    case pending => exact tracked.pending
    case room =>
      change t.graph.nodeCount + (t.flat.push label vector).size ≤ Graph.idLimit
      omega

/-- What a write wants done is what is left to do after it, beside what was left before. -/
theorem Tracked.write {t t' : Tiered α} {tasks : List Task} (tracked : Tracked t tasks)
    (few : t.graph.nodeCount + t.flat.size < Graph.idLimit) {label : Label} {vector : List α}
    {followup : Followup} {result : Except Failure Unit}
    (written : t.write label vector = (t', followup, result)) :
    Tracked t' (followup.tasks ++ tasks) ∧ t'.config = t.config ∧ t'.registry = t.registry ∧
      t'.swapScheduled = t.swapScheduled ∧
      (followup.gcDue = decide (t'.config.gcThreshold ≤ t'.ready.length) ∨
        t'.ready = t.ready ∧ followup.gcDue = false) := by
  rw [Tiered.write] at written
  cases fits : checkDimension t.config.graph.dim.toNat vector.length with
  | error fault =>
      rw [fits] at written
      cases written
      exact ⟨tracked, rfl, rfl, rfl, .inr ⟨rfl, rfl⟩⟩
  | ok _ =>
      rw [fits] at written
      dsimp only at written
      by_cases multi : t.config.graph.multi = true
      · have not_single : t.config.graph.multi = false → False := fun single => by
          rw [multi] at single
          cases single
        rw [if_pos multi] at written
        have start : Tracked t (({} : Followup).tasks ++ tasks) := tracked
        obtain ⟨_, tracked', config, registry, ready, scheduled, due⟩ :=
          start.place rfl few (fun single => (not_single single).elim)
            (fun single => (not_single single).elim) fits written
        exact ⟨tracked', config, registry, scheduled, .inr ⟨ready, due⟩⟩
      · rw [if_neg multi] at written
        obtain ⟨t₁, followup₁, result₁, removed⟩ : ∃ t₁ followup₁ result₁,
            t.removeLabel label = (t₁, followup₁, result₁) := ⟨_, _, _, rfl⟩
        obtain ⟨⟨count, rfl⟩, tracked₁, none, config₁, registry₁, scheduled₁, fewer, unbuffered,
          absent, due₁⟩ := tracked.removeLabel removed
        rw [removed] at written
        obtain ⟨_, tracked', config, registry, ready, scheduled, due⟩ :=
          tracked₁.place none (Nat.lt_of_le_of_lt fewer few) (fun _ => unbuffered)
            (fun _ => absent) (config₁ ▸ fits) written
        refine ⟨tracked', config.trans config₁, registry.trans registry₁,
          scheduled.trans scheduled₁, ?_⟩
        rcases due₁ with due₁ | ⟨same, due₁⟩
        · exact .inl (by rw [due, due₁, ready, config])
        · exact .inr ⟨ready.trans same, due.trans due₁⟩

end Vicinity.Tiered
