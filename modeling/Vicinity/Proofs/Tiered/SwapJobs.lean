import Vicinity.Proofs.Tiered.Draining
import Vicinity.Proofs.Tiered.Meshing

/-!
How many swap jobs are on their way.

A repair submits a swap job when enough nodes are ready and sets `swapScheduled`, so that the next
repair does not submit another. Every pass takes the mark back, whoever makes it. When that is not
the job itself but a call, the job is still on its way (`Overtakes`), and a later repair submits
another one (`swap_submitted_twice`). That is the only way to have more than one: without it the
mark says whether a swap job is on its way, and each such pass adds one job at most
(`Reachable.swaps_accounted`).
-/

namespace Vicinity.Tiered

variable {α : Type}

/-! ### Tasks of a call -/

/-- Marking a node asks for repairs only. -/
theorem swap_not_mem_markNode {t t' : Tiered α} {followup followup' : Followup} {id : Nat}
    (none : .swap ∉ followup.tasks) (made : t.markNode followup id = .ok (t', followup')) :
    .swap ∉ followup'.tasks := by
  unfold markNode at made
  split at made
  · contradiction
  · split at made
    case isTrue =>
      cases made
      exact none
    case isFalse =>
      dsimp only at made
      split at made
      · cases made
        simpa [Followup.tasks] using none
      · cases made
        exact none

theorem swap_not_mem_markNodes {ids : List Nat} {t : Tiered α} {followup : Followup}
    {removed : Nat} (none : .swap ∉ followup.tasks) :
    .swap ∉ (t.markNodes followup removed ids).2.1.tasks := by
  induction ids generalizing t followup removed with
  | nil => exact none
  | cons id ids ih =>
      rw [markNodes]
      split
      · exact none
      case h_2 t' followup' made => exact ih (swap_not_mem_markNode none made)

theorem swap_not_mem_removeLabel (t : Tiered α) (label : Label) :
    .swap ∉ (t.removeLabel label).2.1.tasks :=
  swap_not_mem_markNodes (t := { t with flat := (t.flat.deleteLabel label).1 }) List.not_mem_nil

section Writes

variable [Element α]

/-- Storing a vector asks for an insert more, or for nothing. -/
theorem swap_not_mem_place {t : Tiered α} {followup : Followup} (none : .swap ∉ followup.tasks)
    (label : Label) (vector : List α) :
    .swap ∉ (t.place followup label vector).2.1.tasks := by
  have repairs : .swap ∉ followup.repairs := fun mem => none (List.mem_append_left _ mem)
  unfold place
  split
  · dsimp only
    split <;> exact none
  · split
    · exact none
    · simpa [Followup.tasks] using repairs

theorem swap_not_mem_write (t : Tiered α) (label : Label) (vector : List α) :
    .swap ∉ (t.write label vector).2.1.tasks := by
  have empty : .swap ∉ ({} : Followup).tasks := List.not_mem_nil
  have removal := swap_not_mem_removeLabel t label
  unfold write
  split
  · exact empty
  · split
    · exact swap_not_mem_place empty label vector
    · split
      case h_1 removed =>
        rw [removed] at removal
        exact removal
      case h_2 removed =>
        rw [removed] at removal
        exact swap_not_mem_place removal label vector

end Writes

/-! ### The mark -/

/-- Every pass takes the mark back. -/
theorem runGc_unscheduled (t : Tiered α) : t.runGc.1.swapScheduled = false := by
  cases none_ready : t.ready.isEmpty with
  | true =>
      rw [runGc]
      simp only [none_ready, if_true]
  | false =>
      obtain ⟨g, freed, kept, swapped⟩ : ∃ g freed kept,
          swapAll t.graph 0 [] t.passOrder = (g, freed, kept) := ⟨_, _, _, rfl⟩
      obtain ⟨journal, own, eq⟩ := runGc_eq none_ready swapped
      rw [eq]

/-- A repair may submit a swap and set the mark, and a swap takes the mark back. -/
theorem Tracked.perform_swaps [Element α] {t t' : Tiered α} {task : Task} {tasks : List Task}
    (tracked : Tracked t (task :: tasks)) {outcome : Outcome} {next? : Option Task}
    (done : t.perform task = (t', outcome, next?)) :
    (task ≠ .swap ∧ next? = none ∧ t'.swapScheduled = t.swapScheduled) ∨
      (task ≠ .swap ∧ next? = some .swap ∧ t.swapScheduled = false ∧ t'.swapScheduled = true) ∨
      (task = .swap ∧ next? = none ∧ t'.swapScheduled = false) := by
  cases task with
  | insert entry label =>
      obtain ⟨t₁, outcome₁, absorbed⟩ : ∃ t₁ outcome₁,
          t.absorb entry label = (t₁, outcome₁) := ⟨_, _, rfl⟩
      rw [Tiered.perform, absorbed] at done
      cases done
      obtain ⟨_, _, _, _, _, scheduled⟩ := tracked.absorb absorbed
      exact .inl ⟨Task.noConfusion, rfl, scheduled⟩
  | repair id x =>
      obtain ⟨_, _, _, _, _, _, _, _, how⟩ := tracked.repairNode done
      rcases how with ⟨rfl, unscheduled, scheduled⟩ | ⟨rfl, scheduled, _⟩
      · exact .inr (.inl ⟨Task.noConfusion, rfl, unscheduled, scheduled⟩)
      · exact .inl ⟨Task.noConfusion, rfl, scheduled⟩
  | swap =>
      obtain ⟨t₁, freed, passed⟩ : ∃ t₁ freed, t.runGc = (t₁, freed) := ⟨_, _, rfl⟩
      rw [Tiered.perform, passed] at done
      cases done
      obtain ⟨_, _, _, _, cleared, _⟩ := (tracked_cons_swap.1 tracked).runGc passed
      exact .inr (.inr ⟨rfl, rfl, cleared⟩)

namespace World

/-- The swap jobs that are recorded and have not run. -/
def swaps (w : World α) : Nat := w.outstanding.count .swap

theorem swaps_pos {w : World α} : 0 < w.swaps ↔ Task.swap ∈ w.outstanding := List.count_pos_iff

/-- A call makes a pass while a swap job is on its way. -/
def Overtakes (w w' : World α) : Prop :=
  w.index.swapScheduled = true ∧ w' = { w with index := w.index.runGc.1 }

theorem swaps_record {w : World α} {t : Tiered α} {tasks : List Task} (none : .swap ∉ tasks) :
    swaps { w with index := t, due := w.due ++ tasks } = w.swaps := by
  refine ((perm_recorded w.due tasks w.handed).count_eq .swap).trans ?_
  rw [List.count_append, List.count_eq_zero_of_not_mem none, Nat.zero_add]
  rfl

variable [Element α]

/-- What a step does to the mark and to the swap jobs on their way: nothing, or a repair submits a
job and sets the mark, or a job runs and takes it back, or a call takes it back. -/
theorem Consistent.swaps_step {config : Config} {w w' : World α}
    (consistent : Consistent config w) (step : Step w w') :
    (w'.index.swapScheduled = w.index.swapScheduled ∧ w'.swaps = w.swaps) ∨
      (w.index.swapScheduled = false ∧ w'.index.swapScheduled = true ∧
        w'.swaps = w.swaps + 1) ∨
      (w'.index.swapScheduled = false ∧ w.swaps = w'.swaps + 1) ∨
      (w'.index.swapScheduled = false ∧ w'.swaps = w.swaps ∧
        w' = { w with index := w.index.runGc.1 }) := by
  have tracked := consistent.tracked
  cases step with
  | write label vector few written =>
      obtain ⟨_, _, _, scheduled, _⟩ := tracked.write few written
      have none := swap_not_mem_write w.index label vector
      rw [written] at none
      exact .inl ⟨scheduled, swaps_record none⟩
  | delete label removed =>
      obtain ⟨_, _, _, _, _, scheduled, _⟩ := tracked.removeLabel removed
      have none := swap_not_mem_removeLabel w.index label
      rw [removed] at none
      exact .inl ⟨scheduled, swaps_record none⟩
  | submit front back task due =>
      exact .inl ⟨rfl, (perm_submitted due).count_eq .swap⟩
  | pass passed =>
      obtain ⟨_, _, _, _, cleared, _⟩ := tracked.runGc passed
      exact .inr (.inr (.inr ⟨cleared, rfl, by rw [passed]⟩))
  | @run front back task t outcome next? handed done =>
      have before : w.swaps = [task].count .swap + (w.due ++ (front ++ back)).count .swap := by
        rw [swaps, (perm_handed handed).count_eq, ← List.count_append, List.singleton_append]
      have after : (w.due ++ next?.toList ++ (front ++ back)).count .swap =
          next?.toList.count .swap + (w.due ++ (front ++ back)).count .swap := by
        rw [(perm_recorded ..).count_eq, List.count_append]
      have job : (.swap : Task) ≠ task → [task].count .swap = 0 := by
        intro other
        exact List.count_eq_zero_of_not_mem fun mem => other (List.mem_singleton.1 mem)
      simp only [before]
      rcases (consistent.begun handed).perform_swaps done with
        ⟨other, rfl, scheduled⟩ | ⟨other, rfl, unscheduled, scheduled⟩ | ⟨rfl, rfl, cleared⟩
      · rw [job other.symm]
        exact .inl ⟨scheduled, after⟩
      · rw [job other.symm, Nat.zero_add]
        exact .inr (.inl ⟨unscheduled, scheduled, after.trans (Nat.add_comm ..)⟩)
      · refine .inr (.inr (.inl ⟨cleared, (Nat.add_comm ..).trans (congrArg (· + 1) ?_)⟩))
        exact (after.trans (Nat.zero_add _)).symm
  | finish front back task outcome ending => exact .inl ⟨rfl, rfl⟩

/-! ### Courses -/

/-- The states that steps lead to, with the number of passes that overtook a swap job. -/
inductive Course (config : Config) : Nat → World α → Prop where
  | new {t : Tiered α} : Tiered.new config = .ok t → Course config 0 { index := t }
  | step {passes : Nat} {w w' : World α} : Course config passes w → Step w w' →
      ¬ Overtakes w w' → Course config passes w'
  | overtaken {passes : Nat} {w w' : World α} : Course config passes w → Overtakes w w' →
      Course config (passes + 1) w'

theorem Overtakes.step {w w' : World α} (overtakes : Overtakes w w') : Step w w' := by
  obtain ⟨_, rfl⟩ := overtakes
  exact .pass rfl

theorem Course.reachable {config : Config} {passes : Nat} {w : World α}
    (course : Course config passes w) : Reachable config w := by
  induction course with
  | new made => exact .new made
  | step _ step _ ih => exact ih.step step
  | overtaken _ overtakes ih => exact ih.step overtakes.step

/-- There is a course to every state. -/
theorem Reachable.course {config : Config} {w : World α} (reachable : Reachable config w) :
    ∃ passes, Course config passes w := by
  induction reachable with
  | new made => exact ⟨0, .new made⟩
  | @step w w' _ step ih =>
      obtain ⟨passes, course⟩ := ih
      by_cases overtakes : Overtakes w w'
      · exact ⟨passes + 1, course.overtaken overtakes⟩
      · exact ⟨passes, course.step step overtakes⟩

/-- While the mark is set a swap job is on its way, and beside the one it stands for there is one at
most for each pass that overtook one. -/
theorem Course.swaps_le {config : Config} {passes : Nat} {w : World α}
    (course : Course config passes w) :
    (w.index.swapScheduled = true → 0 < w.swaps) ∧
      w.swaps ≤ passes + if w.index.swapScheduled then 1 else 0 := by
  induction course with
  | @new t made =>
      have unscheduled : t.swapScheduled = false := by
        refine Bool.eq_false_iff.2 fun scheduled => ?_
        cases (passAhead_new made).scheduled scheduled
      rw [unscheduled]
      exact ⟨nofun, Nat.le_refl 0⟩
  | @step passes w w' course step kept ih =>
      obtain ⟨marked, few⟩ := ih
      rcases course.reachable.consistent.swaps_step step with
        ⟨scheduled, same⟩ | ⟨before, after, more⟩ | ⟨after, fewer⟩ | ⟨after, same, passed⟩
      · rw [scheduled, same]
        exact ⟨marked, few⟩
      · rw [before] at few
        rw [after, more]
        exact ⟨fun _ => Nat.succ_pos _, Nat.succ_le_succ few⟩
      · rw [after]
        refine ⟨nofun, ?_⟩
        split at few <;> simp only [Bool.false_eq_true, if_false] <;> omega
      · have unscheduled : w.index.swapScheduled = false :=
          Bool.eq_false_iff.2 fun scheduled => kept ⟨scheduled, passed⟩
        rw [unscheduled] at few
        rw [after, same]
        exact ⟨nofun, few⟩
  | @overtaken passes w w' course overtakes ih =>
      obtain ⟨scheduled, rfl⟩ := overtakes
      have few := ih.2
      rw [scheduled] at few
      rw [runGc_unscheduled]
      exact ⟨nofun, few⟩

/-- How the mark and the swap jobs on their way belong together. -/
structure Accounted (config : Config) (w : World α) : Prop where
  course : ∃ passes, Course config passes w
  /-- Beside the job that the mark stands for there is one at most for each pass that overtook
  one. -/
  few : ∀ passes, Course config passes w →
    w.outstanding.count .swap ≤ passes + if w.index.swapScheduled then 1 else 0
  marked : w.index.swapScheduled = true → .swap ∈ w.outstanding
  /-- Where no pass overtook a job, the mark says whether there is one, and there is no second. -/
  undisturbed : Course config 0 w →
    (w.index.swapScheduled = true ↔ .swap ∈ w.outstanding) ∧ w.outstanding.count .swap ≤ 1
  /-- A pass that overtakes a job leaves it on its way without the mark. -/
  overtaken : ∀ w', Overtakes w w' → w'.index.swapScheduled = false ∧ .swap ∈ w'.outstanding

/-- The swap jobs are accounted for in every state that calls, jobs and passes lead to. -/
theorem Reachable.swaps_accounted {config : Config} {w : World α}
    (reachable : Reachable config w) : Accounted config w := by
  obtain ⟨passes, course⟩ := reachable.course
  have marked : w.index.swapScheduled = true → Task.swap ∈ w.outstanding := by
    intro scheduled
    exact swaps_pos.1 (course.swaps_le.1 scheduled)
  constructor
  case course => exact ⟨passes, course⟩
  case few => exact fun _ course => course.swaps_le.2
  case marked => exact marked
  case undisturbed =>
    intro course
    have few : w.outstanding.count .swap ≤ 0 + if w.index.swapScheduled then 1 else 0 :=
      course.swaps_le.2
    cases scheduled : w.index.swapScheduled with
    | true =>
        rw [scheduled] at few
        exact ⟨iff_of_true rfl (marked scheduled), few⟩
    | false =>
        rw [scheduled] at few
        have none := List.count_eq_zero.1 (Nat.le_zero.1 few)
        exact ⟨iff_of_false Bool.false_ne_true none, Nat.le_succ_of_le few⟩
  case overtaken =>
    rintro w' ⟨scheduled, rfl⟩
    exact ⟨runGc_unscheduled w.index, marked scheduled⟩

/-! ### A second swap job -/

/-- A deleted node that has an edge waits for its repair. -/
theorem Reachable.repair_outstanding {config : Config} {w : World α}
    (reachable : Reachable config w) {id next layer : Nat}
    (deleted : w.index.graph.isDeleted id = true)
    (edge : next ∈ (w.index.graph.links id layer).out) :
    ∃ x, Task.repair id x ∈ w.outstanding := by
  have tended := reachable.consistent.tracked.tended
  rcases tended.covered id deleted with ready | ⟨x, named⟩
  · rw [tended.ready_isolated id ready layer] at edge
    cases edge
  · exact ⟨x, mem_repairsOf.1 named⟩

/-- Where one ready node calls for a pass, a repair that runs submits a swap job unless the mark is
set. The tasks that are due besides stay so. -/
theorem Reachable.repair_submits {config : Config} {w : World α} (reachable : Reachable config w)
    (at_once : config.gcThreshold = 1) (unscheduled : w.index.swapScheduled = false) {id x : Nat}
    (due : .repair id x ∈ w.due) :
    ∃ w' : World α, Reachable config w' ∧ w'.index.swapScheduled = true ∧ w'.swaps = w.swaps + 1 ∧
      ∀ task ∈ w.due, task ≠ .repair id x → task ∈ w'.due := by
  obtain ⟨front, back, parts⟩ := List.append_of_mem due
  have submit := Step.submit front back (.repair id x) parts
  have handed := reachable.step submit
  obtain ⟨t, outcome, next?, done⟩ : ∃ t outcome next?,
      ((w.index.submit (.repair id x)).begin (.repair id x)).perform (.repair id x) =
        (t, outcome, next?) := ⟨_, _, _, rfl⟩
  have run := Step.run (w := { w with
      index := w.index.submit (.repair id x), due := front ++ back
      handed := w.handed ++ [.repair id x] }) w.handed [] (.repair id x) rfl done
  have last : w.handed ++ [.repair id x] = w.handed ++ Task.repair id x :: [] := rfl
  have begun := handed.consistent.begun last
  obtain ⟨_, _, config_eq, _, ready, _, _, _, how⟩ := begun.repairNode done
  have scheduled : t.swapScheduled = true := by
    rcases how with ⟨_, _, scheduled⟩ | ⟨_, _, called⟩
    · exact scheduled
    · have enough : t.config.gcThreshold ≤ t.ready.length := by
        have same : t.config = config := config_eq.trans reachable.consistent.config_eq
        rw [same, at_once, ready, List.length_append]
        exact Nat.le_add_left ..
      exact absurd (called enough) (Bool.eq_false_iff.1 unscheduled)
  refine ⟨_, handed.step run, scheduled, ?_, fun task mem other => ?_⟩
  · have same : swaps { w with
        index := w.index.submit (.repair id x), due := front ++ back
        handed := w.handed ++ [.repair id x] } = w.swaps :=
      (perm_submitted parts).count_eq .swap
    rcases handed.consistent.swaps_step run with
      ⟨still, _⟩ | ⟨_, _, more⟩ | ⟨cleared, _⟩ | ⟨cleared, _⟩
    · exact absurd (still.symm.trans scheduled) (Bool.eq_false_iff.1 unscheduled)
    · rw [more, same]
    · exact absurd scheduled (Bool.eq_false_iff.1 cleared)
    · exact absurd scheduled (Bool.eq_false_iff.1 cleared)
  · rw [parts, List.mem_append, List.mem_cons] at mem
    apply List.mem_append_left
    rw [List.mem_append]
    tauto

/-- Several vectors a label, straight to the graph, and a pass for every node that is ready. -/
def eager : Config where
  graph := { dim := 1, metric := .l2, multi := true }
  swapJobThreshold := 1
  writeMode := .inPlace

def emptyLine : Tiered Binary64 :=
  { ofGraph eager { config := eager.graph } with sharesJournal := true }

/-- A vector that goes straight to the graph. -/
theorem write_direct {α : Type} [Element α] {t : Tiered α}
    (direct : t.config.writeMode = .inPlace)
    (multi : t.config.graph.multi = true) {label : Label} {vector : List α}
    (fits : checkDimension t.config.graph.dim.toNat vector.length = .ok ()) {g : Graph α} {id : Nat}
    (inserted : t.grownGraph.insert label vector = .ok (g, id)) :
    t.write label vector = ((t.withGraph t.graph.ensureCapacity).withGraph g, {}, .ok ()) := by
  rw [grownGraph] at inserted
  simp only [write, fits, multi, place, writesDirectly, direct, decide_true, Bool.true_or, if_true,
    inserted]

/-- A vector more under a label. -/
theorem Held.write_eager {t : Tiered Binary64} {given : Holdings Binary64}
    (held : Held eager { index := t } given) (mesh : Graph.SmallMesh eager.graph t.graph)
    (few : t.graph.nodeCount < 32) (label : Label) (number : Binary64) :
    ∃ t' : Tiered Binary64, Held eager { index := t' } (given.store true label [number]) ∧
      Graph.SmallMesh eager.graph t'.graph ∧ t'.graph.nodeCount = t.graph.nodeCount + 1 ∧
      ∀ l, t'.graph.idsOf l =
        if label = l then t.graph.idsOf label ++ [t.graph.nodeCount] else t.graph.idsOf l := by
  obtain ⟨config_eq, tracked, _, _⟩ := held.reachable.consistent
  have config_eq : t.config = eager := config_eq
  have ids_left : t.graph.nodeCount + t.flat.size < Graph.idLimit := by
    have buffered : t.flat.size ≤ t.config.flatBufferLimit.toNat := tracked.limit
    rw [config_eq] at buffered
    have limit_eq : eager.flatBufferLimit.toNat = 1024 := rfl
    have limit : Graph.idLimit = 4294967295 := rfl
    omega
  obtain ⟨config, nodes, _, labels⟩ := grownGraph_same t
  have grown : Graph.SmallMesh eager.graph t.grownGraph :=
    smallMesh_withGraph (mesh.ensureCapacity (by omega)) t
  have fits : checkDimension t.grownGraph.config.dim.toNat [number].length = .ok () := by
    rw [grown.config_eq]
    rfl
  obtain ⟨_, room⟩ := wellFormed_grownGraph mesh.wf (by omega)
  have unmapped : t.grownGraph.config.multi = false → t.grownGraph.contains label = false := by
    rw [grown.config_eq]
    nofun
  obtain ⟨g, inserted⟩ := Graph.insert_eq_ok label fits room
  obtain ⟨_, stores, _⟩ := grown.wf.insert unmapped inserted
  have same_count : t.grownGraph.nodeCount = t.graph.nodeCount := by
    rw [Graph.nodeCount, nodes, ← Graph.nodeCount]
  have count : g.nodeCount = t.graph.nodeCount + 1 := by rw [stores.nodeCount_eq, same_count]
  have same_ids (l : Label) : t.grownGraph.idsOf l = t.graph.idsOf l := by
    rw [Graph.idsOf, labels, ← Graph.idsOf]
  have ids (l : Label) : g.idsOf l =
      if label = l then t.graph.idsOf label ++ [t.graph.nodeCount] else t.graph.idsOf l := by
    rw [stores.idsOf_eq, same_count, same_ids, same_ids]
  have limit : eager.graph.meshLimit = 33 := rfl
  have mesh' : Graph.SmallMesh eager.graph g :=
    grown.insert (by decide : 2 * eager.graph.m.toNat ≤ _) unmapped inserted (by omega)
  have same_config : t.grownGraph.config = t.config.graph := config.trans tracked.graph_config
  have written := write_direct (by rw [config_eq]; rfl) (by rw [config_eq]; rfl)
    (same_config ▸ fits) inserted
  have stored := held.write label [number] ids_left written
  refine ⟨_, stored, smallMesh_withGraph mesh' _, (nodeCount_withGraph ..).trans count, ?_⟩
  obtain ⟨journal, own, taken⟩ := withGraph_eq (t.withGraph t.graph.ensureCapacity) g
  rw [taken]
  exact ids

/-- The nodes of a deleted label keep their edges, and where they have some, wait for their
repairs. -/
theorem Held.await_repairs {t : Tiered Binary64} {given : Holdings Binary64}
    (held : Held eager { index := t } given) (mesh : Graph.SmallMesh eager.graph t.graph)
    (label : Label) :
    ∃ w : World Binary64, Held eager w (given.delete label) ∧ w.index.swapScheduled = false ∧
      w.swaps = 0 ∧ ∀ a ∈ t.graph.idsOf label, ∀ b, t.graph.isLive b = true → a ≠ b →
        b ∈ (w.index.graph.links a 0).out ∧ a ∈ (w.index.graph.links b 0).out ∧
        ∃ x, .repair a x ∈ w.due := by
  obtain ⟨t', followup, result, removed⟩ : ∃ (t' : Tiered Binary64) (followup : Followup)
      (result : Except Failure Nat), t.removeLabel label = (t', followup, result) := ⟨_, _, _, rfl⟩
  have deleted := held.delete label removed
  obtain ⟨_, _, marked, _, _⟩ := held.reachable.consistent.tracked.marked_removeLabel removed
  have none : .swap ∉ followup.tasks := by
    have none := swap_not_mem_removeLabel t label
    rwa [removed] at none
  have outstanding : ∀ task, task ∈ followup.tasks ++ [] → task ∈ followup.tasks := by simp
  obtain ⟨passes, course⟩ := deleted.reachable.course
  refine ⟨_, deleted, Bool.eq_false_iff.2 fun scheduled => ?_,
    List.count_eq_zero_of_not_mem fun mem => none (outstanding _ mem), ?_⟩
  · exact none (outstanding _ (swaps_pos.1 (course.swaps_le.1 scheduled)))
  intro a mem b live other
  have alive := ((mesh.wf.labelled.mem_idsOf label a).1 mem).1
  have forth := mesh.meshed.together a b alive live other
  have back := mesh.meshed.together b a live alive other.symm
  have dead : t'.graph.isDeleted a = true := by
    have inside : a < t'.graph.nodeCount := by
      rw [marked.nodeCount_eq]
      exact Graph.lt_nodeCount_of_isLive alive
    refine (Graph.isLive_eq_false_iff inside).1 (Bool.eq_false_iff.2 fun alive => ?_)
    exact ((marked.isLive_iff a).1 alive).1 mem
  obtain ⟨x, due⟩ := deleted.reachable.repair_outstanding dead ((marked.links_eq a 0).symm ▸ forth)
  exact ⟨(marked.links_eq a 0).symm ▸ forth, (marked.links_eq b 0).symm ▸ back, x,
    outstanding _ due⟩

/-- Two vectors of the label 1 were stored and deleted, and the repairs of both nodes are due. -/
theorem both_await_repair :
    ∃ (w : World Binary64) (x y : Nat), Reachable eager w ∧ w.index.swapScheduled = false ∧
      w.swaps = 0 ∧ .repair 0 x ∈ w.due ∧ .repair 1 y ∈ w.due := by
  have empty : Held eager { index := emptyLine } [] := .new rfl
  obtain ⟨t₁, stored₁, mesh₁, count₁, ids₁⟩ := empty.write_eager (.new rfl) (by decide) 1 .zero
  have count₁ : t₁.graph.nodeCount = 1 := count₁
  obtain ⟨t₂, stored₂, mesh₂, _, ids₂⟩ := stored₁.write_eager mesh₁ (by omega) 1 .one
  have ids : t₂.graph.idsOf 1 = [0, 1] := by
    rw [ids₂, ids₁, count₁]
    rfl
  have live : ∀ id ∈ [0, 1], t₂.graph.isLive id = true := by
    intro id mem
    exact ((mesh₂.wf.labelled.mem_idsOf 1 id).1 (ids ▸ mem)).1
  obtain ⟨w, held, unscheduled, none, await⟩ := stored₂.await_repairs mesh₂ 1
  rw [ids] at await
  obtain ⟨_, _, x, first⟩ := await 0 (by simp) 1 (live 1 (by simp)) Nat.zero_ne_one
  obtain ⟨_, _, y, second⟩ := await 1 (by simp) 0 (live 0 (by simp)) Nat.one_ne_zero
  exact ⟨w, x, y, held.reachable, unscheduled, none, first, second⟩

/-- The first of these repairs submits a swap job, and nothing has overtaken it. -/
theorem accounted_after_repair :
    ∃ w : World Binary64, Reachable eager w ∧ w.index.swapScheduled = true ∧
      Accounted eager w := by
  obtain ⟨w, x, y, reachable, unscheduled, _, first, _⟩ := both_await_repair
  obtain ⟨w₁, reachable₁, scheduled, _⟩ := reachable.repair_submits rfl unscheduled first
  exact ⟨w₁, reachable₁, scheduled, reachable₁.swaps_accounted⟩

/-- A pass by a call leaves a swap job on its way without the mark, and the next repair submits a
second one. -/
theorem swap_submitted_twice :
    (∃ w : World Binary64, Reachable eager w ∧ w.index.swapScheduled = false ∧
      Task.swap ∈ w.outstanding) ∧
      ∃ w : World Binary64, Reachable eager w ∧ w.outstanding.count .swap = 2 := by
  obtain ⟨w, x, y, reachable, unscheduled, none, first, second⟩ := both_await_repair
  obtain ⟨w₁, reachable₁, _, one, due⟩ := reachable.repair_submits rfl unscheduled first
  have passed := reachable₁.step (.pass (t := w₁.index.runGc.1) rfl)
  have cleared := runGc_unscheduled w₁.index
  have waits : Task.repair 1 y ∈ w₁.due := due _ second (by simp)
  obtain ⟨w₂, reachable₂, _, two, _⟩ := passed.repair_submits rfl cleared waits
  have kept : swaps { w₁ with index := w₁.index.runGc.1 } = w₁.swaps := rfl
  refine ⟨⟨_, passed, cleared, swaps_pos.1 ?_⟩, w₂, reachable₂, ?_⟩
  · rw [kept, one]
    exact Nat.succ_pos _
  · exact two.trans (by rw [kept, one, none])

end World

end Vicinity.Tiered
