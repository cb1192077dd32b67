import Vicinity.Proofs.Graph.Finding
import Vicinity.Proofs.Tiered.Interleaving

/-!
A buffer in front of a graph that has deleted nodes already.

A buffered graph tends the nodes that it marks itself: each of them is ready or has a repair. It
starts with none of either, whatever graph it is put in front of, so the nodes that were deleted
before stand where they stood, as if they waited for repairs that nobody asked for (`Minded`). No
task removes them, and no pass does: a pass that finds every job done leaves exactly these nodes
and the ready ones that they block (`Adopted.pass_leaves`). They block all of them when one of them
stands in the last slot (`deletions_stay`).
-/

namespace Vicinity.Tiered

variable {α : Type}

/-! ### Deleted nodes without a task -/

/-- The slots and serial numbers of the deleted nodes. -/
def inheritedOf (g : Graph α) : List (Nat × Nat) :=
  ((List.range g.nodeCount).filter g.isDeleted).filterMap fun id =>
    (g.generation? id).map (id, ·)

theorem mem_inheritedOf {g : Graph α} {id x : Nat} :
    (id, x) ∈ inheritedOf g ↔ g.isDeleted id = true ∧ g.generation? id = some x := by
  simp only [inheritedOf, List.mem_filterMap, List.mem_filter, List.mem_range,
    Option.map_eq_some_iff, Prod.mk.injEq]
  constructor
  · rintro ⟨_, ⟨_, deleted⟩, _, generation, rfl, rfl⟩
    exact ⟨deleted, generation⟩
  · rintro ⟨deleted, generation⟩
    exact ⟨id, ⟨Graph.lt_nodeCount_of_isDeleted deleted, deleted⟩, x, generation, rfl, rfl⟩

theorem nodup_inheritedOf (g : Graph α) : (inheritedOf g).Nodup := by
  refine List.Nodup.filterMap ?_ (List.nodup_range.filter _)
  intro a b target at_a at_b
  obtain ⟨_, _, rfl⟩ := Option.map_eq_some_iff.1 at_a
  obtain ⟨_, _, same⟩ := Option.map_eq_some_iff.1 at_b
  exact (congrArg Prod.fst same).symm

/-- With nothing ready, the deleted nodes are those that wait. -/
theorem Tended.inherit (g : Graph α) : Tended g [] (inheritedOf g) where
  ready_nodup := .nil
  ready_deleted := fun _ mem => by cases mem
  ready_isolated := fun _ mem => by cases mem
  awaited_nodup := nodup_inheritedOf g
  awaited_deleted := fun _ mem => (mem_inheritedOf.1 mem).1
  awaited_generation := fun _ mem => (mem_inheritedOf.1 mem).2
  apart := fun _ _ => List.not_mem_nil
  covered id deleted := by
    obtain ⟨node, at_id, _⟩ := Graph.isDeleted_eq_true_iff.1 deleted
    have generation : g.generation? id = some node.generation := by
      rw [Graph.generation?, at_id, Option.map_some]
    exact .inr ⟨_, mem_inheritedOf.2 ⟨deleted, generation⟩⟩

/-! ### What every operation keeps -/

/-- The deleted nodes of a graph are tended, except for some that no task is for. -/
structure Minded (t : Tiered α) (tasks : List Task) (inherited : List (Nat × Nat)) : Prop where
  sturdy : t.graph.Sturdy
  tended : Tended t.graph t.ready (repairsOf tasks ++ inherited)

namespace Minded

variable {t t' : Tiered α} {tasks : List Task} {inherited : List (Nat × Nat)}

theorem perm (minded : Minded t tasks inherited) {tasks' : List Task}
    (same : tasks'.Perm tasks) : Minded t tasks' inherited :=
  ⟨minded.sturdy, minded.tended.perm (.refl _) ((same.filterMap _).append_right _)⟩

/-- What does not change the deleted nodes can be taken over. -/
theorem withGraph {h : Graph α} (sturdy : h.Sturdy)
    (tended : Tended h t.ready (repairsOf tasks ++ inherited)) :
    Minded (t.withGraph h) tasks inherited := by
  obtain ⟨journal, own, taken⟩ := withGraph_eq t h
  rw [taken]
  exact ⟨sturdy.withCapacity h.capacity own, tended.of_nodes_eq rfl⟩

theorem markNode {followup followup' : Followup}
    (minded : Minded t (followup.repairs ++ tasks) inherited) {id : Nat}
    (made : t.markNode followup id = .ok (t', followup')) :
    Minded t' (followup'.repairs ++ tasks) inherited ∧ followup'.insert = followup.insert := by
  unfold Tiered.markNode at made
  split at made
  · contradiction
  case h_2 h marked =>
    obtain ⟨sturdy, marks, live⟩ := minded.sturdy.markDeleted marked
    obtain ⟨journal, own, taken⟩ := withGraph_eq t h
    have kept : ({ h with journal := own } : Graph α).Sturdy := sturdy.withCapacity h.capacity own
    rw [taken] at made
    dsimp only at made
    split at made
    case isTrue alone =>
      cases made
      have isolated := (Graph.isIsolated_iff.1 alone).2
      exact ⟨⟨kept, (minded.tended.mark_ready marks live isolated).of_nodes_eq rfl⟩, rfl⟩
    case isFalse =>
      obtain ⟨node, at_id, _⟩ := Graph.isLive_eq_true_iff.1 live
      have generation : h.generation? id = some node.generation := by
        rw [marks.generation?_eq, Graph.generation?, at_id, Option.map_some]
      rw [generation] at made
      cases made
      have first : Minded
          { t with
            graph := { h with journal := own }, journal
            pendingRepairs := t.pendingRepairs + 1 }
          (.repair id node.generation :: (followup.repairs ++ tasks)) inherited :=
        ⟨kept, (minded.tended.mark_awaited marks live generation).of_nodes_eq rfl⟩
      refine ⟨first.perm ?_, rfl⟩
      rw [List.append_assoc]
      exact List.perm_middle

/-- A run of marks may end early; what was marked has its repairs. -/
theorem markNodes {ids : List Nat} {followup followup' : Followup} {removed : Nat}
    {result : Except Failure Nat} (minded : Minded t (followup.repairs ++ tasks) inherited)
    (made : t.markNodes followup removed ids = (t', followup', result)) :
    Minded t' (followup'.repairs ++ tasks) inherited ∧ followup'.insert = followup.insert := by
  induction ids generalizing t followup removed with
  | nil =>
      cases made
      exact ⟨minded, rfl⟩
  | cons id ids ih =>
      rw [Tiered.markNodes] at made
      split at made
      · cases made
        exact ⟨minded, rfl⟩
      case h_2 t₁ followup₁ first =>
        obtain ⟨minded₁, same⟩ := minded.markNode first
        obtain ⟨minded', same'⟩ := ih minded₁ made
        exact ⟨minded', same'.trans same⟩

theorem removeLabel (minded : Minded t tasks inherited) {label : Label} {followup : Followup}
    {result : Except Failure Nat} (removed : t.removeLabel label = (t', followup, result)) :
    Minded t' (followup.tasks ++ tasks) inherited ∧ followup.insert = none := by
  have shorter : Minded { t with flat := (t.flat.deleteLabel label).1 }
      (({} : Followup).repairs ++ tasks) inherited := ⟨minded.sturdy, minded.tended⟩
  obtain ⟨minded', none⟩ := shorter.markNodes removed
  rw [Followup.tasks_of_no_insert none]
  exact ⟨minded', none⟩

/-- A pass leaves no ready node, or one that nobody tends stands in the last slot. -/
theorem runGc (minded : Minded t tasks inherited) {freed : Nat}
    (passed : t.runGc = (t', freed)) :
    Minded t' tasks inherited ∧ freed + t'.ready.length = t.ready.length ∧
      (repairsOf tasks = [] → t'.ready = [] ∨ ∃ x, (t'.graph.nodeCount - 1, x) ∈ inherited) := by
  cases none_ready : t.ready.isEmpty with
  | true =>
      simp only [Tiered.runGc, none_ready, if_true] at passed
      cases passed
      exact ⟨⟨minded.sturdy, minded.tended⟩, Nat.zero_add _,
        fun _ => .inl (List.isEmpty_iff.1 none_ready)⟩
  | false =>
      obtain ⟨g, n, kept, swapped⟩ : ∃ g n kept,
          swapAll t.graph 0 [] t.passOrder = (g, n, kept) := ⟨_, _, _, rfl⟩
      obtain ⟨journal, own, eq⟩ := runGc_eq none_ready swapped
      rw [eq] at passed
      cases passed
      have perm : t.passOrder.Perm t.ready := Sorting.sortBy_perm ..
      have start : Tended t.graph ([] ++ t.passOrder) (repairsOf tasks ++ inherited) :=
        minded.tended.perm perm (.refl _)
      obtain ⟨sturdy, tended, total⟩ := Tended.swapAll minded.sturdy start swapped
      have shrunk := Graph.shrinkToFit_eq g
      have nodes : g.shrinkToFit.nodes = g.nodes := by rw [shrunk]
      refine ⟨⟨sturdy.shrinkToFit.withCapacity _ own, tended.of_nodes_eq nodes⟩, ?_, ?_⟩
      · rw [List.length_nil, perm.length_eq] at total
        exact total.trans (Nat.zero_add _)
      · intro no_repair
        have last := start.last_awaited (pairwise_passOrder minded.tended.ready_nodup)
          minded.sturdy swapped
        rw [no_repair, List.nil_append] at last
        change _ ∨ ∃ x, (g.shrinkToFit.nodeCount - 1, x) ∈ inherited
        rwa [Graph.nodeCount, nodes, ← Graph.nodeCount]

theorem grow (minded : Minded t tasks inherited) :
    Minded (t.withGraph t.graph.ensureCapacity) tasks inherited := by
  refine .withGraph minded.sturdy.ensureCapacity (minded.tended.of_nodes_eq ?_)
  rw [Graph.ensureCapacity_eq]

section Writes

variable [Element α]

theorem insert (minded : Minded t tasks inherited) {label : Label} {vector : List α}
    {g : Graph α} {id : Nat} (inserted : t.graph.insert label vector = .ok (g, id)) :
    Minded (t.withGraph g) tasks inherited := by
  obtain ⟨sturdy, stores⟩ := minded.sturdy.insert inserted
  exact .withGraph sturdy (minded.tended.store stores)

theorem place {followup followup' : Followup} (none : followup.insert = none)
    (minded : Minded t (followup.tasks ++ tasks) inherited) {label : Label} {vector : List α}
    {result : Except Failure Unit}
    (placed : t.place followup label vector = (t', followup', result)) :
    Minded t' (followup'.tasks ++ tasks) inherited := by
  rw [Tiered.place] at placed
  split at placed
  case isTrue =>
    dsimp only at placed
    split at placed
    · cases placed
      exact minded.grow
    case h_2 inserted =>
      cases placed
      exact minded.grow.insert inserted
  case isFalse =>
    split at placed
    · cases placed
      exact minded
    case h_2 flat entry added =>
      cases placed
      have first : Minded { t with flat } (.insert entry label :: (followup.tasks ++ tasks))
          inherited := ⟨minded.sturdy, minded.tended⟩
      refine first.perm ?_
      rw [Followup.tasks_of_no_insert none, Followup.tasks, Option.toList_some, List.append_assoc]
      exact List.perm_middle

theorem write (minded : Minded t tasks inherited) {label : Label} {vector : List α}
    {followup : Followup} {result : Except Failure Unit}
    (written : t.write label vector = (t', followup, result)) :
    Minded t' (followup.tasks ++ tasks) inherited := by
  rw [Tiered.write] at written
  split at written
  · cases written
    exact minded
  · split at written
    · have start : Minded t (({} : Followup).tasks ++ tasks) inherited := minded
      exact start.place rfl written
    · split at written
      case h_1 removed =>
        cases written
        exact (minded.removeLabel removed).1
      case h_2 removed =>
        obtain ⟨minded₁, none⟩ := minded.removeLabel removed
        exact minded₁.place none written

theorem absorb (minded : Minded t tasks inherited) {entry : Nat} {label : Label}
    {outcome : Outcome} (done : t.absorb entry label = (t', outcome)) :
    Minded t' tasks inherited := by
  rw [Tiered.absorb] at done
  split at done
  · cases done
    exact minded
  · dsimp only at done
    split at done
    · cases done
      exact minded.grow
    case h_2 inserted =>
      cases done
      have taken := minded.grow.insert inserted
      exact ⟨taken.sturdy, taken.tended⟩

theorem repairNode {id x : Nat} (minded : Minded t (.repair id x :: tasks) inherited)
    {outcome : Outcome} {next? : Option Task}
    (done : t.repairNode id x = (t', outcome, next?)) :
    Minded t' (next?.toList ++ tasks) inherited := by
  have awaited : (id, x) ∈ repairsOf (.repair id x :: tasks) ++ inherited := List.mem_cons_self
  have deleted := minded.tended.awaited_deleted _ awaited
  have generation := minded.tended.awaited_generation _ awaited
  obtain ⟨h, repaired⟩ := Graph.repair_eq_ok deleted
  obtain ⟨sturdy, edits⟩ := minded.sturdy.repair repaired
  obtain ⟨_, _, alone, _, kept⟩ :=
    Graph.repair_spec minded.sturdy.paired minded.sturdy.within repaired
  obtain ⟨journal, own, taken⟩ := withGraph_eq { t with pendingRepairs := t.pendingRepairs - 1 } h
  have tended : Tended h (t.ready ++ [id]) (repairsOf tasks ++ inherited) :=
    minded.tended.repair edits.rewired alone kept
  have after : ({ h with journal := own } : Graph α).Sturdy := sturdy.withCapacity h.capacity own
  simp only [Tiered.repairNode, generation, deleted, repaired, taken, ne_eq, not_true_eq_false,
    Bool.not_true, Bool.false_eq_true, decide_false, Bool.or_self, if_false] at done
  split at done <;> cases done <;> exact ⟨after, tended.of_nodes_eq rfl⟩

/-- A task that is carried out leaves the others and the one it submits. -/
theorem perform {task : Task} (minded : Minded t (task :: tasks) inherited) {outcome : Outcome}
    {next? : Option Task} (done : t.perform task = (t', outcome, next?)) :
    Minded t' (next?.toList ++ tasks) inherited := by
  cases task with
  | insert entry label =>
      obtain ⟨t₁, outcome₁, absorbed⟩ : ∃ t₁ outcome₁,
          t.absorb entry label = (t₁, outcome₁) := ⟨_, _, rfl⟩
      rw [Tiered.perform, absorbed] at done
      cases done
      have others : Minded t tasks inherited := ⟨minded.sturdy, minded.tended⟩
      exact others.absorb absorbed
  | repair id x => exact minded.repairNode done
  | swap =>
      obtain ⟨t₁, freed, passed⟩ : ∃ t₁ freed, t.runGc = (t₁, freed) := ⟨_, _, rfl⟩
      rw [Tiered.perform, passed] at done
      cases done
      have others : Minded t tasks inherited := ⟨minded.sturdy, minded.tended⟩
      exact (others.runGc passed).1

end Writes

end Minded

namespace World

variable [Element α]

theorem minded_step {w w' : World α} {inherited : List (Nat × Nat)}
    (minded : Minded w.index w.outstanding inherited) (step : Step w w') :
    Minded w'.index w'.outstanding inherited := by
  cases step with
  | write label vector few written =>
      exact (minded.write written).perm (perm_recorded ..)
  | delete label removed =>
      exact (minded.removeLabel removed).1.perm (perm_recorded ..)
  | submit front back task due =>
      have same : Minded (w.index.submit task) w.outstanding inherited :=
        ⟨minded.sturdy, minded.tended⟩
      exact same.perm (perm_submitted due)
  | pass passed => exact (minded.runGc passed).1
  | run front back task handed done =>
      have begun : Minded (w.index.begin task) w.outstanding inherited :=
        ⟨minded.sturdy, minded.tended⟩
      have first := begun.perm (perm_handed handed).symm
      exact (first.perform done).perm (perm_recorded ..)
  | finish front back task outcome ending => exact ⟨minded.sturdy, minded.tended⟩

/-- The states that steps lead to from a buffer in front of a graph. A write may come when no id is
left, too. -/
inductive Adopted (config : Config) (g : Graph α) : World α → Prop where
  | start : Adopted config g { index := ofGraph config g }
  | step {w w' : World α} : Adopted config g w → Step w w' → Adopted config g w'
  | write {w : World α} (label : Label) (vector : List α) {t : Tiered α} {followup : Followup}
      {result : Except Failure Unit} :
      Adopted config g w → w.index.write label vector = (t, followup, result) →
      Adopted config g { w with index := t, due := w.due ++ followup.tasks }

/-- The nodes that were deleted before stay, and no task is for them. -/
theorem Adopted.minded {config : Config} {g : Graph α} {w : World α} (sturdy : g.Sturdy)
    (adopted : Adopted config g w) : Minded w.index w.outstanding (inheritedOf g) := by
  induction adopted with
  | start => exact ⟨sturdy, .inherit g⟩
  | step _ step ih => exact minded_step ih step
  | write _ _ _ written ih =>
      exact (ih.write written).perm (perm_recorded ..)

/-! ### A detour behind a buffer -/

/-- The policy of a buffer of the usual size. -/
def fronted : Config where
  graph := Graph.detour.config

/-- Delete a label and carry out a task. -/
def deleteThen (t : Tiered α) (label : Label) (task : Task) : Tiered α × Outcome × Option Task :=
  (((t.removeLabel label).1.submit task).begin task).perform task

/-- A label is deleted, and the one task that this asks for runs and submits none. -/
theorem Adopted.deleteThen {config : Config} {g : Graph α} {t : Tiered α}
    (adopted : Adopted config g { index := t }) {label : Label} {task : Task}
    (due : (t.removeLabel label).2.1.tasks = [task]) (last : (deleteThen t label task).2.2 = none) :
    ∃ outcome, Adopted config g
      { index := (World.deleteThen t label task).1, ending := [(task, outcome)] } := by
  obtain ⟨t₁, followup, result, removed⟩ : ∃ t₁ followup result,
      t.removeLabel label = (t₁, followup, result) := ⟨_, _, _, rfl⟩
  obtain ⟨t₂, outcome, next?, done⟩ : ∃ t₂ outcome next?,
      ((t₁.submit task).begin task).perform task = (t₂, outcome, next?) := ⟨_, _, _, rfl⟩
  simp only [World.deleteThen, removed, done] at due last ⊢
  subst last
  have deleted := adopted.step (.delete label removed)
  have submitted := deleted.step (.submit [] [] task due)
  have ran := submitted.step (.run [] [] task rfl done)
  exact ⟨outcome, ran⟩

theorem adopted_detour : Adopted fronted Graph.detour { index := ofGraph fronted Graph.detour } :=
  .start

/-- A detour whose live node was deleted, too, and repaired. -/
def blockedDetour : Tiered Binary64 :=
  (deleteThen (ofGraph fronted Graph.detour) 1 (.repair 0 0)).1

theorem adopted_blockedDetour :
    ∃ ending, Adopted fronted Graph.detour { index := blockedDetour, ending } := by
  have due : ((ofGraph fronted Graph.detour).removeLabel 1).2.1.tasks = [.repair 0 0] := by
    decide +kernel
  obtain ⟨outcome, adopted⟩ := adopted_detour.deleteThen due (by decide +kernel)
  exact ⟨_, adopted⟩

/-! ### What a pass leaves -/

/-- What a pass leaves of the deleted nodes when every job was done before. -/
structure Leaves (g : Graph α) (t : Tiered α) : Prop where
  /-- The nodes that were deleted in the graph to begin with stand where they stood. -/
  kept : ∀ id, g.isDeleted id = true →
    t.graph.isDeleted id = true ∧ t.graph.generation? id = g.generation? id
  ready_new : ∀ id ∈ t.ready, g.isDeleted id = false
  deleted_iff : ∀ id, t.graph.isDeleted id = true ↔ g.isDeleted id = true ∨ id ∈ t.ready
  markedCount_eq : t.graph.markedCount = g.markedCount + t.ready.length
  /-- Others are left only when one of those stands in the last slot. -/
  blocked : t.ready ≠ [] → g.isDeleted (t.graph.nodeCount - 1) = true
  /-- So none is left exactly when there was none to begin with. -/
  none_left_iff : t.graph.markedCount = 0 ↔ g.markedCount = 0

/-- A pass over a buffered graph that was loaded leaves the nodes that were deleted in the image,
whatever was called and in whatever order the jobs ran. -/
theorem Adopted.pass_leaves {bytes : List UInt8} {config : Config} {g : Graph α} {w : World α}
    (loaded : Image.load bytes = .ok g) (adopted : Adopted config g w)
    (all_ran : w.outstanding = []) {t : Tiered α} {freed : Nat}
    (passed : w.index.runGc = (t, freed)) :
    Leaves g t ∧ freed + t.ready.length = w.index.ready.length := by
  have sturdy := (Graph.integrity_eq_ok_iff.1 (Image.checked_of_load loaded).2).sturdy
  obtain ⟨minded, total, blocked⟩ := (adopted.minded sturdy).runGc passed
  rw [all_ran] at minded blocked
  have tended : Tended t.graph t.ready (inheritedOf g) := minded.tended
  have before := (Tended.inherit g).markedCount_eq sturdy.filled
  have after := tended.markedCount_eq minded.sturdy.filled
  rw [List.length_nil, Nat.zero_add] at before
  have kept : ∀ id, g.isDeleted id = true →
      t.graph.isDeleted id = true ∧ t.graph.generation? id = g.generation? id := by
    intro id deleted
    rcases (Tended.inherit g).covered id deleted with ready | ⟨x, mem⟩
    · cases ready
    · refine ⟨tended.awaited_deleted _ mem, ?_⟩
      rw [tended.awaited_generation _ mem, (mem_inheritedOf.1 mem).2]
  have ready_new : ∀ id ∈ t.ready, g.isDeleted id = false := by
    intro id ready
    refine Bool.eq_false_iff.2 fun deleted => ?_
    obtain ⟨x, mem⟩ := ((Tended.inherit g).covered id deleted).resolve_left List.not_mem_nil
    exact tended.apart _ mem ready
  have blocked : t.ready = [] ∨ ∃ x, (t.graph.nodeCount - 1, x) ∈ inheritedOf g := blocked rfl
  refine ⟨⟨kept, ready_new, fun id => ⟨fun deleted => ?_, ?_⟩, ?_, fun some_ready => ?_, ?_⟩, total⟩
  · rcases tended.covered id deleted with ready | ⟨x, mem⟩
    · exact .inr ready
    · exact .inl (mem_inheritedOf.1 mem).1
  · rintro (old | ready)
    · exact (kept id old).1
    · exact tended.ready_deleted id ready
  · rw [after, before, Nat.add_comm]
  · obtain ⟨x, mem⟩ := blocked.resolve_left some_ready
    exact (mem_inheritedOf.1 mem).1
  · rw [after, before]
    refine ⟨fun none => Nat.eq_zero_of_add_eq_zero_left none, fun none => ?_⟩
    rcases blocked with none_ready | ⟨x, mem⟩
    · rw [none_ready, none, List.length_nil]
    · rw [List.eq_nil_of_length_eq_zero none] at mem
      cases mem

/-- The node that was deleted in the image keeps the repaired one in its slot. -/
theorem pass_leaves_blockedDetour :
    ∃ w : World Binary64, Image.load (Image.write Graph.detour) = .ok Graph.detour ∧
      Adopted fronted Graph.detour w ∧ w.outstanding = [] ∧ w.index.ready = [0] ∧
      Leaves Graph.detour w.index.runGc.1 := by
  obtain ⟨ending, adopted⟩ := adopted_blockedDetour
  have repaired : blockedDetour.ready = [0] := by decide +kernel
  exact ⟨_, Graph.load_detour, adopted, rfl, repaired,
    (adopted.pass_leaves Graph.load_detour rfl rfl).1⟩

/-- A pass removes nothing of the detour, neither right away nor after its live node was deleted and
repaired. -/
theorem deletions_stay :
    Image.load (Image.write Graph.detour) = .ok Graph.detour ∧
      (∃ w : World Binary64, Adopted fronted Graph.detour w ∧ w.outstanding = [] ∧
        w.index.runGc.1.graph.markedCount = 1) ∧
      ∃ w : World Binary64, Adopted fronted Graph.detour w ∧ w.outstanding = [] ∧
        w.index.ready = [0] ∧ w.index.runGc.2 = 0 ∧ w.index.runGc.1.graph.markedCount = 2 := by
  obtain ⟨ending, adopted⟩ := adopted_blockedDetour
  have blocked : blockedDetour.ready = [0] ∧ blockedDetour.runGc.2 = 0 ∧
      blockedDetour.runGc.1.graph.markedCount = 2 := by decide +kernel
  have fresh : (ofGraph fronted Graph.detour).runGc.1.graph.markedCount = 1 := by decide +kernel
  exact ⟨Graph.load_detour, ⟨_, adopted_detour, rfl, fresh⟩, _, adopted, rfl, blocked⟩

end World

end Vicinity.Tiered
