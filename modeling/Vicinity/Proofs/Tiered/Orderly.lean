import Vicinity.Proofs.Tiered.SwapJobs

/-!
What is in order in every state.

Whatever calls, jobs and passes come in between, a deleted node is ready or has exactly one repair
outstanding, a vector in the buffer has exactly one insert job outstanding, no repair finds its node
gone, and the counters of a state are those of its tasks (`World.Orderly`).
-/

namespace Vicinity.Tiered.World

variable {α : Type} [Element α]

/-! ### Counting tasks -/

theorem count_repairsOf (tasks : List Task) (id x : Nat) :
    (repairsOf tasks).count (id, x) = tasks.count (.repair id x) := by
  rw [repairsOf, List.count_filterMap, List.count_eq_countP]
  refine List.countP_congr fun task _ => ?_
  cases task <;> simp [Task.target?]

theorem count_insertsOf (tasks : List Task) (entry : Nat) (label : Label) :
    (insertsOf tasks).count (entry, label) = tasks.count (.insert entry label) := by
  rw [insertsOf, List.count_filterMap, List.count_eq_countP]
  refine List.countP_congr fun task _ => ?_
  cases task <;> simp [Task.entry?]

theorem length_repairsOf (tasks : List Task) :
    (repairsOf tasks).length = tasks.countP (·.kind = .repair) := by
  rw [repairsOf, List.length_filterMap_eq_countP]
  refine List.countP_congr fun task _ => ?_
  cases task <;> simp [Task.target?, Task.kind]

/-! ### What holds in every state -/

/-- What calls, jobs and passes leave in order, in whatever order they come. -/
structure Orderly (config : Config) (w : World α) : Prop where
  ready_nodup : w.index.ready.Nodup
  ready_deleted : ∀ id ∈ w.index.ready,
    w.index.graph.isDeleted id = true ∧ w.index.graph.Isolated id
  ready_or_awaited : ∀ id, w.index.graph.isDeleted id = true →
    (id ∈ w.index.ready ∧ ∀ x, Task.repair id x ∉ w.outstanding) ∨
      (id ∉ w.index.ready ∧ ∃ x, w.index.graph.generation? id = some x ∧
        w.outstanding.count (.repair id x) = 1 ∧ ∀ y, .repair id y ∈ w.outstanding → y = x)
  repair_finds : ∀ id x, Task.repair id x ∈ w.outstanding →
    w.index.graph.isDeleted id = true ∧ w.index.graph.generation? id = some x
  repair_completes : ∀ id x, Task.repair id x ∈ w.outstanding → ∀ t outcome next?,
    (w.index.begin (.repair id x)).perform (.repair id x) = (t, outcome, next?) →
      outcome = .completed ∧ t.ready = w.index.ready ++ [id] ∧
        t.graph.generation? id = some x ∧ t.graph.isDeleted id = true ∧ t.graph.Isolated id
  no_repair_skipped : w.index.registry.repair.skipped = 0
  buffered : ∀ row ∈ w.index.flat.rows,
    w.outstanding.count (.insert row.entry row.label) = 1 ∧
      ∀ label, .insert row.entry label ∈ w.outstanding → label = row.label
  within_limit : w.index.flat.size ≤ config.flatBufferLimit.toNat
  pending_repairs : w.index.pendingRepairs = w.outstanding.countP (·.kind = .repair)
  pending : ∀ kind, w.index.registry.pending kind =
    w.handed.countP (·.kind = kind) + w.ending.countP (·.1.kind = kind)
  pending_quiet : w.Quiet → ∀ kind,
    w.index.registry.pending kind = w.outstanding.countP (·.kind = kind)
  none_failed : ∀ kind, (w.index.registry.get kind).failed = 0

/-- What is in order in every state that interleaved calls, jobs and passes lead to. -/
theorem Reachable.orderly {config : Config} {w : World α} (reachable : Reachable config w) :
    Orderly config w := by
  obtain ⟨config_eq, tracked, counted, _⟩ := reachable.consistent
  have tended := tracked.tended
  have pending : ∀ kind, w.index.registry.pending kind =
      w.handed.countP (·.kind = kind) + w.ending.countP (·.1.kind = kind) := by
    intro kind
    rw [counted.pending_eq, unfinished, List.count_append, List.count_eq_countP,
      List.count_eq_countP, List.countP_map, List.countP_map]
    rfl
  constructor
  case ready_nodup => exact tended.ready_nodup
  case ready_deleted =>
    exact fun id mem => ⟨tended.ready_deleted id mem, tended.ready_isolated id mem⟩
  case ready_or_awaited =>
    intro id deleted
    rcases tended.covered id deleted with ready | ⟨x, named⟩
    · exact .inl ⟨ready, fun x mem => tended.apart _ (mem_repairsOf.2 mem) ready⟩
    · have generation := tended.awaited_generation _ named
      refine .inr ⟨tended.apart _ named, x, generation, ?_, fun y mem => ?_⟩
      · rw [← count_repairsOf]
        exact List.count_eq_one_of_mem tended.awaited_nodup named
      · have other := tended.awaited_generation _ (mem_repairsOf.2 mem)
        exact Option.some.inj (other.symm.trans generation)
  case repair_finds =>
    intro id x mem
    have named := mem_repairsOf.2 mem
    exact ⟨tended.awaited_deleted _ named, tended.awaited_generation _ named⟩
  case repair_completes =>
    intro id x mem t outcome next? done
    have begun := tracked.withRegistry (w.index.registry.start .repair)
    have first := begun.perm (List.perm_cons_erase mem).symm
    obtain ⟨_, completed, _, _, ready, deleted, generation, alone, _⟩ := first.repairNode done
    exact ⟨completed, ready, generation, deleted, alone⟩
  case no_repair_skipped => exact counted.no_repair_skipped
  case buffered =>
    intro row mem
    have named := tracked.buffered.covered row mem
    constructor
    · rw [← count_insertsOf]
      exact List.count_eq_one_of_mem (.of_map _ tracked.buffered.nodup) named
    · intro label other
      have same := List.inj_on_of_nodup_map tracked.buffered.nodup (mem_insertsOf.2 other) named rfl
      exact congrArg Prod.snd same
  case within_limit => exact config_eq ▸ tracked.limit
  case pending_repairs => rw [tracked.pending, length_repairsOf]
  case pending => exact pending
  case pending_quiet =>
    rintro ⟨none_due, none_ending⟩ kind
    rw [pending, outstanding, none_due, none_ending]
    simp
  case none_failed => exact counted.none_failed

/-- In order are a state in which the repairs of two linked nodes are due, and one in which a vector
in the buffer waits for its job. -/
theorem orderly_after_deletion :
    (∃ (w : World Binary64) (x y : Nat), Reachable eager w ∧ .repair 0 x ∈ w.outstanding ∧
      .repair 1 y ∈ w.outstanding ∧ Orderly eager w) ∧
    ∃ w : World Binary64, Reachable emptyPlanes.config w ∧ w.index.flat.size = 1 ∧
      .insert 0 7 ∈ w.outstanding ∧ Orderly emptyPlanes.config w := by
  constructor
  case left =>
    obtain ⟨w, x, y, reachable, _, _, first, second⟩ := both_await_repair
    exact ⟨w, x, y, reachable, List.mem_append_left _ first, List.mem_append_left _ second,
      reachable.orderly⟩
  case right =>
    have empty : Reachable emptyPlanes.config { index := emptyPlanes } := .new rfl
    have written := empty.step (.write 7 [.zero, .one] (by decide) rfl)
    exact ⟨_, written, rfl, List.mem_append_left _ (List.mem_singleton_self _), written.orderly⟩

end Vicinity.Tiered.World
