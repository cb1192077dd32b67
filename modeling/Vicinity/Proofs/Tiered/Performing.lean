import Vicinity.Proofs.Sorting
import Vicinity.Proofs.Tiered.Counting
import Vicinity.Proofs.Tiered.Tracking

/-!
Carrying out the tasks that are outstanding, and passes over the ready nodes.

A task that is carried out is no longer outstanding; a repair may submit a swap, which is then. What
a job finds is what was there when its task was made, or nothing: a repair finds the node it names,
and an insert finds its vector or finds it gone. So none fails (`Tracked.perform`). A pass frees the
slots of all ready nodes unless a repair is outstanding (`Tracked.runGc`).
-/

namespace Vicinity.Tiered

variable {α : Type}

/-! ### Passes -/

/-- The ready nodes from the highest down. -/
def passOrder (t : Tiered α) : List Nat := Sorting.sortBy (fun a b => b < a) t.ready

theorem runGc_eq {t : Tiered α} (some_ready : t.ready.isEmpty = false) {g : Graph α} {freed : Nat}
    {kept : List Nat} (swapped : swapAll t.graph 0 [] t.passOrder = (g, freed, kept)) :
    ∃ journal own, t.runGc =
      ({ t with
          graph := { g.shrinkToFit with journal := own }, journal, ready := kept
          swapScheduled := false, gcPasses := t.gcPasses + 1 }, freed) := by
  rw [passOrder] at swapped
  simp only [Tiered.runGc, note, some_ready, Bool.false_eq_true, if_false, swapped]
  unfold withGraph
  dsimp only
  split
  · exact ⟨_, _, rfl⟩
  · exact ⟨_, _, rfl⟩

theorem pairwise_passOrder {t : Tiered α} (nodup : t.ready.Nodup) :
    t.passOrder.Pairwise (· > ·) := Sorting.pairwise_descending nodup

/-- A pass leaves what is outstanding, and no ready node unless a repair is. -/
theorem Tracked.runGc {t t' : Tiered α} {tasks : List Task} (tracked : Tracked t tasks)
    {freed : Nat} (passed : t.runGc = (t', freed)) :
    Tracked t' tasks ∧ t'.config = t.config ∧ t'.registry = t.registry ∧
      t'.graph.nodeCount + t'.flat.size ≤ t.graph.nodeCount + t.flat.size ∧
      t'.swapScheduled = false ∧ freed + t'.ready.length = t.ready.length ∧
      (repairsOf tasks = [] → t'.ready = []) := by
  cases none_ready : t.ready.isEmpty with
  | true =>
      simp only [Tiered.runGc, none_ready, if_true] at passed
      cases passed
      exact ⟨{ tracked with }, rfl, rfl, Nat.le_refl _, rfl, Nat.zero_add _,
        fun _ => List.isEmpty_iff.1 none_ready⟩
  | false =>
      obtain ⟨g, n, kept, swapped⟩ : ∃ g n kept,
          swapAll t.graph 0 [] t.passOrder = (g, n, kept) := ⟨_, _, _, rfl⟩
      obtain ⟨journal, own, eq⟩ := runGc_eq none_ready swapped
      rw [eq] at passed
      cases passed
      have perm : t.passOrder.Perm t.ready := Sorting.sortBy_perm ..
      have start : Tended t.graph ([] ++ t.passOrder) (repairsOf tasks) :=
        tracked.tended.perm perm (.refl _)
      obtain ⟨_, tended, total⟩ := Tended.swapAll tracked.graph_wf.sturdy start swapped
      have wf := wellFormed_swapAll tracked.graph_wf 0 [] t.passOrder
      obtain ⟨config, count, unmapped⟩ := frame_swapAll tracked.graph_wf 0 [] t.passOrder
      rw [swapped] at wf config count unmapped
      dsimp only at wf config count unmapped
      have shrunk := Graph.shrinkToFit_eq g
      have nodes : g.shrinkToFit.nodes = g.nodes := by rw [shrunk]
      have room : g.shrinkToFit.nodeCount + t.flat.size ≤ t.graph.nodeCount + t.flat.size := by
        rw [Graph.nodeCount, nodes, ← Graph.nodeCount]
        omega
      refine ⟨?_, rfl, rfl, room, rfl, ?_, fun no_repair => ?_⟩
      · exact
          { tracked with
            graph_wf := wf.shrinkToFit.withJournal own
            graph_config := by
              change g.shrinkToFit.config = t.config.graph
              rw [shrunk]
              exact config.trans tracked.graph_config
            tended := tended.of_nodes_eq nodes
            unmapped := fun single row mem => by
              change g.shrinkToFit.contains row.label = false
              rw [shrunk]
              exact unmapped _ (tracked.unmapped single row mem)
            room := Nat.le_trans room tracked.room }
      · rw [List.length_nil, perm.length_eq] at total
        exact total.trans (Nat.zero_add _)
      · rw [no_repair] at start
        refine (start.last_awaited (pairwise_passOrder tracked.tended.ready_nodup)
          tracked.graph_wf.sturdy swapped).resolve_right ?_
        rintro ⟨_, mem⟩
        cases mem

/-- A swap is neither a repair nor an insert. -/
theorem tracked_cons_swap {t : Tiered α} {tasks : List Task} :
    Tracked t (.swap :: tasks) ↔ Tracked t tasks :=
  ⟨fun tracked => { tracked with }, fun tracked => { tracked with }⟩

/-! ### Inserts -/

theorem mem_rows_removeEntry {f : Flat α} (wf : f.WellFormed) {entry : Nat} {row : Flat.Row α} :
    row ∈ (f.removeEntry entry).1.rows ↔
      row ∈ f.rows ∧ row.entry ≠ entry := by
  rw [(Flat.perm_removeEntry wf entry).mem_iff, List.mem_filter, bne_iff_ne]

theorem size_removeEntry_lt {f : Flat α} (wf : f.WellFormed) {row : Flat.Row α}
    (mem : row ∈ f.rows) : (f.removeEntry row.entry).1.size < f.size := by
  have shorter : (f.rows.filter (·.entry != row.entry)).length < f.rows.length :=
    List.length_filter_lt_length_iff_exists.2 ⟨row, mem, by simp⟩
  rw [← (Flat.perm_removeEntry wf row.entry).length_eq] at shorter
  rwa [Flat.length_rows, Flat.length_rows] at shorter

/-- An insert that is outstanding has the label of the vector it finds. -/
theorem Buffered.label_eq {f : Flat α} {entry : Nat} {label : Label} {named : List (Nat × Label)}
    (buffered : Buffered f ((entry, label) :: named)) {row : Flat.Row α}
    (mem : row ∈ f.rows) (here : row.entry = entry) : row.label = label := by
  have same := List.inj_on_of_nodup_map buffered.nodup (buffered.covered row mem)
    List.mem_cons_self here
  exact congrArg Prod.snd same

/-- A label that may be inserted once is not that of another buffered vector. -/
theorem Tracked.label_ne {t : Tiered α} {tasks : List Task} (tracked : Tracked t tasks)
    (single : t.config.graph.multi = false) {a b : Flat.Row α} (mem_a : a ∈ t.flat.rows)
    (mem_b : b ∈ t.flat.rows) (other : a.entry ≠ b.entry) : a.label ≠ b.label := by
  intro same
  have := List.inj_on_of_nodup_map (tracked.label_nodup single) mem_a mem_b same
  exact other (congrArg (·.entry) this)

variable [Element α]

/-- An insert moves its vector into the graph, or finds it gone. -/
theorem Tracked.absorb {t t' : Tiered α} {tasks : List Task} {entry : Nat} {label : Label}
    (tracked : Tracked t (.insert entry label :: tasks)) {outcome : Outcome}
    (done : t.absorb entry label = (t', outcome)) :
    Tracked t' tasks ∧ (outcome = .completed ∨ ∃ reason, outcome = .skipped reason) ∧
      t'.config = t.config ∧ t'.registry = t.registry ∧ t'.ready = t.ready ∧
      t'.swapScheduled = t.swapScheduled := by
  rw [Tiered.absorb] at done
  cases found : t.flat.entry? entry with
  | none =>
      rw [found] at done
      cases done
      have buffered := tracked.buffered.finish (tracked.flat_wf.entry?_eq_none_iff.1 found)
      exact ⟨{ tracked with buffered := buffered }, .inr ⟨_, rfl⟩, rfl, rfl, rfl, rfl⟩
  | some row =>
      obtain ⟨mem, here⟩ := tracked.flat_wf.entry?_eq_some_iff.1 found
      have label_eq : row.label = label := tracked.buffered.label_eq mem here
      have shorter := size_removeEntry_lt tracked.flat_wf mem
      have room := tracked.room
      have config := tracked.graph_config
      have absent : t.graph.config.multi = false → t.graph.contains label = false := fun single =>
        label_eq ▸ tracked.unmapped (config ▸ single) row mem
      have fits : checkDimension t.graph.config.dim.toNat row.vector.length = .ok () := by
        refine checkDimension_eq_ok_iff.2 ⟨?_, Graph.dim_pos tracked.graph_wf.usable⟩
        rw [tracked.flat_wf.vector_length row mem, tracked.flat_dim, config]
      obtain ⟨g, id, inserted, wf, config_g, tended, count, others⟩ :=
        insert_grownGraph tracked.graph_wf tracked.tended (by omega) absent fits
      rw [grownGraph] at inserted
      obtain ⟨journal, own, taken⟩ := withGraph_eq t t.graph.ensureCapacity
      obtain ⟨journal', own', taken'⟩ := withGraph_eq (t.withGraph t.graph.ensureCapacity) g
      rw [found] at done
      dsimp only at done
      rw [inserted] at done
      dsimp only at done
      rw [taken', taken] at done
      cases done
      refine ⟨?_, .inl rfl, rfl, rfl, rfl, rfl⟩
      have gone : ∀ s ∈ (t.flat.removeEntry entry).1.rows, s.entry ≠ entry := fun s mem =>
        ((mem_rows_removeEntry tracked.flat_wf).1 mem).2
      subst here label_eq
      constructor
      case graph_wf => exact wf.withJournal own'
      case graph_config => exact config_g.trans config
      case flat_wf => exact tracked.flat_wf.removeEntry row.entry
      case flat_dim =>
        rw [Flat.removeEntry_eq]
        exact tracked.flat_dim
      case flat_multi =>
        rw [Flat.removeEntry_eq]
        exact tracked.flat_multi
      case tended => exact tended.of_nodes_eq rfl
      case buffered =>
        refine Buffered.finish (tracked.buffered.shrink (fun s mem_s => ?_) ?_) gone
        · exact ((mem_rows_removeEntry tracked.flat_wf).1 mem_s).1
        · rw [Flat.removeEntry_eq]
          rfl
      case label_nodup =>
        intro single
        have perm := (Flat.perm_removeEntry tracked.flat_wf row.entry).map (·.label)
        exact perm.nodup_iff.2
          ((tracked.label_nodup single).sublist (List.filter_sublist.map _))
      case unmapped =>
        intro single s mem_s
        obtain ⟨old, other⟩ := (mem_rows_removeEntry tracked.flat_wf).1 mem_s
        exact others _ (tracked.label_ne single old mem other) (tracked.unmapped single s old)
      case limit => exact Nat.le_trans (Nat.le_of_lt shorter) tracked.limit
      case pending => exact tracked.pending
      case room =>
        change g.nodeCount + (t.flat.removeEntry row.entry).1.size ≤ Graph.idLimit
        omega

/-! ### Repairs -/

/-- A repair finds the node it names, isolates it and makes it ready. It submits a swap when enough
nodes are ready and none is under way. -/
theorem Tracked.repairNode {t t' : Tiered α} {tasks : List Task} {id x : Nat}
    (tracked : Tracked t (.repair id x :: tasks)) {outcome : Outcome} {next? : Option Task}
    (done : t.repairNode id x = (t', outcome, next?)) :
    Tracked t' (next?.toList ++ tasks) ∧ outcome = .completed ∧ t'.config = t.config ∧
      t'.registry = t.registry ∧ t'.ready = t.ready ++ [id] ∧ t'.graph.isDeleted id = true ∧
      t'.graph.generation? id = some x ∧ t'.graph.Isolated id ∧
      (next? = some .swap ∧ t.swapScheduled = false ∧ t'.swapScheduled = true ∨
        next? = none ∧ t'.swapScheduled = t.swapScheduled ∧
          (t'.config.gcThreshold ≤ t'.ready.length → t.swapScheduled = true)) := by
  have named : (id, x) ∈ repairsOf (.repair id x :: tasks) := List.mem_cons_self
  have deleted : t.graph.isDeleted id = true := tracked.tended.awaited_deleted _ named
  have generation : t.graph.generation? id = some x := tracked.tended.awaited_generation _ named
  obtain ⟨h, repaired⟩ := Graph.repair_eq_ok deleted
  obtain ⟨wf, rewired, alone, _, kept⟩ := tracked.graph_wf.repair repaired
  have tended := tracked.tended.repair rewired alone kept
  have pending : t.pendingRepairs - 1 = (repairsOf tasks).length := by
    rw [tracked.pending]
    rfl
  have labels : ∀ l, h.contains l = t.graph.contains l := fun l => by
    rw [Graph.contains, rewired.labels_eq, ← Graph.contains]
  obtain ⟨journal, own, taken⟩ := withGraph_eq { t with pendingRepairs := t.pendingRepairs - 1 } h
  have after : ∀ scheduled, Tracked
      { t with
        graph := { h with journal := own }, journal, ready := t.ready ++ [id]
        pendingRepairs := t.pendingRepairs - 1, swapScheduled := scheduled } tasks := by
    intro scheduled
    exact
      { tracked with
        graph_wf := wf.withJournal own
        graph_config := rewired.config_eq.trans tracked.graph_config
        tended := tended.of_nodes_eq rfl
        unmapped := fun single row mem => (labels _).trans (tracked.unmapped single row mem)
        pending
        room := by
          change h.nodeCount + t.flat.size ≤ Graph.idLimit
          rw [rewired.nodeCount_eq]
          exact tracked.room }
  have still_deleted : h.isDeleted id = true := (rewired.isDeleted_eq id).trans deleted
  have still_same : h.generation? id = some x := (rewired.generation?_eq id).trans generation
  simp only [Tiered.repairNode, generation, deleted, repaired, taken] at done
  rw [if_neg (by simp)] at done
  split at done
  case isTrue due =>
    cases done
    rw [Bool.and_eq_true, Bool.not_eq_true'] at due
    exact ⟨tracked_cons_swap.2 (after true), rfl, rfl, rfl, rfl, still_deleted, still_same, alone,
      .inl ⟨rfl, due.2, rfl⟩⟩
  case isFalse not_due =>
    cases done
    refine ⟨after t.swapScheduled, rfl, rfl, rfl, rfl, still_deleted, still_same, alone,
      .inr ⟨rfl, rfl, fun enough => ?_⟩⟩
    rw [Bool.and_eq_true, decide_eq_true_eq, not_and] at not_due
    simpa using not_due enough

/-! ### Every task -/

/-- A task that is carried out leaves the others and the one it submits. It is completed, or skipped
when it is not a repair. -/
theorem Tracked.perform {t t' : Tiered α} {task : Task} {tasks : List Task}
    (tracked : Tracked t (task :: tasks)) {outcome : Outcome} {next? : Option Task}
    (done : t.perform task = (t', outcome, next?)) :
    Tracked t' (next?.toList ++ tasks) ∧ t'.config = t.config ∧ t'.registry = t.registry ∧
      task.EndsWell outcome := by
  cases task with
  | insert entry label =>
      obtain ⟨t₁, outcome₁, absorbed⟩ : ∃ t₁ outcome₁,
          t.absorb entry label = (t₁, outcome₁) := ⟨_, _, rfl⟩
      rw [Tiered.perform, absorbed] at done
      cases done
      obtain ⟨tracked', how, config, registry, _⟩ := tracked.absorb absorbed
      exact ⟨tracked', config, registry, how.imp_right fun skipped => ⟨Kind.noConfusion, skipped⟩⟩
  | repair id x =>
      obtain ⟨tracked', completed, config, registry, _⟩ := tracked.repairNode done
      exact ⟨tracked', config, registry, .inl completed⟩
  | swap =>
      obtain ⟨t₁, freed, passed⟩ : ∃ t₁ freed, t.runGc = (t₁, freed) := ⟨_, _, rfl⟩
      rw [Tiered.perform, passed] at done
      cases done
      obtain ⟨tracked', config, registry, _⟩ := (tracked_cons_swap.1 tracked).runGc passed
      refine ⟨tracked', config, registry, ?_⟩
      split
      · exact .inr ⟨Kind.noConfusion, _, rfl⟩
      · exact .inl rfl

end Vicinity.Tiered
