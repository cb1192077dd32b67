import Vicinity.Proofs.Graph.Integrity
import Vicinity.Proofs.Graph.Replacement
import Vicinity.Tiered.Basic

/-!
Which deleted nodes are ready, and which wait for a repair.

`Tended` says that every deleted node of a graph is either ready, which takes that it has no edges,
or awaited: exactly one repair names its slot and its serial number. It is kept when a node is
marked deleted, repaired or freed and when one is stored. What carries it through the renaming of
ids is that only live nodes move, so a slot and a serial number go on naming the same deleted node
(`Tended.swapRemove`).
-/

namespace Vicinity.Tiered

variable {α : Type}

/-- The slot and the serial number that a repair names. -/
def Task.target? : Task → Option (Nat × Nat)
  | .repair id generation => some (id, generation)
  | _ => none

/-- What the repairs among some tasks name. -/
def repairsOf (tasks : List Task) : List (Nat × Nat) := tasks.filterMap Task.target?

theorem mem_repairsOf {tasks : List Task} {id generation : Nat} :
    (id, generation) ∈ repairsOf tasks ↔ .repair id generation ∈ tasks := by
  rw [repairsOf, List.mem_filterMap]
  constructor
  · rintro ⟨task, mem, named⟩
    cases task <;> cases named
    exact mem
  · intro mem
    exact ⟨_, mem, rfl⟩

/-- Every deleted node is ready or awaited by one repair. -/
structure Tended (g : Graph α) (ready : List Nat) (awaited : List (Nat × Nat)) : Prop where
  ready_nodup : ready.Nodup
  ready_deleted : ∀ id ∈ ready, g.isDeleted id = true
  ready_isolated : ∀ id ∈ ready, g.Isolated id
  awaited_nodup : awaited.Nodup
  awaited_deleted : ∀ target ∈ awaited, g.isDeleted target.1 = true
  awaited_generation : ∀ target ∈ awaited, g.generation? target.1 = some target.2
  apart : ∀ target ∈ awaited, target.1 ∉ ready
  covered : ∀ id, g.isDeleted id = true → id ∈ ready ∨ ∃ x, (id, x) ∈ awaited

namespace Tended

variable {g h : Graph α} {ready : List Nat} {awaited : List (Nat × Nat)}

/-- The order of the lists does not matter. -/
theorem perm (tended : Tended g ready awaited) {ready' : List Nat} {awaited' : List (Nat × Nat)}
    (same_ready : ready'.Perm ready) (same_awaited : awaited'.Perm awaited) :
    Tended g ready' awaited' where
  ready_nodup := same_ready.nodup_iff.2 tended.ready_nodup
  ready_deleted id mem := tended.ready_deleted id (same_ready.mem_iff.1 mem)
  ready_isolated id mem := tended.ready_isolated id (same_ready.mem_iff.1 mem)
  awaited_nodup := same_awaited.nodup_iff.2 tended.awaited_nodup
  awaited_deleted target mem := tended.awaited_deleted target (same_awaited.mem_iff.1 mem)
  awaited_generation target mem := tended.awaited_generation target (same_awaited.mem_iff.1 mem)
  apart target mem := by
    rw [same_ready.mem_iff]
    exact tended.apart target (same_awaited.mem_iff.1 mem)
  covered id deleted := by
    simp only [same_ready.mem_iff, same_awaited.mem_iff]
    exact tended.covered id deleted

/-- A change of the graph that leaves its deleted nodes as they are. -/
theorem congr (tended : Tended g ready awaited) (deleted : ∀ id, h.isDeleted id = g.isDeleted id)
    (generation : ∀ id, g.isDeleted id = true → h.generation? id = g.generation? id)
    (isolated : ∀ id, g.isDeleted id = true → g.Isolated id → h.Isolated id) :
    Tended h ready awaited where
  ready_nodup := tended.ready_nodup
  ready_deleted id mem := (deleted id).trans (tended.ready_deleted id mem)
  ready_isolated id mem := isolated id (tended.ready_deleted id mem) (tended.ready_isolated id mem)
  awaited_nodup := tended.awaited_nodup
  awaited_deleted target mem := (deleted target.1).trans (tended.awaited_deleted target mem)
  awaited_generation target mem :=
    (generation target.1 (tended.awaited_deleted target mem)).trans
      (tended.awaited_generation target mem)
  apart := tended.apart
  covered id there := tended.covered id (deleted id ▸ there)

/-- Nothing depends on what is not a node. -/
theorem of_nodes_eq (tended : Tended g ready awaited) (same : h.nodes = g.nodes) :
    Tended h ready awaited := by
  refine tended.congr (fun id => ?_) (fun id _ => ?_) (fun id _ alone layer => ?_)
  · simp only [Graph.isDeleted, same]
  · simp only [Graph.generation?, same]
  · have := alone layer
    simpa only [Graph.links, same] using this

/-- Without deleted nodes there is nothing to tend. -/
theorem empty (config : Graph.Config) : Tended ({ config } : Graph α) [] [] where
  ready_nodup := .nil
  ready_deleted := fun _ mem => by cases mem
  ready_isolated := fun _ mem => by cases mem
  awaited_nodup := .nil
  awaited_deleted := fun _ mem => by cases mem
  awaited_generation := fun _ mem => by cases mem
  apart := fun _ mem => by cases mem
  covered := fun _ deleted => by cases deleted

/-- A live node is neither ready nor awaited. -/
theorem not_mem_of_isLive (tended : Tended g ready awaited) {id : Nat}
    (live : g.isLive id = true) : id ∉ ready ∧ ∀ x, (id, x) ∉ awaited := by
  have kept := Graph.not_isDeleted_of_isLive live
  constructor
  · intro mem
    rw [tended.ready_deleted id mem] at kept
    cases kept
  · intro x mem
    have deleted := tended.awaited_deleted (id, x) mem
    rw [kept] at deleted
    cases deleted

/-- The deleted nodes are the ready ones and the awaited ones. -/
theorem countDeleted_eq (tended : Tended g ready awaited) :
    g.nodes.countP (·.deleted) = ready.length + awaited.length := by
  have ids_nodup : (awaited.map Prod.fst).Nodup := by
    refine List.Nodup.map_on ?_ tended.awaited_nodup
    intro a mem_a b mem_b same
    have at_a := tended.awaited_generation a mem_a
    rw [same, tended.awaited_generation b mem_b] at at_a
    exact Prod.ext same (Option.some.inj at_a).symm
  have apart : ready.Disjoint (awaited.map Prod.fst) := by
    intro id in_ready in_awaited
    obtain ⟨target, mem, rfl⟩ := List.mem_map.1 in_awaited
    exact tended.apart target mem in_ready
  have nodup : (ready ++ awaited.map Prod.fst).Nodup :=
    tended.ready_nodup.append ids_nodup apart
  have same : ((List.range g.nodeCount).filter g.isDeleted).Perm
      (ready ++ awaited.map Prod.fst) := by
    refine (List.perm_ext_iff_of_nodup (List.nodup_range.filter _) nodup).2 fun id => ?_
    rw [List.mem_filter, List.mem_range, List.mem_append, List.mem_map]
    constructor
    · rintro ⟨_, deleted⟩
      exact (tended.covered id deleted).imp_right fun ⟨x, mem⟩ => ⟨(id, x), mem, rfl⟩
    · intro listed
      have deleted : g.isDeleted id = true := by
        rcases listed with mem | ⟨target, mem, rfl⟩
        · exact tended.ready_deleted id mem
        · exact tended.awaited_deleted target mem
      exact ⟨Graph.lt_nodeCount_of_isDeleted deleted, deleted⟩
  rw [Graph.countDeleted_eq, List.countP_eq_length_filter, same.length_eq, List.length_append,
    List.length_map]

theorem markedCount_eq (tended : Tended g ready awaited) (filled : g.Filled) :
    g.markedCount = ready.length + awaited.length :=
  filled.tallied.trans tended.countDeleted_eq

/-! ### A node is marked deleted -/

section Marking

variable {id : Nat} (marks : g.Marks id h) (live : g.isLive id = true)

include marks live

/-- A marked node with edges is awaited by the repair that names it. -/
theorem mark_awaited (tended : Tended g ready awaited) {x : Nat}
    (generation : h.generation? id = some x) : Tended h ready ((id, x) :: awaited) := by
  obtain ⟨not_ready, not_awaited⟩ := tended.not_mem_of_isLive live
  constructor
  case ready_nodup => exact tended.ready_nodup
  case ready_deleted =>
    intro j mem
    rw [marks.isDeleted_eq, tended.ready_deleted j mem, Bool.or_true]
  case ready_isolated =>
    intro j mem layer
    rw [marks.links_eq]
    exact tended.ready_isolated j mem layer
  case awaited_nodup => exact List.nodup_cons.2 ⟨not_awaited x, tended.awaited_nodup⟩
  case awaited_deleted =>
    intro target mem
    rw [marks.isDeleted_eq]
    rcases List.mem_cons.1 mem with rfl | old
    · simp
    · rw [tended.awaited_deleted target old, Bool.or_true]
  case awaited_generation =>
    intro target mem
    rcases List.mem_cons.1 mem with rfl | old
    · exact generation
    · rw [marks.generation?_eq]
      exact tended.awaited_generation target old
  case apart =>
    intro target mem
    rcases List.mem_cons.1 mem with rfl | old
    · exact not_ready
    · exact tended.apart target old
  case covered =>
    intro j deleted
    rw [marks.isDeleted_eq, Bool.or_eq_true, decide_eq_true_eq] at deleted
    rcases deleted with rfl | old
    · exact .inr ⟨x, List.mem_cons_self⟩
    · exact (tended.covered j old).imp_right fun ⟨y, mem⟩ => ⟨y, List.mem_cons_of_mem _ mem⟩

end Marking

/-! ### A node is repaired -/

/-- An awaited node that has lost its edges is ready. -/
theorem finish {id x : Nat} (tended : Tended g ready ((id, x) :: awaited))
    (alone : g.Isolated id) : Tended g (ready ++ [id]) awaited := by
  have not_ready : id ∉ ready := tended.apart _ List.mem_cons_self
  have once : (id, x) ∉ awaited := (List.nodup_cons.1 tended.awaited_nodup).1
  have deleted : g.isDeleted id = true := tended.awaited_deleted _ List.mem_cons_self
  constructor
  case ready_nodup =>
    exact (List.perm_append_singleton id ready).nodup_iff.2
      (List.nodup_cons.2 ⟨not_ready, tended.ready_nodup⟩)
  case ready_deleted =>
    intro j mem
    rcases List.mem_append.1 mem with old | new
    · exact tended.ready_deleted j old
    · exact List.mem_singleton.1 new ▸ deleted
  case ready_isolated =>
    intro j mem
    rcases List.mem_append.1 mem with old | new
    · exact tended.ready_isolated j old
    · exact List.mem_singleton.1 new ▸ alone
  case awaited_nodup => exact (List.nodup_cons.1 tended.awaited_nodup).2
  case awaited_deleted =>
    exact fun target mem => tended.awaited_deleted target (List.mem_cons_of_mem _ mem)
  case awaited_generation =>
    exact fun target mem => tended.awaited_generation target (List.mem_cons_of_mem _ mem)
  case apart =>
    rintro ⟨j, y⟩ mem in_ready
    rcases List.mem_append.1 in_ready with old | new
    · exact tended.apart (j, y) (List.mem_cons_of_mem _ mem) old
    · -- A second repair of the node would carry the same serial number.
      have same : j = id := List.mem_singleton.1 new
      subst same
      have here := tended.awaited_generation (j, x) List.mem_cons_self
      have there := tended.awaited_generation (j, y) (List.mem_cons_of_mem _ mem)
      cases here.symm.trans there
      exact once mem
  case covered =>
    intro j there
    rcases tended.covered j there with old | ⟨y, mem⟩
    · exact .inl (List.mem_append_left _ old)
    · rcases List.mem_cons.1 mem with new | old
      · cases new
        exact .inl (by simp)
      · exact .inr ⟨y, old⟩

/-- A marked node without edges is ready at once, as if a repair had been asked for and had run. -/
theorem mark_ready {id : Nat} (tended : Tended g ready awaited) (marks : g.Marks id h)
    (live : g.isLive id = true) (alone : h.Isolated id) : Tended h (ready ++ [id]) awaited := by
  obtain ⟨node, at_id, _⟩ := Graph.isLive_eq_true_iff.1 live
  have generation : h.generation? id = some node.generation := by
    rw [marks.generation?_eq, Graph.generation?, at_id, Option.map_some]
  exact (tended.mark_awaited marks live generation).finish alone

/-- Repairing the node of an awaited repair makes it ready. -/
theorem repair {id x : Nat} (tended : Tended g ready ((id, x) :: awaited))
    (rewired : Graph.Rewired g h) (alone : h.Isolated id)
    (kept : ∀ d, g.isLive d = false → g.Isolated d → h.Isolated d) :
    Tended h (ready ++ [id]) awaited := by
  have after : Tended h ready ((id, x) :: awaited) := by
    refine tended.congr rewired.isDeleted_eq (fun j _ => rewired.generation?_eq j) ?_
    intro j deleted isolated
    have lt := Graph.lt_nodeCount_of_isDeleted deleted
    exact kept j ((Graph.isLive_eq_false_iff lt).2 deleted) isolated
  exact after.finish alone

/-! ### A vector is stored -/

theorem store {label : Label} {vector : List α} (tended : Tended g ready awaited)
    (stores : g.Stores label vector h) : Tended h ready awaited := by
  refine tended.congr stores.isDeleted_eq (fun j deleted => ?_) stores.isolated
  have old : j ≠ g.nodeCount := Nat.ne_of_lt (Graph.lt_nodeCount_of_isDeleted deleted)
  rw [stores.generation?_eq, if_neg old]

/-! ### Slots are freed -/

/-- Freeing the slot of a ready node leaves the other deleted nodes where they are. -/
theorem swapRemove {id : Nat} (sturdy : g.Sturdy) (tended : Tended g (id :: ready) awaited)
    (removed : g.swapRemove id = .ok h) : Tended h ready awaited := by
  have deleted := Graph.isDeleted_swapRemove sturdy removed
  obtain ⟨once, nodup⟩ := List.nodup_cons.1 tended.ready_nodup
  have still_ready : ∀ j ∈ ready, h.isDeleted j = true := by
    intro j mem
    refine (deleted j).2 ⟨?_, tended.ready_deleted j (List.mem_cons_of_mem _ mem)⟩
    rintro rfl
    exact once mem
  have still_awaited : ∀ target ∈ awaited, h.isDeleted target.1 = true := by
    intro target mem
    refine (deleted target.1).2 ⟨?_, tended.awaited_deleted target mem⟩
    intro same
    exact tended.apart target mem (same ▸ List.mem_cons_self)
  constructor
  case ready_nodup => exact nodup
  case ready_deleted => exact still_ready
  case ready_isolated =>
    intro j mem
    rw [Graph.isolated_swapRemove sturdy removed (still_ready j mem)]
    exact tended.ready_isolated j (List.mem_cons_of_mem _ mem)
  case awaited_nodup => exact tended.awaited_nodup
  case awaited_deleted => exact still_awaited
  case awaited_generation =>
    intro target mem
    rw [Graph.generation?_swapRemove sturdy removed (still_awaited target mem)]
    exact tended.awaited_generation target mem
  case apart => exact fun target mem old => tended.apart target mem (List.mem_cons_of_mem _ old)
  case covered =>
    intro j there
    obtain ⟨ne, deleted⟩ := (deleted j).1 there
    exact (tended.covered j deleted).imp_left fun mem => (List.mem_cons.1 mem).resolve_left ne

/-- The slot of a ready node is not freed when the last slot holds another deleted node, and only
then. -/
theorem swapRemove_error {id : Nat} {failure : Failure} (tended : Tended g (id :: ready) awaited)
    (refused : g.swapRemove id = .error failure) :
    id ≠ g.nodeCount - 1 ∧ g.isDeleted (g.nodeCount - 1) = true := by
  have deleted := tended.ready_deleted id List.mem_cons_self
  have alone := tended.ready_isolated id List.mem_cons_self
  have stuck : ∀ h, g.swapRemove id ≠ .ok h := by
    intro h done
    rw [refused] at done
    cases done
  constructor
  · intro last
    exact stuck _ (Graph.swapRemove_eq_ok_iff.2 ⟨deleted, alone, .inl ⟨last, rfl⟩⟩)
  · by_cases last : id = g.nodeCount - 1
    · exact last ▸ deleted
    · cases pending : g.isDeleted (g.nodeCount - 1) with
      | true => rfl
      | false =>
          have freed := Graph.swapRemove_eq_ok_iff.2
            ⟨deleted, alone, .inr ⟨last, pending, rfl⟩⟩
          exact absurd freed (stuck _)

end Tended

/-! ### One pass -/

/-- What holds of a graph and passes to the graph in which a slot is freed holds after a pass. -/
theorem swapAll_keeps {motive : Graph α → Prop}
    (step : ∀ g h id, motive g → g.swapRemove id = .ok h → motive h) {g : Graph α}
    (start : motive g) (executed : Nat) (kept ids : List Nat) :
    motive (swapAll g executed kept ids).1 := by
  induction ids generalizing g executed kept with
  | nil => exact start
  | cons id ids ih =>
      rw [swapAll]
      split
      case h_1 h removed => exact ih (step g h id start removed) ..
      case h_2 => exact ih start ..

theorem wellFormed_swapAll {g : Graph α} (wf : g.WellFormed) (executed : Nat)
    (kept ids : List Nat) : (swapAll g executed kept ids).1.WellFormed :=
  swapAll_keeps (fun _ _ _ wf removed => (wf.swapRemove removed).1) wf executed kept ids

/-- A pass changes neither the parameters nor brings labels back, and no slot is added. -/
theorem frame_swapAll {g : Graph α} (wf : g.WellFormed) (executed : Nat) (kept ids : List Nat) :
    (swapAll g executed kept ids).1.config = g.config ∧
      (swapAll g executed kept ids).1.nodeCount ≤ g.nodeCount ∧
      ∀ label, g.contains label = false →
        (swapAll g executed kept ids).1.contains label = false := by
  let motive := fun h : Graph α => h.WellFormed ∧ h.config = g.config ∧
    h.nodeCount ≤ g.nodeCount ∧ ∀ label, g.contains label = false → h.contains label = false
  have step : ∀ h k id, motive h → h.swapRemove id = .ok k → motive k := by
    rintro h k id ⟨wf_h, config, count, unmapped⟩ removed
    obtain ⟨wf_k, frees⟩ := wf_h.swapRemove removed
    refine ⟨wf_k, frees.config_eq.trans config, ?_, fun label absent => ?_⟩
    · have := frees.nodeCount_eq
      omega
    · have none := (Graph.contains_eq_false_iff wf_h.labelled).1 (unmapped label absent)
      rw [Graph.contains_eq_false_iff wf_k.labelled, frees.idsOf_eq, none, List.map_nil]
  have start : motive g := ⟨wf, rfl, Nat.le_refl _, fun _ absent => absent⟩
  exact (swapAll_keeps step start executed kept ids).2

/-- A pass frees the slots of some of the nodes it is given, and the others stay ready. -/
theorem Tended.swapAll {ids : List Nat} {g h : Graph α} {executed freed : Nat}
    {kept left : List Nat} {awaited : List (Nat × Nat)} (sturdy : g.Sturdy)
    (tended : Tended g (kept ++ ids) awaited)
    (swapped : swapAll g executed kept ids = (h, freed, left)) :
    h.Sturdy ∧ Tended h left awaited ∧
      freed + left.length = executed + kept.length + ids.length := by
  induction ids generalizing g executed kept with
  | nil =>
      cases swapped
      rw [List.append_nil] at tended
      exact ⟨sturdy, tended, rfl⟩
  | cons id ids ih =>
      have first : Tended g (id :: (kept ++ ids)) awaited :=
        tended.perm List.perm_middle.symm (.refl _)
      rw [Tiered.swapAll] at swapped
      rw [List.length_cons]
      cases removed : g.swapRemove id with
      | ok g₁ =>
          rw [removed] at swapped
          obtain ⟨sturdy₁, _⟩ := sturdy.swapRemove removed
          obtain ⟨sturdy_h, tended, total⟩ := ih sturdy₁ (first.swapRemove sturdy removed) swapped
          exact ⟨sturdy_h, tended, by omega⟩
      | error failure =>
          rw [removed] at swapped
          have same : Tended g (kept ++ [id] ++ ids) awaited := by
            rwa [List.append_assoc, List.singleton_append]
          obtain ⟨sturdy_h, tended, total⟩ := ih sturdy same swapped
          rw [List.length_append, List.length_singleton] at total
          exact ⟨sturdy_h, tended, by omega⟩

/-- While the last slot holds a deleted node that is not ready, no slot is freed. -/
theorem swapAll_of_blocked {g : Graph α} (pending : g.isDeleted (g.nodeCount - 1) = true)
    {ids : List Nat} (other : g.nodeCount - 1 ∉ ids) (executed : Nat) (kept : List Nat) :
    swapAll g executed kept ids = (g, executed, kept ++ ids) := by
  induction ids generalizing kept with
  | nil => rw [swapAll, List.append_nil]
  | cons id ids ih =>
      obtain ⟨ne, other⟩ := not_or.1 (mt List.mem_cons.2 other)
      have refused : ∀ h, g.swapRemove id ≠ .ok h := by
        intro h removed
        obtain ⟨_, _, ⟨last, _⟩ | ⟨_, live, _⟩⟩ := Graph.swapRemove_eq_ok_iff.1 removed
        · exact ne last.symm
        · rw [pending] at live
          cases live
      rw [swapAll]
      split
      case h_1 h removed => exact absurd removed (refused h)
      case h_2 => rw [ih other, List.append_assoc, List.singleton_append]

/-- A pass from the highest slot down leaves nodes only when the last slot holds one that is
awaited: what stands above the first node that is left is not ready. -/
theorem Tended.last_awaited {ids : List Nat} (descending : ids.Pairwise (· > ·)) {g h : Graph α}
    {executed freed : Nat} {left : List Nat} {awaited : List (Nat × Nat)} (sturdy : g.Sturdy)
    (tended : Tended g ids awaited)
    (swapped : Tiered.swapAll g executed [] ids = (h, freed, left)) :
    left = [] ∨ ∃ x, (h.nodeCount - 1, x) ∈ awaited := by
  induction ids generalizing g executed with
  | nil =>
      cases swapped
      exact .inl rfl
  | cons id ids ih =>
      obtain ⟨above, descending⟩ := List.pairwise_cons.1 descending
      cases removed : g.swapRemove id with
      | ok g₁ =>
          rw [Tiered.swapAll, removed] at swapped
          exact ih descending (sturdy.swapRemove removed).1 (tended.swapRemove sturdy removed)
            swapped
      | error failure =>
          obtain ⟨not_last, pending⟩ := tended.swapRemove_error removed
          have lt := Graph.lt_nodeCount_of_isDeleted (tended.ready_deleted id List.mem_cons_self)
          have other : g.nodeCount - 1 ∉ id :: ids := by
            intro mem
            rcases List.mem_cons.1 mem with same | later
            · exact not_last same.symm
            · have := above _ later
              omega
          rw [swapAll_of_blocked pending other] at swapped
          cases swapped
          exact .inr ((tended.covered _ pending).resolve_left other)

end Vicinity.Tiered
