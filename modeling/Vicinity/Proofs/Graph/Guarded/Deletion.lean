import Vicinity.Proofs.Graph.Guarded.Insertion
import Vicinity.Proofs.Graph.Relocation

/-!
Deletions that give up where they would index a node or a layer that is not there.

As for insertions, marking, repairing and removing a node of a well-formed graph find all that they
look for (`markDeleted_eq_some`, `repair_eq_some`, `swapRemove_eq_some`). The invariants are those
of the plain operations: while a node is isolated, the lists that are gone through name nodes of the
layer, and while ids are rewritten, the layers that are left still have the links they had.
-/

namespace Vicinity.Graph

variable {α : Type}

namespace Guarded

/-! ### Marking -/

/-- A new entry point is first looked for among the neighbours on the top layer. -/
def markDeleted (g : Graph α) (id : Nat) : Option (Except Failure (Graph α)) :=
  if g.isLive id = true ∧ g.entryPoint = some id then
    reading (g.Opens id g.maxLevel) (g.markDeleted id)
  else some (g.markDeleted id)

theorem markDeleted_eq_some {g : Graph α} (wf : g.WellFormed) (id : Nat) :
    markDeleted g id = some (g.markDeleted id) := by
  unfold markDeleted
  split
  case isTrue start =>
    have level := wf.rooted.level id start.2
    refine reading_eq_some (wf.stocked.vectored.opens wf.linked.toPaired ?_) _
    rw [Stands, level]
    exact Nat.lt_succ_self _
  case isFalse => rfl

/-! ### Repair -/

section Repair

variable [Element α]

def accept (id layer cap : Nat) (state : Graph α × List Nat) (c : Candidate) :
    Option (Graph α × List Nat) :=
  reading (state.1.Stands id layer ∧ state.1.Stands c.id layer ∧
    state.1.Occupied c.id ∧ ∀ s ∈ state.2, state.1.Occupied s) (Graph.accept id layer cap state c)

def reconnect (g : Graph α) (replacements : List Nat) (layer : Nat) (id : Nat) :
    Option (Graph α) := do
  let cap := g.config.maxDegree layer
  let here ← links g id layer
  if cap ≤ here.out.length then some g
  else
    let candidates ← reading (g.Occupied id ∧ ∀ c ∈ replacements, g.Occupied c)
      (g.candidatesFor id here.out replacements)
    let (linked, chosen) ← candidates.foldlM (accept id layer cap) (g, here.out)
    match chosen, candidates with
    | [], c :: _ => addEdge linked id c.id layer
    | _, _ => some linked

def unlink (id layer : Nat) (replacements : List Nat) (g : Graph α) (n : Nat) :
    Option (Graph α) := do
  let g ← removeEdge g n id layer
  let deleted ← reading (n < g.nodeCount) (g.isDeleted n)
  if deleted then some g else reconnect g replacements layer n

def repairLayer (g : Graph α) (id layer : Nat) : Option (Graph α) := do
  let old ← links g id layer
  let detached ← old.incoming.foldlM (unlink id layer old.out) g
  old.out.foldlM (fun g c => removeEdge g id c layer) detached

def repair (g : Graph α) (id : Nat) : Option (Except Failure (Graph α)) :=
  match g.nodes[id]? with
  | none => some (.error (.node id (.outOfRange g.nodeCount)))
  | some node =>
    if !node.deleted then some (.error (.node id .notDeleted))
    else do
      let repaired ← (List.range node.layers.length).foldlM
        (fun g layer => repairLayer g id layer) g
      some (.ok repaired)

theorem reconnect_eq_some {g : Graph α} (vectored : g.Vectored) (paired : g.Paired)
    {id layer : Nat}
    (within : (g.links id layer).out.length ≤ g.config.maxDegree layer)
    (here : g.Stands id layer) {replacements : List Nat}
    (there : ∀ c ∈ replacements, g.Stands c layer) :
    reconnect g replacements layer id = some (g.reconnect replacements layer id) := by
  unfold reconnect Graph.reconnect
  rw [links_eq_some here]
  simp only [Option.bind_eq_bind, Option.bind_some]
  split
  · rfl
  · have occupied : g.Occupied id ∧ ∀ c ∈ replacements, g.Occupied c :=
      ⟨vectored.of_stands here, fun c mem => vectored.of_stands (there c mem)⟩
    rw [reading_eq_some occupied]
    have offered : ∀ c ∈ g.candidatesFor id (g.links id layer).out replacements,
        c.id ∈ replacements ∧ g.isLive c.id = true := fun _ => mem_candidatesFor
    generalize g.candidatesFor id (g.links id layer).out replacements = candidates at offered ⊢
    have start : g.Offering id layer (g.config.maxDegree layer) (g, (g.links id layer).out) :=
      ⟨.refl g id layer, Nat.le_refl _, within⟩
    have run := foldlM_eq_some
      (motive := fun cs state => (∀ c ∈ cs, c.id ∈ replacements ∧ g.isLive c.id = true) ∧
        g.Offering id layer (g.config.maxDegree layer) state ∧ ∀ s ∈ state.2, g.Occupied s)
      (f := accept id layer (g.config.maxDegree layer))
      (g := Graph.accept id layer (g.config.maxDegree layer))
      (fun c cs state kept => by
        obtain ⟨offered, offering, chosen⟩ := kept
        obtain ⟨among, live⟩ := offered c List.mem_cons_self
        have rewired := offering.offers.rewired
        refine ⟨reading_eq_some ⟨(rewired.stands_iff ..).2 here,
          (rewired.stands_iff ..).2 (there c.id among),
          (rewired.occupied_iff _).2 (occupied.2 c.id among),
          fun s mem => (rewired.occupied_iff s).2 (chosen s mem)⟩ _,
          fun d mem => offered d (List.mem_cons_of_mem _ mem),
          offering.accept here (there c.id among) live, ?_⟩
        unfold Graph.accept
        dsimp only
        split
        · intro s mem
          rcases List.mem_append.1 mem with old | new
          · exact chosen s old
          · rw [List.mem_singleton.1 new]
            exact occupied.2 c.id among
        · exact chosen)
      ⟨offered, start, (vectored.opens paired here).2⟩
    have done := start.foldl_accept here
      (fun c (mem : c ∈ candidates) => there c.id (offered c mem).1)
      (fun c mem => (offered c mem).2)
    simp only [Option.bind_some, run]
    generalize candidates.foldl (Graph.accept id layer (g.config.maxDegree layer))
      (g, (g.links id layer).out) = state at done ⊢
    obtain ⟨h, chosen⟩ := state
    cases chosen with
    | cons s chosen => rfl
    | nil =>
        cases candidates with
        | nil => rfl
        | cons c candidates =>
            have rewired := done.offers.rewired
            exact addEdge_eq_some ((rewired.stands_iff ..).2 here)
              ((rewired.stands_iff ..).2 (there c.id (offered c List.mem_cons_self).1))

theorem unlink_eq_some {g h : Graph α} (vectored : g.Vectored) (paired : g.Paired)
    {id layer n : Nat} {sources targets : List Nat}
    (detaching : g.Detaching id layer (n :: sources) targets h) (self : g.Stands id layer)
    (here : g.Stands n layer) (there : ∀ c ∈ targets, g.Stands c layer) :
    unlink id layer targets h n = some (Graph.unlink id layer targets h n) := by
  have removed := detaching.removeIncoming
  have here' := (removed.rewired.stands_iff n layer).2 here
  unfold unlink Graph.unlink
  rw [removeEdge_eq_some ((detaching.rewired.stands_iff ..).2 here)
    ((detaching.rewired.stands_iff ..).2 self)]
  simp only [Option.bind_eq_bind, Option.bind_some,
    reading_eq_some (lt_nodeCount_of_stands here')]
  split
  · rfl
  · exact reconnect_eq_some (removed.rewired.vectored vectored) (removed.edits.paired paired)
      (removed.within n layer) here'
      (fun c mem => (removed.rewired.stands_iff c layer).2 (there c mem))

theorem repairLayer_eq_some {g : Graph α} (vectored : g.Vectored) (paired : g.Paired)
    (within : g.WithinDegree) {id : Nat} (dead : g.isLive id = false) {layer : Nat}
    (self : g.Stands id layer) :
    repairLayer g id layer = some (g.repairLayer id layer) := by
  have sources : ∀ n ∈ (g.links id layer).incoming, g.Stands n layer :=
    fun _ edge => paired.stands_source edge
  have targets : ∀ c ∈ (g.links id layer).out, g.Stands c layer :=
    fun _ edge => paired.stands_target edge
  have start : g.Detaching id layer (g.links id layer).incoming (g.links id layer).out g :=
    ⟨.refl, within, fun _ _ _ => rfl, fun _ mem => mem, fun _ mem => mem, fun _ _ empty => empty⟩
  have detached := foldlM_eq_some
    (motive := fun ns h => (∀ n ∈ ns, g.Stands n layer) ∧
      g.Detaching id layer ns (g.links id layer).out h)
    (f := unlink id layer (g.links id layer).out)
    (g := Graph.unlink id layer (g.links id layer).out)
    (fun n ns h kept => by
      obtain ⟨sources, detaching⟩ := kept
      exact ⟨unlink_eq_some vectored paired detaching self (sources n List.mem_cons_self) targets,
        fun m mem => sources m (List.mem_cons_of_mem _ mem),
        detaching.unlink dead (sources n List.mem_cons_self) targets⟩)
    ⟨sources, start⟩
  have between := start.foldl_unlink dead sources targets
  have emptied := foldlM_eq_some
    (motive := fun cs h => (∀ c ∈ cs, g.Stands c layer) ∧ Rewired g h)
    (f := fun g c => removeEdge g id c layer) (g := fun g c => g.removeEdge id c layer)
    (fun c cs h kept => by
      obtain ⟨targets, rewired⟩ := kept
      exact ⟨removeEdge_eq_some ((rewired.stands_iff ..).2 self)
          ((rewired.stands_iff ..).2 (targets c List.mem_cons_self)),
        fun d mem => targets d (List.mem_cons_of_mem _ mem),
        rewired.trans (rewired_removeEdge ..)⟩)
    ⟨targets, between.rewired⟩
  unfold repairLayer Graph.repairLayer
  simp only [links_eq_some self, detached, emptied, Option.bind_eq_bind, Option.bind_some]

theorem repair_eq_some {g : Graph α} (wf : g.WellFormed) (id : Nat) :
    repair g id = some (g.repair id) := by
  unfold repair Graph.repair
  cases at_id : g.nodes[id]? with
  | none => rfl
  | some node =>
      dsimp only
      split
      · rfl
      case isFalse deleted =>
        have deleted : g.isDeleted id = true := by simpa [isDeleted, at_id] using deleted
        have dead := (isLive_eq_false_iff (lt_nodeCount_of_isDeleted deleted)).2 deleted
        have paired := wf.linked.toPaired
        have run := foldlM_eq_some
          (motive := fun layers h => (∀ l ∈ layers, g.Stands id l) ∧
            g.Repairing id (fun _ => False) h)
          (f := fun g layer => repairLayer g id layer) (g := fun g layer => g.repairLayer id layer)
          (fun layer layers h kept => by
            obtain ⟨stands, repairing⟩ := kept
            have dead' := (repairing.rewired.isLive_eq id).trans dead
            have here := (repairing.rewired.stands_iff id layer).2 (stands layer List.mem_cons_self)
            have next := repairing.repairLayer paired dead layer
            have vectored := repairing.rewired.vectored wf.stocked.vectored
            exact ⟨repairLayer_eq_some vectored (repairing.edits.paired paired) repairing.within
                dead' here,
              fun l mem => stands l (List.mem_cons_of_mem _ mem),
              next.edits, next.within, fun _ absurd => absurd.elim, next.isolated⟩)
          (l := List.range node.layers.length) (s := g)
          ⟨fun l mem => by
            rw [Stands, layerCount_of_getElem? at_id]
            exact List.mem_range.1 mem,
            .refl, wf.within, fun _ absurd => absurd.elim, fun _ _ alone => alone⟩
        simp only [run, Option.bind_eq_bind, Option.bind_some]

end Repair

/-! ### Removal -/

def modifyLinks (g : Graph α) (id layer : Nat) (f : Links → Links) : Option (Graph α) :=
  reading (g.Stands id layer) (g.modifyLinks id layer f)

def renameLayer (old new : Nat) (g : Graph α) (layer : Nat) : Option (Graph α) := do
  let here ← links g old layer
  let g ← here.out.foldlM (fun g t =>
    modifyLinks g t layer fun l => { l with incoming := l.incoming.map (rename old new) }) g
  here.incoming.foldlM (fun g s =>
    modifyLinks g s layer fun l => { l with out := l.out.map (rename old new) }) g

def relocate (g : Graph α) (old new : Nat) : Option (Graph α) := do
  let node ← g.nodes[old]?
  let renamed ← (List.range node.layers.length).foldlM (renameLayer old new) g
  reading (g.Occupied old ∧ g.Occupied new) (renamed.moveNode node.label old new)

/-- One deleted node less is counted, so one must have been. -/
def dropLast (g : Graph α) : Option (Graph α) := reading (0 < g.markedCount) g.dropLast

def swapRemove (g : Graph α) (id : Nat) : Option (Except Failure (Graph α)) :=
  match g.nodes[id]? with
  | none => some (.error (.node id (.outOfRange g.nodeCount)))
  | some node =>
    if !node.deleted || !node.isIsolated then some (.error (.node id .notRepaired))
    else
      let last := g.nodeCount - 1
      if id = last then (dropLast g).map .ok
      else do
        let pending ← reading (last < g.nodeCount) (g.isDeleted last)
        if pending then some (.error (.node last .lastSlotPending))
        else
          let moved ← relocate g last id
          (dropLast moved).map .ok

theorem foldlM_modifyLinks_eq_some {g h : Graph α} {layer : Nat} {ts : List Nat}
    (rewired : Rewired g h) (there : ∀ t ∈ ts, g.Stands t layer) (f : Links → Links) :
    ts.foldlM (fun g t => modifyLinks g t layer f) h =
      some (ts.foldl (fun g t => g.modifyLinks t layer f) h) :=
  foldlM_eq_some
    (motive := fun ts h => (∀ t ∈ ts, g.Stands t layer) ∧ Rewired g h)
    (fun t _ _ kept => by
      obtain ⟨there, rewired⟩ := kept
      exact ⟨reading_eq_some ((rewired.stands_iff ..).2 (there t List.mem_cons_self)) _,
        fun u mem => there u (List.mem_cons_of_mem _ mem),
        rewired.trans (rewired_modifyLinks ..)⟩)
    ⟨there, rewired⟩

/-- The layer still has the links of a graph whose links are in order. -/
theorem renameLayer_eq_some {g h : Graph α} (paired : g.Paired) (rewired : Rewired g h)
    {layer : Nat} (same : ∀ j, h.links j layer = g.links j layer) {old : Nat}
    (here : g.Stands old layer) (new : Nat) :
    renameLayer old new h layer = some (Graph.renameLayer old new h layer) := by
  unfold renameLayer Graph.renameLayer
  simp only [links_eq_some ((rewired.stands_iff ..).2 here), Option.bind_eq_bind,
    Option.bind_some, same old]
  rw [foldlM_modifyLinks_eq_some rewired fun _ edge => paired.stands_target edge]
  simp only [Option.bind_some]
  exact foldlM_modifyLinks_eq_some (rewired.trans (rewired_foldl_modifyLinks ..))
    (fun _ edge => paired.stands_source edge) _

theorem relocate_eq_some {g : Graph α} (vectored : g.Vectored) (paired : g.Paired)
    {old new : Nat} (old_lt : old < g.nodeCount) (new_lt : new < g.nodeCount) :
    relocate g old new = some (g.relocate old new) := by
  have at_old : g.nodes[old]? = some g.nodes[old] := Array.getElem?_eq_getElem old_lt
  have run := foldlM_eq_some
    (motive := fun layers h => layers.Nodup ∧ (∀ l ∈ layers, g.Stands old l) ∧ Rewired g h ∧
      ∀ l ∈ layers, ∀ j, h.links j l = g.links j l)
    (f := renameLayer old new) (g := Graph.renameLayer old new)
    (fun layer layers h kept => by
      obtain ⟨nodup, stands, rewired, same⟩ := kept
      obtain ⟨fresh, nodup⟩ := List.nodup_cons.1 nodup
      have here := same layer List.mem_cons_self
      refine ⟨renameLayer_eq_some paired rewired here (stands layer List.mem_cons_self) new, nodup,
        fun l mem => stands l (List.mem_cons_of_mem _ mem),
        rewired.trans (rewired_renameLayer ..), fun l mem j => ?_⟩
      have apart : layer ≠ l := by
        rintro rfl
        exact fresh mem
      rw [links_renameLayer (fun a b => by rw [here, here]; exact paired.mirrored a b layer),
        if_neg apart]
      exact same l (List.mem_cons_of_mem _ mem) j)
    (l := List.range g.nodes[old].layers.length) (s := g)
    ⟨List.nodup_range, fun l mem => by
      rw [Stands, layerCount_of_getElem? at_old]
      exact List.mem_range.1 mem, .refl g, fun _ _ _ => rfl⟩
  unfold relocate Graph.relocate
  simp only [at_old, run, reading_eq_some (And.intro (vectored old old_lt) (vectored new new_lt)),
    Option.bind_eq_bind, Option.bind_some]

theorem swapRemove_eq_some {g : Graph α} (wf : g.WellFormed) (id : Nat) :
    swapRemove g id = some (g.swapRemove id) := by
  unfold swapRemove Graph.swapRemove
  cases at_id : g.nodes[id]? with
  | none => rfl
  | some node =>
      have lt : id < g.nodeCount := (Array.getElem?_eq_some_iff.1 at_id).1
      have last_lt : g.nodeCount - 1 < g.nodeCount := by omega
      dsimp only
      split
      · rfl
      case isFalse ready =>
        have deleted : g.isDeleted id = true := by
          rw [Bool.not_eq_true, Bool.or_eq_false_iff, Bool.not_eq_false'] at ready
          rw [isDeleted, at_id, Option.any_some, ready.1]
        have counted := wf.stocked.markedCount_pos deleted
        have moved : (g.relocate (g.nodeCount - 1) id).markedCount = g.markedCount := by
          rw [relocate_eq last_lt]
          exact (rewired_renameAll g (g.nodeCount - 1) id).markedCount_eq
        simp only [reading_eq_some last_lt,
          relocate_eq_some wf.stocked.vectored wf.linked.toPaired last_lt lt, dropLast, moved,
          reading_eq_some counted, Option.bind_eq_bind, Option.bind_some, Option.map_some,
          apply_ite some]

end Guarded

end Vicinity.Graph
