import Vicinity.Proofs.Graph.Reachability
import Vicinity.Proofs.Image.Acceptance

/-!
What a passed integrity check is worth.

The check compares what a graph says of itself and asks nothing of where it comes from. On a graph
that passes (`Accepted`) every edge is recorded at both ends, and the labels list live nodes under
their own labels, as many as there are. That they list each of them is left open where a label may
have several vectors: a list that repeats an id makes up for a node that is missing
(`check_overlooks`). Nor is it asked that an incoming edge is recorded once, or that the capacity
can grow.

Where no list repeats an id the label map is exact, and then it stays so: the graph passes the check
after every sequence of calls (`Accepted.vetted`). The invariant behind it is `Durable`; it is what
the check finds out and what every step keeps (`kept_durable`).
-/

namespace Vicinity.Graph

variable {α : Type}

/-- What a graph has to have to pass the check after every call. -/
structure Durable (g : Graph α) : Prop where
  usable : g.config.fault? = none
  sturdy : g.Sturdy
  labelled : g.Labelled
  fits : g.nodeCount ≤ g.capacity.toNat
  growable : g.Growable

/-- The size and the capacity after an operation that adds no node. -/
theorem Durable.of_frame {g h : Graph α} (durable : g.Durable) (sturdy : h.Sturdy)
    (labelled : h.Labelled) (config : h.config = g.config) (capacity : h.capacity = g.capacity)
    (fewer : h.nodeCount ≤ g.nodeCount) : h.Durable where
  usable := by
    rw [config]
    exact durable.usable
  sturdy := sturdy
  labelled := labelled
  fits := by
    rw [capacity]
    exact Nat.le_trans fewer durable.fits
  growable := durable.growable.congr config capacity

/-- A capacity that holds every node, whatever is logged. -/
theorem Durable.withCapacity {g : Graph α} (durable : g.Durable) {capacity : UInt64}
    (journal : Log.Journal) (fits : g.nodeCount ≤ capacity.toNat)
    (growable : ({ g with capacity, journal } : Graph α).Growable) :
    ({ g with capacity, journal } : Graph α).Durable where
  usable := durable.usable
  sturdy := durable.sturdy.withCapacity capacity journal
  labelled := durable.labelled.congr rfl rfl rfl
  fits := fits
  growable := growable

variable [Element α]

/-! ### Steps -/

theorem Durable.insert {g h : Graph α} (durable : g.Durable) {label : Label}
    (unmapped : g.config.multi = false → g.contains label = false) {vector : List α} {id : Nat}
    (inserted : g.insert label vector = .ok (h, id)) : h.Durable := by
  obtain ⟨sturdy, stores⟩ := durable.sturdy.insert inserted
  have room := (eq_of_insert inserted).2.1
  constructor
  case usable =>
    rw [stores.config_eq]
    exact durable.usable
  case sturdy => exact sturdy
  case labelled => exact durable.labelled.insert durable.sturdy unmapped inserted
  case fits =>
    rw [stores.nodeCount_eq, stores.capacity_eq]
    exact room
  case growable => exact durable.growable.congr stores.config_eq stores.capacity_eq

omit [Element α] in
theorem Durable.swapRemove {g h : Graph α} (durable : g.Durable) {id : Nat}
    (removed : g.swapRemove id = .ok h) : h.Durable := by
  obtain ⟨sturdy, frees⟩ := durable.sturdy.swapRemove removed
  have deleted := (swapRemove_eq_ok_iff.1 removed).1
  have dead := (isLive_eq_false_iff (lt_nodeCount_of_isDeleted deleted)).2 deleted
  have count := frees.nodeCount_eq
  exact durable.of_frame sturdy (frees.labelled durable.labelled dead) frees.config_eq
    frees.capacity_eq (by omega)

theorem kept_durable : Kept (· < idLimit) (Durable (α := α)) where
  fewer _ _ := Nat.lt_of_le_of_lt
  sturdy _ durable := durable.sturdy
  labelled _ durable := durable.labelled
  insert _ _ _ _ _ durable unmapped inserted := durable.insert unmapped inserted
  markDeleted g id h durable marked := by
    obtain ⟨sturdy, marks, _⟩ := durable.sturdy.markDeleted marked
    exact durable.of_frame sturdy (durable.labelled.markDeleted marked) marks.config_eq
      marks.capacity_eq (Nat.le_of_eq marks.nodeCount_eq)
  repair g id h durable repaired := by
    obtain ⟨sturdy, edits⟩ := durable.sturdy.repair repaired
    have rewired := edits.rewired
    exact durable.of_frame sturdy (durable.labelled.rewire rewired) rewired.config_eq
      rewired.capacity_eq (Nat.le_of_eq rewired.nodeCount_eq)
  swapRemove _ _ _ durable removed := durable.swapRemove removed
  ensureCapacity g durable few := by
    have grown := (ensureCapacity_spec durable.growable few).1
    have growable := durable.growable.ensureCapacity few
    rw [ensureCapacity_eq] at growable ⊢
    exact durable.withCapacity _ (Nat.le_trans durable.fits grown) growable
  shrinkToFit g durable := by
    have fits := (shrinkToFit_spec durable.usable durable.fits).1
    have growable := durable.growable.shrinkToFit durable.usable durable.fits
    rw [shrinkToFit_eq] at growable ⊢
    exact durable.withCapacity _ fits growable

/-- Edges that are recorded once at each end go on to be. -/
theorem kept_linked : Kept (· < idLimit) fun g : Graph α => g.Durable ∧ g.Linked where
  fewer _ _ := Nat.lt_of_le_of_lt
  sturdy _ holds := holds.1.sturdy
  labelled _ holds := holds.1.labelled
  insert g label vector h id holds unmapped inserted :=
    ⟨holds.1.insert unmapped inserted, holds.2.insert holds.1.sturdy inserted⟩
  markDeleted g id h holds marked := by
    obtain ⟨_, marks, _⟩ := holds.1.sturdy.markDeleted marked
    exact ⟨kept_durable.markDeleted g id h holds.1 marked, marks.linked holds.2⟩
  repair g id h holds repaired := by
    obtain ⟨_, edits⟩ := holds.1.sturdy.repair repaired
    exact ⟨kept_durable.repair g id h holds.1 repaired, edits.linked holds.2⟩
  swapRemove g id h holds removed := by
    obtain ⟨_, frees⟩ := holds.1.sturdy.swapRemove removed
    exact ⟨holds.1.swapRemove removed,
      frees.linked holds.2 (swapRemove_eq_ok_iff.1 removed).2.1⟩
  ensureCapacity g holds few := by
    refine ⟨kept_durable.ensureCapacity g holds.1 few, ?_⟩
    rw [ensureCapacity_eq]
    exact holds.2.congr fun _ _ => rfl
  shrinkToFit g holds := by
    refine ⟨kept_durable.shrinkToFit g holds.1, ?_⟩
    rw [shrinkToFit_eq]
    exact holds.2.congr fun _ _ => rfl

/-! ### Runs -/

/-- Calls that their callers may make lead from one graph to another. -/
inductive Leads (g : Graph α) : Graph α → Prop where
  | refl : Leads g g
  | call {h : Graph α} (call : Call α) : Leads g h → call.Admissible h → Leads g (call.run h)

theorem Leads.keeps {motive : Graph α → Prop} (kept : Kept (· < idLimit) motive) {g h : Graph α}
    (leads : g.Leads h) (holds : motive g) : motive h := by
  induction leads with
  | refl => exact holds
  | call call _ admissible ih => exact kept.call ih admissible.allowed

/-- A graph that passed the check, in memory or when it was loaded. -/
inductive Accepted (g : Graph α) : Prop where
  | checked : g.config.fault? = none → g.integrity = .ok () → Accepted g
  | loaded (bytes : List UInt8) : Image.load bytes = .ok g → Accepted g

theorem Accepted.sound {g : Graph α} (accepted : g.Accepted) :
    g.config.fault? = none ∧ g.Sound := by
  cases accepted with
  | checked usable passed => exact ⟨usable, integrity_eq_ok_iff.1 passed⟩
  | loaded bytes loaded =>
      obtain ⟨usable, passed⟩ := Image.checked_of_load loaded
      exact ⟨usable, integrity_eq_ok_iff.1 passed⟩

omit [Element α] in
theorem Sound.durable {g : Graph α} (sound : g.Sound) (usable : g.config.fault? = none)
    (nodup : ∀ label, (g.idsOf label).Nodup) (growable : g.Growable) : g.Durable :=
  ⟨usable, sound.sturdy, sound.labelled nodup, sound.fits, growable⟩

/-- What the check establishes of a graph, and of all graphs that calls lead to from it. -/
structure Vetted (g : Graph α) : Prop where
  listed : ∀ label, ∀ id ∈ g.idsOf label, g.isLive id = true ∧ g.label? id = some label
  counted : g.mappedIds.length = g.size
  listed_once_iff : (∀ id, g.isLive id = true → g.mappedIds.count id = 1) ↔
    ∀ label, (g.idsOf label).Nodup
  listed_once_of_single : g.config.multi = false →
    ∀ id, g.isLive id = true → g.mappedIds.count id = 1
  out_nodup : ∀ id layer, (g.links id layer).out.Nodup
  mirrored : ∀ a b layer, b ∈ (g.links a layer).out ↔ a ∈ (g.links b layer).incoming
  lasting : (∀ label, (g.idsOf label).Nodup) → g.Growable → ∀ h, g.Leads h →
    h.integrity = .ok () ∧ ∀ id, h.isLive id = true → h.mappedIds.count id = 1 ∧
      ∃ label, h.label? id = some label ∧ id ∈ h.idsOf label
  incoming_nodup : (∀ label, (g.idsOf label).Nodup) → g.Growable →
    (∀ id layer, (g.links id layer).incoming.Nodup) → ∀ h, g.Leads h →
      ∀ id layer, (h.links id layer).incoming.Nodup

/-- Whatever passes the check has all of this, and so do the graphs that calls lead to from it as
far as no list of a label repeats an id. -/
theorem Accepted.vetted {g : Graph α} (accepted : g.Accepted) : g.Vetted := by
  obtain ⟨usable, sound⟩ := accepted.sound
  constructor
  case listed => exact sound.listed
  case counted => exact sound.counted
  case listed_once_iff => exact sound.listed_once_iff
  case listed_once_of_single =>
    exact fun one => sound.listed_once_iff.2 (sound.nodup_of_single one)
  case out_nodup => exact sound.paired.out_nodup
  case mirrored => exact sound.paired.mirrored
  case lasting =>
    intro nodup growable h leads
    have durable := leads.keeps kept_durable (sound.durable usable nodup growable)
    refine ⟨durable.sturdy.integrity durable.labelled durable.fits, fun id live => ?_⟩
    exact ⟨durable.labelled.count_mappedIds live, durable.labelled.mem_idsOf_label live⟩
  case incoming_nodup =>
    intro nodup growable once h leads
    have start := sound.durable usable nodup growable
    exact (leads.keeps kept_linked ⟨start, sound.paired, once⟩).2.incoming_nodup

/-! ### Graphs that pass -/

/-- Parameters for vectors of one number. -/
def lineConfig : Config := { dim := 1, metric := .l2 }

/-- Two nodes linked with each other. One of them has the edge to it recorded twice. -/
def recordedTwice : Graph Binary64 where
  config := lineConfig
  nodes := #[
    { label := 1, generation := 0, layers := [⟨[1], [1]⟩] },
    { label := 2, generation := 1, layers := [⟨[0], [0, 0]⟩] }]
  vectors := #[.zero, .one]
  labels := (LabelMap.empty.insert 1 [0]).insert 2 [1]
  entryPoint := some 0
  capacity := 1024
  nextGeneration := 2

/-- It goes on to pass while the second node is taken out. -/
theorem vetted_recordedTwice :
    let marked := (Call.markDeleted 1).run recordedTwice
    recordedTwice.Accepted ∧ recordedTwice.Vetted ∧
      ((Call.repair 1).run marked).integrity = .ok () := by
  have accepted : recordedTwice.Accepted := .checked (by decide) (by decide +kernel)
  have vetted := accepted.vetted
  have nodup := accepted.sound.2.nodup_of_single rfl
  have growable : recordedTwice.Growable := .inl (by decide)
  have marking : recordedTwice.Leads ((Call.markDeleted 1).run recordedTwice) :=
    Leads.refl.call (.markDeleted 1) trivial
  have leads := marking.call (.repair 1) trivial
  exact ⟨accepted, vetted, (vetted.lasting nodup growable _ leads).1⟩

/-- Two nodes of one label, of which one is listed twice and the other not at all. One of them has
the edge to it recorded twice, and a block is so large that the capacity cannot grow. -/
def listedTwice : Graph Binary64 where
  config := { lineConfig with multi := true, blockSize := 0xffffffffffffffff }
  nodes := #[
    { label := 1, generation := 0, layers := [⟨[1], [1]⟩] },
    { label := 1, generation := 1, layers := [⟨[0], [0, 0]⟩] }]
  vectors := #[.zero, .one]
  labels := LabelMap.empty.insert 1 [0, 0]
  entryPoint := some 0
  capacity := 2
  nextGeneration := 2

/-- It is accepted when it is loaded, and ceases to pass when the node that is not listed is marked
or the capacity is seen to. -/
theorem check_overlooks :
    Image.load (Image.write listedTwice) = .ok listedTwice ∧ listedTwice.integrity = .ok () ∧
      (listedTwice.isLive 1 = true ∧ listedTwice.mappedIds.count 1 = 0) ∧
      ¬(listedTwice.links 1 0).incoming.Nodup ∧
      ((Call.markDeleted 1).run listedTwice).integrity = .error (.unmappedNodes 1 2) ∧
      (Call.ensureCapacity.run listedTwice).integrity = .error (.overCapacity 2 1) := by
  decide +kernel

end Vicinity.Graph
