import Vicinity.Proofs.Graph.Relocation

/-!
Changes of the capacity.

The capacity stays a whole number of blocks that holds every node. Growing adds a block in machine
words. While the ids fit the 32 bits they are stored in, the sum does not wrap around: a capacity
that is used up is as large as the number of nodes, so either the block is no larger or there is no
node yet. (`room_of_ensureCapacity`.) Where the capacity comes from elsewhere it need not be whole
blocks, and only a block that is small enough is sure not to wrap around (`Growable`).
-/

namespace Vicinity.Graph

variable {α : Type}

/-- Ids below this number are ids of nodes; the number itself stands for none. -/
def idLimit : Nat := UInt32.size - 1

/-! ### Whole blocks -/

theorem dvd_wholeBlocks (count block : Nat) : block ∣ wholeBlocks count block :=
  Nat.dvd_mul_left ..

theorem le_wholeBlocks (count : Nat) {block : Nat} (positive : 0 < block) :
    count ≤ wholeBlocks count block := by
  unfold wholeBlocks
  have split := Nat.div_add_mod (count + (block - 1)) block
  have below := Nat.mod_lt (count + (block - 1)) positive
  rw [Nat.mul_comm] at split
  omega

/-- The parameters with which a graph can be made. -/
theorem Config.fault?_eq_none_iff (config : Config) :
    config.fault? = none ↔ config.dim ≠ 0 ∧ config.blockSize ≠ 0 ∧ ¬config.m < 2 ∧
      ¬(config.efConstruction = 0 ∨ config.efRuntime = 0) := by
  unfold fault?
  repeat' split
  all_goals simp_all

theorem blockSize_pos {g : Graph α} (usable : g.config.fault? = none) :
    0 < g.config.blockSize.toNat :=
  Nat.pos_of_ne_zero fun zero =>
    ((Config.fault?_eq_none_iff _).1 usable).2.1 (UInt64.toNat_inj.1 zero)

theorem dim_pos {config : Config} (usable : config.fault? = none) : config.dim.toNat ≠ 0 :=
  fun zero => ((Config.fault?_eq_none_iff _).1 usable).1 (UInt64.toNat_inj.1 zero)

theorem efConstruction_pos {config : Config} (usable : config.fault? = none) :
    0 < config.efConstruction.toNat :=
  Nat.pos_of_ne_zero fun zero =>
    ((Config.fault?_eq_none_iff _).1 usable).2.2.2 (.inl (UInt64.toNat_inj.1 zero))

/-- The degree bound of layer 0 is zero only when it has wrapped around. -/
theorem Config.maxDegree_ne_zero_iff {config : Config} (usable : config.fault? = none) :
    config.maxDegree 0 ≠ 0 ↔ config.m ≠ 0x8000000000000000 := by
  have two_le : ¬config.m < 2 := ((fault?_eq_none_iff config).1 usable).2.2.1
  have two : (2 : UInt64).toNat = 2 := rfl
  have half : (0x8000000000000000 : UInt64).toNat = 2 ^ 63 := rfl
  rw [UInt64.lt_iff_toNat_lt, two] at two_le
  rw [maxDegree, if_pos rfl, UInt64.toNat_mul, two, Ne, Ne, ← UInt64.toNat_inj, half]
  have bound := config.m.toNat_lt
  omega

/-! ### Resizing -/

/-- What searches and repairs rely on has nothing to do with the capacity. -/
theorem Sturdy.withCapacity {g : Graph α} (sturdy : g.Sturdy) (capacity : UInt64)
    (journal : Log.Journal) : ({ g with capacity, journal } : Graph α).Sturdy where
  paired := sturdy.paired.congr fun _ _ => rfl
  within := sturdy.within
  listed := sturdy.listed
  anchored := ⟨sturdy.anchored.live, sturdy.anchored.level, sturdy.anchored.absent,
    sturdy.anchored.below⟩
  filled := ⟨sturdy.filled.aligned, sturdy.filled.tallied, sturdy.filled.layered⟩

/-- A capacity of whole blocks that holds every node, whatever is logged. -/
theorem WellFormed.withCapacity {g : Graph α} (wf : g.WellFormed) {capacity : UInt64}
    (journal : Log.Journal) (fits : g.nodeCount ≤ capacity.toNat)
    (whole : g.config.blockSize.toNat ∣ capacity.toNat) :
    ({ g with capacity, journal } : Graph α).WellFormed where
  usable := wf.usable
  linked := wf.linked.congr fun _ _ => rfl
  within := wf.within
  labelled := wf.labelled.congr rfl rfl rfl
  rooted := ⟨(wf.sturdy.withCapacity capacity journal).anchored, wf.rooted.ground⟩
  stocked := ⟨(wf.sturdy.withCapacity capacity journal).filled, wf.stocked.few_layers,
    wf.stocked.generation_lt, wf.stocked.generation_inj, fits, whole⟩

/-- What was logged does not matter. -/
theorem WellFormed.withJournal {g : Graph α} (wf : g.WellFormed) (journal : Log.Journal) :
    ({ g with journal } : Graph α).WellFormed :=
  wf.withCapacity journal wf.stocked.fits wf.stocked.whole_blocks

theorem ensureCapacity_eq (g : Graph α) :
    g.ensureCapacity = { g with
      capacity := g.ensureCapacity.capacity
      journal := g.ensureCapacity.journal } := by
  unfold ensureCapacity
  split <;> rfl

theorem Sturdy.ensureCapacity {g : Graph α} (sturdy : g.Sturdy) : g.ensureCapacity.Sturdy := by
  rw [ensureCapacity_eq]
  exact sturdy.withCapacity ..

theorem shrinkToFit_eq (g : Graph α) :
    g.shrinkToFit = { g with
      capacity := g.shrinkToFit.capacity
      journal := g.shrinkToFit.journal } := by
  unfold shrinkToFit
  dsimp only
  split <;> rfl

theorem Sturdy.shrinkToFit {g : Graph α} (sturdy : g.Sturdy) : g.shrinkToFit.Sturdy := by
  rw [shrinkToFit_eq]
  exact sturdy.withCapacity ..

/-- Growing does not wrap around while there are ids left: the capacity is made of whole blocks, or
a block leaves room for as many slots as there are ids. -/
def Growable (g : Graph α) : Prop :=
  g.config.blockSize.toNat ∣ g.capacity.toNat ∨ g.config.blockSize.toNat + idLimit ≤ UInt64.size

theorem Stocked.growable {g : Graph α} (stocked : g.Stocked) : g.Growable :=
  .inl stocked.whole_blocks

theorem Growable.congr {g h : Graph α} (growable : g.Growable) (config : h.config = g.config)
    (capacity : h.capacity = g.capacity) : h.Growable := by
  rw [Growable, config, capacity]
  exact growable

/-- A capacity that is used up grows by a block, without wrapping around. -/
theorem toNat_capacity_add_blockSize {g : Graph α} (growable : g.Growable) (full : g.isFull = true)
    (few : g.nodeCount < idLimit) :
    (g.capacity + g.config.blockSize).toNat = g.capacity.toNat + g.config.blockSize.toNat := by
  have at_most : g.capacity.toNat ≤ g.nodeCount := by simpa [isFull] using full
  have block_lt := g.config.blockSize.toNat_lt
  rw [UInt64.toNat_add]
  apply Nat.mod_eq_of_lt
  rcases growable with whole | small
  · rcases Nat.eq_zero_or_pos g.capacity.toNat with none | some
    · omega
    · have block_le := Nat.le_of_dvd some whole
      unfold idLimit UInt32.size at few
      omega
  · unfold UInt64.size at small
    omega

/-- Growing leaves room for the nodes and whole blocks whole. -/
theorem ensureCapacity_spec {g : Graph α} (growable : g.Growable) (few : g.nodeCount < idLimit) :
    g.capacity.toNat ≤ g.ensureCapacity.capacity.toNat ∧
      (g.config.blockSize.toNat ∣ g.capacity.toNat →
        g.config.blockSize.toNat ∣ g.ensureCapacity.capacity.toNat) := by
  unfold Graph.ensureCapacity
  split
  case isTrue full =>
    have grown := toNat_capacity_add_blockSize growable full few
    dsimp only [Graph.resize]
    rw [grown]
    exact ⟨Nat.le_add_right .., fun whole => Nat.dvd_add whole (Nat.dvd_refl _)⟩
  case isFalse => exact ⟨Nat.le_refl _, fun whole => whole⟩

/-- Shrinking leaves room for the nodes and whole blocks whole. -/
theorem shrinkToFit_spec {g : Graph α} (usable : g.config.fault? = none)
    (fits : g.nodeCount ≤ g.capacity.toNat) :
    g.nodeCount ≤ g.shrinkToFit.capacity.toNat ∧
      (g.config.blockSize.toNat ∣ g.capacity.toNat →
        g.config.blockSize.toNat ∣ g.shrinkToFit.capacity.toNat) := by
  unfold Graph.shrinkToFit
  dsimp only
  split
  case isTrue smaller =>
    have lt := Nat.lt_trans smaller g.capacity.toNat_lt
    have exactly : (UInt64.ofNat (wholeBlocks g.nodeCount g.config.blockSize.toNat)).toNat =
        wholeBlocks g.nodeCount g.config.blockSize.toNat := UInt64.toNat_ofNat_of_lt' lt
    dsimp only [Graph.resize]
    rw [exactly]
    exact ⟨le_wholeBlocks _ (blockSize_pos usable), fun _ => dvd_wholeBlocks ..⟩
  case isFalse => exact ⟨fits, fun whole => whole⟩

theorem Growable.ensureCapacity {g : Graph α} (growable : g.Growable)
    (few : g.nodeCount < idLimit) : g.ensureCapacity.Growable := by
  have spec := (ensureCapacity_spec growable few).2
  rw [ensureCapacity_eq]
  exact growable.imp_left spec

theorem Growable.shrinkToFit {g : Graph α} (growable : g.Growable)
    (usable : g.config.fault? = none) (fits : g.nodeCount ≤ g.capacity.toNat) :
    g.shrinkToFit.Growable := by
  have spec := (shrinkToFit_spec usable fits).2
  rw [shrinkToFit_eq]
  exact growable.imp_left spec

theorem WellFormed.ensureCapacity {g : Graph α} (wf : g.WellFormed) (few : g.nodeCount < idLimit) :
    g.ensureCapacity.WellFormed := by
  obtain ⟨grown, whole⟩ := ensureCapacity_spec wf.stocked.growable few
  rw [ensureCapacity_eq]
  exact wf.withCapacity _ (Nat.le_trans wf.stocked.fits grown) (whole wf.stocked.whole_blocks)

/-- There is a free slot once the capacity was seen to. -/
theorem room_of_ensureCapacity {g : Graph α} (wf : g.WellFormed) (few : g.nodeCount < idLimit) :
    g.ensureCapacity.isFull = false := by
  unfold Graph.ensureCapacity
  split
  case isTrue full =>
    have grown := toNat_capacity_add_blockSize wf.stocked.growable full few
    have positive := blockSize_pos wf.usable
    have fits := wf.stocked.fits
    have : g.nodeCount < (g.capacity + g.config.blockSize).toNat := by omega
    simpa [isFull, Graph.resize, nodeCount] using this
  case isFalse room => simpa using room

theorem WellFormed.shrinkToFit {g : Graph α} (wf : g.WellFormed) : g.shrinkToFit.WellFormed := by
  obtain ⟨fits, whole⟩ := shrinkToFit_spec wf.usable wf.stocked.fits
  rw [shrinkToFit_eq]
  exact wf.withCapacity _ fits (whole wf.stocked.whole_blocks)

end Vicinity.Graph
