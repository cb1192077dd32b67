import Vicinity.Flat
import Vicinity.Proofs.Arena
import Vicinity.Proofs.LabelMap

/-!
The four structures of an exhaustive index, in step.

The arena, the slots, the positions and the entries of the labels are each read on their own, and
each change writes to all of them. `WellFormed` says that they tell the same: there is a vector for
each slot, an entry has the position of its slot, and a label lists the entries of its slots from
the oldest on. Storing a vector keeps that (`WellFormed.push`), and so does taking one out
(`WellFormed.removeEntry`), which moves another vector and notes where that one stands now
(`Vacates`).
-/

namespace Vicinity.Flat

variable {α : Type} {f : Flat α} {entry place : Nat}

/-- The four structures tell the same, and no entry number of theirs is to come. -/
structure WellFormed (f : Flat α) : Prop where
  aligned : f.vectors.size = f.size * f.dim
  located : ∀ entry place, f.positions[entry]? = some place ↔
    ∃ slot : Slot, f.slots[place]? = some slot ∧ slot.entry = entry
  listed : ∀ label entry, entry ∈ f.entriesOf label ↔
    ∃ slot ∈ f.slots, slot.label = label ∧ slot.entry = entry
  ascending : ∀ label, (f.entriesOf label).Pairwise (· < ·)
  nonempty : ∀ label listed, f.entries.find? label = some listed → listed ≠ []
  issued : ∀ slot ∈ f.slots, slot.entry < f.nextEntry

namespace WellFormed

theorem position_eq (wf : f.WellFormed) {slot : Slot} (here : f.slots[place]? = some slot) :
    f.positions[slot.entry]? = some place :=
  (wf.located slot.entry place).2 ⟨slot, here, rfl⟩

/-- An entry stands in one slot. -/
theorem place_unique (wf : f.WellFormed) {a b : Nat} {slot other : Slot}
    (at_a : f.slots[a]? = some slot) (at_b : f.slots[b]? = some other)
    (same : slot.entry = other.entry) : a = b := by
  have position := wf.position_eq at_a
  rw [same, wf.position_eq at_b] at position
  exact (Option.some.inj position).symm

theorem slot_unique (wf : f.WellFormed) {slot other : Slot} (mem : slot ∈ f.slots)
    (mem' : other ∈ f.slots) (same : slot.entry = other.entry) : slot = other := by
  obtain ⟨a, at_a⟩ := Array.mem_iff_getElem?.1 mem
  obtain ⟨b, at_b⟩ := Array.mem_iff_getElem?.1 mem'
  cases wf.place_unique at_a at_b same
  exact Option.some.inj (at_a.symm.trans at_b)

end WellFormed

theorem wellFormed_new (dim : Nat) (metric : Metric) (multi : Bool) (blockSize : Nat) :
    (new dim metric multi blockSize : Flat α).WellFormed where
  aligned := by simp [new, size]
  located entry place := by simp [new]
  listed label entry := by simp [new, entriesOf]
  ascending label := List.Pairwise.nil
  nonempty label listed found := by cases found
  issued slot mem := by simp [new] at mem

/-! ### Taking an entry out -/

/-- The index with what another one holds. -/
def holding (f h : Flat α) : Flat α :=
  { f with vectors := h.vectors, slots := h.slots, positions := h.positions, entries := h.entries }

/-- What is left when the entry in a slot is taken out: what stood in the last slot stands in its
place, in the arena, among the slots and in the positions. -/
structure Vacates (f : Flat α) (place last : Nat) (slot : Slot) (h : Flat α) : Prop where
  frame : h = f.holding h
  size_eq : h.size = last
  aligned : h.vectors.size = last * f.dim
  slots_eq : ∀ j < last, h.slots[j]? = f.slots[if j = place then last else j]?
  read_eq : ∀ j < last,
    Arena.read f.dim h.vectors j = Arena.read f.dim f.vectors (if j = place then last else j)
  positions_eq : ∀ entry, h.positions[entry]? =
    if entry = slot.entry then none
    else f.positions[entry]?.map fun p => if p = last then place else p
  entries_eq : h.entries = f.entries.unlist slot.label slot.entry

theorem removeEntry_eq_of_position {slot : Slot} (position : f.positions[entry]? = some place)
    (here : f.slots[place]? = some slot) :
    f.removeEntry entry =
      (({ f with
          positions := f.positions.erase entry
          entries := f.entries.unlist slot.label entry }.moveLast place).dropLast,
        some slot.label) := by
  simp only [removeEntry, position, here]

/-- The entry that moves has the place it moves to, and every other one that stays its own. -/
theorem WellFormed.getElem?_positions_moved (wf : f.WellFormed) {last : Nat} {slot moved : Slot}
    (here : f.slots[place]? = some slot) (there : f.slots[last]? = some moved)
    (before : place < last) (entry : Nat) :
    ((f.positions.erase slot.entry).insert moved.entry place)[entry]? =
      if entry = slot.entry then none
      else f.positions[entry]?.map fun p => if p = last then place else p := by
  simp only [Std.TreeMap.getElem?_insert, Std.TreeMap.getElem?_erase, Nat.compare_eq_eq]
  split
  case isTrue moves =>
    subst moves
    have other : moved.entry ≠ slot.entry := fun same =>
      Nat.ne_of_gt before (wf.place_unique there here same)
    rw [if_neg other, wf.position_eq there, Option.map_some, if_pos rfl]
  case isFalse stays =>
    split
    case isTrue removed => rw [if_pos removed.symm]
    case isFalse kept =>
      rw [if_neg (Ne.symm kept)]
      cases position : f.positions[entry]? with
      | none => rfl
      | some p =>
          obtain ⟨own, at_p, same⟩ := (wf.located entry p).1 position
          have : p ≠ last := by
            rintro rfl
            rw [there, Option.some.injEq] at at_p
            exact stays (at_p ▸ same)
          rw [Option.map_some, if_neg this]

/-- Where nothing moves the entries that stay have their places. -/
theorem getElem?_positions_erase (last removed entry : Nat) :
    (f.positions.erase removed)[entry]? =
      if entry = removed then none
      else f.positions[entry]?.map fun p => if p = last then last else p := by
  have stand : ∀ p, (if p = last then last else p) = p := fun p =>
    ite_eq_right_iff.2 Eq.symm
  simp only [Std.TreeMap.getElem?_erase, Nat.compare_eq_eq, stand, Option.map_id',
    eq_comm (a := removed)]

section

variable {last : Nat} (size : f.size = last + 1)

include size

theorem dropLast_eq : f.dropLast = { f with
    slots := f.slots.pop, vectors := Arena.truncate f.dim last f.vectors } := by
  rw [dropLast, size, Nat.add_sub_cancel]

theorem moveLast_last : f.moveLast last = f := by
  unfold moveLast
  split
  · rfl
  · exact if_pos (by rw [size, Nat.add_sub_cancel])

theorem moveLast_of_lt (lt : place < last) {moved : Slot} (there : f.slots[last]? = some moved) :
    f.moveLast place = { f with
      vectors := Arena.copy f.dim last place f.vectors
      slots := f.slots.swapIfInBounds place last
      positions := f.positions.insert moved.entry place } := by
  have same : f.slots.size - 1 = last := by rw [← Flat.size, size, Nat.add_sub_cancel]
  have back : f.slots.back? = some moved := by rw [Array.back?_eq_getElem?, same, there]
  have at_end : f.size - 1 = last := same
  simp only [moveLast, back, at_end, if_neg (Nat.ne_of_lt lt)]

theorem WellFormed.vacates_of_lt (wf : f.WellFormed) {slot : Slot}
    (here : f.slots[place]? = some slot) (before : place < last) :
    f.Vacates place last slot (f.removeEntry slot.entry).1 := by
  have lt : place < f.size := (Array.getElem?_eq_some_iff.1 here).1
  have aligned : f.vectors.size = (last + 1) * f.dim := by rw [← size, wf.aligned]
  have there : f.slots[last]? = some _ := Array.getElem?_eq_getElem (by rw [← Flat.size]; omega)
  have last_eq : f.slots.size - 1 = last := by rw [← Flat.size, size, Nat.add_sub_cancel]
  let forgotten : Flat α :=
    { f with
      positions := f.positions.erase slot.entry
      entries := f.entries.unlist slot.label slot.entry }
  have size' : forgotten.size = last + 1 := size
  have shifted : forgotten.moveLast place = _ := moveLast_of_lt size' before there
  rw [removeEntry_eq_of_position (wf.position_eq here) here, shifted,
    dropLast_eq (by rw [Flat.size, Array.size_swapIfInBounds]; exact size)]
  exact
    { frame := rfl
      size_eq := by rw [Flat.size, Array.size_pop, Array.size_swapIfInBounds, last_eq]
      aligned := Arena.size_truncate (by rw [Arena.size_copy, aligned]) (Nat.le_succ _)
      slots_eq := fun j earlier => by
        have moved : (f.slots.swapIfInBounds place (f.slots.size - 1)).pop[j]? =
            f.slots[if j = place then f.slots.size - 1 else j]? :=
          Arena.getElem?_pop_swapIfInBounds lt (last_eq ▸ earlier)
        rwa [last_eq] at moved
      read_eq := fun j earlier => Arena.read_truncate_copy aligned (Nat.le_of_lt before) earlier
      positions_eq := wf.getElem?_positions_moved here there before
      entries_eq := rfl }

theorem WellFormed.vacates_last (wf : f.WellFormed) {slot : Slot}
    (here : f.slots[last]? = some slot) :
    f.Vacates last last slot (f.removeEntry slot.entry).1 := by
  have aligned : f.vectors.size = (last + 1) * f.dim := by rw [← size, wf.aligned]
  let forgotten : Flat α :=
    { f with
      positions := f.positions.erase slot.entry
      entries := f.entries.unlist slot.label slot.entry }
  have size' : forgotten.size = last + 1 := size
  rw [removeEntry_eq_of_position (wf.position_eq here) here, moveLast_last size',
    dropLast_eq size']
  exact
    { frame := rfl
      size_eq := by rw [Flat.size, Array.size_pop, ← Flat.size, size', Nat.add_sub_cancel]
      aligned := Arena.size_truncate aligned (Nat.le_succ _)
      slots_eq := fun j before => by
        rw [if_neg (Nat.ne_of_lt before), Array.getElem?_pop, ← Flat.size, size',
          Nat.add_sub_cancel, if_pos before]
      read_eq := fun j before => by
        rw [if_neg (Nat.ne_of_lt before)]
        exact Arena.read_truncate before
      positions_eq := getElem?_positions_erase last slot.entry
      entries_eq := rfl }

theorem WellFormed.vacates (wf : f.WellFormed) {slot : Slot} (here : f.slots[place]? = some slot) :
    f.Vacates place last slot (f.removeEntry slot.entry).1 := by
  have lt : place < f.size := (Array.getElem?_eq_some_iff.1 here).1
  rcases Nat.lt_or_eq_of_le (Nat.le_of_lt_succ (Nat.lt_of_lt_of_eq lt size)) with before | rfl
  · exact wf.vacates_of_lt size here before
  · exact wf.vacates_last size here

end

namespace Vacates

variable {last : Nat} {slot : Slot} {h : Flat α} (vacates : f.Vacates place last slot h)
  (here : f.slots[place]? = some slot)

include vacates here

/-- The entry is taken out of the list of its label, and no other list has it. -/
theorem entriesOf_eq (wf : f.WellFormed) (label : Label) :
    h.entriesOf label = (f.entriesOf label).filter (· != slot.entry) := by
  unfold entriesOf
  rw [vacates.entries_eq, LabelMap.getD_find?_unlist]
  split
  case isTrue => rfl
  case isFalse other =>
    refine (List.filter_eq_self.2 fun entry mem => bne_iff_ne.2 fun same => ?_).symm
    obtain ⟨own, among, own_label, own_entry⟩ := (wf.listed label entry).1 mem
    have eq := wf.slot_unique among (Array.mem_of_getElem? here) (own_entry.trans same)
    exact other (eq ▸ own_label)

variable (size : f.size = last + 1)

include size

/-- What stood in another slot stands there still, and in the place of the vacated one if that slot
was the last. -/
theorem getElem?_slots_iff {p : Nat} {other : Slot} : h.slots[p]? = some other ↔
    ∃ q, f.slots[q]? = some other ∧ q ≠ place ∧ p = if q = last then place else q := by
  have le : place ≤ last :=
    Nat.le_of_lt_succ (Nat.lt_of_lt_of_eq (Array.getElem?_eq_some_iff.1 here).1 size)
  constructor
  · intro at_p
    have before : p < last := vacates.size_eq ▸ (Array.getElem?_eq_some_iff.1 at_p).1
    rw [vacates.slots_eq p before] at at_p
    by_cases moved : p = place
    · rw [if_pos moved] at at_p
      exact ⟨last, at_p, by omega, by rw [if_pos rfl, moved]⟩
    · rw [if_neg moved] at at_p
      exact ⟨p, at_p, moved, (if_neg (Nat.ne_of_lt before)).symm⟩
  · rintro ⟨q, at_q, other_place, rfl⟩
    have lt : q < last + 1 := Nat.lt_of_lt_of_eq (Array.getElem?_eq_some_iff.1 at_q).1 size
    split
    case isTrue at_end =>
      rw [vacates.slots_eq place (by omega), if_pos rfl, ← at_end, at_q]
    case isFalse => rw [vacates.slots_eq q (by omega), if_neg other_place, at_q]

variable (wf : f.WellFormed)

include wf

/-- The slots that are left are those of other entries. -/
theorem mem_slots_iff {other : Slot} :
    other ∈ h.slots ↔ other ∈ f.slots ∧ other.entry ≠ slot.entry := by
  rw [Array.mem_iff_getElem?, Array.mem_iff_getElem?]
  simp only [vacates.getElem?_slots_iff here size]
  constructor
  · rintro ⟨_, q, at_q, other_place, _⟩
    exact ⟨⟨q, at_q⟩, fun same => other_place (wf.place_unique at_q here same)⟩
  · rintro ⟨⟨q, at_q⟩, differs⟩
    refine ⟨_, q, at_q, ?_, rfl⟩
    rintro rfl
    rw [here, Option.some.injEq] at at_q
    exact differs (at_q ▸ rfl)

theorem keeps : h.WellFormed where
  aligned := by
    rw [vacates.size_eq, vacates.aligned, vacates.frame]
    rfl
  located entry p := by
    simp only [vacates.getElem?_slots_iff here size]
    rw [vacates.positions_eq]
    split
    case isTrue removed =>
      refine ⟨nofun, fun ⟨other, ⟨q, at_q, other_place, _⟩, own⟩ => ?_⟩
      exact absurd (wf.place_unique at_q here (own.trans removed)) other_place
    case isFalse kept =>
      rw [Option.map_eq_some_iff]
      constructor
      · rintro ⟨q, position, rfl⟩
        obtain ⟨other, at_q, own⟩ := (wf.located entry q).1 position
        refine ⟨other, ⟨q, at_q, ?_, rfl⟩, own⟩
        rintro rfl
        rw [here, Option.some.injEq] at at_q
        exact kept (at_q ▸ own.symm)
      · rintro ⟨other, ⟨q, at_q, _, rfl⟩, own⟩
        exact ⟨q, (wf.located entry q).2 ⟨other, at_q, own⟩, rfl⟩
  listed label entry := by
    rw [vacates.entriesOf_eq here wf, List.mem_filter, wf.listed, bne_iff_ne]
    simp only [vacates.mem_slots_iff here size wf]
    constructor
    · rintro ⟨⟨other, among, own, rfl⟩, kept⟩
      exact ⟨other, ⟨among, kept⟩, own, rfl⟩
    · rintro ⟨other, ⟨among, kept⟩, own, rfl⟩
      exact ⟨⟨other, among, own, rfl⟩, kept⟩
  ascending label := by
    rw [vacates.entriesOf_eq here wf]
    exact (wf.ascending label).filter _
  nonempty := by
    rw [vacates.entries_eq]
    exact LabelMap.unlist_ne_nil wf.nonempty slot.label slot.entry
  issued other mem := by
    rw [vacates.frame]
    exact wf.issued other ((vacates.mem_slots_iff here size wf).1 mem).1

end Vacates

/-- An entry that stands nowhere is not taken out. -/
theorem removeEntry_of_absent (absent : f.positions[entry]? = none) :
    f.removeEntry entry = (f, none) := by
  simp only [removeEntry, absent]

theorem WellFormed.removeEntry (wf : f.WellFormed) (entry : Nat) :
    (f.removeEntry entry).1.WellFormed := by
  cases position : f.positions[entry]? with
  | none =>
      rw [removeEntry_of_absent position]
      exact wf
  | some place =>
      obtain ⟨slot, here, rfl⟩ := (wf.located entry place).1 position
      have positive : 0 < f.size := Nat.zero_lt_of_lt (Array.getElem?_eq_some_iff.1 here).1
      have size : f.size = f.size - 1 + 1 := by omega
      exact (wf.vacates size here).keeps here size wf

/-! ### Storing a vector -/

section

variable [Element α] (f : Flat α) (label : Label) (vector : List α)

theorem getElem?_slots_push (place : Nat) : (f.push label vector).slots[place]? =
    if place = f.size then some ⟨label, f.nextEntry⟩ else f.slots[place]? := by
  rw [push, Array.getElem?_push, size]

theorem getElem?_positions_push (entry : Nat) : (f.push label vector).positions[entry]? =
    if f.nextEntry = entry then some f.size else f.positions[entry]? := by
  simp only [push, Std.TreeMap.getElem?_insert, Nat.compare_eq_eq]

theorem mem_slots_push {slot : Slot} : slot ∈ (f.push label vector).slots ↔
    slot ∈ f.slots ∨ slot = ⟨label, f.nextEntry⟩ := by
  rw [push, Array.mem_push]

/-- The new entry is the last one of its label. -/
theorem entriesOf_push (l : Label) : (f.push label vector).entriesOf l =
    if label = l then f.entriesOf l ++ [f.nextEntry] else f.entriesOf l := by
  rw [push, entriesOf, LabelMap.find?_insert]
  split
  case isTrue same => rw [Option.getD_some, same]
  case isFalse => rfl

variable {f vector}

theorem WellFormed.push (wf : f.WellFormed) (length : vector.length = f.dim) :
    (f.push label vector).WellFormed where
  aligned := by
    rw [Flat.push, Arena.size_extend, Metric.length_prepare, wf.aligned, length, size, size,
      Array.size_push, Nat.succ_mul]
  located entry place := by
    rw [getElem?_positions_push, getElem?_slots_push]
    split
    case isTrue new =>
      split
      case isTrue last => simp [new, last]
      case isFalse other =>
        refine iff_of_false (fun eq => other (Option.some.inj eq).symm) ?_
        rintro ⟨slot, older, own⟩
        have := wf.issued slot (Array.mem_of_getElem? older)
        omega
    case isFalse old =>
      rw [wf.located]
      split
      case isTrue last =>
        subst last
        refine iff_of_false ?_ ?_
        · rintro ⟨slot, here, _⟩
          exact absurd (Array.getElem?_eq_some_iff.1 here).1 (Nat.lt_irrefl _)
        · rintro ⟨slot, here, own⟩
          cases here
          exact old own
      case isFalse => rfl
  listed l entry := by
    have new : label = l ∧ f.nextEntry = entry ↔
        ∃ slot : Slot, slot = ⟨label, f.nextEntry⟩ ∧ slot.label = l ∧ slot.entry = entry :=
      ⟨fun own => ⟨_, rfl, own⟩, fun ⟨_, same, own⟩ => by rwa [same] at own⟩
    simp only [mem_slots_push, or_and_right, exists_or]
    rw [← wf.listed, ← new, entriesOf_push]
    split
    case isTrue same => simp [same, eq_comm]
    case isFalse other => simp [other]
  ascending l := by
    rw [entriesOf_push]
    split
    case isTrue =>
      refine List.pairwise_append.2 ⟨wf.ascending l, List.pairwise_singleton .., ?_⟩
      intro older mem newest last
      obtain ⟨slot, among, _, rfl⟩ := (wf.listed l older).1 mem
      rw [List.mem_singleton.1 last]
      exact wf.issued slot among
    case isFalse => exact wf.ascending l
  nonempty l listed found := by
    rw [Flat.push, LabelMap.find?_insert] at found
    split at found
    case isTrue =>
      rw [← Option.some.inj found]
      exact List.append_ne_nil_of_right_ne_nil _ (List.cons_ne_nil _ _)
    case isFalse => exact wf.nonempty l listed found
  issued slot mem := by
    rcases (mem_slots_push f label vector).1 mem with older | rfl
    · exact Nat.lt_succ_of_lt (wf.issued slot older)
    · exact Nat.lt_succ_self _

end

end Vicinity.Flat
