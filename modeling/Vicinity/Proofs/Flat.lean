import Mathlib.Data.List.Nodup
import Mathlib.Data.List.Perm.Basic
import Vicinity.Proofs.Flat.Structures

/-!
The rows of an exhaustive index.

What an index holds is a list of rows, read off its slots and its arena. While the four structures
are in step (`WellFormed`), rows have entry numbers of their own and vectors of the dimension, an
entry is found in its row (`WellFormed.entry?_eq`), and a label lists the entries of its rows.
Taking an entry out moves the last row into its place, so what is left is a permutation of the other
rows (`perm_removeEntry`); deleting a label leaves the rows of the other labels
(`perm_deleteLabel`). Storing adds a vector at the end of its label's (`vectorsOf_push`), and
deleting a label leaves those of the others as they are (`vectorsOf_deleteLabel`).
-/

namespace Vicinity.Flat

variable {α : Type}

theorem getElem?_rows (f : Flat α) (place : Nat) :
    f.rows[place]? = f.slots[place]?.map (f.row place) := by
  rw [rows, List.getElem?_mapIdx, Array.getElem?_toList]

theorem length_rows (f : Flat α) : f.rows.length = f.size := by
  rw [rows, List.length_mapIdx, Array.length_toList, size]

theorem map_label_rows (f : Flat α) : f.rows.map (·.label) = f.slots.toList.map (·.label) := by
  refine List.ext_getElem? fun place => ?_
  rw [List.getElem?_map, getElem?_rows, Option.map_map, List.getElem?_map, Array.getElem?_toList]
  rfl

theorem mem_rows {f : Flat α} {row : Row α} :
    row ∈ f.rows ↔ ∃ place slot, f.slots[place]? = some slot ∧ f.row place slot = row := by
  rw [List.mem_iff_getElem?]
  simp only [getElem?_rows, Option.map_eq_some_iff]

/-- Rows by their slots, as far as vectors do not matter. -/
theorem exists_mem_rows {f : Flat α} {p : Nat → Label → Prop} :
    (∃ row ∈ f.rows, p row.entry row.label) ↔ ∃ slot ∈ f.slots, p slot.entry slot.label := by
  constructor
  · rintro ⟨row, mem, holds⟩
    obtain ⟨place, slot, here, rfl⟩ := mem_rows.1 mem
    exact ⟨slot, Array.mem_of_getElem? here, holds⟩
  · rintro ⟨slot, mem, holds⟩
    obtain ⟨place, here⟩ := Array.mem_iff_getElem?.1 mem
    exact ⟨_, mem_rows.2 ⟨place, slot, here, rfl⟩, holds⟩

namespace WellFormed

variable {f : Flat α}

/-- Rows with one entry number are the same row. -/
theorem entry_inj (wf : f.WellFormed) {a b : Row α} (mem_a : a ∈ f.rows) (mem_b : b ∈ f.rows)
    (same : a.entry = b.entry) : a = b := by
  obtain ⟨i, slot, at_i, rfl⟩ := mem_rows.1 mem_a
  obtain ⟨j, other, at_j, rfl⟩ := mem_rows.1 mem_b
  cases wf.place_unique at_i at_j same
  rw [Option.some.inj (at_i.symm.trans at_j)]

theorem entry_nodup (wf : f.WellFormed) : (f.rows.map (·.entry)).Nodup := by
  refine List.nodup_iff_injective_getElem.2 fun i j same => Fin.ext ?_
  have here : ∀ k : Fin (f.rows.map (·.entry)).length, ∃ slot, f.slots[k.val]? = some slot ∧
      (f.rows.map (·.entry))[k] = slot.entry := by
    intro k
    have row := List.getElem?_eq_getElem k.isLt
    rw [List.getElem?_map, getElem?_rows, Option.map_map] at row
    obtain ⟨slot, here, own⟩ := Option.map_eq_some_iff.1 row
    exact ⟨slot, here, own.symm⟩
  obtain ⟨slot, at_i, own⟩ := here i
  obtain ⟨other, at_j, own'⟩ := here j
  exact wf.place_unique at_i at_j (own.symm.trans (same.trans own'))

theorem entry_lt (wf : f.WellFormed) : ∀ row ∈ f.rows, row.entry < f.nextEntry := by
  intro row mem
  obtain ⟨place, slot, here, rfl⟩ := mem_rows.1 mem
  exact wf.issued slot (Array.mem_of_getElem? here)

theorem vector_length (wf : f.WellFormed) : ∀ row ∈ f.rows, row.vector.length = f.dim := by
  intro row mem
  obtain ⟨place, slot, here, rfl⟩ := mem_rows.1 mem
  have lt : place < f.size := (Array.getElem?_eq_some_iff.1 here).1
  exact Arena.length_read (wf.aligned ▸ Arena.place_le f.dim lt)

/-- The entries of a label are those of its rows. -/
theorem mem_entriesOf (wf : f.WellFormed) {label : Label} {entry : Nat} :
    entry ∈ f.entriesOf label ↔ ∃ row ∈ f.rows, row.label = label ∧ row.entry = entry := by
  rw [wf.listed, exists_mem_rows (p := fun e l => l = label ∧ e = entry)]

/-- They are listed from the oldest on, which has the lowest number. -/
theorem perm_entriesOf (wf : f.WellFormed) (label : Label) :
    (f.entriesOf label).Perm ((f.rows.filter (·.label == label)).map (·.entry)) := by
  have distinct : ((f.rows.filter (·.label == label)).map (·.entry)).Nodup :=
    wf.entry_nodup.sublist (List.filter_sublist.map _)
  refine (List.perm_ext_iff_of_nodup ((wf.ascending label).imp Nat.ne_of_lt) distinct).2
    fun entry => ?_
  rw [wf.mem_entriesOf]
  simp [and_assoc]

end WellFormed

/-! ### Taking rows out -/

theorem removeEntry_eq (f : Flat α) (entry : Nat) :
    (f.removeEntry entry).1 = f.holding (f.removeEntry entry).1 := by
  simp only [removeEntry]
  split
  · rfl
  · split
    · rfl
    · simp only [moveLast, dropLast]
      split
      · rfl
      · split <;> rfl

/-- The last item in the place of another one leaves the others, in some order. -/
theorem perm_eraseIdx_of_getElem? {β : Type} {init bs : List β} {last : β} {i : Nat}
    (lt : i < init.length + 1) (length : bs.length = init.length)
    (moved : ∀ j < init.length, bs[j]? = (init ++ [last])[if j = i then init.length else j]?) :
    bs.Perm ((init ++ [last]).eraseIdx i) := by
  have written : bs = init.set i last := by
    refine List.ext_getElem? fun j => ?_
    by_cases before : j < init.length
    · rw [moved j before, List.getElem?_set]
      split
      case isTrue here => rw [if_pos here.symm, List.getElem?_concat_length, if_pos (here ▸ before)]
      case isFalse other => rw [if_neg (Ne.symm other), List.getElem?_append_left before]
    · rw [List.getElem?_eq_none (by omega), List.getElem?_eq_none (by simpa using before)]
  rw [written]
  rcases Nat.lt_succ_iff_lt_or_eq.1 lt with before | at_end
  · rw [List.eraseIdx_append_of_lt_length before]
    exact (List.set_perm_cons_eraseIdx before last).trans (List.perm_append_singleton _ _).symm
  · rw [List.set_eq_of_length_le (Nat.le_of_eq at_end.symm),
      List.eraseIdx_append_of_length_le (Nat.le_of_eq at_end.symm)]
    simp [at_end]

/-- With keys of their own, the items beside one are those with another key. -/
theorem perm_eraseIdx_filter {β : Type} {key : β → Nat} {bs : List β} (nodup : (bs.map key).Nodup)
    {i : Nat} (lt : i < bs.length) :
    (bs.eraseIdx i).Perm (bs.filter fun b => key b != key bs[i]) := by
  have split : (bs[i] :: bs.eraseIdx i).Perm bs := List.getElem_cons_eraseIdx_perm lt
  have others : ∀ b ∈ bs.eraseIdx i, (key b != key bs[i]) = true := by
    have nodup := (split.map key).nodup_iff.2 nodup
    intro b mem
    have absent := (List.nodup_cons.1 nodup).1
    refine bne_iff_ne.2 fun same => absent ?_
    exact same ▸ List.mem_map_of_mem mem
  have filtered := split.filter fun b => key b != key bs[i]
  rwa [List.filter_cons_of_neg (by simp), List.filter_eq_self.2 others] at filtered

/-- The last row takes the place of the one that is taken out. -/
theorem Vacates.perm_rows {f h : Flat α} {place last : Nat} {slot : Slot}
    (vacates : f.Vacates place last slot h) (here : f.slots[place]? = some slot)
    (size : f.size = last + 1) : h.rows.Perm (f.rows.eraseIdx place) := by
  have lt : place < f.size := (Array.getElem?_eq_some_iff.1 here).1
  have dim : h.dim = f.dim := by rw [vacates.frame]; rfl
  rcases f.rows.eq_nil_or_concat' with nothing | ⟨init, end_row, split⟩
  · have none := f.length_rows
    rw [nothing, List.length_nil] at none
    omega
  · have length : init.length = last := by
      have := f.length_rows
      rw [split, List.length_append, List.length_singleton] at this
      omega
    rw [split]
    refine perm_eraseIdx_of_getElem? (by omega) ?_ fun j before => ?_
    · rw [length_rows, vacates.size_eq, length]
    · rw [length] at before ⊢
      have row : h.row j = f.row (if j = place then last else j) := by
        funext slot
        rw [row, row, dim, vacates.read_eq j before]
      rw [← split, getElem?_rows, getElem?_rows, vacates.slots_eq j before, row]

theorem perm_removeEntry {f : Flat α} (wf : f.WellFormed) (entry : Nat) :
    (f.removeEntry entry).1.rows.Perm (f.rows.filter (·.entry != entry)) := by
  cases position : f.positions[entry]? with
  | none =>
      rw [removeEntry_of_absent position, List.filter_eq_self.2 fun row mem => ?_]
      obtain ⟨place, slot, here, rfl⟩ := mem_rows.1 mem
      refine bne_iff_ne.2 fun same => ?_
      have found := wf.position_eq here
      rw [show slot.entry = entry from same, position] at found
      cases found
  | some place =>
      obtain ⟨slot, here, rfl⟩ := (wf.located entry place).1 position
      have lt : place < f.size := (Array.getElem?_eq_some_iff.1 here).1
      have size : f.size = f.size - 1 + 1 := by omega
      have at_place : place < f.rows.length := by rw [length_rows]; exact lt
      have own : f.rows[place].entry = slot.entry := by
        have row := List.getElem?_eq_getElem at_place
        rw [getElem?_rows, here, Option.map_some, Option.some.injEq] at row
        rw [← row]
        rfl
      have beside := perm_eraseIdx_filter wf.entry_nodup at_place
      rw [own] at beside
      exact ((wf.vacates size here).perm_rows here size).trans beside

theorem removeEntries_eq (f : Flat α) (entries : List Nat) :
    entries.foldl (fun f entry => (f.removeEntry entry).1) f =
      f.holding (entries.foldl (fun f entry => (f.removeEntry entry).1) f) := by
  induction entries generalizing f with
  | nil => rfl
  | cons entry entries ih =>
      rw [List.foldl_cons, ih, removeEntry_eq]
      rfl

theorem WellFormed.removeEntries {f : Flat α} (wf : f.WellFormed) (entries : List Nat) :
    (entries.foldl (fun f entry => (f.removeEntry entry).1) f).WellFormed := by
  induction entries generalizing f with
  | nil => exact wf
  | cons entry entries ih => exact ih (wf.removeEntry entry)

/-- Taking entries out one by one leaves the slots of the others. -/
theorem perm_removeEntries {entries : List Nat} {f : Flat α} (wf : f.WellFormed) :
    (entries.foldl (fun f entry => (f.removeEntry entry).1) f).rows.Perm
      (f.rows.filter fun row => !entries.contains row.entry) := by
  induction entries generalizing f with
  | nil => simp
  | cons entry entries ih =>
      have rest := (perm_removeEntry wf entry).filter fun row => !entries.contains row.entry
      rw [List.filter_filter] at rest
      refine (ih (wf.removeEntry entry)).trans (rest.trans (.of_eq ?_))
      refine List.filter_congr fun row _ => ?_
      rw [List.contains_cons, Bool.not_or, Bool.and_comm]
      rfl

theorem deleteLabel_eq (f : Flat α) (label : Label) :
    (f.deleteLabel label).1 = f.holding (f.deleteLabel label).1 :=
  removeEntries_eq f _

theorem perm_deleteLabel {f : Flat α} (wf : f.WellFormed) (label : Label) :
    (f.deleteLabel label).1.rows.Perm (f.rows.filter (·.label != label)) := by
  refine (perm_removeEntries wf).trans (.of_eq (List.filter_congr fun row mem => ?_))
  have listed : row.entry ∈ f.entriesOf label ↔ row.label = label := by
    rw [wf.mem_entriesOf]
    constructor
    · rintro ⟨other, mem_other, rfl, same⟩
      rw [wf.entry_inj mem_other mem same]
    · intro same
      exact ⟨row, mem, same, rfl⟩
  rw [Bool.eq_iff_iff]
  simpa using not_congr listed

theorem WellFormed.deleteLabel {f : Flat α} (wf : f.WellFormed) (label : Label) :
    (f.deleteLabel label).1.WellFormed := wf.removeEntries _

/-! ### Looking an entry up -/

namespace WellFormed

variable {f : Flat α} {entry : Nat}

theorem entry?_eq_some_iff (wf : f.WellFormed) {row : Row α} :
    f.entry? entry = some row ↔ row ∈ f.rows ∧ row.entry = entry := by
  unfold entry?
  rw [Option.bind_eq_some_iff, mem_rows]
  simp only [Option.map_eq_some_iff]
  constructor
  · rintro ⟨place, position, slot, here, rfl⟩
    obtain ⟨other, there, own⟩ := (wf.located entry place).1 position
    rw [here, Option.some.injEq] at there
    exact ⟨⟨place, slot, here, rfl⟩, there ▸ own⟩
  · rintro ⟨⟨place, slot, here, rfl⟩, own⟩
    exact ⟨place, (wf.located entry place).2 ⟨slot, here, own⟩, slot, here, rfl⟩

/-- The row of an entry is found. -/
theorem entry?_eq (wf : f.WellFormed) {row : Row α} (mem : row ∈ f.rows) :
    f.entry? row.entry = some row := wf.entry?_eq_some_iff.2 ⟨mem, rfl⟩

theorem entry?_eq_none_iff (wf : f.WellFormed) :
    f.entry? entry = none ↔ ∀ row ∈ f.rows, row.entry ≠ entry := by
  rw [Option.eq_none_iff_forall_ne_some]
  simp only [ne_eq, wf.entry?_eq_some_iff, not_and]

end WellFormed

/-! ### The vectors of a label -/

/-- The vectors of a label, the oldest first. -/
def vectorsOf (f : Flat α) (label : Label) : List (Option (List α)) :=
  (f.entriesOf label).map fun entry => (f.entry? entry).map (·.vector)

/-- Every entry of a label has a vector. -/
theorem WellFormed.none_not_mem_vectorsOf {f : Flat α} (wf : f.WellFormed) (label : Label) :
    none ∉ f.vectorsOf label := by
  intro mem
  obtain ⟨entry, listed, none⟩ := List.mem_map.1 mem
  obtain ⟨row, mem_row, _, rfl⟩ := wf.mem_entriesOf.1 listed
  rw [wf.entry?_eq mem_row] at none
  cases none

/-- Entries stand for the same vectors as long as their rows are there. -/
theorem WellFormed.map_entry?_eq {f h : Flat α} (wf : f.WellFormed) (wf_h : h.WellFormed)
    (label : Label)
    (kept : ∀ row ∈ f.rows, row.label = label → row ∈ h.rows) :
    (f.entriesOf label).map (fun entry => (h.entry? entry).map (·.vector)) =
      f.vectorsOf label := by
  refine List.map_congr_left fun entry mem => ?_
  obtain ⟨row, mem_row, own, rfl⟩ := wf.mem_entriesOf.1 mem
  rw [wf.entry?_eq mem_row, wf_h.entry?_eq (kept row mem_row own)]

/-- Deleting a label leaves the entries of every other one. -/
theorem entriesOf_deleteLabel {f : Flat α} (wf : f.WellFormed) (label l : Label) :
    (f.deleteLabel label).1.entriesOf l = if l = label then [] else f.entriesOf l := by
  have wf' := wf.deleteLabel label
  have left := perm_deleteLabel wf label
  split
  case isTrue same =>
    refine List.eq_nil_iff_forall_not_mem.2 fun entry mem => ?_
    obtain ⟨row, mem_row, own, _⟩ := wf'.mem_entriesOf.1 mem
    have other := (List.mem_filter.1 (left.mem_iff.1 mem_row)).2
    rw [own, same, bne_self_eq_false] at other
    cases other
  case isFalse other =>
    -- Both lists ascend, so it is enough that they have the same members.
    refine List.Perm.eq_of_pairwise (fun a b _ _ before after => absurd after (Nat.lt_asymm before))
      (wf'.ascending l) (wf.ascending l) ?_
    refine (wf'.perm_entriesOf l).trans (.trans (.map _ ?_) (wf.perm_entriesOf l).symm)
    have same := left.filter (·.label == l)
    rw [List.filter_filter] at same
    refine same.trans (.of_eq (List.filter_congr fun row _ => ?_))
    by_cases own : row.label = l
    · simp [own, other]
    · simp [own]

theorem vectorsOf_deleteLabel {f : Flat α} (wf : f.WellFormed) (label l : Label) :
    (f.deleteLabel label).1.vectorsOf l = if l = label then [] else f.vectorsOf l := by
  rw [vectorsOf, entriesOf_deleteLabel wf]
  split
  case isTrue => rfl
  case isFalse other =>
    refine wf.map_entry?_eq (wf.deleteLabel label) l fun row mem own => ?_
    refine (perm_deleteLabel wf label).mem_iff.2 (List.mem_filter.2 ⟨mem, ?_⟩)
    rw [own]
    exact bne_iff_ne.2 other

/-! ### Storing a vector -/

theorem deleteLabel_of_absent {f : Flat α} (wf : f.WellFormed) {label : Label}
    (absent : ∀ row ∈ f.rows, row.label ≠ label) : (f.deleteLabel label).1 = f := by
  have none : f.entriesOf label = [] := by
    refine List.eq_nil_iff_forall_not_mem.2 fun entry mem => ?_
    obtain ⟨row, mem_row, same, _⟩ := wf.mem_entriesOf.1 mem
    exact absent row mem_row same
  rw [deleteLabel, none]
  rfl

variable [Element α]

/-- A vector of the dimension is stored, under a label that has none where it may have one only. -/
theorem addEntry_eq_ok {f : Flat α} (wf : f.WellFormed) (label : Label) {vector : List α}
    (fits : checkDimension f.dim vector.length = .ok ())
    (absent : f.multi = false → ∀ row ∈ f.rows, row.label ≠ label) :
    f.addEntry label vector = .ok (f.push label vector, f.nextEntry) := by
  have unchanged : (if f.multi then f else (f.deleteLabel label).1) = f := by
    split
    · rfl
    case isFalse single => exact deleteLabel_of_absent wf (absent (Bool.eq_false_iff.2 single))
  simp only [addEntry, fits, unchanged]

/-- The new row comes after the others. -/
theorem rows_push {f : Flat α} (wf : f.WellFormed) (label : Label) {vector : List α}
    (length : vector.length = f.dim) : (f.push label vector).rows =
      f.rows ++ [⟨f.nextEntry, label, f.metric.prepare vector⟩] := by
  have prepared : (f.metric.prepare vector).length = f.dim := by rw [Metric.length_prepare, length]
  refine List.ext_getElem? fun place => ?_
  rw [getElem?_rows, getElem?_slots_push]
  rcases Nat.lt_trichotomy place f.size with older | last | beyond
  · rw [if_neg (Nat.ne_of_lt older), List.getElem?_append_left (by rwa [length_rows]),
      getElem?_rows]
    refine congrArg (f.slots[place]?.map ·) (funext fun slot => ?_)
    exact congrArg (Row.mk slot.entry slot.label) (Arena.read_extend_of_lt wf.aligned older)
  · rw [if_pos last, last, ← length_rows, List.getElem?_concat_length, length_rows]
    exact congrArg (some <| Row.mk f.nextEntry label ·) (Arena.read_extend wf.aligned prepared)
  · rw [if_neg (Nat.ne_of_gt beyond), Array.getElem?_eq_none (Nat.le_of_lt beyond),
      List.getElem?_eq_none (by simpa [length_rows] using Nat.succ_le_of_lt beyond)]
    rfl

theorem mem_rows_push {f : Flat α} (wf : f.WellFormed) {label : Label} {vector : List α}
    (length : vector.length = f.dim) {row : Row α} : row ∈ (f.push label vector).rows ↔
      row ∈ f.rows ∨ row = ⟨f.nextEntry, label, f.metric.prepare vector⟩ := by
  rw [rows_push wf label length, List.mem_append, List.mem_singleton]

theorem vectorsOf_push {f : Flat α} (wf : f.WellFormed) (label : Label) {vector : List α}
    (length : vector.length = f.dim) (l : Label) : (f.push label vector).vectorsOf l =
      if label = l then f.vectorsOf l ++ [some (f.metric.prepare vector)] else f.vectorsOf l := by
  have wf_push := wf.push label length
  have older := wf.map_entry?_eq wf_push l fun row mem _ =>
    (mem_rows_push wf length).2 (.inl mem)
  have newest := wf_push.entry?_eq ((mem_rows_push wf length).2 (.inr rfl))
  rw [vectorsOf, entriesOf_push]
  split
  case isTrue =>
    rw [List.map_append, older, List.map_singleton, newest]
    rfl
  case isFalse => exact older

end Vicinity.Flat
