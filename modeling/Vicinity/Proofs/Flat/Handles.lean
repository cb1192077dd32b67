import Vicinity.Proofs.Flat.Calls

/-!
Entry numbers are handles.

A handle is given out with a vector and stands for it, wherever the vector is moved, until a call
takes the vector out; after that it stands for nothing, since entry numbers are not given out twice
(`Stable`). Whatever else an index says of its contents can be read off what its handles stand for
(`Itemized`). Both hold whatever calls there were (`Reachable.handles_stand`).
-/

namespace Vicinity.Flat

variable {α : Type} {f : Flat α}

/-! ### What a handle stands for -/

theorem WellFormed.containsEntry_eq (wf : f.WellFormed) (entry : Nat) :
    f.containsEntry entry = (f.entry? entry).isSome := by
  rw [containsEntry, Std.TreeMap.contains_eq_isSome_getElem?, entry?]
  cases position : f.positions[entry]? with
  | none => rfl
  | some place =>
      obtain ⟨slot, here, _⟩ := (wf.located entry place).1 position
      rw [Option.bind_some, here]
      rfl

/-- The handles that stand for a vector, the oldest first. -/
def handles (f : Flat α) : List Nat := (List.range f.nextEntry).filter f.containsEntry

theorem WellFormed.mem_handles (wf : f.WellFormed) {entry : Nat} :
    entry ∈ f.handles ↔ ∃ row ∈ f.rows, row.entry = entry := by
  rw [handles, List.mem_filter, List.mem_range, wf.containsEntry_eq, Option.isSome_iff_exists]
  simp only [wf.entry?_eq_some_iff]
  refine ⟨And.right, fun found => ⟨?_, found⟩⟩
  obtain ⟨row, mem, rfl⟩ := found
  exact wf.entry_lt row mem

theorem pairwise_handles (f : Flat α) : f.handles.Pairwise (· < ·) :=
  List.pairwise_lt_range.filter _

theorem WellFormed.perm_handles (wf : f.WellFormed) :
    (f.rows.map (·.entry)).Perm f.handles := by
  refine (List.perm_ext_iff_of_nodup wf.entry_nodup
    ((pairwise_handles f).imp Nat.ne_of_lt)).2 fun entry => ?_
  rw [wf.mem_handles, List.mem_map]

/-- The label of the vector that a handle stands for. -/
def labelOf? (f : Flat α) (entry : Nat) : Option Label := (f.entry? entry).map (·.label)

theorem WellFormed.labelOf?_eq_some_iff (wf : f.WellFormed) {entry : Nat} {label : Label} :
    f.labelOf? entry = some label ↔
      ∃ row ∈ f.rows, row.label = label ∧ row.entry = entry := by
  rw [labelOf?, Option.map_eq_some_iff]
  refine exists_congr fun row => ?_
  rw [wf.entry?_eq_some_iff, and_assoc, and_comm (a := row.entry = entry)]

theorem WellFormed.mem_handles_of_labelOf? (wf : f.WellFormed) {entry : Nat} {label : Label}
    (own : f.labelOf? entry = some label) : entry ∈ f.handles := by
  obtain ⟨row, mem, _, same⟩ := wf.labelOf?_eq_some_iff.1 own
  exact wf.mem_handles.2 ⟨row, mem, same⟩

theorem WellFormed.entriesOf_eq (wf : f.WellFormed) (label : Label) :
    f.entriesOf label = f.handles.filter fun entry => f.labelOf? entry == some label := by
  have ascending := (pairwise_handles f).filter fun entry => f.labelOf? entry == some label
  refine List.Perm.eq_of_pairwise (fun a b _ _ before after => absurd after (Nat.lt_asymm before))
    (wf.ascending label) ascending ?_
  refine (List.perm_ext_iff_of_nodup ((wf.ascending label).imp Nat.ne_of_lt)
    (ascending.imp Nat.ne_of_lt)).2 fun entry => ?_
  rw [List.mem_filter, beq_iff_eq, and_iff_right_of_imp wf.mem_handles_of_labelOf?,
    wf.labelOf?_eq_some_iff, wf.mem_entriesOf]

theorem WellFormed.removeEntry_snd (wf : f.WellFormed) (entry : Nat) :
    (f.removeEntry entry).2 = f.labelOf? entry := by
  rw [labelOf?, entry?]
  cases position : f.positions[entry]? with
  | none =>
      rw [removeEntry_of_absent position]
      rfl
  | some place =>
      obtain ⟨slot, here, _⟩ := (wf.located entry place).1 position
      rw [removeEntry_eq_of_position position here, Option.bind_some, here]
      rfl

/-! ### Calls -/

variable [Element α]

theorem WellFormed.entry?_run_of_some (wf : f.WellFormed) {entry : Nat} {row : Row α}
    (stands : f.entry? entry = some row) (call : Call α) :
    entry? (call.run f) entry = if call.removes f row then none else some row := by
  obtain ⟨mem, own⟩ := wf.entry?_eq_some_iff.1 stands
  split
  case isTrue removed =>
    refine (wf.run call).entry?_eq_none_iff.2 fun other stays same => ?_
    rcases (wf.mem_run call).1 stays with ⟨old, kept⟩ | new
    · rw [wf.entry_inj old mem (same.trans own.symm), removed] at kept
      cases kept
    · have fresh := Call.entry_of_fills new
      have issued := wf.entry_lt row mem
      omega
  case isFalse kept =>
    refine (wf.run call).entry?_eq_some_iff.2 ⟨(wf.mem_run call).2 (.inl ⟨mem, ?_⟩), own⟩
    exact Bool.eq_false_iff.2 kept

theorem WellFormed.entry?_run_of_none (wf : f.WellFormed) {entry : Nat}
    (issued : entry < f.nextEntry) (gone : f.entry? entry = none) (call : Call α) :
    entry? (call.run f) entry = none := by
  refine (wf.run call).entry?_eq_none_iff.2 fun row stays own => ?_
  rcases (wf.mem_run call).1 stays with ⟨old, _⟩ | new
  · exact wf.entry?_eq_none_iff.1 gone row old own
  · have fresh := Call.entry_of_fills new
    omega

theorem nextEntry_le_run (f : Flat α) (call : Call α) : f.nextEntry ≤ (call.run f).nextEntry := by
  rw [call.run_eq]
  exact Nat.le_add_right ..

theorem Call.removes_run (f : Flat α) (call : Call α) :
    Call.removes (call.run f) = Call.removes f := by
  funext row other
  rw [call.run_eq]
  cases other <;> rfl

theorem WellFormed.entry?_after_of_none (wf : f.WellFormed) {entry : Nat}
    (issued : entry < f.nextEntry) (gone : f.entry? entry = none) (calls : List (Call α)) :
    entry? (f.after calls) entry = none := by
  induction calls generalizing f with
  | nil => exact gone
  | cons call calls ih =>
      have issued' := Nat.lt_of_lt_of_le issued (nextEntry_le_run f call)
      exact ih (wf.run call) issued' (wf.entry?_run_of_none issued gone call)

theorem WellFormed.entry?_after_of_some (wf : f.WellFormed) {entry : Nat} {row : Row α}
    (stands : f.entry? entry = some row) (calls : List (Call α)) :
    entry? (f.after calls) entry =
      if calls.any (·.removes f row) then none else some row := by
  induction calls generalizing f with
  | nil => exact stands
  | cons call calls ih =>
      have step := wf.entry?_run_of_some stands call
      rw [after_cons, List.any_cons]
      cases removed : call.removes f row with
      | true =>
          rw [removed, if_pos rfl] at step
          obtain ⟨mem, own⟩ := wf.entry?_eq_some_iff.1 stands
          have issued := Nat.lt_of_lt_of_le (own ▸ wf.entry_lt row mem) (nextEntry_le_run f call)
          rw [Bool.true_or, if_pos rfl]
          exact (wf.run call).entry?_after_of_none issued step calls
      | false =>
          rw [removed, if_neg Bool.noConfusion] at step
          rw [Bool.false_or, ih (wf.run call) step, Call.removes_run]

/-- A handle stands for one vector, and then for nothing. -/
structure Stable (f : Flat α) : Prop where
  /-- A new handle is above the others. It stands for what was stored until a call takes it out. -/
  issued : ∀ label vector g entry, f.addEntry label vector = .ok (g, entry) →
    f.nextEntry ≤ entry ∧ entry < g.nextEntry ∧ ∀ calls, entry? (g.after calls) entry =
      if calls.any (·.removes f ⟨entry, label, f.metric.prepare vector⟩) then none
      else some ⟨entry, label, f.metric.prepare vector⟩
  kept : ∀ entry row, f.entry? entry = some row →
    row.entry = entry ∧ entry < f.nextEntry ∧ ∀ calls, entry? (f.after calls) entry =
      if calls.any (·.removes f row) then none else some row
  gone : ∀ entry, entry < f.nextEntry → f.entry? entry = none →
    ∀ calls, entry? (f.after calls) entry = none
  rises : ∀ calls, f.nextEntry ≤ (f.after calls).nextEntry

theorem nextEntry_le_after (f : Flat α) (calls : List (Call α)) :
    f.nextEntry ≤ (f.after calls).nextEntry := by
  induction calls generalizing f with
  | nil => exact Nat.le_refl _
  | cons call calls ih => exact Nat.le_trans (nextEntry_le_run f call) (ih _)

/-- The handle that is handed out stands for the slot that is filled. -/
theorem WellFormed.entry?_of_addEntry (wf : f.WellFormed) {g : Flat α} {label : Label}
    {vector : List α} {entry : Nat} (stored : f.addEntry label vector = .ok (g, entry)) :
    g = (Call.addEntry label vector).run f ∧ entry = f.nextEntry ∧ entry < g.nextEntry ∧
      g.entry? entry = some ⟨entry, label, f.metric.prepare vector⟩ := by
  have after : g = (Call.addEntry label vector).run f := by rw [Call.run, stored]
  by_cases fits : f.fits vector = true
  · rw [addEntry_of_fits fits, Except.ok.injEq, Prod.mk.injEq] at stored
    obtain ⟨_, rfl⟩ := stored
    have filled : (Call.addEntry label vector).fills f =
        some ⟨f.nextEntry, label, f.metric.prepare vector⟩ := if_pos fits
    have here := (wf.mem_run (.addEntry label vector)).2 (.inr filled)
    refine ⟨after, rfl, ?_, ?_⟩
    · rw [after]
      exact (wf.run _).entry_lt _ here
    · rw [after]
      exact (wf.run _).entry?_eq here
  · obtain ⟨failure, refused⟩ := addEntry_of_not_fits fits label
    rw [refused] at stored
    cases stored

theorem WellFormed.stable (wf : f.WellFormed) : f.Stable where
  issued label vector g entry stored := by
    obtain ⟨after, rfl, issued, stands⟩ := wf.entry?_of_addEntry stored
    subst after
    refine ⟨Nat.le_refl _, issued, fun calls => ?_⟩
    rw [(wf.run _).entry?_after_of_some stands calls, Call.removes_run]
  kept entry row stands := by
    obtain ⟨mem, rfl⟩ := wf.entry?_eq_some_iff.1 stands
    exact ⟨rfl, wf.entry_lt row mem, wf.entry?_after_of_some stands⟩
  gone _ issued none := wf.entry?_after_of_none issued none
  rises := nextEntry_le_after f

/-! ### What else an index says -/

/-- Everything an index says of its contents can be read off its handles. -/
structure Itemized (f : Flat α) : Prop where
  ascending : f.handles.Pairwise (· < ·)
  handles : ∀ entry, entry ∈ f.handles ↔ (f.entry? entry).isSome = true
  containsEntry : ∀ entry, f.containsEntry entry = (f.entry? entry).isSome
  /-- The oldest first, since the handles ascend. -/
  entriesOf : ∀ label,
    f.entriesOf label = f.handles.filter fun entry => f.labelOf? entry == some label
  size : f.size = f.handles.length
  contains : ∀ label, f.contains label = true ↔ ∃ entry ∈ f.handles, f.labelOf? entry = some label
  labels : f.labels.Pairwise (· < ·) ∧ ∀ label, label ∈ f.labels ↔ f.contains label = true
  labelCount : f.labelCount = (f.handles.filterMap f.labelOf?).dedup.length
  removed : ∀ entry, (f.removeEntry entry).2 = f.labelOf? entry

omit [Element α] in
theorem WellFormed.contains_iff_labelOf? (wf : f.WellFormed) {label : Label} :
    f.contains label = true ↔ ∃ entry ∈ f.handles, f.labelOf? entry = some label := by
  rw [contains_iff wf, count_holdings, List.countP_pos_iff]
  constructor
  · rintro ⟨row, mem, own⟩
    have stands := wf.labelOf?_eq_some_iff.2 ⟨row, mem, beq_iff_eq.1 own, rfl⟩
    exact ⟨row.entry, wf.mem_handles_of_labelOf? stands, stands⟩
  · rintro ⟨entry, _, stands⟩
    obtain ⟨row, mem, own, _⟩ := wf.labelOf?_eq_some_iff.1 stands
    exact ⟨row, mem, beq_iff_eq.2 own⟩

omit [Element α] in
theorem WellFormed.itemized (wf : f.WellFormed) : f.Itemized where
  ascending := pairwise_handles f
  handles entry := by
    rw [wf.mem_handles, Option.isSome_iff_exists]
    simp only [wf.entry?_eq_some_iff]
  containsEntry := wf.containsEntry_eq
  entriesOf := wf.entriesOf_eq
  size := by rw [← wf.perm_handles.length_eq, List.length_map, length_rows]
  contains _ := wf.contains_iff_labelOf?
  labels := by
    refine ⟨List.pairwise_map.2 (LabelMap.ascending _), fun label => ?_⟩
    rw [mem_labels wf, contains_iff wf]
  labelCount := by
    rw [labelCount, LabelMap.size, ← List.length_map Prod.fst, ← LabelMap.labels, ← labels]
    refine (List.perm_ext_iff_of_nodup (nodup_labels f) (List.nodup_dedup _)).2 (fun label => ?_)
      |>.length_eq
    rw [mem_labels wf, ← contains_iff wf, wf.contains_iff_labelOf?, List.mem_dedup,
      List.mem_filterMap]
  removed := wf.removeEntry_snd

/-- Whatever calls there were, the four structures are in step, handles stand for what they were
handed out with, and they account for the contents. -/
theorem Reachable.handles_stand (reachable : f.Reachable) :
    f.WellFormed ∧ f.Stable ∧ f.Itemized :=
  ⟨reachable.wellFormed, reachable.wellFormed.stable, reachable.wellFormed.itemized⟩

/-- The second of two vectors was moved into the slot of the first, and is found there. -/
theorem handles_stand_moved : ∃ f : Flat Binary64, f.Reachable ∧
    f.vectors = #[.one] ∧ f.slots = #[⟨8, 1⟩] ∧ f.positions[1]? = some 0 ∧
    f.entry? 1 = some ⟨1, 8, [.one]⟩ ∧ f.entry? 0 = none ∧ f.entriesOf 7 = [] ∧
    f.WellFormed ∧ f.Stable ∧ f.Itemized := by
  let calls : List (Call Binary64) :=
    [.addEntry 7 [.zero], .addEntry 8 [.one], .removeEntry 0]
  have reachable := (Reachable.new 1 .l2 false 1024).after calls
  refine ⟨_, reachable, ?_, ?_, ?_, ?_, ?_, ?_, reachable.handles_stand⟩ <;> decide +kernel

end Vicinity.Flat
