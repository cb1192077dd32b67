import Mathlib.Data.List.Dedup
import Vicinity.Proofs.Flat
import Vicinity.Proofs.LabelMap

/-!
What an index holds, as a plain list.

`Holdings` are vectors under their labels, in no particular order and possibly several under one
label. They are what a caller means by the contents of an index: storing adds a pair, in place of
the others of its label where a label may have one vector only, and deleting drops the pairs of a
label. An index agrees with such a list when it holds the same labels, each as often, and under a
metric that stores vectors as they are given also the same vectors (`Agrees`). The holdings of an
exhaustive index are its rows.
-/

namespace Vicinity

/-- Vectors under their labels. -/
abbrev Holdings (α : Type) := List (Label × List α)

namespace Holdings

variable {α : Type}

/-- Without the vectors of a label. -/
def delete (held : Holdings α) (label : Label) : Holdings α := held.filter (·.1 != label)

/-- With a vector more, instead of the others of its label unless it may have several. -/
def store (multi : Bool) (held : Holdings α) (label : Label) (vector : List α) : Holdings α :=
  (if multi then held else held.delete label) ++ [(label, vector)]

/-- The number of vectors of a label. -/
def count (held : Holdings α) (label : Label) : Nat := held.countP (·.1 == label)

/-- The labels that have a vector. -/
def labels (held : Holdings α) : List Label := (held.map (·.1)).dedup

theorem count_eq (held : Holdings α) (label : Label) :
    held.count label = (held.map (·.1)).count label := by
  rw [count, List.count_eq_countP, List.countP_map]
  rfl

theorem count_append (a b : Holdings α) (label : Label) :
    count (a ++ b) label = a.count label + b.count label := List.countP_append

theorem delete_append (a b : Holdings α) (label : Label) :
    delete (a ++ b) label = a.delete label ++ b.delete label := List.filter_append ..

theorem mem_labels {held : Holdings α} {label : Label} :
    label ∈ held.labels ↔ 0 < held.count label := by
  rw [labels, List.mem_dedup, count_eq, List.count_pos_iff]

theorem count_delete (held : Holdings α) (label l : Label) :
    (held.delete label).count l = if l = label then 0 else held.count l := by
  rw [count, delete, List.countP_filter]
  split
  case isTrue same =>
    subst same
    simp
  case isFalse other =>
    refine List.countP_congr fun pair _ => ?_
    simp only [Bool.and_eq_true, beq_iff_eq, bne_iff_ne]
    constructor
    · exact And.left
    · rintro rfl
      exact ⟨rfl, other⟩

/-- With one vector a label, none gets a second. -/
theorem count_store_le {held : Holdings α} (once : ∀ l, held.count l ≤ 1) (label : Label)
    (vector : List α) (l : Label) : (held.store false label vector).count l ≤ 1 := by
  have before := count_delete held label l
  have split : (held.store false label vector).count l =
      (held.delete label).count l + if l = label then 1 else 0 := by
    rw [store, if_neg Bool.noConfusion, count_append]
    simp [count, List.countP_cons, eq_comm (a := label)]
  rw [split, before]
  split
  · exact Nat.le_refl 1
  · exact once l

/-! ### Agreement -/

/-- What is stored is what was given, the vectors as given under a metric that leaves them so. -/
def Agrees (metric : Metric) (stored given : Holdings α) : Prop :=
  (stored.map (·.1)).Perm (given.map (·.1)) ∧ (metric.normalizes = false → stored.Perm given)

namespace Agrees

variable {metric : Metric} {stored given : Holdings α}

theorem count_eq (agrees : Agrees metric stored given) (label : Label) :
    stored.count label = given.count label := by
  rw [Holdings.count_eq, Holdings.count_eq, agrees.1.count_eq]

theorem length_eq (agrees : Agrees metric stored given) : stored.length = given.length := by
  simpa using agrees.1.length_eq

/-- The order in which the pairs are stored does not matter. -/
theorem perm (agrees : Agrees metric stored given) {stored' : Holdings α}
    (same : stored'.Perm stored) : Agrees metric stored' given :=
  ⟨(same.map _).trans agrees.1, fun plain => same.trans (agrees.2 plain)⟩

theorem delete (agrees : Agrees metric stored given) (label : Label) :
    Agrees metric (stored.delete label) (given.delete label) := by
  constructor
  · have filtered := agrees.1.filter (· != label)
    rwa [List.filter_map, List.filter_map] at filtered
  · exact fun plain => (agrees.2 plain).filter _

theorem append (agrees : Agrees metric stored given) (label : Label) {vector vector' : List α}
    (same : metric.normalizes = false → vector' = vector) :
    Agrees metric (stored ++ [(label, vector')]) (given ++ [(label, vector)]) := by
  constructor
  · rw [List.map_append, List.map_append]
    exact agrees.1.append_right _
  · intro plain
    rw [same plain]
    exact (agrees.2 plain).append_right _

/-- A vector may be stored anew in the form that the metric gives it. -/
theorem replace {label : Label} {vector vector' : List α} {rest : Holdings α}
    (agrees : Agrees metric ((label, vector) :: rest) given)
    (same : metric.normalizes = false → vector' = vector) :
    Agrees metric ((label, vector') :: rest) given := by
  refine ⟨agrees.1, fun plain => ?_⟩
  rw [same plain]
  exact agrees.2 plain

end Agrees

end Holdings

/-! ### The exhaustive index -/

namespace Flat

variable {α : Type}

/-- The stored vectors in the order of their slots. -/
def holdings (f : Flat α) : Holdings α := f.rows.map fun row => (row.label, row.vector)

theorem length_holdings (f : Flat α) : f.holdings.length = f.size := by
  rw [holdings, List.length_map, length_rows]

theorem count_holdings (f : Flat α) (label : Label) :
    f.holdings.count label = f.rows.countP (·.label == label) := by
  rw [Holdings.count, holdings, List.countP_map]
  rfl

theorem count_holdings_slots (f : Flat α) (label : Label) :
    f.holdings.count label = f.slots.countP (·.label == label) := by
  rw [count_holdings, ← Array.countP_toList]
  change List.countP ((· == label) ∘ Row.label) f.rows = _
  rw [← List.countP_map, map_label_rows, List.countP_map]
  rfl

theorem length_entriesOf {f : Flat α} (wf : f.WellFormed) (label : Label) :
    (f.entriesOf label).length = f.holdings.count label := by
  rw [count_holdings, (wf.perm_entriesOf label).length_eq, List.length_map,
    List.countP_eq_length_filter]

/-- A label is listed while it has an entry. -/
theorem contains_iff {f : Flat α} (wf : f.WellFormed) (label : Label) :
    f.contains label = true ↔ 0 < f.holdings.count label := by
  rw [← length_entriesOf wf, contains, LabelMap.contains, entriesOf]
  cases found : f.entries.find? label with
  | none => simp
  | some listed => simpa [List.length_pos_iff] using wf.nonempty label listed found

theorem perm_holdings_deleteLabel {f : Flat α} (wf : f.WellFormed) (label : Label) :
    (f.deleteLabel label).1.holdings.Perm (f.holdings.delete label) := by
  refine ((perm_deleteLabel wf label).map _).trans (.of_eq ?_)
  rw [Holdings.delete, holdings, List.filter_map]
  rfl

/-- Taking an entry out takes its vector out. -/
theorem perm_holdings_removeEntry {f : Flat α} (wf : f.WellFormed) {row : Row α}
    (mem : row ∈ f.rows) :
    f.holdings.Perm ((row.label, row.vector) :: (f.removeEntry row.entry).1.holdings) := by
  obtain ⟨i, lt, rfl⟩ := List.getElem_of_mem mem
  have first : (f.rows[i] :: f.rows.eraseIdx i).Perm f.rows :=
    List.getElem_cons_eraseIdx_perm lt
  have others := (perm_eraseIdx_filter wf.entry_nodup lt).trans
    (perm_removeEntry wf f.rows[i].entry).symm
  exact (first.symm.trans (others.cons _)).map fun row => (row.label, row.vector)

theorem holdings_push [Element α] {f : Flat α} (wf : f.WellFormed) (label : Label)
    {vector : List α} (length : vector.length = f.dim) :
    (f.push label vector).holdings = f.holdings ++ [(label, f.metric.prepare vector)] := by
  rw [holdings, rows_push wf label length, List.map_append, List.map_singleton, holdings]

/-- The labels are listed once each. -/
theorem nodup_labels (f : Flat α) : f.labels.Nodup := LabelMap.nodup_labels _

theorem mem_labels {f : Flat α} (wf : f.WellFormed) (label : Label) :
    label ∈ f.labels ↔ 0 < f.holdings.count label := by
  rw [← contains_iff wf, contains, labels, LabelMap.contains_iff_mem_labels]

end Flat

end Vicinity
