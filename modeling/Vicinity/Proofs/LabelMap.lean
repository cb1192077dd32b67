import Vicinity.LabelMap

/-!
The entries of a label map and what it answers.

Since the labels of the entries ascend strictly, looking a label up finds the one entry it has
(`find?_eq_some_iff`), each label is listed once (`nodup_labels`), and a label above all others is
put at the end (`entries_insert_of_above`). One that is not listed yet adds an entry, wherever its
place is (`perm_entries_insert`). `find?_unlist` tells what is left of a map of lists when a member
is taken out of one of them.
-/

namespace Vicinity.LabelMap

variable {β : Type}

theorem lookup_eq_some_iff {label : Label} {value : β} {es : List (Label × β)}
    (ascending : es.Pairwise (·.1 < ·.1)) :
    lookup label es = some value ↔ (label, value) ∈ es := by
  induction es with
  | nil => simp [lookup]
  | cons e es ih =>
      rw [List.pairwise_cons] at ascending
      rw [lookup, List.mem_cons]
      split
      case isTrue same =>
        constructor
        · intro found
          cases found
          exact .inl (Prod.ext same.symm rfl)
        · rintro (here | later)
          · rw [← here]
          · have lt := ascending.1 _ later
            rw [same] at lt
            exact absurd lt (UInt64.lt_irrefl label)
      case isFalse other =>
        rw [ih ascending.2]
        constructor
        · exact .inr
        · rintro (here | later)
          · rw [← here] at other
            exact absurd rfl other
          · exact later

theorem find?_eq_some_iff {m : LabelMap β} {label : Label} {value : β} :
    m.find? label = some value ↔ (label, value) ∈ m.entries :=
  lookup_eq_some_iff m.ascending

theorem nodup_labels (m : LabelMap β) : m.labels.Nodup :=
  (List.pairwise_map.2 m.ascending).imp UInt64.ne_of_lt

theorem contains_iff_mem_labels {m : LabelMap β} {label : Label} :
    m.contains label = true ↔ label ∈ m.labels := by
  rw [contains, Option.isSome_iff_exists, labels, List.mem_map]
  constructor
  · rintro ⟨value, found⟩
    exact ⟨_, find?_eq_some_iff.1 found, rfl⟩
  · rintro ⟨⟨l, value⟩, mem, rfl⟩
    exact ⟨value, find?_eq_some_iff.2 mem⟩

/-- A label above all others goes to the end. -/
theorem insertEntry_of_above {label : Label} {es : List (Label × β)}
    (above : ∀ e ∈ es, e.1 < label) (value : β) :
    insertEntry label value es = es ++ [(label, value)] := by
  induction es with
  | nil => rfl
  | cons e es ih =>
      obtain ⟨lt, rest⟩ := List.forall_mem_cons.1 above
      have not_below : ¬label < e.1 := UInt64.lt_asymm lt
      have other : e.1 ≠ label := UInt64.ne_of_lt lt
      rw [insertEntry, if_neg not_below, if_neg other, ih rest, List.cons_append]

theorem entries_insert_of_above {m : LabelMap β} {label : Label}
    (above : ∀ e ∈ m.entries, e.1 < label) (value : β) :
    (m.insert label value).entries = m.entries ++ [(label, value)] :=
  insertEntry_of_above above value

theorem contains_of_above {m : LabelMap β} {label : Label}
    (above : ∀ e ∈ m.entries, e.1 < label) : m.contains label = false := by
  unfold contains
  cases found : m.find? label with
  | none => rfl
  | some value =>
      have lt := above _ (find?_eq_some_iff.1 found)
      exact absurd lt (UInt64.lt_irrefl label)

/-- A label that is not listed yet adds an entry. -/
theorem perm_insertEntry {label : Label} {es : List (Label × β)} (unlisted : ∀ e ∈ es, e.1 ≠ label)
    (value : β) : (insertEntry label value es).Perm ((label, value) :: es) := by
  induction es with
  | nil => exact .refl _
  | cons e es ih =>
      obtain ⟨other, rest⟩ := List.forall_mem_cons.1 unlisted
      rw [insertEntry, if_neg other]
      split
      · exact .refl _
      · exact ((ih rest).cons e).trans (.swap ..)

theorem perm_entries_insert {m : LabelMap β} {label : Label} (unlisted : m.contains label = false)
    (value : β) : (m.insert label value).entries.Perm ((label, value) :: m.entries) := by
  refine perm_insertEntry (fun e mem same => ?_) value
  have listed : m.contains label = true :=
    contains_iff_mem_labels.2 (same ▸ List.mem_map_of_mem mem)
  rw [unlisted] at listed
  cases listed

/-! ### Lists of members -/

/-- A member that is taken out is gone from its list, and an empty list from the map. -/
theorem find?_unlist (m : LabelMap (List Nat)) (label : Label) (member : Nat) (l : Label) :
    (m.unlist label member).find? l =
      if label = l then
        (m.find? label).bind fun members =>
          if (members.filter (· != member)).isEmpty then none
          else some (members.filter (· != member))
      else m.find? l := by
  unfold unlist
  cases found : m.find? label with
  | none =>
      dsimp only
      split
      case isTrue same => simp [← same, found]
      case isFalse => rfl
  | some members =>
      dsimp only
      by_cases last : (members.filter (· != member)).isEmpty = true
      · simp only [if_pos last, find?_erase, Option.bind_some]
      · simp only [if_neg last, find?_insert, Option.bind_some]

theorem getD_find?_unlist (m : LabelMap (List Nat)) (label : Label) (member : Nat) (l : Label) :
    ((m.unlist label member).find? l).getD [] =
      if label = l then ((m.find? l).getD []).filter (· != member) else (m.find? l).getD [] := by
  rw [find?_unlist]
  split
  case isTrue same =>
    subst same
    cases m.find? label with
    | none => rfl
    | some members =>
        simp only [Option.bind_some, Option.getD_some]
        split
        case isTrue last => simpa using (List.isEmpty_iff.1 last).symm
        case isFalse => rfl
  case isFalse => rfl

/-- No list is empty, if none was. -/
theorem unlist_ne_nil {m : LabelMap (List Nat)}
    (nonempty : ∀ label members, m.find? label = some members → members ≠ []) (label : Label)
    (member : Nat) :
    ∀ l members, (m.unlist label member).find? l = some members → members ≠ [] := by
  intro l members found
  rw [find?_unlist] at found
  split at found
  case isTrue =>
    obtain ⟨before, _, kept⟩ := Option.bind_eq_some_iff.1 found
    rw [Option.ite_none_left_eq_some, Option.some.injEq] at kept
    obtain ⟨left, rfl⟩ := kept
    exact fun empty => left (List.isEmpty_iff.2 empty)
  case isFalse => exact nonempty l members found

/-- Maps with the same entries are the same map. -/
theorem ext_entries {m n : LabelMap β} (same : m.entries = n.entries) : m = n := by
  obtain ⟨es, _⟩ := m
  obtain ⟨fs, _⟩ := n
  cases same
  rfl

end Vicinity.LabelMap
