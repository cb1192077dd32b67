/-!
Finite maps from labels, kept in the order of the labels.

The entries of a `LabelMap` ascend strictly, so a map is determined by what it answers
(`LabelMap.ext_find?`) and its listing needs no sorting. `find?_insert` and `find?_erase` say what
the two operations do to the answers.
-/

namespace Vicinity

/-- The name under which a caller stores a vector. -/
abbrev Label := UInt64

/-- A map from labels with its entries in ascending order. -/
structure LabelMap (β : Type) where
  entries : List (Label × β)
  ascending : entries.Pairwise (·.1 < ·.1)
deriving DecidableEq

namespace LabelMap

variable {β : Type}

def empty : LabelMap β := ⟨[], .nil⟩

instance : Inhabited (LabelMap β) := ⟨empty⟩

/-- The number of labels. -/
def size (m : LabelMap β) : Nat := m.entries.length

/-- The labels in ascending order. -/
def labels (m : LabelMap β) : List Label := m.entries.map (·.1)

/-- The value in a list of entries. -/
def lookup (label : Label) : List (Label × β) → Option β
  | [] => none
  | e :: es => if e.1 = label then some e.2 else lookup label es

def find? (m : LabelMap β) (label : Label) : Option β := lookup label m.entries

def contains (m : LabelMap β) (label : Label) : Bool := (m.find? label).isSome

/-- Put an entry at its place, instead of one with the same label. -/
def insertEntry (label : Label) (value : β) : List (Label × β) → List (Label × β)
  | [] => [(label, value)]
  | e :: es =>
    if label < e.1 then (label, value) :: e :: es
    else if e.1 = label then (label, value) :: es
    else e :: insertEntry label value es

theorem mem_insertEntry {label : Label} {value : β} {es : List (Label × β)} {x : Label × β}
    (h : x ∈ insertEntry label value es) : x = (label, value) ∨ x ∈ es := by
  induction es with
  | nil => simpa [insertEntry] using h
  | cons e es ih =>
    simp only [insertEntry] at h
    split at h
    · simpa using h
    · split at h
      · rcases List.mem_cons.1 h with h | h
        · exact .inl h
        · exact .inr (List.mem_cons_of_mem _ h)
      · rcases List.mem_cons.1 h with h | h
        · exact .inr (h ▸ List.mem_cons_self)
        · exact (ih h).imp_right (List.mem_cons_of_mem _)

theorem insertEntry_ascending (label : Label) (value : β) {es : List (Label × β)}
    (h : es.Pairwise (·.1 < ·.1)) : (insertEntry label value es).Pairwise (·.1 < ·.1) := by
  induction es with
  | nil => simp [insertEntry]
  | cons e es ih =>
    rw [List.pairwise_cons] at h
    simp only [insertEntry]
    split
    case isTrue lt =>
      refine .cons (fun x hx => ?_) (.cons h.1 h.2)
      rcases List.mem_cons.1 hx with rfl | hx
      · exact lt
      · exact UInt64.lt_trans lt (h.1 x hx)
    case isFalse ge =>
      split
      case isTrue eq => exact .cons (fun x hx => eq ▸ h.1 x hx) h.2
      case isFalse ne =>
        refine .cons (fun x hx => ?_) (ih h.2)
        rcases mem_insertEntry hx with rfl | hx
        · exact UInt64.lt_of_le_of_ne (UInt64.not_lt.1 ge) ne
        · exact h.1 x hx

def insert (m : LabelMap β) (label : Label) (value : β) : LabelMap β :=
  ⟨insertEntry label value m.entries, insertEntry_ascending label value m.ascending⟩

def erase (m : LabelMap β) (label : Label) : LabelMap β :=
  ⟨m.entries.filter (·.1 != label), m.ascending.filter _⟩

/-- Take a member out of the list of a label; a label with nothing left in its list goes. -/
def unlist (m : LabelMap (List Nat)) (label : Label) (member : Nat) : LabelMap (List Nat) :=
  match m.find? label with
  | none => m
  | some members =>
    let rest := members.filter (· != member)
    if rest.isEmpty then m.erase label else m.insert label rest

/-- Replace every value. -/
def map {γ : Type} (f : β → γ) (m : LabelMap β) : LabelMap γ :=
  ⟨m.entries.map fun e => (e.1, f e.2), List.pairwise_map.2 m.ascending⟩

/-! ### What the operations answer -/

@[simp] theorem find?_empty (label : Label) : (empty : LabelMap β).find? label = none := rfl

theorem lookup_insertEntry (label l : Label) (value : β) (es : List (Label × β)) :
    lookup l (insertEntry label value es) = if label = l then some value else lookup l es := by
  induction es with
  | nil => simp [insertEntry, lookup]
  | cons e es ih =>
    simp only [insertEntry]
    split
    · simp [lookup]
    · split
      case isTrue eq => by_cases h : label = l <;> simp [lookup, eq, h]
      case isFalse ne =>
        by_cases h : e.1 = l
        · have : ¬ label = l := fun hl => ne (h.trans hl.symm)
          simp [lookup, h, this]
        · simp [lookup, h, ih]

theorem find?_insert (m : LabelMap β) (label l : Label) (value : β) :
    (m.insert label value).find? l = if label = l then some value else m.find? l :=
  lookup_insertEntry label l value m.entries

theorem lookup_filter_ne (label l : Label) (es : List (Label × β)) :
    lookup l (es.filter (·.1 != label)) = if label = l then none else lookup l es := by
  induction es with
  | nil => simp [lookup]
  | cons e es ih =>
    by_cases he : e.1 = label <;> by_cases h : label = l <;> by_cases hl : e.1 = l <;>
      simp_all [lookup]

theorem find?_erase (m : LabelMap β) (label l : Label) :
    (m.erase label).find? l = if label = l then none else m.find? l :=
  lookup_filter_ne label l m.entries

theorem lookup_eq_none_of_lt {l : Label} {es : List (Label × β)} (h : ∀ e ∈ es, l < e.1) :
    lookup l es = none := by
  induction es with
  | nil => rfl
  | cons e es ih =>
    have hne : e.1 ≠ l := fun eq => UInt64.lt_irrefl l (eq ▸ h e List.mem_cons_self)
    simp only [lookup, if_neg hne]
    exact ih fun x hx => h x (List.mem_cons_of_mem _ hx)

theorem entries_eq_of_lookup {es fs : List (Label × β)} (he : es.Pairwise (·.1 < ·.1))
    (hf : fs.Pairwise (·.1 < ·.1)) (h : ∀ l, lookup l es = lookup l fs) : es = fs := by
  induction es generalizing fs with
  | nil =>
    cases fs with
    | nil => rfl
    | cons f fs => simpa [lookup] using h f.1
  | cons e es ih =>
    cases fs with
    | nil => simpa [lookup] using h e.1
    | cons f fs =>
      rw [List.pairwise_cons] at he hf
      have hkey : e.1 = f.1 := by
        by_cases lt : e.1 < f.1
        · have := h e.1
          have below : ∀ x ∈ f :: fs, e.1 < x.1 := fun x hx => by
            rcases List.mem_cons.1 hx with rfl | hx
            · exact lt
            · exact UInt64.lt_trans lt (hf.1 x hx)
          rw [lookup_eq_none_of_lt below] at this
          simp [lookup] at this
        · by_cases eq : e.1 = f.1
          · exact eq
          · have gt : f.1 < e.1 := UInt64.lt_of_le_of_ne (UInt64.not_lt.1 lt) (Ne.symm eq)
            have := h f.1
            have below : ∀ x ∈ e :: es, f.1 < x.1 := fun x hx => by
              rcases List.mem_cons.1 hx with rfl | hx
              · exact gt
              · exact UInt64.lt_trans gt (he.1 x hx)
            rw [lookup_eq_none_of_lt below] at this
            simp [lookup] at this
      have hval : e.2 = f.2 := by simpa [lookup, hkey] using h e.1
      have htail : es = fs := ih he.2 hf.2 fun l => by
        by_cases hl : e.1 = l
        · rw [lookup_eq_none_of_lt fun x hx => hl ▸ he.1 x hx,
            lookup_eq_none_of_lt fun x hx => hl ▸ hkey ▸ hf.1 x hx]
        · have := h l
          simpa [lookup, hl, hkey ▸ hl] using this
      rw [htail, Prod.ext hkey hval]

/-- Maps with the same answers are the same map. -/
theorem ext_find? {m n : LabelMap β} (h : ∀ l, m.find? l = n.find? l) : m = n := by
  obtain ⟨es, hes⟩ := m
  obtain ⟨fs, hfs⟩ := n
  congr 1
  exact entries_eq_of_lookup hes hfs h

end LabelMap

end Vicinity
