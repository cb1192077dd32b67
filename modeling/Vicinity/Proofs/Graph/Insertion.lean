import Vicinity.Proofs.Graph.WellFormed

/-!
Inserting a vector keeps a graph well-formed.

The new node first takes the next slot without any edge (`append`), is then linked on its layers and
becomes the entry point when it stands above all others (`wire_spec`). What callers use is
`WellFormed.insert`, which also says how the graph looks from outside afterwards (`Stores`), and
`insert_eq_ok`: with a free slot and a vector of the right dimension an insertion succeeds.
-/

namespace Vicinity.Graph

variable {α : Type}

/-! ### The new slot -/

section Append

variable (g : Graph α) (label : Label) (vector : List α) (level : Nat)

theorem getElem?_append (j : Nat) :
    (g.append label vector level).nodes[j]? =
      if j = g.nodeCount then
        some { label, generation := g.nextGeneration, layers := List.replicate (level + 1) {} }
      else g.nodes[j]? := Array.getElem?_push

theorem nodeCount_append : (g.append label vector level).nodeCount = g.nodeCount + 1 :=
  Array.size_push ..

/-- The new node has no edges, and the others keep theirs. -/
theorem links_append (j k : Nat) :
    (g.append label vector level).links j k = g.links j k := by
  by_cases new : j = g.nodeCount
  · have absent : g.nodes[j]? = none := Array.getElem?_eq_none (Nat.le_of_eq new.symm)
    simp only [links, getElem?_append, if_pos new, absent, Option.bind_none, Option.bind_some,
      List.getElem?_replicate]
    split <;> rfl
  · simp only [links, getElem?_append, if_neg new]

theorem layerCount_append (j : Nat) :
    (g.append label vector level).layerCount j =
      if j = g.nodeCount then level + 1 else g.layerCount j := by
  simp only [layerCount, getElem?_append]
  split <;> simp

theorem isLive_append (j : Nat) :
    (g.append label vector level).isLive j = (decide (j = g.nodeCount) || g.isLive j) := by
  simp only [isLive, getElem?_append]
  split
  case isTrue new => simp [new]
  case isFalse old => simp [old]

theorem isDeleted_append (j : Nat) :
    (g.append label vector level).isDeleted j = g.isDeleted j := by
  by_cases new : j = g.nodeCount
  · have absent : g.nodes[j]? = none := Array.getElem?_eq_none (Nat.le_of_eq new.symm)
    simp only [isDeleted, getElem?_append, if_pos new, absent, Option.any_some, Option.any_none]
  · simp only [isDeleted, getElem?_append, if_neg new]

theorem label?_append (j : Nat) :
    (g.append label vector level).label? j =
      if j = g.nodeCount then some label else g.label? j := by
  simp only [label?, getElem?_append]
  split <;> simp

/-- The new vector stands behind the others, which stay where they are. -/
theorem vector?_append {g : Graph α} (aligned : g.vectors.size = g.nodeCount * g.config.dim.toNat)
    (label : Label) {vector : List α} (length : vector.length = g.config.dim.toNat)
    (level j : Nat) :
    (g.append label vector level).vector? j =
      if j = g.nodeCount then some vector else g.vector? j :=
  Arena.read?_extend aligned length j

/-- The new node is where its vector is, and the others are where they were. -/
theorem distanceTo_append [Element α] {g : Graph α}
    (aligned : g.vectors.size = g.nodeCount * g.config.dim.toNat) (label : Label) {vector : List α}
    (length : vector.length = g.config.dim.toNat) (level : Nat) (query : List α) (j : Nat) :
    (g.append label vector level).distanceTo query j =
      if j = g.nodeCount then g.config.metric.distance query vector else g.distanceTo query j := by
  rw [distanceTo, vector?_append aligned label length level j]
  by_cases new : j = g.nodeCount
  · rw [if_pos new, if_pos new]
    rfl
  · rw [if_neg new, if_neg new]
    rfl

theorem generation?_append (j : Nat) :
    (g.append label vector level).generation? j =
      if j = g.nodeCount then some g.nextGeneration else g.generation? j := by
  simp only [generation?, getElem?_append]
  split <;> simp

theorem idsOf_append (l : Label) :
    (g.append label vector level).idsOf l =
      if label = l then g.idsOf label ++ [g.nodeCount] else g.idsOf l := by
  simp only [idsOf, append, LabelMap.find?_insert]
  split <;> rfl

end Append

theorem label?_eq_none_of_le {g : Graph α} {id : Nat} (le : g.nodeCount ≤ id) :
    g.label? id = none := by
  simp [label?, Array.getElem?_eq_none le]

theorem not_mem_idsOf_of_le {g : Graph α} (listed : g.Listed) {id : Nat}
    (le : g.nodeCount ≤ id) (label : Label) : id ∉ g.idsOf label := fun mem =>
  absurd (lt_nodeCount_of_isLive (listed label id mem).1) (Nat.not_lt.2 le)

/-- A label that is not in use has no ids. -/
theorem idsOf_eq_nil {g : Graph α} {label : Label} (absent : g.contains label = false) :
    g.idsOf label = [] := by
  unfold contains LabelMap.contains at absent
  cases found : g.labels.find? label with
  | none => simp [idsOf, found]
  | some ids => simp [found] at absent

/-- The new node stands on its layers and has no edges there. -/
theorem stands_append_self (g : Graph α) (label : Label) (vector : List α) (level : Nat)
    (layer : Nat) (le : layer ≤ level) :
    (g.append label vector level).Stands g.nodeCount layer := by
  rw [Stands, layerCount_append, if_pos rfl]
  exact Nat.lt_succ_of_le le

theorem isolated_append_self (g : Graph α) (label : Label) (vector : List α) (level : Nat) :
    (g.append label vector level).Isolated g.nodeCount := fun layer => by
  rw [links_append]
  exact links_eq_empty fun stands => Nat.lt_irrefl _ (lt_nodeCount_of_stands stands)

/-- The entry point still stands on the top layer. -/
theorem Anchored.stands_entry_append {g : Graph α} (anchored : g.Anchored) (label : Label)
    (vector : List α) (level : Nat) (e : Nat)
    (entry : (g.append label vector level).entryPoint = some e) :
    (g.append label vector level).Stands e (g.append label vector level).maxLevel := by
  have entry : g.entryPoint = some e := entry
  have old : e ≠ g.nodeCount := Nat.ne_of_lt (lt_nodeCount_of_isLive (anchored.live e entry))
  show g.maxLevel < _
  rw [layerCount_append, if_neg old, anchored.level e entry]
  exact Nat.lt_succ_self _

theorem Paired.append {g : Graph α} (paired : g.Paired) (label : Label) (vector : List α)
    (level : Nat) : (g.append label vector level).Paired :=
  paired.congr (links_append g label vector level)

theorem Linked.append {g : Graph α} (linked : g.Linked) (label : Label) (vector : List α)
    (level : Nat) : (g.append label vector level).Linked :=
  linked.congr (links_append g label vector level)

theorem WithinDegree.append {g : Graph α} (within : g.WithinDegree) (label : Label)
    (vector : List α) (level : Nat) : (g.append label vector level).WithinDegree := fun j k => by
  rw [links_append]
  exact within j k

theorem Listed.append {g : Graph α} (listed : g.Listed) (label : Label) (vector : List α)
    (level : Nat) : (g.append label vector level).Listed := by
  have old : ∀ l, ∀ id ∈ g.idsOf l, (g.append label vector level).isLive id = true ∧
      (g.append label vector level).label? id = some l := by
    intro l id mem
    obtain ⟨live, own⟩ := listed l id mem
    have ne : id ≠ g.nodeCount := Nat.ne_of_lt (lt_nodeCount_of_isLive live)
    rw [isLive_append, label?_append, if_neg ne, live, Bool.or_true]
    exact ⟨rfl, own⟩
  intro l id mem
  rw [idsOf_append] at mem
  split at mem
  case isTrue same =>
    subst same
    rcases List.mem_append.1 mem with before | new
    · exact old label id before
    · rw [List.mem_singleton.1 new, isLive_append, label?_append, if_pos rfl]
      simp
  case isFalse => exact old l id mem

theorem Labelled.append {g : Graph α} (labelled : g.Labelled) {label : Label}
    (unmapped : g.config.multi = false → g.contains label = false) (vector : List α)
    (level : Nat) : (g.append label vector level).Labelled where
  mem_idsOf l id := by
    have beyond := label?_eq_none_of_le (Nat.le_refl g.nodeCount)
    have off : g.isLive g.nodeCount = false := by
      simp [isLive, nodeCount]
    rw [idsOf_append, isLive_append, label?_append]
    by_cases new : id = g.nodeCount
    · subst new
      have fresh := not_mem_idsOf_of_le labelled.listed (Nat.le_refl g.nodeCount) l
      by_cases same : label = l <;> simp [same, fresh]
    · have old := labelled.mem_idsOf l id
      by_cases same : label = l
      · simp [same, new, old]
      · simp [same, new, old]
  nodup l := by
    rw [idsOf_append]
    split
    · refine List.nodup_append.2 ⟨labelled.nodup label, List.pairwise_singleton .., ?_⟩
      rintro a mem b single rfl
      rw [List.mem_singleton] at single
      exact not_mem_idsOf_of_le labelled.listed (Nat.le_of_eq single.symm) label mem
    · exact labelled.nodup l
  nonempty l ids found := by
    simp only [Graph.append, LabelMap.find?_insert] at found
    split at found
    · cases found
      simp
    · exact labelled.nonempty l ids found
  single one l := by
    rw [idsOf_append]
    split
    · rw [idsOf_eq_nil (unmapped one)]
      exact Nat.le_refl 1
    · exact labelled.single one l

theorem Filled.append {g : Graph α} (filled : g.Filled) (label : Label) {vector : List α}
    (length : vector.length = g.config.dim.toNat) (level : Nat) :
    (g.append label vector level).Filled where
  aligned := by
    have grown : (g.append label vector level).vectors.size = g.vectors.size + vector.length :=
      Arena.size_extend vector
    rw [grown, nodeCount_append, filled.aligned, length, ← Nat.succ_mul]
    rfl
  tallied := by
    show g.markedCount = (g.nodes.push _).countP _
    rw [Array.countP_push, filled.tallied]
    rfl
  layered id lt := by
    rw [layerCount_append]
    split
    · exact Nat.succ_pos level
    case isFalse old =>
      rw [nodeCount_append] at lt
      exact filled.layered id (by omega)

theorem Stocked.append {g : Graph α} (stocked : g.Stocked) (label : Label) {vector : List α}
    (length : vector.length = g.config.dim.toNat) {level : Nat} (low : level ≤ Level.highest)
    (room : g.nodeCount < g.capacity.toNat) : (g.append label vector level).Stocked where
  toFilled := stocked.toFilled.append label length level
  few_layers id := by
    rw [layerCount_append]
    split
    · exact Nat.succ_le_succ low
    · exact stocked.few_layers id
  generation_lt id x there := by
    rw [generation?_append] at there
    show x < g.nextGeneration + 1
    split at there
    · cases there
      exact Nat.lt_succ_self _
    · exact Nat.lt_succ_of_lt (stocked.generation_lt id x there)
  generation_inj a b x at_a at_b := by
    rw [generation?_append] at at_a at_b
    split at at_a
    case isTrue new_a =>
      split at at_b
      case isTrue new_b => rw [new_a, new_b]
      case isFalse =>
        cases at_a
        exact absurd (stocked.generation_lt b _ at_b) (Nat.lt_irrefl _)
    case isFalse =>
      split at at_b
      case isTrue =>
        cases at_b
        exact absurd (stocked.generation_lt a _ at_a) (Nat.lt_irrefl _)
      case isFalse => exact stocked.generation_inj a b x at_a at_b
  fits := by
    rw [nodeCount_append]
    exact room
  whole_blocks := stocked.whole_blocks

/-! ### What is stored, and where searches start -/

/-- What a graph looks like from outside once a vector was stored in its next slot. -/
structure Stores (g : Graph α) (label : Label) (vector : List α) (h : Graph α) : Prop where
  config_eq : h.config = g.config
  capacity_eq : h.capacity = g.capacity
  journal_eq : h.journal = g.journal
  nodeCount_eq : h.nodeCount = g.nodeCount + 1
  markedCount_eq : h.markedCount = g.markedCount
  label?_eq (j : Nat) : h.label? j = if j = g.nodeCount then some label else g.label? j
  vector?_eq (j : Nat) : h.vector? j = if j = g.nodeCount then some vector else g.vector? j
  generation?_eq (j : Nat) :
    h.generation? j = if j = g.nodeCount then some g.nextGeneration else g.generation? j
  isLive_eq (j : Nat) : h.isLive j = (decide (j = g.nodeCount) || g.isLive j)
  isDeleted_eq (j : Nat) : h.isDeleted j = g.isDeleted j
  idsOf_eq (l : Label) :
    h.idsOf l = if label = l then g.idsOf label ++ [g.nodeCount] else g.idsOf l
  isolated (d : Nat) : g.isDeleted d = true → g.Isolated d → h.Isolated d

theorem Stores.of_rewired {g h : Graph α}
    (aligned : g.vectors.size = g.nodeCount * g.config.dim.toNat) {label : Label} {vector : List α}
    (length : vector.length = g.config.dim.toNat) {level : Nat}
    (rewired : Rewired (g.append label vector level) h)
    (isolated : ∀ d, d ≠ g.nodeCount → (g.append label vector level).isDeleted d = true →
      (g.append label vector level).Isolated d → h.Isolated d) : g.Stores label vector h where
  config_eq := rewired.config_eq
  capacity_eq := rewired.capacity_eq
  journal_eq := rewired.journal_eq
  nodeCount_eq := rewired.nodeCount_eq.trans (nodeCount_append ..)
  markedCount_eq := rewired.markedCount_eq
  label?_eq j := (rewired.label?_eq j).trans (label?_append ..)
  vector?_eq j := (rewired.vector?_eq j).trans (vector?_append aligned label length level j)
  generation?_eq j := (rewired.generation?_eq j).trans (generation?_append ..)
  isLive_eq j := (rewired.isLive_eq j).trans (isLive_append ..)
  isDeleted_eq j := (rewired.isDeleted_eq j).trans (isDeleted_append ..)
  idsOf_eq l := (rewired.idsOf_eq l).trans (idsOf_append ..)
  isolated d deleted alone := by
    apply isolated d (Nat.ne_of_lt (lt_nodeCount_of_isDeleted deleted))
    · rw [isDeleted_append]
      exact deleted
    · intro layer
      rw [links_append]
      exact alone layer

/-- The choice of the entry point does not show in what is stored. -/
theorem Stores.setEntry {g h : Graph α} {label : Label} {vector : List α}
    (stores : g.Stores label vector h) (id level : Nat) :
    g.Stores label vector (h.setEntry id level) :=
  ⟨stores.config_eq, stores.capacity_eq, stores.journal_eq, stores.nodeCount_eq,
    stores.markedCount_eq, stores.label?_eq, stores.vector?_eq, stores.generation?_eq,
    stores.isLive_eq, stores.isDeleted_eq, stores.idsOf_eq, stores.isolated⟩

/-- Where searches start does not matter to what else is asked of a graph. -/
theorem sturdy_reroot {h : Graph α} {entry : Option Nat} {level : Nat} (paired : h.Paired)
    (within : h.WithinDegree) (listed : h.Listed) (filled : h.Filled)
    (anchored : ({ h with entryPoint := entry, maxLevel := level } : Graph α).Anchored) :
    ({ h with entryPoint := entry, maxLevel := level } : Graph α).Sturdy where
  paired := paired.congr fun _ _ => rfl
  within := within
  listed := listed
  anchored := anchored
  filled := ⟨filled.aligned, filled.tallied, filled.layered⟩

theorem wellFormed_reroot {h : Graph α} {entry : Option Nat} {level : Nat}
    (usable : h.config.fault? = none) (linked : h.Linked) (within : h.WithinDegree)
    (labelled : h.Labelled) (stocked : h.Stocked)
    (rooted : ({ h with entryPoint := entry, maxLevel := level } : Graph α).Rooted) :
    ({ h with entryPoint := entry, maxLevel := level } : Graph α).WellFormed where
  usable := usable
  linked := linked.congr fun _ _ => rfl
  within := within
  labelled := labelled.congr rfl rfl rfl
  rooted := rooted
  stocked :=
    { aligned := stocked.aligned
      tallied := stocked.tallied
      layered := stocked.layered
      few_layers := stocked.few_layers
      generation_lt := stocked.generation_lt
      generation_inj := stocked.generation_inj
      fits := stocked.fits
      whole_blocks := stocked.whole_blocks }

section Entry

variable {g h : Graph α} {label : Label} {vector : List α} {level : Nat}

/-- A new node above all others, or the first live one, is a proper entry point. -/
theorem Anchored.setEntry_append (anchored : g.Anchored)
    (rewired : Rewired (g.append label vector level) h)
    (top : g.entryPoint = none ∨ g.maxLevel < level) :
    (h.setEntry g.nodeCount level).Anchored := by
  have new_layers : h.layerCount g.nodeCount = level + 1 := by
    rw [rewired.layerCount_eq, layerCount_append, if_pos rfl]
  refine ⟨fun id entry => ?_, fun id entry => ?_, fun absent => ?_, fun id live => ?_⟩
  · cases entry
    show h.isLive g.nodeCount = true
    rw [rewired.isLive_eq, isLive_append]
    simp
  · cases entry
    exact new_layers
  · cases absent
  · show h.layerCount id ≤ level + 1
    by_cases new : id = g.nodeCount
    · subst new
      exact Nat.le_of_eq new_layers
    · have live : g.isLive id = true := by
        have live : h.isLive id = true := live
        rw [rewired.isLive_eq, isLive_append] at live
        simpa [new] using live
      rw [rewired.layerCount_eq, layerCount_append, if_neg new]
      have below := anchored.below id live
      rcases top with absent | higher
      · rw [anchored.absent absent id] at live
        cases live
      · omega

/-- A new node that stands no higher than the entry point leaves it in place. -/
theorem Anchored.of_append (anchored : g.Anchored)
    (rewired : Rewired (g.append label vector level) h) (present : g.entryPoint ≠ none)
    (under : level ≤ g.maxLevel) : h.Anchored := by
  have entry_eq : h.entryPoint = g.entryPoint := rewired.entryPoint_eq
  have level_eq : h.maxLevel = g.maxLevel := rewired.maxLevel_eq
  refine ⟨fun id entry => ?_, fun id entry => ?_, fun absent => ?_, fun id live => ?_⟩
  · rw [rewired.isLive_eq, isLive_append]
    rw [entry_eq] at entry
    simp [anchored.live id entry]
  · rw [entry_eq] at entry
    have old : id ≠ g.nodeCount :=
      Nat.ne_of_lt (lt_nodeCount_of_isLive (anchored.live id entry))
    rw [rewired.layerCount_eq, layerCount_append, if_neg old, level_eq]
    exact anchored.level id entry
  · exact absurd (entry_eq ▸ absent) present
  · rw [level_eq, rewired.layerCount_eq, layerCount_append]
    split
    · omega
    case isFalse old =>
      rw [rewired.isLive_eq, isLive_append] at live
      exact anchored.below id (by simpa [old] using live)

end Entry

/-! ### Linking it -/

variable [Element α]

/-- Linking a node that has no edges yet is a run of edits, and the node becomes the entry point
when there is none or when it stands higher. Deleted nodes without edges stay without. -/
theorem wire_spec {g : Graph α} (paired : g.Paired) (within : g.WithinDegree) (id level : Nat)
    (entry : ∀ e, g.entryPoint = some e → g.Stands e g.maxLevel)
    (here : ∀ layer, layer ≤ level → g.Stands id layer) (fresh : g.Isolated id)
    (vector : List α) :
    ∃ h, g.Edits h ∧ h.WithinDegree ∧
      (∀ d, d ≠ id → g.isDeleted d = true → g.Isolated d → h.Isolated d) ∧
      g.wire id vector level =
        if g.entryPoint = none ∨ g.maxLevel < level then h.setEntry id level else h := by
  unfold wire
  cases start : g.entryOn? vector level with
  | none =>
      have absent : g.entryPoint = none := by simpa [entryOn?] using start
      refine ⟨g, .refl, within, fun _ _ _ isolated => isolated, ?_⟩
      rw [if_pos (.inl absent)]
  | some place =>
      have done := (Wiring.initial paired within entry here fresh start).foldl
        (wiredLayers_descending g level) vector
      refine ⟨((g.wiredLayers level).foldl (connectLayer id vector) (g, place)).1,
        done.edits, done.within,
        fun d ne deleted isolated =>
          Isolated.foldl_connectLayer (Ne.symm ne) vector _ deleted isolated, ?_⟩
      have present : g.entryPoint ≠ none := by
        intro absent
        simp [entryOn?, absent] at start
      simp only [present, false_or]
      rfl

/-- What linking a vector that was put into the next slot leads to. -/
theorem Sturdy.wire_append_spec {g : Graph α} (sturdy : g.Sturdy) (label : Label)
    {vector : List α} (length : vector.length = g.config.dim.toNat) (level : Nat) :
    ∃ h, (g.append label vector level).Edits h ∧ h.WithinDegree ∧ g.Stores label vector h ∧
      (g.append label vector level).wire g.nodeCount vector level =
        if g.entryPoint = none ∨ g.maxLevel < level then h.setEntry g.nodeCount level else h := by
  obtain ⟨h, edits, within, isolated, eq⟩ := wire_spec (sturdy.paired.append label vector level)
    (sturdy.within.append label vector level) g.nodeCount level
    (sturdy.anchored.stands_entry_append label vector level)
    (stands_append_self g label vector level) (isolated_append_self g label vector level) vector
  exact ⟨h, edits, within, .of_rewired sturdy.filled.aligned length edits.rewired isolated, eq⟩

/-- Storing a vector in the next slot and linking it. -/
theorem Sturdy.wire_append {g : Graph α} (sturdy : g.Sturdy) (label : Label) {vector : List α}
    (length : vector.length = g.config.dim.toNat) (level : Nat) :
    ((g.append label vector level).wire g.nodeCount vector level).Sturdy ∧
      g.Stores label vector ((g.append label vector level).wire g.nodeCount vector level) := by
  obtain ⟨h, edits, within, stores, eq⟩ := sturdy.wire_append_spec label length level
  have paired := edits.paired (sturdy.paired.append label vector level)
  have listed := (sturdy.listed.append label vector level).rewire edits.rewired
  have filled := (sturdy.filled.append label length level).rewire edits.rewired
  rw [eq]
  split
  case isTrue top =>
    exact ⟨sturdy_reroot paired within listed filled
      (sturdy.anchored.setEntry_append edits.rewired top), stores.setEntry ..⟩
  case isFalse under =>
    obtain ⟨present, le⟩ := not_or.1 under
    exact ⟨⟨paired, within, listed,
      sturdy.anchored.of_append edits.rewired present (Nat.not_lt.1 le), filled⟩, stores⟩

/-- Storing a vector in a free slot and linking it. -/
theorem WellFormed.wire_append {g : Graph α} (wf : g.WellFormed) {label : Label}
    (unmapped : g.config.multi = false → g.contains label = false) {vector : List α}
    (length : vector.length = g.config.dim.toNat) {level : Nat} (low : level ≤ Level.highest)
    (room : g.nodeCount < g.capacity.toNat) :
    ((g.append label vector level).wire g.nodeCount vector level).WellFormed ∧
      g.Stores label vector ((g.append label vector level).wire g.nodeCount vector level) := by
  obtain ⟨h, edits, within, stores, eq⟩ := wf.sturdy.wire_append_spec label length level
  have linked := edits.linked (wf.linked.append label vector level)
  have usable : h.config.fault? = none := by
    rw [stores.config_eq]
    exact wf.usable
  have labelled := (wf.labelled.append unmapped vector level).rewire edits.rewired
  have stocked := (wf.stocked.append label length low room).rewire edits.rewired
  have anchored := wf.rooted.toAnchored
  rw [eq]
  split
  case isTrue top =>
    have rooted : (h.setEntry g.nodeCount level).Rooted :=
      ⟨anchored.setEntry_append edits.rewired top, nofun⟩
    exact ⟨wellFormed_reroot usable linked within labelled stocked rooted, stores.setEntry ..⟩
  case isFalse under =>
    obtain ⟨present, le⟩ := not_or.1 under
    have still : h.entryPoint ≠ none := by
      rw [edits.rewired.entryPoint_eq]
      exact present
    have rooted : h.Rooted :=
      ⟨anchored.of_append edits.rewired present (Nat.not_lt.1 le), fun none => absurd none still⟩
    exact ⟨⟨usable, linked, within, labelled, rooted, stocked⟩, stores⟩

/-- An insertion succeeds exactly when the vector fits and a slot is free. -/
theorem insert_eq_ok {g : Graph α} (label : Label) {vector : List α}
    (fits : checkDimension g.config.dim.toNat vector.length = .ok ()) (room : g.isFull = false) :
    ∃ h, g.insert label vector = .ok (h, g.nodeCount) := by
  simp only [insert, fits, room]
  exact ⟨_, rfl⟩

/-- What an insertion that succeeds has done. -/
theorem eq_of_insert {g h : Graph α} {label : Label} {vector : List α} {id : Nat}
    (inserted : g.insert label vector = .ok (h, id)) :
    (g.config.metric.prepare vector).length = g.config.dim.toNat ∧
      g.nodeCount < g.capacity.toNat ∧ id = g.nodeCount ∧
      h = (g.append label (g.config.metric.prepare vector)
        (Level.draw g.config g.drawCount)).wire g.nodeCount (g.config.metric.prepare vector)
          (Level.draw g.config g.drawCount) := by
  unfold Graph.insert at inserted
  split at inserted
  · contradiction
  case h_2 fits =>
    split at inserted
    · contradiction
    case isFalse room =>
      simp only [Except.ok.injEq, Prod.mk.injEq] at inserted
      obtain ⟨rfl, rfl⟩ := inserted
      rw [Metric.length_prepare]
      exact ⟨(checkDimension_eq_ok_iff.1 fits).1, by simpa [isFull] using room, rfl, rfl⟩

theorem Sturdy.insert {g h : Graph α} (sturdy : g.Sturdy) {label : Label} {vector : List α}
    {id : Nat} (inserted : g.insert label vector = .ok (h, id)) :
    h.Sturdy ∧ g.Stores label (g.config.metric.prepare vector) h := by
  obtain ⟨length, _, _, rfl⟩ := eq_of_insert inserted
  exact sturdy.wire_append label length _

/-- An insertion lists the new node and no other. -/
theorem Labelled.insert {g h : Graph α} (labelled : g.Labelled) (sturdy : g.Sturdy) {label : Label}
    (unmapped : g.config.multi = false → g.contains label = false) {vector : List α} {id : Nat}
    (inserted : g.insert label vector = .ok (h, id)) : h.Labelled := by
  obtain ⟨length, _, _, rfl⟩ := eq_of_insert inserted
  obtain ⟨k, edits, _, _, eq⟩ := sturdy.wire_append_spec label length
    (Level.draw g.config g.drawCount)
  have labelled := (labelled.append unmapped _ _).rewire edits.rewired
  rw [eq]
  split
  · exact labelled.congr rfl rfl rfl
  · exact labelled

/-- An insertion is a run of edits to the edges. -/
theorem Linked.insert {g h : Graph α} (linked : g.Linked) (sturdy : g.Sturdy) {label : Label}
    {vector : List α} {id : Nat} (inserted : g.insert label vector = .ok (h, id)) : h.Linked := by
  obtain ⟨length, _, _, rfl⟩ := eq_of_insert inserted
  obtain ⟨k, edits, _, _, eq⟩ := sturdy.wire_append_spec label length
    (Level.draw g.config g.drawCount)
  have linked := edits.linked (linked.append label _ _)
  rw [eq]
  split
  · exact linked.congr fun _ _ => rfl
  · exact linked

theorem WellFormed.insert {g h : Graph α} (wf : g.WellFormed) {label : Label}
    (unmapped : g.config.multi = false → g.contains label = false) {vector : List α} {id : Nat}
    (inserted : g.insert label vector = .ok (h, id)) :
    h.WellFormed ∧ g.Stores label (g.config.metric.prepare vector) h ∧ id = g.nodeCount := by
  obtain ⟨length, room, same, rfl⟩ := eq_of_insert inserted
  obtain ⟨wf', stores⟩ := wf.wire_append unmapped length (Level.draw_le_highest ..) room
  exact ⟨wf', stores, same⟩

end Vicinity.Graph
