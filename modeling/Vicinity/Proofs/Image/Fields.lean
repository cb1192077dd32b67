import Vicinity.Image.Load
import Vicinity.Proofs.Image.Scan
import Vicinity.Proofs.LabelMap

/-!
The parts of an image are read back.

Each part of a graph that the writer puts into an image is read as that part, when its numbers fit
their fields: the header (`reads_header`), the parameters (`reads_parameters`), a node without its
vector (`reads_node`), a vector (`reads_vector`) and the label map (`reads_labels`). A version of
the format without the epsilon field is read with the usual epsilon.
-/

namespace Vicinity.Image

theorem ofTag?_tag (metric : Metric) : Metric.ofTag? metric.tag = some metric := by
  cases metric <;> rfl

/-! ### Vectors -/

theorem decodeMany_encodeAll {α : Type} [Element α] (xs : List α) :
    Element.decodeMany xs.length (Element.encodeAll xs) = xs := by
  induction xs with
  | nil => rfl
  | cons x xs ih =>
      have width : (Element.dataType α).width = (Element.encode x).length :=
        (Element.length_encode x).symm
      simp only [Element.encodeAll, List.flatMap_cons, List.length_cons, Element.decodeMany, width,
        List.take_left, List.drop_left, Element.decode_encode]
      rw [← Element.encodeAll, ih]

/-- Vectors are written one after the other, as they are laid out. -/
theorem encodeAll_flatten {α : Type} [Element α] (vectors : List (List α)) :
    Element.encodeAll vectors.flatten = vectors.flatMap Element.encodeAll := by
  rw [Element.encodeAll, ← List.flatMap_id, List.flatMap_assoc]
  rfl

theorem length_encodeAll {α : Type} [Element α] (xs : List α) :
    (Element.encodeAll xs).length = xs.length * (Element.dataType α).width := by
  induction xs with
  | nil => simp [Element.encodeAll]
  | cons x xs ih =>
      rw [Element.encodeAll, List.flatMap_cons, List.length_append, Element.length_encode,
        ← Element.encodeAll, ih, List.length_cons, Nat.succ_mul, Nat.add_comm]

theorem reads_vector {α : Type} [Element α] {dim : Nat} {vector : List α}
    (length : vector.length = dim) :
    Reads (scanVector dim) (Element.encodeAll vector) vector := by
  have reads := (reads_bytes (Element.encodeAll vector)).map (Element.decodeMany (α := α) dim)
  rwa [length_encodeAll, length, ← length, decodeMany_encodeAll, length] at reads

/-! ### Nodes -/

variable {α : Type}

theorem reads_links {l : Graph.Links} (out : Fits l.out) (incoming : Fits l.incoming) :
    Reads scanLinks (links l) l :=
  (reads_ids out).bind ((reads_ids incoming).bind_pure (.pure _))

/-- The numbers of a node fit their fields. -/
structure NodeFits (node : Graph.Node) : Prop where
  layered : node.layers ≠ []
  few_layers : node.layers.length < UInt32.size
  out : ∀ l ∈ node.layers, Fits l.out
  incoming : ∀ l ∈ node.layers, Fits l.incoming

/-- A node as it is read: its serial number is the slot. -/
def bareNode (id : Nat) (node : Graph.Node) : Graph.Node := { node with generation := id }

theorem reads_node {n : Graph.Node} (fits : NodeFits n) (id : Nat) :
    Reads (scanNode id) (node n) (bareNode id n) := by
  have layers := Reads.times_of_each (fun l => l) n.layers fun l mem =>
    reads_links (fits.out l mem) (fits.incoming l mem)
  rw [List.map_id'] at layers
  have layered : ¬n.layers.length = 0 := fun none => fits.layered (List.length_eq_zero_iff.1 none)
  refine (reads_word64 n.label).bind ((reads_flag n.deleted).bind ?_)
  refine (reads_unsigned_word32 fits.few_layers).bind (.skip layered ?_)
  exact layers.bind_pure (.pure _)

/-! ### Labels -/

/-- Entries whose labels ascend are put together in their order. -/
theorem reads_labelEntries {entries : List (Label × List Nat)} {read m : LabelMap (List Nat)}
    (whole : m.entries = read.entries ++ entries) (fits : ∀ entry ∈ entries, Fits entry.2) :
    Reads (scanLabels read entries.length) (entries.flatMap labelEntry) m := by
  induction entries generalizing read with
  | nil =>
      have same : read = m := LabelMap.ext_entries (by rw [whole, List.append_nil])
      rw [← same]
      exact .pure read
  | cons entry entries ih =>
      obtain ⟨label, ids⟩ := entry
      obtain ⟨entry_fits, fits⟩ := List.forall_mem_cons.1 fits
      have above : ∀ e ∈ read.entries, e.1 < label := by
        have ascending := m.ascending
        rw [whole] at ascending
        intro e mem
        exact (List.pairwise_append.1 ascending).2.2 e mem _ List.mem_cons_self
      have unlisted : ¬read.contains label = true := by
        rw [LabelMap.contains_of_above above]
        exact Bool.false_ne_true
      have inserted : m.entries = (read.insert label ids).entries ++ entries := by
        rw [LabelMap.entries_insert_of_above above, whole, List.append_assoc, List.singleton_append]
      rw [List.flatMap_cons, labelEntry, List.append_assoc]
      refine (reads_word64 label).bind ((reads_ids entry_fits).bind ?_)
      exact .skip unlisted (ih inserted fits)

theorem reads_labels {m : LabelMap (List Nat)} (fits : ∀ entry ∈ m.entries, Fits entry.2) :
    Reads (scanLabels .empty m.size) (m.entries.flatMap labelEntry) m :=
  reads_labelEntries rfl fits

/-! ### The front -/

/-- A version that is read. -/
def Supported (version : UInt32) : Prop := ¬version < oldestVersion ∧ ¬currentVersion < version

variable [Element α]

/-- All fields of a header are as they should be but for the dimension, which is looked at last. -/
theorem leads_header (g : Graph α) {version : UInt32} (supported : Supported version) :
    Leads (scanHeader (Element.dataType α)) (header g version)
      (if g.config.dim = 0 then Scan.reject .dimensionZero
      else if maxDimension < g.config.dim.toNat then
        Scan.reject (.dimensionTooLarge g.config.dim.toNat maxDimension)
      else pure ⟨version, .hnsw, Element.dataType α, g.config.dim⟩) := by
  obtain ⟨not_old, not_new⟩ := supported
  refine .bind (reads_word32 version) (.skip not_old (.skip not_new ?_))
  refine .bind (reads_word32 Algorithm.hnsw.tag) (.skip (by simp) ?_)
  refine .bind (reads_word32 (Element.dataType α).tag) (.skip (by simp) ?_)
  exact .bind_here (reads_word64 g.config.dim) rfl

theorem reads_header {g : Graph α} {version : UInt32} (supported : Supported version)
    (dim_pos : g.config.dim ≠ 0) (narrow : g.config.dim.toNat ≤ maxDimension) :
    Reads (scanHeader (Element.dataType α)) (header g version)
      ⟨version, .hnsw, Element.dataType α, g.config.dim⟩ :=
  (leads_header g supported).reads (.skip dim_pos (.skip (Nat.not_lt.2 narrow) (.pure _)))

/-- The epsilon that a graph has after it was stored in a version of the format: the usual one when
the version has no field for it. -/
def storedEpsilon (config : Graph.Config) (version : UInt32) : Binary64 :=
  if hasEpsilon version then config.epsilon
  else ({ dim := config.dim, metric := config.metric } : Graph.Config).epsilon

/-- The parameters that a graph has after it was stored in a version of the format. -/
def storedConfig (config : Graph.Config) (version : UInt32) : Graph.Config :=
  { config with epsilon := storedEpsilon config version }

theorem fault?_storedConfig (config : Graph.Config) (version : UInt32) :
    (storedConfig config version).fault? = config.fault? := rfl

/-- The version decides whether there is a field for epsilon; either way the scan goes on. -/
theorem leads_epsilon {β : Type} {config : Graph.Config} {version : UInt32}
    {next : Binary64 → Scan β} {back : List UInt8} {last : Scan β}
    (rest : Leads (next (storedEpsilon config version)) back last) :
    Leads
      (if hasEpsilon version = true then Binary64.mk <$> Scan.word64 >>= next
        else
          pure ({ dim := config.dim, metric := config.metric } : Graph.Config).epsilon >>= next)
      ((if hasEpsilon version then word64 config.epsilon.bits.toNat else []) ++ back) last := by
  unfold storedEpsilon at rest
  split
  case isTrue there =>
    rw [if_pos there] at rest
    exact .bind ((reads_word64 config.epsilon.bits).map Binary64.mk) rest
  case isFalse missing =>
    rw [if_neg missing] at rest
    exact .bind (.pure _) rest

/-- The numbers among the parameters fit their fields. -/
structure NumbersFit (g : Graph α) : Prop where
  few : g.nodeCount < noEntry
  level : g.maxLevel < UInt64.size
  entry : ∀ id, g.entryPoint = some id → id < noEntry

/-- All parameters are read before the first is looked at. -/
theorem leads_parameters {g : Graph α} (fits : NumbersFit g) (version : UInt32) :
    Leads (scanParameters ⟨version, .hnsw, Element.dataType α, g.config.dim⟩)
      (parameters g version)
      (match g.config.fault? with
      | some fault => Scan.reject (.parameters fault)
      | none =>
        if g.capacity.toNat < g.nodeCount || noEntry ≤ g.nodeCount then
          Scan.reject (.countOverCapacity g.nodeCount g.capacity.toNat)
        else pure
          { config := storedConfig g.config version
            capacity := g.capacity
            drawCount := g.drawCount
            entryPoint := g.entryPoint
            maxLevel := g.maxLevel
            count := g.nodeCount }) := by
  have entry_small : g.entryPoint.getD noEntry < UInt32.size := by
    cases start : g.entryPoint with
    | none => decide
    | some id => exact Nat.lt_trans (fits.entry id start) (by decide)
  have entry_back : (if g.entryPoint.getD noEntry = noEntry then none
      else some (g.entryPoint.getD noEntry)) = g.entryPoint := by
    cases start : g.entryPoint with
    | none => rfl
    | some id => exact if_neg (Nat.ne_of_lt (fits.entry id start))
  have count_small : g.nodeCount < UInt64.size := Nat.lt_trans fits.few (by decide)
  refine .bind (reads_word32 g.config.metric.tag) ?_
  rw [ofTag?_tag]
  refine .bind (reads_word64 g.config.blockSize) (.bind (reads_word64 g.capacity) ?_)
  refine .bind (reads_word64 g.config.m) (.bind (reads_word64 g.config.efConstruction) ?_)
  refine .bind (reads_word64 g.config.efRuntime) (leads_epsilon ?_)
  refine .bind (reads_flag g.config.multi) (.bind (reads_word64 g.config.levelSeed) ?_)
  refine .bind (reads_word64 g.drawCount) (.bind (reads_unsigned_word32 entry_small) ?_)
  refine .bind (reads_unsigned_word64 fits.level) ?_
  refine .bind_here (reads_unsigned_word64 count_small) ?_
  dsimp only
  rw [entry_back]
  rfl

/-- The parameters are usable, and their numbers fit their fields and the capacity. -/
structure ParametersFit (g : Graph α) : Prop extends NumbersFit g where
  usable : g.config.fault? = none
  room : g.nodeCount ≤ g.capacity.toNat

theorem reads_parameters {g : Graph α} (fits : ParametersFit g) (version : UInt32) :
    Reads (scanParameters ⟨version, .hnsw, Element.dataType α, g.config.dim⟩)
      (parameters g version)
      { config := storedConfig g.config version
        capacity := g.capacity
        drawCount := g.drawCount
        entryPoint := g.entryPoint
        maxLevel := g.maxLevel
        count := g.nodeCount } := by
  refine (leads_parameters fits.toNumbersFit version).reads ?_
  rw [fits.usable]
  exact .skip (by simpa using ⟨fits.room, fits.few⟩) (.pure _)

end Vicinity.Image
