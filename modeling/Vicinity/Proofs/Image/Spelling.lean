import Mathlib.Data.List.Forall2
import Vicinity.Proofs.Image.Fields

/-!
The spellings of an image.

Loading is not as strict as it might be. Any byte but zero will do for a flag that is set, and the
labels may come in any order. Everything else in an image of the current version has one spelling:
what a scanner takes off the front of its input is what it read in some spelling (`Accepts`), and
different spellings are different bytes (`spelled_inj`). So a loaded graph is written back as the
bytes it was read from exactly when these had 0 or 1 for every flag and the labels in ascending
order (`spelling_of_readFrom`). Loading does not insist on that (`otherwise_written_back`).
-/

namespace Vicinity.Image

/-! ### What a scanner accepts -/

/-- Whatever the scanner reads, it takes off the front of the input, and the bytes it took spell it
in the given sense. -/
def Accepts {β : Type} (scan : Scan β) (spells : List UInt8 → β → Prop) : Prop :=
  ∀ input b rest, scan input = .ok (b, rest) → ∃ front, input = front ++ rest ∧ spells front b

namespace Accepts

variable {β γ : Type} {spells : List UInt8 → γ → Prop}

theorem pure {c : γ} (holds : spells [] c) : Accepts (Pure.pure c) spells := by
  rintro input b rest ⟨⟩
  exact ⟨[], rfl, holds⟩

/-- A refusal reads nothing, whatever was to come after it. -/
theorem fail (fault : LoadFault) (next : β → Scan γ) :
    Accepts (Scan.fail fault >>= next) spells := by
  rintro input c rest ⟨⟩

theorem reject (cause : Inconsistency) : Accepts (Scan.reject cause) spells := by
  rintro input b rest ⟨⟩

theorem bind {scan : Scan β} {next : β → Scan γ} {first : List UInt8 → β → Prop}
    (accepts : Accepts scan first)
    (later : ∀ front b, first front b → Accepts (next b) fun back c => spells (front ++ back) c) :
    Accepts (scan >>= next) spells := by
  intro input c rest done
  obtain ⟨b, between, here, there⟩ := bind_eq_ok done
  obtain ⟨front, rfl, spelled⟩ := accepts input b between here
  obtain ⟨back, rfl, whole⟩ := later front b spelled between c rest there
  exact ⟨front ++ back, (List.append_assoc ..).symm, whole⟩

theorem map {scan : Scan β} {first : List UInt8 → β → Prop} (accepts : Accepts scan first)
    {f : β → γ} (holds : ∀ front b, first front b → spells front (f b)) :
    Accepts (f <$> scan) spells := by
  intro input c rest done
  obtain ⟨b, here, rfl⟩ := map_eq_ok done
  obtain ⟨front, whole, spelled⟩ := accepts input b rest here
  exact ⟨front, whole, holds front b spelled⟩

theorem ite {condition : Prop} [Decidable condition] {first second : Scan γ}
    (here : condition → Accepts first spells) (there : ¬condition → Accepts second spells) :
    Accepts (if condition then first else second) spells := by
  split
  case isTrue met => exact here met
  case isFalse unmet => exact there unmet

/-- What passes a check goes on. -/
theorem skip {condition : Prop} [Decidable condition] {fault : LoadFault} {next : β → Scan γ}
    {go : Scan γ} (passes : ¬condition → Accepts go spells) :
    Accepts (if condition then Scan.fail fault >>= next else go) spells :=
  ite (fun _ => fail fault next) passes

theorem weaken {scan : Scan γ} {first : List UInt8 → γ → Prop} (accepts : Accepts scan first)
    (weaker : ∀ front c, first front c → spells front c) : Accepts scan spells := by
  intro input c rest done
  obtain ⟨front, whole, spelled⟩ := accepts input c rest done
  exact ⟨front, whole, weaker front c spelled⟩

/-! ### Fields -/

theorem bytes (count : Nat) :
    Accepts (Scan.bytes count) fun front b => front = b ∧ b.length = count := by
  intro input b rest done
  unfold Scan.bytes at done
  dsimp only at done
  split at done
  case isTrue => cases done
  case isFalse enough =>
    cases done
    refine ⟨input.take count, (List.take_append_drop count input).symm, rfl, ?_⟩
    rw [List.length_take] at enough ⊢
    omega

theorem unsigned (width : Nat) : Accepts (Scan.unsigned width) fun front n =>
    front = LittleEndian.encode width n ∧ n < 1 <<< (8 * width) := by
  refine (bytes width).map ?_
  rintro front _ ⟨rfl, rfl⟩
  exact ⟨(LittleEndian.encode_decode front).symm, LittleEndian.decode_lt front⟩

theorem word32 : Accepts Scan.word32 fun front w => front = Image.word32 w.toNat := by
  refine (unsigned 4).map ?_
  rintro _ n ⟨rfl, small⟩
  rw [UInt32.toNat_ofNat_of_lt' small, Image.word32]

theorem word64 : Accepts Scan.word64 fun front w => front = Image.word64 w.toNat := by
  refine (unsigned 8).map ?_
  rintro _ n ⟨rfl, small⟩
  rw [UInt64.toNat_ofNat_of_lt' small, Image.word64]

/-- A flag has one spelling for false and any other for true. -/
theorem flag :
    Accepts Scan.flag fun front b => ∃ byte : UInt8, front = [byte] ∧ (byte != 0) = b := by
  refine (unsigned 1).map ?_
  rintro _ n ⟨rfl, small⟩
  have back : (UInt8.ofNat n).toNat = n := UInt8.toNat_ofNat_of_lt' small
  refine ⟨UInt8.ofNat n, rfl, ?_⟩
  rw [Bool.eq_iff_iff, bne_iff_ne, bne_iff_ne, Ne, ← UInt8.toNat_inj, back]
  rfl

/-- As many items as announced, one after the other. -/
theorem times {item : Nat → Scan γ} (each : ∀ i, Accepts (item i) spells) (first count : Nat) :
    Accepts (Scan.times item first count) fun front cs =>
      cs.length = count ∧ ∃ fronts, front = fronts.flatten ∧ List.Forall₂ spells fronts cs := by
  induction count generalizing first with
  | zero => exact .pure ⟨rfl, [], rfl, .nil⟩
  | succ count ih =>
      refine .bind (each first) fun here c spelled => .bind (ih (first + 1)) ?_
      rintro _ cs ⟨length, fronts, rfl, all⟩
      refine .pure ⟨by rw [List.length_cons, length], here :: fronts, ?_, .cons spelled all⟩
      rw [List.append_nil, List.flatten_cons]

/-- Items that have one spelling. -/
theorem times_write {item : Nat → Scan γ} {write : γ → List UInt8} {good : γ → Prop}
    (each : ∀ i, Accepts (item i) fun front c => front = write c ∧ good c) (first count : Nat) :
    Accepts (Scan.times item first count) fun front cs =>
      cs.length = count ∧ front = cs.flatMap write ∧ ∀ c ∈ cs, good c := by
  refine (times each first count).weaken ?_
  rintro _ cs ⟨length, fronts, rfl, all⟩
  refine ⟨length, ?_⟩
  clear length
  induction all with
  | nil => exact ⟨rfl, fun _ mem => by cases mem⟩
  | cons here _ ih =>
      obtain ⟨rfl, fine⟩ := here
      rw [List.flatten_cons, List.flatMap_cons, ih.1]
      exact ⟨rfl, List.forall_mem_cons.2 ⟨fine, ih.2⟩⟩

/-- Items of which nothing else is known. -/
theorem times_of_each {item : Scan γ} {write : γ → List UInt8}
    (each : Accepts item fun front c => front = write c) (count : Nat) :
    Accepts (Scan.times (fun _ => item) 0 count) fun front cs =>
      cs.length = count ∧ front = cs.flatMap write := by
  have certain : Accepts item fun front c => front = write c ∧ True :=
    each.weaken fun _ _ spelled => ⟨spelled, trivial⟩
  exact (times_write (fun _ => certain) 0 count).weaken fun _ _ ⟨length, spelled, _⟩ =>
    ⟨length, spelled⟩

theorem ids : Accepts Scan.ids fun front list => front = Image.ids list ∧ Fits list := by
  refine .bind (unsigned 4) ?_
  rintro _ count ⟨rfl, short⟩
  refine (times_write (fun _ => unsigned 4) 0 count).weaken ?_
  rintro _ list ⟨rfl, rfl, small⟩
  exact ⟨rfl, short, small⟩

end Accepts

/-! ### Parts of an image with other flag bytes -/

/-- The byte of a flag as it is written. -/
def flagByte (b : Bool) : UInt8 := if b then 1 else 0

/-- The parameters as an image of the current version has them, with a byte for the flag. -/
def spelledParameters (p : Parameters) (multi : UInt8) : List UInt8 :=
  word32 p.config.metric.tag.toNat ++ (word64 p.config.blockSize.toNat ++
    (word64 p.capacity.toNat ++ (word64 p.config.m.toNat ++
    (word64 p.config.efConstruction.toNat ++ (word64 p.config.efRuntime.toNat ++
    (word64 p.config.epsilon.bits.toNat ++ ([multi] ++ (word64 p.config.levelSeed.toNat ++
    (word64 p.drawCount.toNat ++ (word32 (p.entryPoint.getD noEntry) ++
    (word64 p.maxLevel ++ word64 p.count)))))))))))

/-- A node, with a byte for its mark. -/
def spelledNode (deleted : UInt8) (n : Graph.Node) : List UInt8 :=
  word64 n.label.toNat ++ ([deleted] ++
    (word32 n.layers.length ++ n.layers.flatMap links))

theorem tag_of_ofTag? {tag : UInt32} {metric : Metric} (known : Metric.ofTag? tag = some metric) :
    metric.tag = tag := by
  simpa using List.find?_some known

theorem accepts_scanParameters {header : Header} (current : hasEpsilon header.version = true) :
    Accepts (scanParameters header) fun front p => p.config.dim = header.dim ∧
      ∃ multi, front = spelledParameters p multi ∧ (multi != 0) = p.config.multi := by
  refine .bind .word32 ?_
  rintro _ tag rfl
  dsimp only
  split
  case h_2 => exact .reject _
  case h_1 metric known =>
    rw [← tag_of_ofTag? known]
    refine .bind .word64 ?_
    rintro _ blockSize rfl
    refine .bind .word64 ?_
    rintro _ capacity rfl
    refine .bind .word64 ?_
    rintro _ m rfl
    refine .bind .word64 ?_
    rintro _ efConstruction rfl
    refine .bind .word64 ?_
    rintro _ efRuntime rfl
    rw [if_pos current]
    have double : Accepts (Binary64.mk <$> Scan.word64) fun front x =>
        front = word64 x.bits.toNat := .map .word64 fun _ _ spelled => spelled
    refine .bind double ?_
    rintro _ epsilon rfl
    refine .bind .flag ?_
    rintro _ multi ⟨byte, rfl, byte_eq⟩
    refine .bind .word64 ?_
    rintro _ levelSeed rfl
    refine .bind .word64 ?_
    rintro _ drawCount rfl
    refine .bind (.unsigned 4) ?_
    rintro _ entry ⟨rfl, entry_small⟩
    refine .bind (.unsigned 8) ?_
    rintro _ maxLevel ⟨rfl, _⟩
    refine .bind (.unsigned 8) ?_
    rintro _ count ⟨rfl, _⟩
    split
    case h_1 => exact .reject _
    case h_2 =>
      refine .skip fun _ => .pure ⟨rfl, byte, ?_, byte_eq⟩
      have entry_eq : (if entry = noEntry then none else some entry).getD noEntry = entry := by
        split
        case isTrue none => exact none.symm
        case isFalse => rfl
      rw [spelledParameters, entry_eq, List.append_nil]
      rfl

theorem accepts_scanLinks : Accepts scanLinks fun front l => front = links l := by
  refine .bind .ids ?_
  rintro _ out ⟨rfl, _⟩
  refine .bind .ids ?_
  rintro _ incoming ⟨rfl, _⟩
  refine .pure ?_
  rw [List.append_nil, links]

theorem accepts_scanNode (id : Nat) :
    Accepts (scanNode id) fun front n =>
      ∃ deleted, front = spelledNode deleted n ∧ (deleted != 0) = n.deleted := by
  refine .bind .word64 ?_
  rintro _ label rfl
  refine .bind .flag ?_
  rintro _ deleted ⟨byte, rfl, byte_eq⟩
  refine .bind (.unsigned 4) ?_
  rintro _ layerCount ⟨rfl, _⟩
  refine .skip fun _ => ?_
  refine .bind (.times_of_each accepts_scanLinks layerCount) ?_
  rintro _ layers ⟨length, rfl⟩
  refine .pure ⟨byte, ?_, byte_eq⟩
  rw [List.append_nil, spelledNode, length, word32]

/-- The nodes of an image, each with a byte for its mark. -/
theorem accepts_nodes (count : Nat) :
    Accepts (Scan.times scanNode 0 count) fun front nodes =>
      nodes.length = count ∧ ∃ deleted : List UInt8,
        front = (List.zipWith spelledNode deleted nodes).flatten ∧
        deleted.map (· != 0) = nodes.map (·.deleted) := by
  refine (Accepts.times accepts_scanNode 0 count).weaken ?_
  rintro _ nodes ⟨length, fronts, rfl, all⟩
  refine ⟨length, ?_⟩
  clear length
  induction all with
  | nil => exact ⟨[], rfl, rfl⟩
  | cons here _ ih =>
      obtain ⟨byte, rfl, byte_eq⟩ := here
      obtain ⟨bytes, fronts_eq, bytes_eq⟩ := ih
      refine ⟨byte :: bytes, ?_, ?_⟩
      · rw [List.flatten_cons, fronts_eq, List.zipWith_cons_cons, List.flatten_cons]
      · rw [List.map_cons, List.map_cons, byte_eq, bytes_eq]

/-- The labels of an image, in any order but each only once. -/
theorem accepts_scanLabels (map : LabelMap (List Nat)) (count : Nat) :
    Accepts (scanLabels map count) fun front labels => ∃ entries : List (Label × List Nat),
      front = entries.flatMap labelEntry ∧ entries.length = count ∧
      (∀ entry ∈ entries, Fits entry.2) ∧ labels.entries.Perm (map.entries ++ entries) := by
  induction count generalizing map with
  | zero =>
      refine .pure ⟨[], rfl, rfl, List.forall_mem_nil _, ?_⟩
      rw [List.append_nil]
  | succ count ih =>
      refine .bind .word64 ?_
      rintro _ label rfl
      refine .bind .ids ?_
      rintro _ ids ⟨rfl, fits⟩
      refine .skip fun unlisted => (ih (map.insert label ids)).weaken ?_
      rintro _ labels ⟨entries, rfl, length, all_fit, perm⟩
      refine ⟨(label, ids) :: entries, ?_, ?_, List.forall_mem_cons.2 ⟨fits, all_fit⟩, ?_⟩
      · rw [List.flatMap_cons, labelEntry, List.append_assoc]
      · rw [List.length_cons, length]
      · have inserted := LabelMap.perm_entries_insert (Bool.eq_false_iff.2 unlisted) ids
        exact perm.trans ((inserted.append_right entries).trans List.perm_middle.symm)

section Vectors

variable {α : Type} [Element α]

theorem encodeAll_decodeMany (dim : Nat) {bytes : List UInt8}
    (length : bytes.length = dim * (Element.dataType α).width) :
    Element.encodeAll (Element.decodeMany (α := α) dim bytes) = bytes := by
  induction dim generalizing bytes with
  | zero =>
      rw [Nat.zero_mul] at length
      rw [List.eq_nil_of_length_eq_zero length]
      rfl
  | succ dim ih =>
      rw [Nat.succ_mul] at length
      have first : (bytes.take (Element.dataType α).width).length = (Element.dataType α).width := by
        rw [List.length_take]
        omega
      have others : (bytes.drop (Element.dataType α).width).length =
          dim * (Element.dataType α).width := by
        rw [List.length_drop]
        omega
      rw [Element.decodeMany, Element.encodeAll, List.flatMap_cons, Element.encode_decode first,
        ← Element.encodeAll, ih others, List.take_append_drop]

theorem accepts_scanVector (dim : Nat) :
    Accepts (scanVector (α := α) dim) fun front vector => front = Element.encodeAll vector := by
  refine (Accepts.bytes _).map ?_
  rintro front _ ⟨rfl, length⟩
  exact (encodeAll_decodeMany dim length).symm

end Vectors

/-! ### Whole images -/

/-- What an image leaves open: the byte of each flag and the order of the labels. -/
structure Spelling where
  multi : UInt8
  deleted : List UInt8
  entries : List (Label × List Nat)

variable {α : Type}

/-- The parameters in an image of a graph. -/
def parametersOf (g : Graph α) : Parameters where
  config := g.config
  capacity := g.capacity
  drawCount := g.drawCount
  entryPoint := g.entryPoint
  maxLevel := g.maxLevel
  count := g.nodeCount

/-- The spelling in which a graph is written. -/
def Spelling.written (g : Graph α) : Spelling where
  multi := flagByte g.config.multi
  deleted := g.nodes.toList.map fun n => flagByte n.deleted
  entries := g.labels.entries

/-- A spelling says of a graph what its own fields say. -/
structure Spelling.Spells (s : Spelling) (g : Graph α) : Prop where
  multi : (s.multi != 0) = g.config.multi
  deleted : s.deleted.map (· != 0) = g.nodes.toList.map (·.deleted)
  entries : s.entries.Perm g.labels.entries

/-- Every flag is 0 or 1, and the labels ascend. -/
structure Spelling.Canonical (s : Spelling) : Prop where
  multi : s.multi ≤ 1
  deleted : ∀ byte ∈ s.deleted, byte ≤ 1
  ascending : s.entries.Pairwise (·.1 < ·.1)

theorem flagByte_le (b : Bool) : flagByte b ≤ 1 := by
  cases b <;> decide

theorem flagByte_bne (b : Bool) : (flagByte b != 0) = b := by
  cases b <;> rfl

theorem eq_flagByte {byte : UInt8} (small : byte ≤ 1) : byte = flagByte (byte != 0) := by
  have either : byte = 0 ∨ byte = 1 := by
    rw [← UInt8.toNat_inj, ← UInt8.toNat_inj]
    have : byte.toNat ≤ 1 := UInt8.le_iff_toNat_le.1 small
    change byte.toNat = 0 ∨ byte.toNat = 1
    omega
  rcases either with rfl | rfl <;> rfl

namespace Spelling

theorem canonical_written (g : Graph α) : (written g).Canonical where
  multi := flagByte_le _
  deleted byte mem := by
    obtain ⟨n, _, rfl⟩ := List.mem_map.1 mem
    exact flagByte_le _
  ascending := g.labels.ascending

theorem spells_written (g : Graph α) : (written g).Spells g where
  multi := flagByte_bne _
  deleted := by
    rw [written, List.map_map]
    exact List.map_congr_left fun n _ => flagByte_bne n.deleted
  entries := .refl _

/-- A canonical spelling of a graph is the one in which it is written. -/
theorem Spells.eq_written_iff {s : Spelling} {g : Graph α} (spells : s.Spells g) :
    s = written g ↔ s.Canonical := by
  constructor
  · rintro rfl
    exact canonical_written g
  · intro canonical
    have multi : s.multi = flagByte g.config.multi := by
      rw [← spells.multi]
      exact eq_flagByte canonical.multi
    have deleted : s.deleted = g.nodes.toList.map fun n => flagByte n.deleted := by
      calc s.deleted = s.deleted.map fun byte => flagByte (byte != 0) := by
            conv_lhs => rw [← List.map_id s.deleted]
            exact List.map_congr_left fun byte mem => eq_flagByte (canonical.deleted byte mem)
        _ = (s.deleted.map (· != 0)).map flagByte := by rw [List.map_map]; rfl
        _ = g.nodes.toList.map fun n => flagByte n.deleted := by
            rw [spells.deleted, List.map_map]
            rfl
    have entries : s.entries = g.labels.entries :=
      List.Perm.eq_of_pairwise (fun _ _ _ _ lt gt => absurd gt (UInt64.lt_asymm lt))
        canonical.ascending g.labels.ascending spells.entries
    obtain ⟨_, _, _⟩ := s
    cases multi
    cases deleted
    cases entries
    rfl

end Spelling

/-! ### One spelling for each choice -/

theorem spelledParameters_inj {p : Parameters} {a b : UInt8} {x y : List UInt8}
    (same : spelledParameters p a ++ x = spelledParameters p b ++ y) : a = b ∧ x = y := by
  simpa [spelledParameters] using same

theorem spelledNodes_inj {nodes : List Graph.Node} {as bs x y : List UInt8}
    (length_as : as.length = nodes.length) (length_bs : bs.length = nodes.length)
    (same : (List.zipWith spelledNode as nodes).flatten ++ x =
      (List.zipWith spelledNode bs nodes).flatten ++ y) : as = bs ∧ x = y := by
  induction nodes generalizing as bs with
  | nil =>
      cases List.eq_nil_of_length_eq_zero length_as
      cases List.eq_nil_of_length_eq_zero length_bs
      exact ⟨rfl, same⟩
  | cons n nodes ih =>
      obtain ⟨a, as, rfl⟩ := List.exists_cons_of_length_eq_add_one length_as
      obtain ⟨b, bs, rfl⟩ := List.exists_cons_of_length_eq_add_one length_bs
      have rest : a = b ∧ (List.zipWith spelledNode as nodes).flatten ++ x =
          (List.zipWith spelledNode bs nodes).flatten ++ y := by
        simpa [spelledNode] using same
      obtain ⟨rfl, rest⟩ := rest
      obtain ⟨rfl, rfl⟩ := ih (Nat.succ.inj length_as) (Nat.succ.inj length_bs) rest
      exact ⟨rfl, rfl⟩

/-- What is read from the front determines what is left. -/
theorem Reads.inj {β : Type} {scan : Scan β} {front back x y : List UInt8} {b c : β}
    (first : Reads scan front b) (second : Reads scan back c) (same : front ++ x = back ++ y) :
    b = c ∧ x = y := by
  have result := first x
  rw [same, second y] at result
  cases result
  exact ⟨rfl, rfl⟩

theorem reads_labelEntry {entry : Label × List Nat} (fits : Fits entry.2) :
    Reads (Scan.word64 >>= fun label => Prod.mk label <$> Scan.ids) (labelEntry entry) entry :=
  (reads_word64 entry.1).bind ((reads_ids fits).map _)

theorem labelEntries_inj {es fs : List (Label × List Nat)} (length : es.length = fs.length)
    (fits_es : ∀ e ∈ es, Fits e.2) (fits_fs : ∀ f ∈ fs, Fits f.2)
    (same : es.flatMap labelEntry = fs.flatMap labelEntry) : es = fs := by
  induction es generalizing fs with
  | nil => exact (List.eq_nil_of_length_eq_zero length.symm).symm
  | cons e es ih =>
      obtain ⟨f, fs, rfl⟩ := List.exists_cons_of_length_eq_add_one length.symm
      obtain ⟨fits_e, later_es⟩ := List.forall_mem_cons.1 fits_es
      obtain ⟨fits_f, later_fs⟩ := List.forall_mem_cons.1 fits_fs
      rw [List.flatMap_cons, List.flatMap_cons] at same
      obtain ⟨rfl, rest⟩ := (reads_labelEntry fits_e).inj (reads_labelEntry fits_f) same
      rw [ih (Nat.succ.inj length) later_es later_fs rest]

variable [Element α]

/-- An image of the current version after its header, in a spelling. -/
def spelledPayload (g : Graph α) (s : Spelling) : List UInt8 :=
  spelledParameters (parametersOf g) s.multi ++
    ((List.zipWith spelledNode s.deleted g.nodes.toList).flatten ++
    (Element.encodeAll g.vectors.toList ++
    (word64 s.entries.length ++ s.entries.flatMap labelEntry)))

/-- The image of a graph in a spelling. -/
def spelled (g : Graph α) (s : Spelling) : List UInt8 :=
  header g currentVersion ++ spelledPayload g s

theorem spelled_written (g : Graph α) : spelled g (.written g) = write g := by
  have nodes : (List.zipWith spelledNode (g.nodes.toList.map fun n => flagByte n.deleted)
      g.nodes.toList).flatten = g.nodes.toList.flatMap node := by
    rw [List.zipWith_map_left, List.zipWith_self]
    rfl
  rw [spelled, spelledPayload, Spelling.written, nodes]
  rfl

/-- Different spellings are different bytes. -/
theorem spelled_inj {g : Graph α} {s t : Spelling} (spells_s : s.Spells g) (spells_t : t.Spells g)
    (fits : ∀ entry ∈ s.entries, Fits entry.2) (same : spelled g s = spelled g t) : s = t := by
  have payload : spelledPayload g s = spelledPayload g t := List.append_cancel_left same
  obtain ⟨multi, payload⟩ := spelledParameters_inj payload
  have counted {u : Spelling} (spells : u.Spells g) : u.deleted.length = g.nodes.toList.length := by
    have lengths := congrArg List.length spells.deleted
    rwa [List.length_map, List.length_map] at lengths
  obtain ⟨deleted, payload⟩ := spelledNodes_inj (counted spells_s) (counted spells_t) payload
  have perm : s.entries.Perm t.entries := spells_s.entries.trans spells_t.entries.symm
  rw [perm.length_eq] at payload
  have bytes := List.append_cancel_left (List.append_cancel_left payload)
  have entries : s.entries = t.entries :=
    labelEntries_inj perm.length_eq fits (fun entry mem => fits entry (perm.mem_iff.2 mem)) bytes
  obtain ⟨_, _, _⟩ := s
  cases multi
  cases deleted
  cases entries
  rfl

/-! ### Reading a whole image -/

theorem accepts_scanHeader (stored : DataType) :
    Accepts (scanHeader stored) fun front header =>
      front = word32 header.version.toNat ++ (word32 Algorithm.hnsw.tag.toNat ++
        (word32 stored.tag.toNat ++ word64 header.dim.toNat)) := by
  refine .bind .word32 ?_
  rintro _ version rfl
  refine .skip fun _ => .skip fun _ => .bind .word32 ?_
  rintro _ algorithmTag rfl
  refine .skip fun algorithm => .bind .word32 ?_
  rintro _ typeTag rfl
  refine .skip fun type => .bind .word64 ?_
  rintro _ dim rfl
  refine .skip fun _ => .skip fun _ => .pure ?_
  rw [bne_iff_ne, Ne, not_not] at algorithm type
  rw [algorithm, type, List.append_nil]

/-- After the header of an image of the current version comes the graph in some spelling. -/
theorem accepts_scanPayload {header : Header} (current : hasEpsilon header.version = true) :
    Accepts (scanPayload (α := α) header) fun front g => g.config.dim = header.dim ∧
      ∃ s : Spelling, s.Spells g ∧ (∀ entry ∈ s.entries, Fits entry.2) ∧
        front = spelledPayload g s := by
  refine .bind (accepts_scanParameters current) ?_
  rintro _ p ⟨dim_eq, multi, rfl, multi_eq⟩
  refine .bind (accepts_nodes p.count) ?_
  rintro _ nodes ⟨node_count, deleted, rfl, deleted_eq⟩
  refine .bind (.times_of_each (accepts_scanVector header.dim.toNat) p.count) ?_
  rintro _ vectors ⟨vector_count, rfl⟩
  refine .bind (.unsigned 8) ?_
  rintro _ labelCount ⟨rfl, _⟩
  refine .bind (accepts_scanLabels .empty labelCount) ?_
  rintro _ labels ⟨entries, rfl, entry_count, fits, perm⟩
  dsimp only
  split
  case h_1 => exact .reject _
  case h_2 =>
    refine .pure ⟨dim_eq, ⟨multi, deleted, entries⟩, ⟨multi_eq, deleted_eq, perm.symm⟩, fits, ?_⟩
    rw [spelledPayload, encodeAll_flatten, List.append_nil, ← entry_count]
    simp only [parametersOf, Graph.nodeCount, List.size_toArray, node_count]
    rfl

/-- Bytes of the current version from which a graph is read are the graph in some spelling. They are
the bytes as which it is written exactly when the spelling is canonical. -/
theorem spelling_of_readFrom {bytes rest : List UInt8} {g : Graph α}
    (current : word32 currentVersion.toNat <+: bytes) (read : readFrom bytes = .ok (g, rest)) :
    ∃ s : Spelling, s.Spells g ∧ bytes = spelled g s ++ rest ∧
      (bytes = write g ++ rest ↔ s.Canonical) := by
  obtain ⟨header, between, front, back⟩ := bind_eq_ok read
  obtain ⟨_, rfl, rfl⟩ := accepts_scanHeader _ _ header between front
  have version : header.version = currentVersion := by
    obtain ⟨tail, whole⟩ := current
    rw [List.append_assoc] at whole
    exact ((reads_word32 currentVersion).inj (reads_word32 header.version) whole).1.symm
  have epsilon : hasEpsilon header.version = true := by
    rw [version]
    rfl
  obtain ⟨_, rfl, dim_eq, s, spells, fits, rfl⟩ :=
    accepts_scanPayload epsilon between g rest back
  have start : word32 header.version.toNat ++ (word32 Algorithm.hnsw.tag.toNat ++
      (word32 (Element.dataType α).tag.toNat ++ word64 header.dim.toNat)) =
        Image.header g currentVersion := by
    rw [version, ← dim_eq, Image.header]
  rw [start, ← List.append_assoc]
  refine ⟨s, spells, rfl, ?_⟩
  change spelled g s ++ rest = write g ++ rest ↔ _
  rw [List.append_cancel_right_eq, ← spells.eq_written_iff, ← spelled_written]
  exact ⟨spelled_inj spells (Spelling.spells_written g) fits, congrArg _⟩

/-- Two nodes linked with each other, and one that was deleted. -/
def threeOnLine : Graph Binary64 where
  config := { dim := 1, metric := .l2, multi := true }
  nodes := #[
    { label := 1, generation := 0, layers := [⟨[1], [1]⟩] },
    { label := 2, generation := 1, layers := [⟨[0], [0]⟩] },
    { label := 3, generation := 2, layers := [{}], deleted := true }]
  vectors := #[.zero, .one, .zero]
  markedCount := 1
  labels := (LabelMap.empty.insert 1 [0]).insert 2 [1]
  entryPoint := some 0
  capacity := 1024
  drawCount := 3
  nextGeneration := 3

/-- Two flags that are neither 0 nor 1, and the labels in descending order. -/
def oddSpelling : Spelling where
  multi := 2
  deleted := [0, 0, 255]
  entries := [(2, [1]), (1, [0])]

theorem readFrom_oddSpelling :
    readFrom (spelled threeOnLine oddSpelling) = .ok (threeOnLine, []) := by
  decide +kernel

/-- A graph can be written back as other bytes than it was loaded from. -/
theorem otherwise_written_back :
    ¬∀ (bytes rest : List UInt8) (g : Graph Binary64), word32 currentVersion.toNat <+: bytes →
      readFrom bytes = .ok (g, rest) → bytes = write g ++ rest := by
  intro canonical
  have same := canonical _ _ _ (by decide +kernel) readFrom_oddSpelling
  revert same
  decide +kernel

/-- What is read from the odd spelling of three vectors on a line is spelled by it. -/
theorem spelling_of_threeOnLine :
    word32 currentVersion.toNat <+: spelled threeOnLine oddSpelling ∧
      ∃ s : Spelling, s.Spells threeOnLine ∧
        spelled threeOnLine oddSpelling = spelled threeOnLine s ++ [] ∧
        (spelled threeOnLine oddSpelling = write threeOnLine ++ [] ↔ s.Canonical) := by
  have current : word32 currentVersion.toNat <+: spelled threeOnLine oddSpelling := by
    decide +kernel
  exact ⟨current, spelling_of_readFrom current readFrom_oddSpelling⟩

end Vicinity.Image
