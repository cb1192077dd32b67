import Vicinity.Proofs.Image.RoundTrip

/-!
A truncated image is noticed.

A scanner is sequential when it takes its input strictly from the front: what it reads does not
depend on the bytes behind, and of anything shorter it says that bytes are missing
(`Sequential`). Scanners in sequence are sequential (`Sequential.bind`), whatever they refuse in
between, since a refusal depends on the fields before it only: on a shorter input the same fields
are read up to the cut and the same checks pass. So is the scanner of a whole image
(`sequential_scan`), for which no invariant of the graph is needed.
-/

namespace Vicinity.Image

/-- The scanner reads the given bytes as the given value, and of anything shorter that they start
with it says that bytes are missing. -/
structure Takes {β : Type} (scan : Scan β) (front : List UInt8) (b : β) : Prop where
  reads : Reads scan front b
  ends : ∀ cut, cut <+: front → cut ≠ front → scan cut = .error .unexpectedEnd

/-- Whatever the scanner reads, it takes off the front of the input. -/
def Sequential {β : Type} (scan : Scan β) : Prop :=
  ∀ input b rest, scan input = .ok (b, rest) → ∃ front, input = front ++ rest ∧ Takes scan front b

variable {β γ : Type}

/-- A cut falls into the first field or behind it. -/
theorem Takes.bind {scan : Scan β} {next : β → Scan γ} {front back : List UInt8} {b : β} {c : γ}
    (first : Takes scan front b) (second : Takes (next b) back c) :
    Takes (scan >>= next) (front ++ back) c where
  reads := first.reads.bind second.reads
  ends cut shorter proper := by
    change (scan cut >>= fun p => next p.1 p.2) = _
    by_cases behind : front <+: cut
    case pos =>
      obtain ⟨cut, rfl⟩ := behind
      rw [first.reads cut]
      refine second.ends cut ((List.prefix_append_right_inj front).1 shorter) ?_
      rintro rfl
      exact proper rfl
    case neg =>
      have within : cut <+: front := by
        have either := List.prefix_or_prefix_of_prefix shorter (List.prefix_append front back)
        exact either.resolve_right behind
      have proper : cut ≠ front := by
        rintro rfl
        exact behind List.prefix_rfl
      rw [first.ends cut within proper]
      rfl

theorem Takes.map {scan : Scan β} {front : List UInt8} {b : β} (takes : Takes scan front b)
    (f : β → γ) : Takes (f <$> scan) front (f b) where
  reads := takes.reads.map f
  ends cut shorter proper := by
    change (scan cut >>= fun p => Except.ok (f p.1, p.2)) = _
    rw [takes.ends cut shorter proper]
    rfl

namespace Sequential

theorem pure (b : β) : Sequential (Pure.pure b) := by
  rintro input b rest ⟨⟩
  exact ⟨[], rfl, .pure b, fun cut shorter proper => absurd (List.prefix_nil.1 shorter) proper⟩

/-- A refusal reads nothing, whatever was to come after it. -/
theorem fail (fault : LoadFault) (next : β → Scan γ) : Sequential (Scan.fail fault >>= next) := by
  rintro input c rest ⟨⟩

theorem reject (cause : Inconsistency) : Sequential (Scan.reject (β := β) cause) := by
  rintro input b rest ⟨⟩

theorem bind {scan : Scan β} {next : β → Scan γ} (first : Sequential scan)
    (second : ∀ b, Sequential (next b)) : Sequential (scan >>= next) := by
  intro input c rest done
  obtain ⟨b, between, here, there⟩ := bind_eq_ok done
  obtain ⟨front, rfl, takes_front⟩ := first input b between here
  obtain ⟨back, rfl, takes_back⟩ := second b between c rest there
  exact ⟨front ++ back, (List.append_assoc ..).symm, takes_front.bind takes_back⟩

theorem map {scan : Scan β} (sequential : Sequential scan) (f : β → γ) :
    Sequential (f <$> scan) := by
  intro input c rest done
  obtain ⟨b, here, rfl⟩ := map_eq_ok done
  obtain ⟨front, rfl, takes⟩ := sequential input b rest here
  exact ⟨front, rfl, takes.map f⟩

theorem ite {condition : Prop} [Decidable condition] {first second : Scan β}
    (seq_first : Sequential first) (seq_second : Sequential second) :
    Sequential (if condition then first else second) := by
  split
  · exact seq_first
  · exact seq_second

/-- A field that is there or not; either way the scan goes on. -/
theorem either {condition : Prop} [Decidable condition] {first second : Scan β} {next : β → Scan γ}
    (seq_first : Sequential first) (seq_second : Sequential second)
    (rest : ∀ b, Sequential (next b)) :
    Sequential (if condition then first >>= next else second >>= next) :=
  ite (seq_first.bind rest) (seq_second.bind rest)

theorem bytes (count : Nat) : Sequential (Scan.bytes count) := by
  intro input front rest done
  unfold Scan.bytes at done
  dsimp only at done
  split at done
  case isTrue => cases done
  case isFalse enough =>
    cases done
    have length : (input.take count).length = count := by
      rw [List.length_take] at enough ⊢
      omega
    refine ⟨input.take count, (List.take_append_drop count input).symm, ?_, ?_⟩
    · have reads := reads_bytes (input.take count)
      rwa [length] at reads
    · intro cut shorter proper
      have length_ne : cut.length ≠ (input.take count).length := fun same =>
        proper (shorter.eq_of_length same)
      have short : (cut.take count).length < count := by
        have := shorter.length_le
        rw [List.length_take]
        omega
      simp only [Scan.bytes, if_pos short]

theorem unsigned (width : Nat) : Sequential (Scan.unsigned width) := (bytes width).map _

theorem word32 : Sequential Scan.word32 := (unsigned 4).map _

theorem word64 : Sequential Scan.word64 := (unsigned 8).map _

theorem flag : Sequential Scan.flag := (unsigned 1).map _

theorem times {item : Nat → Scan β} (each : ∀ i, Sequential (item i)) (first count : Nat) :
    Sequential (Scan.times item first count) := by
  induction count generalizing first with
  | zero => exact pure []
  | succ count ih => exact (each first).bind fun b => (ih (first + 1)).bind fun bs => pure _

theorem ids : Sequential Scan.ids :=
  (unsigned 4).bind fun count => times (fun _ => unsigned 4) 0 count

end Sequential

/-! ### The scanners of an image -/

theorem sequential_scanHeader (stored : DataType) : Sequential (scanHeader stored) := by
  refine .bind .word32 fun version => .ite (.fail _ _) (.ite (.fail _ _) ?_)
  refine .bind .word32 fun algorithmTag => .ite (.fail _ _) ?_
  refine .bind .word32 fun typeTag => .ite (.fail _ _) ?_
  refine .bind .word64 fun dim => .ite (.fail _ _) (.ite (.fail _ _) (.pure _))

theorem sequential_scanParameters (header : Header) : Sequential (scanParameters header) := by
  refine .bind .word32 fun tag => ?_
  split
  case h_2 => exact .reject _
  case h_1 metric known =>
    refine .bind .word64 fun blockSize => .bind .word64 fun capacity => .bind .word64 fun m => ?_
    refine .bind .word64 fun efConstruction => .bind .word64 fun efRuntime => ?_
    refine .either (.map .word64 _) (.pure _) fun epsilon => .bind .flag fun multi => ?_
    refine .bind .word64 fun levelSeed => .bind .word64 fun drawCount => ?_
    refine .bind (.unsigned 4) fun entry => .bind (.unsigned 8) fun maxLevel => ?_
    refine .bind (.unsigned 8) fun count => ?_
    dsimp only
    split
    case h_1 => exact .reject _
    case h_2 => exact .ite (.fail _ _) (.pure _)

theorem sequential_scanLinks : Sequential scanLinks :=
  .bind .ids fun _ => .bind .ids fun _ => .pure _

theorem sequential_scanNode (id : Nat) : Sequential (scanNode id) := by
  refine .bind .word64 fun label => .bind .flag fun deleted => ?_
  refine .bind (.unsigned 4) fun layerCount => .ite (.fail _ _) ?_
  exact .bind (.times (fun _ => sequential_scanLinks) 0 layerCount) fun layers => .pure _

variable {α : Type} [Element α]

theorem sequential_scanVector (dim : Nat) : Sequential (scanVector (α := α) dim) :=
  (Sequential.bytes _).map _

theorem sequential_scanLabels (map : LabelMap (List Nat)) (count : Nat) :
    Sequential (scanLabels map count) := by
  induction count generalizing map with
  | zero => exact .pure map
  | succ count ih =>
      refine .bind .word64 fun label => .bind .ids fun ids => .ite (.fail _ _) ?_
      exact ih (map.insert label ids)

theorem sequential_scanPayload (header : Header) : Sequential (scanPayload (α := α) header) := by
  refine .bind (sequential_scanParameters header) fun p => ?_
  refine .bind (.times sequential_scanNode 0 p.count) fun nodes => ?_
  refine .bind (.times (fun _ => sequential_scanVector header.dim.toNat) 0 p.count)
    fun vectors => ?_
  refine .bind (.unsigned 8) fun labelCount => ?_
  refine .bind (sequential_scanLabels .empty labelCount) fun labels => ?_
  -- the check of the finished graph reads nothing
  dsimp only
  split
  case h_1 => exact .reject _
  case h_2 => exact .pure _

theorem sequential_scan : Sequential (scan (α := α)) :=
  .bind (sequential_scanHeader _) sequential_scanPayload

end Vicinity.Image

namespace Vicinity.Graph

open Image

variable {α : Type} [Element α]

theorem load_of_readFrom {bytes rest : List UInt8} {g : Graph α}
    (read : readFrom bytes = .ok (g, rest)) : load bytes = .ok g := by
  rw [load, read]

/-- What a graph is read from can be cut off nowhere. -/
theorem load_of_cut {bytes cut : List UInt8} {g : Graph α} (read : readFrom bytes = .ok (g, []))
    (shorter : cut <+: bytes) (proper : cut ≠ bytes) :
    load (α := α) cut = .error .unexpectedEnd := by
  obtain ⟨front, whole, takes⟩ := sequential_scan bytes g [] read
  rw [List.append_nil] at whole
  subst whole
  have ends : readFrom (α := α) cut = .error .unexpectedEnd := takes.ends cut shorter proper
  rw [load, ends]

/-- An image says where it ends: anything shorter is refused because bytes are missing, and anything
longer is read as the same graph with the other bytes left over. -/
theorem Reachable.write_selfDelimiting {config : Config} {g : Graph α}
    (reachable : Reachable config g) (narrow : config.dim.toNat ≤ maxDimension)
    (few : g.nodeCount < idLimit) :
    (∀ cut, cut <+: write g → cut ≠ write g → load (α := α) cut = .error .unexpectedEnd) ∧
      ∃ h : Graph α, load (write g) = .ok h ∧
        ∀ rest, load (write g ++ rest) = .ok h ∧ readFrom (write g ++ rest) = .ok (h, rest) := by
  obtain ⟨wf, rfl⟩ := reachable.wellFormed
  have reads : ∀ rest, readFrom (write g ++ rest) = .ok (g.restored currentVersion, rest) :=
    wf.readFrom_writeVersion narrow few ⟨by decide, by decide⟩
  have whole := reads []
  rw [List.append_nil] at whole
  refine ⟨fun cut shorter proper => load_of_cut whole shorter proper, _, load_of_readFrom whole, ?_⟩
  exact fun rest => ⟨load_of_readFrom (reads rest), reads rest⟩

/-- No byte of the image of a graph with a deletion under way can be missing. -/
theorem write_selfDelimiting_after_marking :
    firstMarked.isDeleted 0 = true ∧ 0 ∈ (firstMarked.links 1 0).out ∧
      (∀ cut, cut <+: write firstMarked → cut ≠ write firstMarked →
        load (α := Binary64) cut = .error .unexpectedEnd) ∧
      ∃ h : Graph Binary64, load (write firstMarked) = .ok h ∧
        ∀ rest, load (write firstMarked ++ rest) = .ok h ∧
          readFrom (write firstMarked ++ rest) = .ok (h, rest) := by
  obtain ⟨within, count, deleted, _, edge⟩ := firstMarked_spec
  have narrow : planeConfig.dim.toNat ≤ maxDimension := by decide
  have few : firstMarked.nodeCount < idLimit := count ▸ (by decide : 2 < idLimit)
  exact ⟨deleted, edge, within.reachable.write_selfDelimiting narrow few⟩

end Vicinity.Graph
