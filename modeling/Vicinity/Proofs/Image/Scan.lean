import Vicinity.Image.Format
import Vicinity.Image.Scan

/-!
Scanners that read back what was written.

`Reads scan front b` says that a scanner takes exactly the bytes `front` off any input that starts
with them and gives `b`. Scanners in sequence read the fields in sequence (`Reads.bind`), and
repeated ones read a list (`Reads.times`), so what a compound scanner reads follows from its fields.
`Leads scan front next` says how a scanner goes on after some fields, whether it reads or refuses.
-/

namespace Vicinity.Image

/-! ### Scans that succeed -/

section Success

variable {β γ : Type} {scan : Scan β} {input rest : List UInt8} {c : γ}

/-- A second scanner reads what the first one left. -/
theorem bind_eq_ok {next : β → Scan γ} (done : (scan >>= next) input = .ok (c, rest)) :
    ∃ b between, scan input = .ok (b, between) ∧ next b between = .ok (c, rest) := by
  change (scan input >>= fun p => next p.1 p.2) = _ at done
  cases here : scan input with
  | error fault => rw [here] at done; cases done
  | ok p =>
      rw [here] at done
      exact ⟨p.1, p.2, rfl, done⟩

theorem map_eq_ok {f : β → γ} (done : (f <$> scan) input = .ok (c, rest)) :
    ∃ b, scan input = .ok (b, rest) ∧ f b = c := by
  change (scan input >>= fun p => Except.ok (f p.1, p.2)) = _ at done
  cases here : scan input with
  | error fault => rw [here] at done; cases done
  | ok p =>
      rw [here] at done
      cases done
      exact ⟨p.1, rfl, rfl⟩

end Success

/-! ### Scans that read what was written -/

/-- The scanner reads the given bytes as the given value, whatever comes after them. -/
def Reads {β : Type} (scan : Scan β) (front : List UInt8) (b : β) : Prop :=
  ∀ rest, scan (front ++ rest) = .ok (b, rest)

namespace Reads

variable {β γ : Type}

theorem pure (b : β) : Reads (Pure.pure b) [] b := fun _ => rfl

theorem bind {scan : Scan β} {next : β → Scan γ} {front back : List UInt8} {b : β} {c : γ}
    (first : Reads scan front b) (second : Reads (next b) back c) :
    Reads (scan >>= next) (front ++ back) c := by
  intro rest
  change (scan (front ++ back ++ rest) >>= fun p => next p.1 p.2) = _
  rw [List.append_assoc, first (back ++ rest)]
  exact second rest

theorem map {scan : Scan β} {front : List UInt8} {b : β} (reads : Reads scan front b) (f : β → γ) :
    Reads (f <$> scan) front (f b) := by
  intro rest
  change (scan (front ++ rest) >>= fun p => Except.ok (f p.1, p.2)) = _
  rw [reads rest]
  rfl

/-- A last scanner that takes nothing. -/
theorem bind_pure {scan : Scan β} {next : β → Scan γ} {front : List UInt8} {b : β} {c : γ}
    (first : Reads scan front b) (second : Reads (next b) [] c) :
    Reads (scan >>= next) front c := by
  have both := first.bind second
  rwa [List.append_nil] at both

/-- A refusal that does not apply. -/
theorem skip {condition : Prop} [Decidable condition] {refuse go : Scan β} {front : List UInt8}
    {b : β} (unmet : ¬condition) (reads : Reads go front b) :
    Reads (if condition then refuse else go) front b := by
  rw [if_neg unmet]
  exact reads

/-- The items of a list, each told its number. -/
theorem times {item : Nat → Scan β} {write : γ → List UInt8} (value : Nat → γ → β) {cs : List γ}
    (each : ∀ c ∈ cs, ∀ i, Reads (item i) (write c) (value i c)) (first : Nat) :
    Reads (Scan.times item first cs.length) (cs.flatMap write)
      ((cs.zipIdx first).map fun c => value c.2 c.1) := by
  induction cs generalizing first with
  | nil => exact pure []
  | cons c cs ih =>
      obtain ⟨here, later⟩ := List.forall_mem_cons.1 each
      exact (here first).bind ((ih later (first + 1)).bind_pure (pure _))

/-- The items of a list, none of which looks at its number. -/
theorem times_of_each {item : Scan β} {write : γ → List UInt8} (value : γ → β) (cs : List γ)
    (each : ∀ c ∈ cs, Reads item (write c) (value c)) :
    Reads (Scan.times (fun _ => item) 0 cs.length) (cs.flatMap write) (cs.map value) := by
  have reads := times (fun _ => value) (fun c mem _ => each c mem) 0
  have values : (cs.zipIdx 0).map (fun c => value c.1) = cs.map value := by
    rw [← Function.comp_def value Prod.fst, ← List.map_map, List.zipIdx_map_fst]
  rwa [values] at reads

end Reads

/-! ### Scans that come to a point -/

/-- Past the given bytes the scanner goes on as another one does, be it to refuse the image. -/
def Leads {β : Type} (scan : Scan β) (front : List UInt8) (next : Scan β) : Prop :=
  ∀ rest, scan (front ++ rest) = next rest

namespace Leads

variable {β γ : Type} {front back : List UInt8}

theorem bind {scan : Scan β} {next : β → Scan γ} {last : Scan γ} {b : β}
    (first : Reads scan front b) (second : Leads (next b) back last) :
    Leads (scan >>= next) (front ++ back) last := by
  intro rest
  change (scan (front ++ back ++ rest) >>= fun p => next p.1 p.2) = _
  rw [List.append_assoc, first (back ++ rest)]
  exact second rest

/-- What comes after the last field. -/
theorem bind_here {scan : Scan β} {next : β → Scan γ} {last : Scan γ} {b : β}
    (first : Reads scan front b) (here : next b = last) : Leads (scan >>= next) front last := by
  have both := bind first (fun _ => rfl : Leads (next b) [] (next b))
  rwa [List.append_nil, here] at both

/-- A refusal that does not apply. -/
theorem skip {condition : Prop} [Decidable condition] {refuse go last : Scan β}
    (unmet : ¬condition) (leads : Leads go front last) :
    Leads (if condition then refuse else go) front last := by
  rw [if_neg unmet]
  exact leads

/-- A second scanner goes on from there. -/
theorem andThen {scan last : Scan β} (leads : Leads scan front last) (next : β → Scan γ) :
    Leads (scan >>= next) front (last >>= next) := by
  intro rest
  change (scan (front ++ rest) >>= fun p => next p.1 p.2) = _
  rw [leads rest]
  rfl

/-- What is read where the scanner comes to. -/
theorem reads {scan last : Scan β} {b : β} (leads : Leads scan front last)
    (there : Reads last [] b) : Reads scan front b :=
  fun rest => (leads rest).trans (there rest)

end Leads

/-! ### Fields -/

theorem reads_bytes (front : List UInt8) : Reads (Scan.bytes front.length) front front := by
  intro rest
  simp [Scan.bytes]

theorem reads_unsigned {width n : Nat} (fits : n < 1 <<< (8 * width)) :
    Reads (Scan.unsigned width) (LittleEndian.encode width n) n := by
  have reads := (reads_bytes (LittleEndian.encode width n)).map LittleEndian.decode
  rwa [LittleEndian.length_encode, LittleEndian.decode_encode fits] at reads

theorem reads_unsigned_word32 {n : Nat} (fits : n < UInt32.size) :
    Reads (Scan.unsigned 4) (word32 n) n :=
  reads_unsigned fits

theorem reads_unsigned_word64 {n : Nat} (fits : n < UInt64.size) :
    Reads (Scan.unsigned 8) (word64 n) n :=
  reads_unsigned fits

theorem reads_word32 (w : UInt32) : Reads Scan.word32 (word32 w.toNat) w := by
  have reads := (reads_unsigned_word32 w.toNat_lt_size).map UInt32.ofNat
  rwa [UInt32.ofNat_toNat] at reads

theorem reads_word64 (w : UInt64) : Reads Scan.word64 (word64 w.toNat) w := by
  have reads := (reads_unsigned_word64 w.toNat_lt_size).map UInt64.ofNat
  rwa [UInt64.ofNat_toNat] at reads

theorem reads_flag (b : Bool) : Reads Scan.flag (flag b) b := by
  cases b
  · exact fun _ => rfl
  · exact fun _ => rfl

/-- A list that is short enough, of ids that are small enough. -/
def Fits (ids : List Nat) : Prop :=
  ids.length < UInt32.size ∧ ∀ id ∈ ids, id < UInt32.size

theorem reads_ids {list : List Nat} (fits : Fits list) : Reads Scan.ids (ids list) list := by
  obtain ⟨short, small⟩ := fits
  have items := Reads.times_of_each (fun id => id) list fun id mem =>
    reads_unsigned_word32 (small id mem)
  rw [List.map_id'] at items
  exact (reads_unsigned_word32 short).bind items

end Vicinity.Image
