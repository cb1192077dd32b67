import Vicinity.Image.Load
import Vicinity.Proofs.Graph.Integrity
import Vicinity.Proofs.Image.Scan

/-!
What is known of a graph that was accepted.

An image may come from anywhere, so nothing is assumed of the bytes. A scanner that checks what it
read ensures what it checked (`Ensures`), whatever it read before (`Ensures.after`): a graph that
was loaded has usable parameters and passes the integrity check (`checked_of_load`).
-/

namespace Vicinity.Image

/-- Whatever the scanner reads has the property. -/
def Ensures {β : Type} (scan : Scan β) (property : β → Prop) : Prop :=
  ∀ input b rest, scan input = .ok (b, rest) → property b

namespace Ensures

variable {β γ : Type} {property : γ → Prop}

theorem pure {c : γ} (holds : property c) : Ensures (Pure.pure c) property := by
  rintro input b rest ⟨⟩
  exact holds

theorem reject (cause : Inconsistency) : Ensures (Scan.reject cause) property := by
  rintro input b rest ⟨⟩

/-- What follows a refusal is never read. -/
theorem fail {next : β → Scan γ} (fault : LoadFault) :
    Ensures (Scan.fail fault >>= next) property := by
  rintro input c rest ⟨⟩

theorem bind {scan : Scan β} {next : β → Scan γ} {first : β → Prop}
    (ensures : Ensures scan first) (later : ∀ b, first b → Ensures (next b) property) :
    Ensures (scan >>= next) property := by
  intro input c rest done
  obtain ⟨b, between, here, there⟩ := bind_eq_ok done
  exact later b (ensures input b between here) between c rest there

/-- What was read before does not matter. -/
theorem after {scan : Scan β} {next : β → Scan γ} (later : ∀ b, Ensures (next b) property) :
    Ensures (scan >>= next) property := by
  have anything : Ensures scan fun _ => True := fun _ _ _ _ => trivial
  exact anything.bind fun b _ => later b

theorem ite {condition : Prop} [Decidable condition] {first second : Scan γ}
    (here : Ensures first property) (there : Ensures second property) :
    Ensures (if condition then first else second) property := by
  split
  · exact here
  · exact there

end Ensures

theorem ensures_scanParameters (header : Header) :
    Ensures (scanParameters header) fun p => p.config.fault? = none := by
  refine .after fun tag => ?_
  split
  case h_2 => exact .reject _
  case h_1 metric known =>
    refine .after fun blockSize => .after fun capacity => .after fun m => ?_
    refine .after fun efConstruction => .after fun efRuntime => ?_
    suffices later : ∀ epsilon, Ensures _ _ from .ite (.after later) (.after later)
    intro epsilon
    refine .after fun multi => .after fun levelSeed => .after fun drawCount => ?_
    refine .after fun entry => .after fun maxLevel => .after fun count => ?_
    dsimp only
    split
    case h_1 => exact .reject _
    case h_2 usable => exact .ite (.fail _) (.pure usable)

variable {α : Type} [Element α]

/-- The check of the finished graph comes last. -/
theorem ensures_scanPayload (header : Header) :
    Ensures (scanPayload (α := α) header) fun g =>
      g.config.fault? = none ∧ g.integrity = .ok () := by
  refine .bind (ensures_scanParameters header) fun p usable => ?_
  refine .after fun nodes => .after fun vectors => .after fun labelCount => .after fun labels => ?_
  dsimp only
  split
  case h_1 => exact .reject _
  case h_2 passed => exact .pure ⟨usable, passed⟩

theorem checked_of_load {bytes : List UInt8} {g : Graph α} (loaded : load bytes = .ok g) :
    g.config.fault? = none ∧ g.integrity = .ok () := by
  unfold load at loaded
  split at loaded
  · cases loaded
  case h_2 h rest read =>
    cases loaded
    have ensures : Ensures (scan (α := α)) fun g =>
        g.config.fault? = none ∧ g.integrity = .ok () := .after ensures_scanPayload
    exact ensures bytes g rest read

end Vicinity.Image
