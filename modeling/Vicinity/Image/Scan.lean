import Vicinity.Fault
import Vicinity.LittleEndian

/-!
Reading fields off the front of a byte string.

A scanner takes the bytes it needs and leaves the rest; bytes that are missing are an unexpected
end.
-/

namespace Vicinity.Image

/-- A reader of bytes that may refuse them. -/
abbrev Scan (β : Type) := StateT (List UInt8) (Except LoadFault) β

namespace Scan

/-- Refuse the image. -/
def fail {β : Type} (fault : LoadFault) : Scan β := fun _ => .error fault

/-- Refuse the image because of its contents. -/
def reject {β : Type} (cause : Inconsistency) : Scan β := fail (.inconsistent cause)

/-- The next `count` bytes. -/
def bytes (count : Nat) : Scan (List UInt8) := fun input =>
  let front := input.take count
  if front.length < count then .error .unexpectedEnd else .ok (front, input.drop count)

/-- An unsigned integer of a number of bytes. -/
def unsigned (width : Nat) : Scan Nat := LittleEndian.decode <$> bytes width

def word32 : Scan UInt32 := UInt32.ofNat <$> unsigned 4

def word64 : Scan UInt64 := UInt64.ofNat <$> unsigned 8

/-- A byte that is true unless it is zero. -/
def flag : Scan Bool := (· != 0) <$> unsigned 1

/-- As many items as announced; each is told its number. -/
def times {β : Type} (item : Nat → Scan β) (first : Nat) : (count : Nat) → Scan (List β)
  | 0 => pure []
  | count + 1 => do
    let b ← item first
    let bs ← times item (first + 1) count
    pure (b :: bs)

/-- A list of ids with its length in front. -/
def ids : Scan (List Nat) := do
  let count ← unsigned 4
  times (fun _ => unsigned 4) 0 count

end Scan

end Vicinity.Image
