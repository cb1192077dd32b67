import Vicinity.Binary32
import Vicinity.LittleEndian

/-!
The widths in which vector components are stored.

Distances are always computed in double precision; the element type decides only how a component is
stored and how it is written to an image. An `Element` comes with the laws of its encoding, so a
vector that is written and read back is the same vector bit for bit.
-/

namespace Vicinity

/-- The numeric type of the stored components. -/
inductive DataType where
  | float32
  | float64
deriving DecidableEq, Repr, Inhabited

namespace DataType

def all : List DataType := [.float32, .float64]

def name : DataType → String
  | .float32 => "FLOAT32"
  | .float64 => "FLOAT64"

/-- The number that stands for the type in an image. -/
def tag : DataType → UInt32
  | .float32 => 0
  | .float64 => 1

def ofTag? (tag : UInt32) : Option DataType := all.find? (·.tag == tag)

/-- The name for a tag that may be anything. -/
def nameOfTag (tag : UInt32) : String := ((ofTag? tag).map name).getD "Unknown"

/-- Bytes of one component. -/
def width : DataType → Nat
  | .float32 => 4
  | .float64 => 8

end DataType

/-- A stored component: a word that widens to a double and is rounded from one. -/
class Element (α : Type) where
  dataType : DataType
  toDouble : α → Binary64
  ofDouble : Binary64 → α
  encode : α → List UInt8
  decode : List UInt8 → α
  length_encode (x : α) : (encode x).length = dataType.width
  decode_encode (x : α) : decode (encode x) = x
  encode_decode {bs : List UInt8} (h : bs.length = dataType.width) : encode (decode bs) = bs

instance : Element Binary32 where
  dataType := .float32
  toDouble := Binary32.widen
  ofDouble := Binary64.narrow
  encode x := LittleEndian.encode 4 x.bits.toNat
  decode bs := ⟨UInt32.ofNat (LittleEndian.decode bs)⟩
  length_encode _ := LittleEndian.length_encode _ _
  decode_encode x := by
    rw [LittleEndian.decode_encode (by simpa using x.bits.toNat_lt), UInt32.ofNat_toNat]
  encode_decode {bs} h := by
    have lt := LittleEndian.decode_lt bs
    rw [h] at lt
    change LittleEndian.encode 4 (UInt32.ofNat (LittleEndian.decode bs)).toNat = bs
    have fits : LittleEndian.decode bs < UInt32.size := by
      simpa [DataType.width, UInt32.size] using lt
    rw [UInt32.toNat_ofNat_of_lt' fits, ← show bs.length = 4 from h]
    exact LittleEndian.encode_decode bs

instance : Element Binary64 where
  dataType := .float64
  toDouble := id
  ofDouble := id
  encode x := LittleEndian.encode 8 x.bits.toNat
  decode bs := ⟨UInt64.ofNat (LittleEndian.decode bs)⟩
  length_encode _ := LittleEndian.length_encode _ _
  decode_encode x := by
    rw [LittleEndian.decode_encode (by simpa using x.bits.toNat_lt), UInt64.ofNat_toNat]
  encode_decode {bs} h := by
    have lt := LittleEndian.decode_lt bs
    rw [h] at lt
    change LittleEndian.encode 8 (UInt64.ofNat (LittleEndian.decode bs)).toNat = bs
    have fits : LittleEndian.decode bs < UInt64.size := by
      simpa [DataType.width, UInt64.size] using lt
    rw [UInt64.toNat_ofNat_of_lt' fits, ← show bs.length = 8 from h]
    exact LittleEndian.encode_decode bs

namespace Element

variable {α : Type} [Element α]

/-- The bytes of a vector, component after component. -/
def encodeAll (xs : List α) : List UInt8 := xs.flatMap encode

/-- The first `count` components of a byte string. -/
def decodeMany : (count : Nat) → List UInt8 → List α
  | 0, _ => []
  | count + 1, bs =>
    let width := (dataType α).width
    decode (bs.take width) :: decodeMany count (bs.drop width)

/-- The whole components of a byte string; a partial last one is ignored. -/
def decodeAll (bs : List UInt8) : List α := decodeMany (bs.length / (dataType α).width) bs

end Element

end Vicinity
