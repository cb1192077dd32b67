/-!
Integers as bytes, the least significant byte first.

`decode_encode` and `encode_decode` say that a field of fixed width and the integers that fit it are
two forms of one thing.
-/

namespace Vicinity.LittleEndian

/-- The low `width` bytes of an integer. -/
def encode : (width : Nat) → Nat → List UInt8
  | 0, _ => []
  | width + 1, n => UInt8.ofNat n :: encode width (n / 256)

/-- The integer that the bytes stand for. -/
def decode : List UInt8 → Nat
  | [] => 0
  | b :: bs => b.toNat + 256 * decode bs

@[simp] theorem length_encode (width n : Nat) : (encode width n).length = width := by
  induction width generalizing n with
  | zero => rfl
  | succ width ih => simp [encode, ih]

/-- A byte more makes room for 256 times as many integers. -/
theorem room_succ (width : Nat) : 1 <<< (8 * (width + 1)) = 256 * 1 <<< (8 * width) := by
  simp only [Nat.shiftLeft_eq, Nat.mul_add, Nat.pow_add]
  omega

theorem decode_lt (bs : List UInt8) : decode bs < 1 <<< (8 * bs.length) := by
  induction bs with
  | nil => simp [decode]
  | cons b bs ih =>
    have hb := b.toNat_lt
    simp only [decode, List.length_cons, room_succ]
    omega

/-- An integer that fits the width is read back. -/
theorem decode_encode {width n : Nat} (fits : n < 1 <<< (8 * width)) :
    decode (encode width n) = n := by
  induction width generalizing n with
  | zero => simp only [Nat.mul_zero, Nat.shiftLeft_zero] at fits; simp [encode, decode]; omega
  | succ width ih =>
    have := ih (n := n / 256) (by rw [room_succ] at fits; omega)
    simp only [encode, decode, this, UInt8.toNat_ofNat']
    omega

/-- Any bytes are the encoding of the integer they stand for. -/
theorem encode_decode (bs : List UInt8) : encode bs.length (decode bs) = bs := by
  induction bs with
  | nil => rfl
  | cons b bs ih =>
    have hb := b.toNat_lt
    simp only [List.length_cons, encode, decode]
    rw [show (b.toNat + 256 * decode bs) / 256 = decode bs by omega, ih]
    congr 1
    apply UInt8.toNat_inj.1
    rw [UInt8.toNat_ofNat']
    omega

end Vicinity.LittleEndian
