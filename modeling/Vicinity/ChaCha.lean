/-!
The ChaCha block function, which turns a key into a stream of words without visible pattern.

A state of sixteen words holds four constants, the key and eight words of counter and nonce, which
are zero here. Each double round mixes the columns and then the diagonals; the block is the mixed
state added to the one it started from.
-/

namespace Vicinity.ChaCha

/-- Rotate a word to the left. -/
def rotateLeft (x : UInt32) (n : UInt32) : UInt32 := (x <<< n) ||| (x >>> (32 - n))

/-- Mix four words of the state. -/
def quarterRound (s : Array UInt32) (i j k l : Nat) : Array UInt32 :=
  let a := s.getD i 0
  let b := s.getD j 0
  let c := s.getD k 0
  let d := s.getD l 0
  let a := a + b
  let d := rotateLeft (d ^^^ a) 16
  let c := c + d
  let b := rotateLeft (b ^^^ c) 12
  let a := a + b
  let d := rotateLeft (d ^^^ a) 8
  let c := c + d
  let b := rotateLeft (b ^^^ c) 7
  (((s.setIfInBounds i a).setIfInBounds j b).setIfInBounds k c).setIfInBounds l d

/-- The columns and then the diagonals. -/
def doubleRound (s : Array UInt32) : Array UInt32 :=
  let s := quarterRound s 0 4 8 12
  let s := quarterRound s 1 5 9 13
  let s := quarterRound s 2 6 10 14
  let s := quarterRound s 3 7 11 15
  let s := quarterRound s 0 5 10 15
  let s := quarterRound s 1 6 11 12
  let s := quarterRound s 2 7 8 13
  quarterRound s 3 4 9 14

/-- The constants of a 256-bit key, "expand 32-byte k" in little-endian words. -/
def constants : List UInt32 := [0x61707865, 0x3320646e, 0x79622d32, 0x6b206574]

/-- The first block of the stream for a key of eight words. -/
def firstBlock (doubleRounds : Nat) (key : List UInt32) : List UInt32 :=
  let start := constants ++ key.take 8 ++ List.replicate 8 0
  let mixed := doubleRounds.repeat doubleRound start.toArray
  start.zipWith (· + ·) mixed.toList

end Vicinity.ChaCha
