import Vicinity.ChaCha
import Vicinity.Graph.Config

/-!
The top layer of each new node.

Draw number `n` has a generator of its own, seeded by the sum of the configured seed and `n`, so a
graph that is stored and loaded goes on with the same sequence. A draw turns a uniform number from
`(0, 1]` into a geometric level: about one node in `M` reaches each next layer.
-/

namespace Vicinity.Graph.Level

/-- Rotate a word to the right. -/
def rotateRight (x n : UInt32) : UInt32 := (x >>> (n % 32)) ||| (x <<< ((32 - n) % 32))

/-- One step of the congruential generator that expands a seed. -/
def advance (state : UInt64) : UInt64 := state * 6364136223846793005 + 11634580027462260723

/-- The word that a state of the congruential generator puts out. -/
def output (state : UInt64) : UInt32 :=
  rotateRight ((((state >>> 18) ^^^ state) >>> 27).toUInt32) (state >>> 59).toUInt32

/-- The words that the generator puts out from a state on. -/
def outputs : (count : Nat) → UInt64 → List UInt32
  | 0, _ => []
  | count + 1, state =>
    let state := advance state
    output state :: outputs count state

/-- Sixty-four random bits for a seed: the first two words of a block under the expanded key. -/
def randomBits (seed : UInt64) : UInt64 :=
  match ChaCha.firstBlock 6 (outputs 8 seed) with
  | low :: high :: _ => low.toUInt64 ||| (high.toUInt64 <<< 32)
  | _ => 0

/-- A uniform number from `(0, 1]` with 53 random bits. -/
def uniform (seed : UInt64) : Float :=
  1.0 - (randomBits seed >>> 11).toFloat * (1.0 / 9007199254740992.0)

/-- The highest level: a uniform number is `2 ^ -53` at least and each level takes a factor of 2 at
least. -/
def highest : Nat := 53

/-- The level for draw number `count`. -/
def draw (config : Config) (count : UInt64) : Nat :=
  let scale := 1.0 / config.m.toFloat.log
  min highest (-(uniform (config.levelSeed + count)).log * scale).toUInt64.toNat

theorem draw_le_highest (config : Config) (count : UInt64) : draw config count ≤ highest :=
  Nat.min_le_left ..

end Vicinity.Graph.Level
