import Vicinity.Fault
import Vicinity.Metric

/-!
The parameters of a graph and the values that they may have.
-/

namespace Vicinity.Graph

/-- The parameters of a graph, fixed when it is made. -/
structure Config where
  dim : UInt64
  metric : Metric
  /-- Several vectors may share a label. -/
  multi : Bool := false
  /-- Slots by which the capacity changes. -/
  blockSize : UInt64 := 1024
  /-- The most neighbours of a node above layer 0, where twice as many are allowed. -/
  m : UInt64 := 16
  /-- Beam width of insertions. -/
  efConstruction : UInt64 := 200
  /-- Beam width of a search that does not ask for another one. -/
  efRuntime : UInt64 := 10
  /-- Share by which a range search looks beyond its radius. -/
  epsilon : Binary64 := ⟨0x3f847ae147ae147b⟩
  /-- Where the sequence of level draws starts. -/
  levelSeed : UInt64 := 100
deriving DecidableEq, Repr, Inhabited

namespace Config

/-- The most neighbours of a node on a layer, in machine words: twice an `m` that takes the highest
bit wraps around. -/
def maxDegree (config : Config) (layer : Nat) : Nat :=
  if layer = 0 then (2 * config.m).toNat else config.m.toNat

/-- The first parameter without a usable value. Any number will do for `epsilon`. -/
def fault? (config : Config) : Option ParameterFault :=
  if config.dim = 0 then some .dimensionZero
  else if config.blockSize = 0 then some .blockSizeZero
  else if config.m < 2 then some (.degreeTooSmall config.m.toNat)
  else if config.efConstruction = 0 ∨ config.efRuntime = 0 then some .beamZero
  else none

end Config

end Vicinity.Graph
