import Vicinity.Numeral.Shortest
import Vicinity.Tiered.Basic

/-!
The settings that describe an index, with the values that they may have.
-/

namespace Vicinity

/-- The settings of a graph. -/
structure GraphSettings where
  m : UInt64 := 16
  efConstruction : UInt64 := 200
  efRuntime : UInt64 := 10
  epsilon : Binary64 := ⟨0x3f847ae147ae147b⟩
  levelSeed : UInt64 := 100
deriving DecidableEq, Repr, Inhabited

/-- The settings of a buffer in front of a graph. -/
structure TieredSettings where
  flatBufferLimit : UInt64 := 1024
  swapJobThreshold : UInt64 := 1024
  writeMode : Tiered.WriteMode := .buffered
deriving DecidableEq, Repr, Inhabited

/-- The settings of an index. -/
structure Settings where
  algorithm : Algorithm := .hnsw
  dataType : DataType := .float32
  dim : UInt64 := 0
  metric : Metric := .l2
  multi : Bool := false
  blockSize : UInt64 := 1024
  graph : GraphSettings := {}
  tiered : TieredSettings := {}
  logLevel : String := "info"
deriving DecidableEq, Repr, Inhabited

/-- A setting without a usable value. -/
inductive SettingsFault where
  | dimensionZero
  | blockSizeZero
  | degreeTooSmall (m : UInt64)
  | beamZero
  | epsilonNegative (epsilon : Binary64)
  | thresholdZero
  /-- A source of settings could not be read, or a value in it does not fit its setting. -/
  | unreadable
deriving DecidableEq, Repr, Inhabited

def SettingsFault.reason : SettingsFault → String
  | .dimensionZero => "dim must be > 0"
  | .blockSizeZero => "block_size must be > 0"
  | .degreeTooSmall m => s!"hnsw.m must be >= 2, got {m}"
  | .beamZero => "hnsw ef values must be > 0"
  | .epsilonNegative epsilon => "hnsw.epsilon must be >= 0, got " ++ Numeral.display epsilon
  | .thresholdZero => "tiered.swap_job_threshold must be > 0"
  | .unreadable => "unreadable settings"

def SettingsFault.message (fault : SettingsFault) : String :=
  "Configuration error: " ++ fault.reason

namespace Settings

/-- The first setting without a usable value. -/
def fault? (s : Settings) : Option SettingsFault :=
  if s.dim = 0 then some .dimensionZero
  else if s.blockSize = 0 then some .blockSizeZero
  else if s.graph.m < 2 then some (.degreeTooSmall s.graph.m)
  else if s.graph.efConstruction = 0 ∨ s.graph.efRuntime = 0 then some .beamZero
  else if s.graph.epsilon.isNaN || s.graph.epsilon.lt .zero then
    some (.epsilonNegative s.graph.epsilon)
  else if s.tiered.swapJobThreshold = 0 then some .thresholdZero
  else none

/-- The settings, when all have usable values. -/
def validate (s : Settings) : Except SettingsFault Settings :=
  match s.fault? with
  | some fault => .error fault
  | none => .ok s

/-- The parameters of the graph that the settings describe. -/
def graphConfig (s : Settings) : Graph.Config :=
  { dim := s.dim
    metric := s.metric
    multi := s.multi
    blockSize := s.blockSize
    m := s.graph.m
    efConstruction := s.graph.efConstruction
    efRuntime := s.graph.efRuntime
    epsilon := s.graph.epsilon
    levelSeed := s.graph.levelSeed }

/-- The parameters of the tiered index that the settings describe. -/
def tieredConfig (s : Settings) : Tiered.Config :=
  { graph := s.graphConfig
    flatBufferLimit := s.tiered.flatBufferLimit
    swapJobThreshold := s.tiered.swapJobThreshold
    writeMode := s.tiered.writeMode }

end Settings

end Vicinity
