import Vicinity.Document.Choice
import Vicinity.Settings

/-!
Records as documents: settings, query parameters, replies and the outcomes of jobs.

Each type has `toJson` and, where it is read, `ofJson?`. Settings are read under either set of
rules, the others under the strict one.
-/

namespace Vicinity

open Document

/-- An unsigned word as a number. -/
def Json.word (n : UInt64) : Json := .int n.toNat

/-! ### Settings -/

namespace GraphSettings

def toJson (s : GraphSettings) : Json :=
  .object
    [("m", .word s.m), ("ef_construction", .word s.efConstruction),
      ("ef_runtime", .word s.efRuntime), ("epsilon", .float s.epsilon),
      ("level_seed", .word s.levelSeed)]

def ofJson? (rules : Rules) (json : Json) : Option GraphSettings := do
  let names := ["m", "ef_construction", "ef_runtime", "epsilon", "level_seed"]
  let [m, efConstruction, efRuntime, epsilon, levelSeed] ← rules.fields? 0 names json | none
  let defaults : GraphSettings := {}
  return {
    m := ← Rules.orDefault defaults.m rules.word? m
    efConstruction := ← Rules.orDefault defaults.efConstruction rules.word? efConstruction
    efRuntime := ← Rules.orDefault defaults.efRuntime rules.word? efRuntime
    epsilon := ← Rules.orDefault defaults.epsilon rules.number? epsilon
    levelSeed := ← Rules.orDefault defaults.levelSeed rules.word? levelSeed }

end GraphSettings

namespace TieredSettings

def toJson (s : TieredSettings) : Json :=
  .object
    [("flat_buffer_limit", .word s.flatBufferLimit),
      ("swap_job_threshold", .word s.swapJobThreshold),
      ("write_mode", Choice.encode s.writeMode)]

def ofJson? (rules : Rules) (json : Json) : Option TieredSettings := do
  let names := ["flat_buffer_limit", "swap_job_threshold", "write_mode"]
  let [flatBufferLimit, swapJobThreshold, writeMode] ← rules.fields? 0 names json | none
  let defaults : TieredSettings := {}
  return {
    flatBufferLimit := ← Rules.orDefault defaults.flatBufferLimit rules.word? flatBufferLimit
    swapJobThreshold := ← Rules.orDefault defaults.swapJobThreshold rules.word? swapJobThreshold
    writeMode := ← Rules.orDefault defaults.writeMode (Choice.decode? rules) writeMode }

end TieredSettings

namespace Settings

def toJson (s : Settings) : Json :=
  .object
    [("algorithm", Choice.encode s.algorithm), ("data_type", Choice.encode s.dataType),
      ("dim", .word s.dim), ("metric", Choice.encode s.metric), ("multi", .bool s.multi),
      ("block_size", .word s.blockSize), ("hnsw", s.graph.toJson), ("tiered", s.tiered.toJson),
      ("log_level", .string s.logLevel)]

def ofJson? (rules : Rules) (json : Json) : Option Settings := do
  let names := ["algorithm", "data_type", "dim", "metric", "multi", "block_size", "hnsw",
    "tiered", "log_level"]
  let [algorithm, dataType, dim, metric, multi, blockSize, graph, tiered, logLevel] ←
    rules.fields? 0 names json | none
  let defaults : Settings := {}
  return {
    algorithm := ← Rules.orDefault defaults.algorithm (Choice.decode? rules) algorithm
    dataType := ← Rules.orDefault defaults.dataType (Choice.decode? rules) dataType
    dim := ← Rules.orDefault defaults.dim rules.word? dim
    metric := ← Rules.orDefault defaults.metric (Choice.decode? rules) metric
    multi := ← Rules.orDefault defaults.multi rules.flag? multi
    blockSize := ← Rules.orDefault defaults.blockSize rules.word? blockSize
    graph := ← Rules.orDefault defaults.graph (GraphSettings.ofJson? rules) graph
    tiered := ← Rules.orDefault defaults.tiered (TieredSettings.ofJson? rules) tiered
    logLevel := ← Rules.orDefault defaults.logLevel rules.text? logLevel }

end Settings

namespace Tiered.PoolConfig

def toJson (c : PoolConfig) : Json :=
  .object [("workers", .word c.workers), ("shutdown_timeout_secs", .word c.shutdownTimeout)]

def ofJson? (json : Json) : Option PoolConfig := do
  let [workers, shutdownTimeout] ←
    Rules.strict.fields? 0 ["workers", "shutdown_timeout_secs"] json | none
  let defaults : PoolConfig := {}
  return {
    workers := ← Rules.orDefault defaults.workers Rules.strictWord? workers
    shutdownTimeout := ← Rules.orDefault defaults.shutdownTimeout Rules.strictWord?
      shutdownTimeout }

end Tiered.PoolConfig

/-! ### Queries -/

namespace Query

/-- A parameter as a caller names it. -/
def rawToJson (raw : String × String) : Json :=
  .object [("name", .string raw.1), ("value", .string raw.2)]

def rawOfJson? (json : Json) : Option (String × String) := do
  let [name, value] ← Rules.strict.fields? 2 ["name", "value"] json | none
  return (← Rules.needed Rules.strictText? name, ← Rules.needed Rules.strictText? value)

def Parameters.toJson (p : Parameters) : Json :=
  .object
    [("ef_runtime", Json.ofOption .nat p.efRuntime), ("epsilon", Json.ofOption .float p.epsilon),
      ("batch_size", Json.ofOption .nat p.batchSize), ("search_mode", Choice.encode p.mode)]

def Parameters.ofJson? (json : Json) : Option Parameters := do
  let names := ["ef_runtime", "epsilon", "batch_size", "search_mode"]
  let [efRuntime, epsilon, batchSize, mode] ← Rules.strict.fields? 4 names json | none
  let natural? (json : Json) : Option Nat := (Rules.strictWord? json).map UInt64.toNat
  return {
    efRuntime := ← Rules.optional natural? efRuntime
    epsilon := ← Rules.optional Rules.strictNumber? epsilon
    batchSize := ← Rules.optional natural? batchSize
    mode := ← Rules.needed (Choice.decode? Rules.strict) mode }

end Query

def Hit.toJson (hit : Hit) : Json :=
  .object [("label", .word hit.label), ("score", .float hit.score)]

def Hit.ofJson? (json : Json) : Option Hit := do
  let [label, score] ← Rules.strict.fields? 2 ["label", "score"] json | none
  return {
    label := ← Rules.needed Rules.strictWord? label
    score := ← Rules.needed Rules.strictNumber? score }

def Reply.toJson (reply : Reply) : Json :=
  .object [("results", .array (reply.map Hit.toJson))]

def Reply.ofJson? (json : Json) : Option Reply := do
  let [results] ← Rules.strict.fields? 1 ["results"] json | none
  Rules.needed (Rules.strictList? Hit.ofJson?) results

/-! ### Jobs -/

namespace Tiered

/-- An outcome with a reason is an object with one field. -/
def Outcome.toJson : Outcome → Json
  | .completed => .string "Completed"
  | .skipped reason => .object [("Skipped", .string reason)]
  | .failed reason => .object [("Failed", .string reason)]
  | .cancelled => .string "Cancelled"

def Outcome.ofJson? : Json → Option Outcome
  | .object [("Skipped", .string reason)] => some (.skipped reason)
  | .object [("Failed", .string reason)] => some (.failed reason)
  | json => do
    match ← Rules.strictChoice? ["Completed", "Cancelled"] json with
    | "Completed" => some .completed
    | _ => some .cancelled

end Tiered

end Vicinity
