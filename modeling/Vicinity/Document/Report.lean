import Vicinity.Document.Record

/-!
Figures as documents: those of an index, of its graph, and of the work on a tiered index.
-/

namespace Vicinity

open Document

def GraphInfo.toJson (info : GraphInfo) : Json :=
  .object
    [("m", .nat info.m), ("ef_construction", .nat info.efConstruction),
      ("ef_runtime", .nat info.efRuntime), ("epsilon", .float info.epsilon),
      ("max_level", .nat info.maxLevel), ("entry_point", Json.ofOption .nat info.entryPoint),
      ("marked_deleted", .nat info.markedDeleted)]

/-- The figures of a graph are left out when there is none. -/
def IndexInfo.toJson (info : IndexInfo) : Json :=
  .object <|
    [("algorithm", Choice.encode info.algorithm), ("data_type", Choice.encode info.dataType),
      ("metric", Choice.encode info.metric), ("dim", .nat info.dim), ("multi", .bool info.multi),
      ("block_size", .nat info.blockSize), ("size", .nat info.size),
      ("label_count", .nat info.labelCount), ("capacity", .word info.capacity)] ++
    (info.graph.map fun graph => ("hnsw", graph.toJson)).toList

namespace Tiered

/-- The counts of a kind of job. How long jobs took is left out. -/
def Status.toJson (kind : Kind) (status : Status) : Json :=
  .object
    [("kind", Choice.encode kind), ("submitted", .nat status.submitted),
      ("completed", .nat status.completed), ("skipped", .nat status.skipped),
      ("failed", .nat status.failed), ("running", .nat status.running),
      ("pending", .nat status.pending), ("finished_once", .bool status.finishedOnce),
      ("last_outcome", Json.ofOption Outcome.toJson status.lastOutcome)]

/-- The counts of several kinds of job, in their order. -/
def Status.listToJson (statuses : List (Kind × Status)) : Json :=
  .array (statuses.map fun (kind, status) => status.toJson kind)

def Report.toJson (report : Report) : Json :=
  .object
    [("index", report.index.toJson), ("frontend", report.buffer.toJson),
      ("backend", report.graph.toJson), ("pending_insert_jobs", .nat report.pendingInserts),
      ("pending_repair_jobs", .nat report.pendingRepairs), ("ready_swap_jobs", .nat report.ready),
      ("gc_passes", .nat report.gcPasses), ("jobs", Status.listToJson report.jobs)]

end Tiered

end Vicinity
