import Vicinity.Flat
import Vicinity.Graph.Index
import Vicinity.Tiered.Job

/-!
A buffer in front of a graph.

Writes land in a flat buffer and can be found at once; an insert job later moves each vector into
the graph. A deleted graph node is only marked: a repair job reconnects the nodes around it, and
once enough repaired nodes are ready one pass frees all their slots.

Every operation here is a step on the state alone. What it wants done afterwards it returns, as a
`Followup` of a write or as the task that a job submits; who runs jobs, and when, is decided by the
schedules built on these steps.
-/

namespace Vicinity.Tiered

/-- Where a write goes. -/
inductive WriteMode where
  /-- Into the buffer while it has room. -/
  | buffered
  /-- Straight into the graph. -/
  | inPlace
deriving DecidableEq, Repr, Inhabited

/-- The parameters of the graph and the policy of the buffer. -/
structure Config where
  graph : Graph.Config
  /-- With this many vectors in the buffer, writes go straight to the graph. -/
  flatBufferLimit : UInt64 := 1024
  /-- With this many nodes ready, their slots are freed. -/
  swapJobThreshold : UInt64 := 1024
  writeMode : WriteMode := .buffered
deriving DecidableEq, Repr, Inhabited

/-- The number of ready nodes that calls for a pass; one at least. -/
def Config.gcThreshold (config : Config) : Nat := max config.swapJobThreshold.toNat 1

end Tiered

open Tiered in
/-- A buffer, a graph and the state of the work between them. -/
structure Tiered (α : Type) where
  config : Config
  flat : Flat α
  graph : Graph α
  /-- Deleted nodes without edges, whose slots the next pass frees. -/
  ready : List Nat := []
  /-- Repair jobs handed out that have not run. -/
  pendingRepairs : Nat := 0
  /-- A swap job was handed out by a repair and no pass has run since. -/
  swapScheduled : Bool := false
  /-- Passes over a ready list that was not empty. -/
  gcPasses : Nat := 0
  registry : Registry := {}
  /-- The graph logs to the journal of the whole. -/
  sharesJournal : Bool
  journal : Log.Journal := []

namespace Tiered

variable {α : Type} [Element α]

/-- Put a buffer in front of a graph that logs elsewhere; its parameters are taken over. -/
def ofGraph (config : Config) (graph : Graph α) : Tiered α :=
  { config := { config with graph := graph.config }
    flat := .new graph.config.dim.toNat graph.config.metric graph.config.multi
      graph.config.blockSize.toNat
    graph
    sharesJournal := false }

/-- An empty index, when the parameters of its graph have usable values. -/
def new (config : Config) : Except Failure (Tiered α) :=
  match Graph.new config.graph with
  | .error failure => .error failure
  | .ok graph => .ok { ofGraph config graph with sharesJournal := true }

/-! ### What the index holds -/

/-- The number of live vectors in both parts. -/
def size (t : Tiered α) : Nat := t.flat.size + t.graph.size

def contains (t : Tiered α) (label : Label) : Bool :=
  t.flat.contains label || t.graph.contains label

/-- The figures of both parts together. -/
def info (t : Tiered α) : IndexInfo :=
  let bufferedOnly := t.flat.labels.filter fun label => (t.graph.idsOf label).isEmpty
  { t.graph.info with
    algorithm := .tiered
    size := t.size
    labelCount := t.graph.labelCount + bufferedOnly.length
    capacity := t.flat.info.capacity + t.graph.capacity }

/-- Both parts and the work between them at one moment. -/
structure Report where
  index : IndexInfo
  buffer : IndexInfo
  graph : IndexInfo
  pendingInserts : Nat
  pendingRepairs : Nat
  ready : Nat
  gcPasses : Nat
  jobs : List (Kind × Status)
deriving DecidableEq, Repr

def report (t : Tiered α) : Report :=
  { index := t.info
    buffer := t.flat.info
    graph := t.graph.info
    pendingInserts := t.registry.pending .insert
    pendingRepairs := t.pendingRepairs
    ready := t.ready.length
    gcPasses := t.gcPasses
    jobs := t.registry.all }

/-! ### Messages -/

/-- Log a message of the index itself. -/
def note (t : Tiered α) (text : String) : Tiered α :=
  { t with journal := t.journal ++ [⟨.verbose, text⟩] }

/-- Take over a changed graph, with the messages it logged when they belong here. -/
def withGraph (t : Tiered α) (graph : Graph α) : Tiered α :=
  if t.sharesJournal then
    { t with graph := { graph with journal := [] }, journal := t.journal ++ graph.journal }
  else { t with graph }

/-! ### Freeing slots -/

/-- Free the slots of nodes in the order given; returns the number freed and the nodes whose turn
has not come. -/
def swapAll (graph : Graph α) (executed : Nat) (kept : List Nat) :
    List Nat → Graph α × Nat × List Nat
  | [] => (graph, executed, kept)
  | id :: ids =>
    match graph.swapRemove id with
    | .ok graph => swapAll graph (executed + 1) kept ids
    | .error _ => swapAll graph executed (kept ++ [id]) ids

/-- One pass over the ready nodes, from the highest down so that none moves before its turn; returns
the number of slots freed. A node stays ready when the last slot holds one that awaits repair. -/
def runGc (t : Tiered α) : Tiered α × Nat :=
  let t := { t with swapScheduled := false }
  if t.ready.isEmpty then (t, 0)
  else
    let count := t.ready.length
    let announced := t.note
      s!"Tiered HNSW index GC: there are {count} ready swap jobs. Start executing {count} swap jobs"
    let order := Sorting.sortBy (fun a b => b < a) t.ready
    let (graph, executed, kept) := swapAll announced.graph 0 [] order
    let done := { announced.withGraph graph.shrinkToFit with
      ready := kept
      gcPasses := t.gcPasses + 1 }
    (done.note s!"Tiered HNSW index GC: done executing {executed} swap jobs", executed)

/-! ### Writes -/

/-- What a write wants done once it is over: repair jobs, an insert job, and a pass at once. -/
structure Followup where
  repairs : List Task := []
  insert : Option Task := none
  gcDue : Bool := false
deriving DecidableEq, Repr, Inhabited

/-- The tasks to hand out, in order. -/
def Followup.tasks (followup : Followup) : List Task := followup.repairs ++ followup.insert.toList

/-- Mark one graph node deleted. Without edges it is ready at once, otherwise it needs a repair. -/
def markNode (t : Tiered α) (followup : Followup) (id : Nat) :
    Except Failure (Tiered α × Followup) :=
  match t.graph.markDeleted id with
  | .error failure => .error failure
  | .ok graph =>
    let t := t.withGraph graph
    let (t, followup) :=
      if graph.isIsolated id then ({ t with ready := t.ready ++ [id] }, followup)
      else
        match graph.generation? id with
        | some generation =>
          ({ t with pendingRepairs := t.pendingRepairs + 1 },
            { followup with repairs := followup.repairs ++ [.repair id generation] })
        | none => (t, followup)
    .ok (t, { followup with gcDue := t.config.gcThreshold ≤ t.ready.length })

/-- Mark graph nodes deleted and count them on; the first failure ends the run. -/
def markNodes (t : Tiered α) (followup : Followup) (removed : Nat) :
    List Nat → Tiered α × Followup × Except Failure Nat
  | [] => (t, followup, .ok removed)
  | id :: ids =>
    match t.markNode followup id with
    | .error failure => (t, followup, .error failure)
    | .ok (t, followup) => t.markNodes followup (removed + 1) ids

/-- Remove a label from both parts; returns the number of its vectors. -/
def removeLabel (t : Tiered α) (label : Label) : Tiered α × Followup × Except Failure Nat :=
  let (flat, removed) := t.flat.deleteLabel label
  let t := { t with flat }
  t.markNodes {} removed (t.graph.idsOf label)

/-- A write goes straight to the graph. -/
def writesDirectly (t : Tiered α) : Bool :=
  t.config.writeMode = .inPlace || t.config.flatBufferLimit.toNat ≤ t.flat.size

/-- Put a vector into the part where it belongs now. -/
def place (t : Tiered α) (followup : Followup) (label : Label) (vector : List α) :
    Tiered α × Followup × Except Failure Unit :=
  if t.writesDirectly then
    let grown := t.withGraph t.graph.ensureCapacity
    match grown.graph.insert label vector with
    | .error failure => (grown, followup, .error failure)
    | .ok (graph, _) => (grown.withGraph graph, followup, .ok ())
  else
    match t.flat.addEntry label vector with
    | .error failure => (t, followup, .error failure)
    | .ok (flat, entry) =>
      ({ t with flat }, { followup with insert := some (.insert entry label) }, .ok ())

/-- Store a vector. With one vector a label its old one is removed first. -/
def write (t : Tiered α) (label : Label) (vector : List α) :
    Tiered α × Followup × Except Failure Unit :=
  match checkDimension t.config.graph.dim.toNat vector.length with
  | .error fault => (t, {}, .error (.vector fault))
  | .ok () =>
    if t.config.graph.multi then t.place {} label vector
    else
      match t.removeLabel label with
      | (t, followup, .error failure) => (t, followup, .error failure)
      | (t, followup, .ok _) => t.place followup label vector

/-! ### Jobs -/

/-- Count a task as handed out. -/
def submit (t : Tiered α) (task : Task) : Tiered α :=
  { t with registry := t.registry.submit task.kind }

/-- Move a buffered vector into the graph. -/
def absorb (t : Tiered α) (entry : Nat) (label : Label) : Tiered α × Outcome :=
  match t.flat.entry? entry with
  | none => (t, .skipped s!"entry for label {label} already removed")
  | some row =>
    let grown := t.withGraph t.graph.ensureCapacity
    match grown.graph.insert label row.vector with
    | .error failure => (grown, .failed failure.message)
    | .ok (graph, _) =>
      ({ grown.withGraph graph with flat := (grown.flat.removeEntry entry).1 }, .completed)

/-- Repair a deleted node and make it ready. When enough are ready and no swap job is under way, one
is asked for. -/
def repairNode (t : Tiered α) (id generation : Nat) : Tiered α × Outcome × Option Task :=
  let t := { t with pendingRepairs := t.pendingRepairs - 1 }
  if t.graph.generation? id ≠ some generation || !t.graph.isDeleted id then
    (t, .skipped s!"node {id} no longer pending repair", none)
  else
    match t.graph.repair id with
    | .error failure => (t, .failed failure.message, none)
    | .ok graph =>
      let t := { t.withGraph graph with ready := t.ready ++ [id] }
      if t.config.gcThreshold ≤ t.ready.length && !t.swapScheduled then
        ({ t with swapScheduled := true }, .completed, some .swap)
      else (t, .completed, none)

/-- Do what a task says; returns how it went and the task to submit before the job ends. -/
def perform (t : Tiered α) : Task → Tiered α × Outcome × Option Task
  | .insert entry label =>
    let (t, outcome) := t.absorb entry label
    (t, outcome, none)
  | .repair id generation => t.repairNode id generation
  | .swap =>
    let (t, executed) := t.runGc
    (t, if executed = 0 then .skipped "no ready swap jobs" else .completed, none)

/-- Count a job as running. -/
def begin (t : Tiered α) (task : Task) : Tiered α :=
  { t with registry := t.registry.start task.kind }

/-- The duration recorded of a job, whose time is not taken. -/
def untimed : Nat := 0

/-- Count a job as finished. -/
def finish (t : Tiered α) (task : Task) (outcome : Outcome) : Tiered α :=
  { t with registry := t.registry.complete task.kind outcome untimed }

/-- What a task submits weighs less than the task. -/
theorem weight_of_perform {t t' : Tiered α} {task next : Task} {outcome : Outcome}
    (h : t.perform task = (t', outcome, some next)) : next.weight < task.weight := by
  cases task with
  | insert entry label => simp [perform] at h
  | swap => simp [perform] at h
  | repair id generation =>
    simp only [perform, repairNode] at h
    split at h
    · simp at h
    · split at h
      · simp at h
      · split at h
        · simp only [Prod.mk.injEq, Option.some.injEq] at h
          rw [← h.2.2]
          exact Nat.lt_succ_self 1
        · simp at h

/-! ### Queries -/

/-- Both replies in one, each label once: the buffer holds the later write, so its score counts. -/
def merge (buffered graph : Reply) : Reply :=
  (buffered ++ graph.filter fun hit => !buffered.labels.contains hit.label).sortByScore

/-- The `k` nearest labels of both parts. -/
def search (t : Tiered α) (query : List α) (k : Nat) (parameters : Query.Parameters) :
    Except Failure Reply :=
  match t.flat.search query k with
  | .error failure => .error failure
  | .ok buffered =>
    match t.graph.topK query k parameters with
    | .error failure => .error failure
    | .ok found => .ok ((merge buffered found).take k)

/-- The labels of both parts within a radius. -/
def range (t : Tiered α) (query : List α) (radius : Binary64) (parameters : Query.Parameters) :
    Except Failure Reply :=
  match t.flat.range query radius with
  | .error failure => .error failure
  | .ok buffered =>
    match t.graph.rangeQuery query radius parameters with
    | .error failure => .error failure
    | .ok found => .ok (merge buffered found)

end Tiered

end Vicinity
