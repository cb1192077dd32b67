import Vicinity.Settings
import Vicinity.Tiered.Schedule

/-!
An index of any kind, built from settings.

A tiered index comes with the jobs that wait for it; the other kinds have none.
-/

namespace Vicinity

/-- An index of one of the three kinds, over vectors with components in `α`. -/
inductive Index (α : Type) where
  | flat (flat : Flat α)
  | graph (graph : Graph α)
  | tiered (tiered : Tiered α) (jobs : List Tiered.Task)

/-- Why settings made no index. -/
inductive BuildFault where
  | settings (fault : SettingsFault)
  | dataTypeMismatch (configured stored : DataType)
  | missingQueue
  | index (failure : Failure)
deriving DecidableEq, Repr, Inhabited

def BuildFault.message : BuildFault → String
  | .settings fault => fault.message
  | .dataTypeMismatch configured stored =>
    "Data type mismatch: settings say " ++ configured.name ++ ", index stores " ++ stored.name
  | .missingQueue => "Tiered index requires a job queue"
  | .index failure => failure.message

namespace Index

variable {α : Type} [Element α]

/-- An empty index of the kind that the settings name. -/
def ofAlgorithm (settings : Settings) (hasQueue : Bool) : Except BuildFault (Index α) :=
  match settings.algorithm with
  | .bruteForce =>
    .ok (.flat (.new settings.dim.toNat settings.metric settings.multi settings.blockSize.toNat))
  | .hnsw =>
    match Graph.new settings.graphConfig with
    | .error failure => .error (.index failure)
    | .ok g => .ok (.graph g)
  | .tiered =>
    if !hasQueue then .error .missingQueue
    else
      match Tiered.new settings.tieredConfig with
      | .error failure => .error (.index failure)
      | .ok t => .ok (.tiered t [])

/-- An empty index as the settings describe it. Only a tiered one needs a queue for its jobs. -/
def ofSettings (settings : Settings) (hasQueue : Bool) : Except BuildFault (Index α) :=
  match settings.validate with
  | .error fault => .error (.settings fault)
  | .ok settings =>
    if settings.dataType ≠ Element.dataType α then
      .error (.dataTypeMismatch settings.dataType (Element.dataType α))
    else ofAlgorithm settings hasQueue

def info : Index α → IndexInfo
  | .flat f => f.info
  | .graph g => g.info
  | .tiered t _ => t.info

def isGraph : Index α → Bool
  | .graph _ => true
  | _ => false

def isTiered : Index α → Bool
  | .tiered _ _ => true
  | _ => false

/-- Jobs that wait. -/
def jobs : Index α → List Tiered.Task
  | .tiered _ jobs => jobs
  | _ => []

/-- Run jobs until none waits; returns their number. -/
def runJobs : Index α → Index α × Nat
  | .tiered t jobs =>
    let (backlog, ran) := Tiered.Backlog.runAll ⟨some t, jobs⟩ 0
    (.tiered (backlog.index?.getD t) backlog.jobs, ran)
  | index => (index, 0)

/-- Messages logged so far. -/
def journal : Index α → Log.Journal
  | .flat _ => []
  | .graph g => g.journal
  | .tiered t _ => t.journal

/-- Forget the messages logged so far. -/
def clearJournal : Index α → Index α
  | .flat f => .flat f
  | .graph g => .graph { g with journal := [] }
  | .tiered t jobs => .tiered { t with journal := [] } jobs

def contains (index : Index α) (label : Label) : Bool :=
  match index with
  | .flat f => f.contains label
  | .graph g => g.contains label
  | .tiered t _ => t.contains label

def add (index : Index α) (label : Label) (vector : List α) : Index α × Except Failure Unit :=
  match index with
  | .flat f =>
    let (f, added) := f.add label vector
    (.flat f, added)
  | .graph g =>
    let (g, added) := g.add label vector
    (.graph g, added)
  | .tiered t jobs =>
    let (t, jobs, added) := Tiered.Backlog.add t jobs label vector
    (.tiered t jobs, added)

def delete (index : Index α) (label : Label) : Index α × Except Failure Nat :=
  match index with
  | .flat f =>
    let (f, count) := f.deleteLabel label
    (.flat f, .ok count)
  | .graph g =>
    let (g, deleted) := g.removeLabel label
    (.graph g, deleted)
  | .tiered t jobs =>
    let (t, jobs, deleted) := Tiered.Backlog.delete t jobs label
    (.tiered t jobs, deleted)

def topK (index : Index α) (query : List α) (k : Nat) (parameters : Query.Parameters) :
    Except Failure Reply :=
  match index with
  | .flat f => f.search query k
  | .graph g => g.topK query k parameters
  | .tiered t _ => t.search query k parameters

def rangeQuery (index : Index α) (query : List α) (radius : Binary64)
    (parameters : Query.Parameters) : Except Failure Reply :=
  match index with
  | .flat f => f.range query radius
  | .graph g => g.rangeQuery query radius parameters
  | .tiered t _ => t.range query radius parameters

instance : VectorIndex (Index α) α where
  info := info
  contains := contains
  add := add
  delete := delete
  topK := topK
  rangeQuery := rangeQuery

end Index

end Vicinity
