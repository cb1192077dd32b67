import Vicinity.Query

/-!
Causes of failure.

Every cause is a constructor with the facts it arose from; the wording is in the `message` functions
and nowhere else. `Failure` is what an operation on an index reports. The smaller types are the
causes of its parts: the vector handed in, the parameters of a graph, the state of a node, the
structure of a graph, an image, a file.
-/

namespace Vicinity

/-- A vector that does not fit the index. -/
inductive VectorFault where
  | zeroDimension
  | mismatch (expected actual : Nat)
deriving DecidableEq, Repr, Inhabited

/-- Text that stands after the announcement of an unusable argument. -/
def invalidInput (reason : String) : String := "Invalid input: " ++ reason

def VectorFault.message : VectorFault → String
  | .zeroDimension => invalidInput "vector dimension must be non-zero"
  | .mismatch expected actual => s!"Dimension mismatch: expected {expected}, got {actual}"

/-- Check a vector's length against the dimension; neither may be zero. -/
def checkDimension (expected actual : Nat) : Except VectorFault Unit :=
  if expected = 0 ∨ actual = 0 then .error .zeroDimension
  else if expected ≠ actual then .error (.mismatch expected actual)
  else .ok ()

theorem checkDimension_eq_ok_iff {expected actual : Nat} :
    checkDimension expected actual = .ok () ↔ actual = expected ∧ expected ≠ 0 := by
  unfold checkDimension
  split
  case isTrue zero => simp; omega
  case isFalse nonzero =>
    split
    case isTrue ne => simp; omega
    case isFalse eq => simp; omega

/-- Graph parameters that no graph can have. -/
inductive ParameterFault where
  | dimensionZero
  | blockSizeZero
  | degreeTooSmall (m : Nat)
  | beamZero
deriving DecidableEq, Repr, Inhabited

def ParameterFault.reason : ParameterFault → String
  | .dimensionZero => "dim must be > 0"
  | .blockSizeZero => "block_size must be > 0"
  | .degreeTooSmall m => s!"M must be >= 2, got {m}"
  | .beamZero => "ef values must be > 0"

/-- An operation that the node's present state does not allow. -/
inductive NodeFault where
  | outOfRange (count : Nat)
  | alreadyDeleted
  | notDeleted
  | notRepaired
  | lastSlotPending
deriving DecidableEq, Repr, Inhabited

def NodeFault.reason : NodeFault → String
  | .outOfRange count => s!"out of range ({count} nodes)"
  | .alreadyDeleted => "already marked deleted"
  | .notDeleted => "repair requires a deleted node"
  | .notRepaired => "swap requires a deleted, repaired node"
  | .lastSlotPending => "last slot is pending deletion"

/-- A defect in the structure of a graph. -/
inductive Violation where
  | vectorElements (elements count dim : Nat)
  | overCapacity (count capacity : Nat)
  | noLayers (id : Nat)
  | aboveMaxLevel (id maxLevel : Nat)
  | tooManyNeighbors (id degree layer cap : Nat)
  | selfLink (id layer : Nat)
  | repeatedLink (id target layer : Nat)
  | missingTarget (id target : Nat)
  | unrecordedLink (id target layer : Nat)
  | targetTooLow (id target layer : Nat)
  | strayIncoming (source id layer : Nat)
  | deletedCount (deleted counter : Nat)
  | entryOutOfRange (entry : Nat)
  | entryDeleted (entry : Nat)
  | entryLevel (entry level maxLevel : Nat)
  | entryAbsent
  | labelWithoutIds (label : UInt64)
  | labelWithManyIds (label : UInt64) (count : Nat)
  | labelOfDeleted (label : UInt64) (id : Nat)
  | labelOfOther (label : UInt64) (id : Nat) (actual : UInt64)
  | labelOfMissing (label : UInt64) (id : Nat)
  | unmappedNodes (live mapped : Nat)
deriving DecidableEq, Repr, Inhabited

def Violation.message : Violation → String
  | .vectorElements elements count dim =>
    s!"{elements} vector elements for {count} nodes of dim {dim}"
  | .overCapacity count capacity => s!"{count} nodes exceed capacity {capacity}"
  | .noLayers id => s!"node {id} has no layers"
  | .aboveMaxLevel id maxLevel => s!"live node {id} above max level {maxLevel}"
  | .tooManyNeighbors id degree layer cap =>
    s!"node {id} has {degree} neighbors on layer {layer} (cap {cap})"
  | .selfLink id layer => s!"node {id} links to itself on layer {layer}"
  | .repeatedLink id target layer => s!"node {id} lists {target} twice on layer {layer}"
  | .missingTarget id target => s!"node {id} links to missing node {target}"
  | .unrecordedLink id target layer =>
    s!"edge {id} -> {target} on layer {layer} missing from incoming set"
  | .targetTooLow id target layer => s!"node {id} links to {target} above its top layer {layer}"
  | .strayIncoming source id layer =>
    s!"incoming {source} -> {id} on layer {layer} has no matching edge"
  | .deletedCount deleted counter => s!"{deleted} deleted nodes but counter says {counter}"
  | .entryOutOfRange entry => s!"entry point {entry} out of range"
  | .entryDeleted entry => s!"entry point {entry} is deleted"
  | .entryLevel entry level maxLevel =>
    s!"entry point {entry} on level {level} but max level is {maxLevel}"
  | .entryAbsent => "no entry point but live nodes exist"
  | .labelWithoutIds label => s!"label {label} maps to no ids"
  | .labelWithManyIds label count => s!"label {label} has {count} ids in a single-value index"
  | .labelOfDeleted label id => s!"label {label} maps to deleted node {id}"
  | .labelOfOther label id actual => s!"label {label} maps to node {id} labelled {actual}"
  | .labelOfMissing label id => s!"label {label} maps to missing node {id}"
  | .unmappedNodes live mapped => s!"{live} live nodes but {mapped} mapped ids"

/-- What a file system refuses. -/
inductive FileFault where
  | notFound
  | notADirectory
  | isADirectory
  | nameTooLong
  /-- A path with a zero character in it names nothing. -/
  | zeroCharacter
deriving DecidableEq, Repr, Inhabited

def FileFault.message : FileFault → String
  | .notFound => "No such file or directory (os error 2)"
  | .notADirectory => "Not a directory (os error 20)"
  | .isADirectory => "Is a directory (os error 21)"
  | .nameTooLong => "File name too long (os error 36)"
  | .zeroCharacter => "file name contained an unexpected NUL byte"

/-- A readable image whose contents make no graph. -/
inductive Inconsistency where
  | dimensionZero
  | dimensionTooLarge (dim limit : Nat)
  | unknownMetric (tag : UInt32)
  | parameters (fault : ParameterFault)
  | countOverCapacity (count capacity : Nat)
  | nodeWithoutLayers (id : Nat)
  | labelListedTwice (label : UInt64)
  | structural (violation : Violation)
deriving DecidableEq, Repr, Inhabited

def Inconsistency.message : Inconsistency → String
  | .dimensionZero => "dimension is zero"
  | .dimensionTooLarge dim limit => s!"dimension {dim} exceeds {limit}"
  | .unknownMetric tag => s!"unknown metric tag {tag}"
  | .parameters fault => "invalid parameters: " ++ invalidInput fault.reason
  | .countOverCapacity count capacity => s!"{count} nodes for capacity {capacity}"
  | .nodeWithoutLayers id => s!"node {id} has no layers"
  | .labelListedTwice label => s!"label {label} listed twice"
  | .structural violation => violation.message

/-- Why an image was not loaded. -/
inductive LoadFault where
  | cannotOpen (path : String) (fault : FileFault)
  | deprecatedVersion (version : UInt32)
  | badVersion (version : UInt32)
  | wrongAlgorithm (name : String)
  | badDataType (name : String)
  | unexpectedEnd
  | inconsistent (cause : Inconsistency)
  | readFailed (fault : FileFault)
deriving DecidableEq, Repr, Inhabited

def LoadFault.message : LoadFault → String
  | .cannotOpen path fault => "Cannot open file " ++ path ++ ": " ++ fault.message
  | .deprecatedVersion version =>
    s!"Cannot load index: deprecated encoding version: {version}"
  | .badVersion version => s!"Cannot load index: bad encoding version: {version}"
  | .wrongAlgorithm name =>
    s!"Cannot load index: Expected HNSW file but got algorithm type: {name} (corrupted file?)"
  | .badDataType name =>
    s!"Cannot load index: bad index data type: {name} (corrupted file?)"
  | .unexpectedEnd => "Cannot load index: unexpected end of file"
  | .inconsistent cause => "Cannot load index: inconsistent graph: " ++ cause.message
  | .readFailed fault => "Cannot load index: read failed: " ++ fault.message

/-- Why an operation on an index failed. -/
inductive Failure where
  | vector (fault : VectorFault)
  | parameters (fault : ParameterFault)
  | negativeRange
  | narrowBeam (ef k : Nat)
  | full (capacity : Nat)
  | node (id : Nat) (fault : NodeFault)
  | integrity (violation : Violation)
  | query (refusal : Query.Refusal)
  | load (fault : LoadFault)
  | file (fault : FileFault)
deriving DecidableEq, Repr, Inhabited

def Failure.message : Failure → String
  | .vector fault => fault.message
  | .parameters fault => invalidInput fault.reason
  | .negativeRange => invalidInput "radius and epsilon must be >= 0"
  | .narrowBeam ef k => s!"Invalid ef: ef ({ef}) must be >= k ({k})"
  | .full capacity => s!"Index capacity reached: {capacity}"
  | .node id fault => s!"Invalid node state for {id}: " ++ fault.reason
  | .integrity violation => "Integrity violation: " ++ violation.message
  | .query refusal => "Query parameter error: " ++ refusal.message
  | .load fault => fault.message
  | .file fault => "IO error: " ++ fault.message

end Vicinity
