import Vicinity.Algorithm
import Vicinity.Numeral

/-!
Query parameters.

A caller names parameters in text; `Query.resolve` checks each against the index and the kind of
query and yields typed parameters. The checks of one parameter come in a fixed order (known, not set
before, allowed for the query, well formed), the parameters are taken from left to right, and what
two of them may not say together is checked last.
-/

namespace Vicinity.Query

/-- The kind of query that parameters are meant for. -/
inductive Kind where
  | none
  | knn
  | range
  | hybrid
deriving DecidableEq, Repr, Inhabited

/-- How a filtered query is carried out. -/
inductive Mode where
  /-- No policy was given. -/
  | standard
  /-- Candidates come from the index in batches and are then filtered. -/
  | batches
  /-- The filtered vectors are scanned one by one. -/
  | adHoc
deriving DecidableEq, Repr, Inhabited

/-- Resolved parameters; an absent one falls back to the index's own. -/
structure Parameters where
  efRuntime : Option Nat := none
  epsilon : Option Binary64 := none
  batchSize : Option Nat := none
  mode : Mode := .standard
deriving DecidableEq, Repr, Inhabited

/-- The parameters a caller can name. -/
inductive Name where
  | efRuntime
  | epsilon
  | batchSize
  | hybridPolicy
deriving DecidableEq, Repr, Inhabited

namespace Name

def all : List Name := [.efRuntime, .epsilon, .batchSize, .hybridPolicy]

/-- The spelling in messages. -/
def text : Name → String
  | .efRuntime => "EF_RUNTIME"
  | .epsilon => "EPSILON"
  | .batchSize => "batch_size"
  | .hybridPolicy => "HYBRID_POLICY"

/-- The parameters of a graph search mean nothing to an exhaustive one. -/
def appliesTo (algorithm : Algorithm) : Name → Bool
  | .efRuntime | .epsilon => algorithm != .bruteForce
  | .batchSize | .hybridPolicy => true

end Name

/-- Why parameters were refused. -/
inductive Refusal where
  | unknown (name : String)
  | alreadySet (name : Name)
  | badValue (name : Name) (value : String)
  | noSuchPolicy (value : String)
  | onlyForHybrid (name : Name)
  | onlyForRange (name : Name)
  | adHocWithBatchSize
  | adHocWithEfRuntime
deriving DecidableEq, Repr, Inhabited

def Refusal.message : Refusal → String
  | .unknown name => "Unknown parameter: " ++ name
  | .alreadySet name => "Parameter already set: " ++ name.text
  | .badValue name value => "Bad value for " ++ name.text ++ ": " ++ value
  | .noSuchPolicy value => "Invalid policy: " ++ value ++ " is not a known hybrid policy"
  | .onlyForHybrid name => "Invalid policy: " ++ name.text ++ " is only valid for hybrid queries"
  | .onlyForRange name => "Invalid policy: " ++ name.text ++ " is only valid for range queries"
  | .adHocWithBatchSize => "Invalid policy: ad-hoc with batch size"
  | .adHocWithEfRuntime => "Invalid policy: ad-hoc with ef_runtime"

/-! ### Names and values -/

/-- Equal up to the case of ASCII letters. -/
def sameName (a b : String) : Bool := a.toList.map Char.toLower == b.toList.map Char.toLower

/-- The parameter that a text names on an index of this kind. -/
def name? (algorithm : Algorithm) (text : String) : Option Name :=
  Name.all.find? fun name => name.appliesTo algorithm && sameName text name.text

/-- A positive integer that fits a signed word. -/
def positiveInteger? (value : String) : Option Nat := do
  let n ← Numeral.integer? value
  if 0 < n ∧ n < 0x8000000000000000 then some n.toNat else none

/-- A positive finite number. -/
def positiveNumber? (value : String) : Option Binary64 := do
  let x ← Numeral.double? value
  if x.isFinite && Binary64.zero.lt x then some x else none

def policy? (value : String) : Option Mode :=
  if sameName value "batches" then some .batches
  else if sameName value "adhoc_bf" then some .adHoc
  else none

/-! ### Resolution -/

/-- The parameter has a value already. -/
def Parameters.has (p : Parameters) : Name → Bool
  | .efRuntime => p.efRuntime.isSome
  | .epsilon => p.epsilon.isSome
  | .batchSize => p.batchSize.isSome
  | .hybridPolicy => p.mode != .standard

/-- The reason that a query of this kind cannot take the parameter, if it cannot. -/
def barred? (kind : Kind) (name : Name) : Option Refusal :=
  match name with
  | .efRuntime => if kind = .range then some (.onlyForRange name) else none
  | .epsilon => if kind ≠ .range then some (.onlyForRange name) else none
  | .batchSize | .hybridPolicy => if kind ≠ .hybrid then some (.onlyForHybrid name) else none

/-- Read the value of a parameter into its field. -/
def Parameters.read (p : Parameters) (name : Name) (value : String) : Except Refusal Parameters :=
  match name with
  | .efRuntime =>
    match positiveInteger? value with
    | some n => .ok { p with efRuntime := some n }
    | none => .error (.badValue name value)
  | .epsilon =>
    match positiveNumber? value with
    | some x => .ok { p with epsilon := some x }
    | none => .error (.badValue name value)
  | .batchSize =>
    match positiveInteger? value with
    | some n => .ok { p with batchSize := some n }
    | none => .error (.badValue name value)
  | .hybridPolicy =>
    match policy? value with
    | some mode => .ok { p with mode }
    | none => .error (.noSuchPolicy value)

/-- Take one named value in. -/
def Parameters.take (algorithm : Algorithm) (kind : Kind) (p : Parameters)
    (raw : String × String) : Except Refusal Parameters :=
  match name? algorithm raw.1 with
  | none => .error (.unknown raw.1)
  | some name =>
    if p.has name then .error (.alreadySet name)
    else
      match barred? kind name with
      | some refusal => .error refusal
      | none => p.read name raw.2

/-- Take named values in from left to right; the first that is refused decides. -/
def Parameters.takeAll (algorithm : Algorithm) (kind : Kind) (p : Parameters) :
    List (String × String) → Except Refusal Parameters
  | [] => .ok p
  | raw :: raws =>
    match p.take algorithm kind raw with
    | .error refusal => .error refusal
    | .ok p => p.takeAll algorithm kind raws

/-- An exhaustive scan has neither batches nor a candidate list. -/
def Parameters.conflict? (p : Parameters) : Option Refusal :=
  if p.mode = .adHoc then
    if p.batchSize.isSome then some .adHocWithBatchSize
    else if p.efRuntime.isSome then some .adHocWithEfRuntime
    else none
  else none

/-- The parameters for a query of this kind on an index of this kind. -/
def resolve (algorithm : Algorithm) (kind : Kind) (raws : List (String × String)) :
    Except Refusal Parameters :=
  match ({} : Parameters).takeAll algorithm kind raws with
  | .error refusal => .error refusal
  | .ok p =>
    match p.conflict? with
    | some refusal => .error refusal
    | none => .ok p

end Vicinity.Query
