import Vicinity.Document.Rules
import Vicinity.Tiered.Schedule

/-!
Types of named choices and the names that stand for them in documents.
-/

namespace Vicinity.Document

/-- A type whose values are each written as a name. -/
class Choice (β : Type) where
  all : List β
  key : β → String

namespace Choice

variable {β : Type} [Choice β]

def encode (b : β) : Json := .string (key b)

/-- The value whose name is read. -/
def decode? (rules : Rules) (json : Json) : Option β := do
  let name ← rules.choice? ((all (β := β)).map key) json
  all.find? fun b => key b == name

end Choice

instance : Choice Algorithm := ⟨Algorithm.all, Algorithm.key⟩

instance : Choice DataType := ⟨DataType.all, DataType.name⟩

instance : Choice Metric := ⟨Metric.all, Metric.key⟩

instance : Choice Tiered.Kind := ⟨Tiered.Kind.all, Tiered.Kind.name⟩

instance : Choice Tiered.WriteMode where
  all := [.buffered, .inPlace]
  key
    | .buffered => "async"
    | .inPlace => "in_place"

instance : Choice Query.Kind where
  all := [.none, .knn, .range, .hybrid]
  key
    | .none => "None"
    | .knn => "Knn"
    | .range => "Range"
    | .hybrid => "Hybrid"

instance : Choice Query.Mode where
  all := [.standard, .batches, .adHoc]
  key
    | .standard => "Standard"
    | .batches => "HybridBatches"
    | .adHoc => "HybridAdhocBf"

end Vicinity.Document
