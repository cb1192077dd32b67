/-!
The kinds of index.
-/

namespace Vicinity

/-- How an index organises its vectors. -/
inductive Algorithm where
  | bruteForce
  | hnsw
  | tiered
deriving DecidableEq, Repr, Inhabited

namespace Algorithm

def all : List Algorithm := [.bruteForce, .hnsw, .tiered]

def name : Algorithm → String
  | .bruteForce => "BruteForce"
  | .hnsw => "HNSW"
  | .tiered => "Tiered"

/-- The spelling in settings and reports. -/
def key : Algorithm → String
  | .bruteForce => "brute_force"
  | .hnsw => "hnsw"
  | .tiered => "tiered"

/-- The number that stands for the algorithm in an image. -/
def tag : Algorithm → UInt32
  | .bruteForce => 0
  | .hnsw => 1
  | .tiered => 2

def ofTag? (tag : UInt32) : Option Algorithm := all.find? (·.tag == tag)

/-- The name for a tag that may be anything. -/
def nameOfTag (tag : UInt32) : String := ((ofTag? tag).map name).getD "Unknown"

end Algorithm

end Vicinity
