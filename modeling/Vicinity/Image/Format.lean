import Vicinity.Graph.Basic

/-!
The byte image of a graph.

All fields have a fixed width and come with the least significant byte first, in the order of
`write`. Lists have their length in front. Version 4 is the one written; version 3 is the same
without `epsilon`.

Generations are not stored: a loaded graph numbers its nodes afresh. Neither are messages.
-/

namespace Vicinity.Image

/-- The version that is written. -/
def currentVersion : UInt32 := 4

/-- The oldest version that is read. -/
def oldestVersion : UInt32 := 3

/-- The largest dimension that is read. -/
def maxDimension : Nat := 1 <<< 20

/-- Stands for no entry point; no node has this id. -/
def noEntry : Nat := UInt32.size - 1

/-- The epsilon field is there. -/
def hasEpsilon (version : UInt32) : Bool := 4 ≤ version

/-! ### Writing -/

def word32 (n : Nat) : List UInt8 := LittleEndian.encode 4 n

def word64 (n : Nat) : List UInt8 := LittleEndian.encode 8 n

def flag (b : Bool) : List UInt8 := [if b then 1 else 0]

/-- A list of ids with its length in front. -/
def ids (list : List Nat) : List UInt8 := word32 list.length ++ list.flatMap word32

variable {α : Type} [Element α]

def header (g : Graph α) (version : UInt32) : List UInt8 :=
  word32 version.toNat ++ (word32 Algorithm.hnsw.tag.toNat ++
    (word32 (Element.dataType α).tag.toNat ++ word64 g.config.dim.toNat))

def parameters (g : Graph α) (version : UInt32) : List UInt8 :=
  word32 g.config.metric.tag.toNat ++ (word64 g.config.blockSize.toNat ++
    (word64 g.capacity.toNat ++ (word64 g.config.m.toNat ++
    (word64 g.config.efConstruction.toNat ++
    (word64 g.config.efRuntime.toNat ++
    ((if hasEpsilon version then word64 g.config.epsilon.bits.toNat else []) ++
    (flag g.config.multi ++ (word64 g.config.levelSeed.toNat ++ (word64 g.drawCount.toNat ++
    (word32 (g.entryPoint.getD noEntry) ++ (word64 g.maxLevel ++ word64 g.nodeCount)))))))))))

def links (l : Graph.Links) : List UInt8 := ids l.out ++ ids l.incoming

/-- A node without its vector. -/
def node (n : Graph.Node) : List UInt8 :=
  word64 n.label.toNat ++ (flag n.deleted ++ (word32 n.layers.length ++ n.layers.flatMap links))

def labelEntry (entry : Label × List Nat) : List UInt8 := word64 entry.1.toNat ++ ids entry.2

/-- The labels in ascending order. -/
def labels (g : Graph α) : List UInt8 :=
  word64 g.labels.size ++ g.labels.entries.flatMap labelEntry

/-- The image of a graph in a version of the format. -/
def writeVersion (g : Graph α) (version : UInt32) : List UInt8 :=
  header g version ++ (parameters g version ++ (g.nodes.toList.flatMap node ++
    (Element.encodeAll g.vectors.toList ++ labels g)))

/-- The image of a graph. -/
def write (g : Graph α) : List UInt8 := writeVersion g currentVersion

end Vicinity.Image
