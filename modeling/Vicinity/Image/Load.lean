import Vicinity.Graph.Integrity
import Vicinity.Image.Format
import Vicinity.Image.Scan

/-!
Loading a graph from its image.

The header is checked field by field before anything else is read, the parameters before the nodes
are, and the finished graph must pass `Graph.integrity`. What follows the image in the input is left
alone.
-/

namespace Vicinity.Image

/-- What the front of an image announces. -/
structure Header where
  version : UInt32
  algorithm : Algorithm
  dataType : DataType
  dim : UInt64
deriving DecidableEq, Repr

/-- Read the header of an image of a graph over components of the given type. -/
def scanHeader (stored : DataType) : Scan Header := do
  let version ← Scan.word32
  if version < oldestVersion then Scan.fail (.deprecatedVersion version)
  if currentVersion < version then Scan.fail (.badVersion version)
  let algorithmTag ← Scan.word32
  if algorithmTag != Algorithm.hnsw.tag then
    Scan.fail (.wrongAlgorithm (Algorithm.nameOfTag algorithmTag))
  let typeTag ← Scan.word32
  if typeTag != stored.tag then Scan.fail (.badDataType (DataType.nameOfTag typeTag))
  let dim ← Scan.word64
  if dim = 0 then Scan.reject .dimensionZero
  if maxDimension < dim.toNat then Scan.reject (.dimensionTooLarge dim.toNat maxDimension)
  pure ⟨version, .hnsw, stored, dim⟩

/-- The fields between the header and the nodes. -/
structure Parameters where
  config : Graph.Config
  capacity : UInt64
  drawCount : UInt64
  entryPoint : Option Nat
  maxLevel : Nat
  count : Nat

def scanParameters (header : Header) : Scan Parameters := do
  let tag ← Scan.word32
  let some metric := Metric.ofTag? tag | Scan.reject (.unknownMetric tag)
  let blockSize ← Scan.word64
  let capacity ← Scan.word64
  let m ← Scan.word64
  let efConstruction ← Scan.word64
  let efRuntime ← Scan.word64
  let defaults : Graph.Config := { dim := header.dim, metric }
  let epsilon ← if hasEpsilon header.version then Binary64.mk <$> Scan.word64
    else pure defaults.epsilon
  let multi ← Scan.flag
  let levelSeed ← Scan.word64
  let drawCount ← Scan.word64
  let entry ← Scan.unsigned 4
  let maxLevel ← Scan.unsigned 8
  let count ← Scan.unsigned 8
  let config : Graph.Config :=
    { dim := header.dim, metric, multi, blockSize, m, efConstruction, efRuntime, epsilon,
      levelSeed }
  match config.fault? with
  | some fault => Scan.reject (.parameters fault)
  | none =>
    if capacity.toNat < count || noEntry ≤ count then
      Scan.reject (.countOverCapacity count capacity.toNat)
    pure
      { config, capacity, drawCount, maxLevel, count
        entryPoint := if entry = noEntry then none else some entry }

def scanLinks : Scan Graph.Links := do
  let out ← Scan.ids
  let incoming ← Scan.ids
  pure { out, incoming }

/-- A node; its vector comes later. -/
def scanNode (id : Nat) : Scan Graph.Node := do
  let label ← Scan.word64
  let deleted ← Scan.flag
  let layerCount ← Scan.unsigned 4
  if layerCount = 0 then Scan.reject (.nodeWithoutLayers id)
  let layers ← Scan.times (fun _ => scanLinks) 0 layerCount
  pure { label, deleted, generation := id, layers }

variable {α : Type} [Element α]

/-- A vector of a number of components. -/
def scanVector (dim : Nat) : Scan (List α) :=
  Element.decodeMany dim <$> Scan.bytes (dim * (Element.dataType α).width)

/-- Label entries, each label once. -/
def scanLabels (map : LabelMap (List Nat)) : (count : Nat) → Scan (LabelMap (List Nat))
  | 0 => pure map
  | count + 1 => do
    let label ← Scan.word64
    let ids ← Scan.ids
    if map.contains label then Scan.reject (.labelListedTwice label)
    scanLabels (map.insert label ids) count

/-- Everything after the header. -/
def scanPayload (header : Header) : Scan (Graph α) := do
  let p ← scanParameters header
  let nodes : List Graph.Node ← Scan.times scanNode 0 p.count
  let vectors : List (List α) ← Scan.times (fun _ => scanVector header.dim.toNat) 0 p.count
  let labelCount ← Scan.unsigned 8
  let labels ← scanLabels .empty labelCount
  let g : Graph α :=
    { config := p.config
      nodes := nodes.toArray
      vectors := vectors.flatten.toArray
      labels
      entryPoint := p.entryPoint
      maxLevel := p.maxLevel
      capacity := p.capacity
      drawCount := p.drawCount
      nextGeneration := p.count
      markedCount := nodes.countP (·.deleted) }
  match g.integrity with
  | .error violation => Scan.reject (.structural violation)
  | .ok () => pure g

/-- A graph at the front of the input. -/
def scan : Scan (Graph α) := do
  let header ← scanHeader (Element.dataType α)
  scanPayload header

/-- The graph at the front of some bytes, with the bytes after it. -/
def readFrom (bytes : List UInt8) : Except LoadFault (Graph α × List UInt8) := scan.run bytes

/-- The graph at the front of some bytes. -/
def load (bytes : List UInt8) : Except LoadFault (Graph α) :=
  match readFrom bytes with
  | .error fault => .error fault
  | .ok (g, _) => .ok g

/-- The header at the front of some bytes. -/
def loadHeader (stored : DataType) (bytes : List UInt8) : Except LoadFault Header :=
  match (scanHeader stored).run bytes with
  | .error fault => .error fault
  | .ok (header, _) => .ok header

end Vicinity.Image
