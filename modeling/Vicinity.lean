import Vicinity.Algorithm
import Vicinity.Arena
import Vicinity.Binary32
import Vicinity.Binary64
import Vicinity.ChaCha
import Vicinity.Document.Choice
import Vicinity.Document.Record
import Vicinity.Document.Report
import Vicinity.Document.Rules
import Vicinity.Element
import Vicinity.Fault
import Vicinity.FileTree
import Vicinity.Flat
import Vicinity.Graph.Basic
import Vicinity.Graph.Config
import Vicinity.Graph.Delete
import Vicinity.Graph.Frontier
import Vicinity.Graph.Index
import Vicinity.Graph.Insert
import Vicinity.Graph.Integrity
import Vicinity.Graph.Level
import Vicinity.Graph.Search
import Vicinity.Hexadecimal
import Vicinity.Image.File
import Vicinity.Image.Format
import Vicinity.Image.Load
import Vicinity.Image.Scan
import Vicinity.Index
import Vicinity.Info
import Vicinity.Json
import Vicinity.Json.Parser
import Vicinity.Json.Printer
import Vicinity.LabelMap
import Vicinity.LittleEndian
import Vicinity.Log
import Vicinity.Metric
import Vicinity.Numeral
import Vicinity.Numeral.Shortest
import Vicinity.Path
import Vicinity.PriorityHeap
import Vicinity.Proofs.Arena
import Vicinity.Proofs.BestHits
import Vicinity.Proofs.Binary64
import Vicinity.Proofs.Binary64.Arithmetic
import Vicinity.Proofs.Binary64.Rounding
import Vicinity.Proofs.Correspondence
import Vicinity.Proofs.Deduplication
import Vicinity.Proofs.Exhaustive
import Vicinity.Proofs.Flat
import Vicinity.Proofs.Flat.Calls
import Vicinity.Proofs.Flat.Exactness
import Vicinity.Proofs.Flat.Handles
import Vicinity.Proofs.Flat.Structures
import Vicinity.Proofs.Graph.Arrival
import Vicinity.Proofs.Graph.Beam
import Vicinity.Proofs.Graph.Bridging
import Vicinity.Proofs.Graph.Calls
import Vicinity.Proofs.Graph.Capacity
import Vicinity.Proofs.Graph.Descent
import Vicinity.Proofs.Graph.Downhill
import Vicinity.Proofs.Graph.Entering
import Vicinity.Proofs.Graph.Exactness
import Vicinity.Proofs.Graph.Finding
import Vicinity.Proofs.Graph.Footing
import Vicinity.Proofs.Graph.Frontier
import Vicinity.Proofs.Graph.Growth
import Vicinity.Proofs.Graph.Guarded.Calls
import Vicinity.Proofs.Graph.Guarded.Deletion
import Vicinity.Proofs.Graph.Guarded.Insertion
import Vicinity.Proofs.Graph.Holdings
import Vicinity.Proofs.Graph.Insertion
import Vicinity.Proofs.Graph.Integrity
import Vicinity.Proofs.Graph.Joining
import Vicinity.Proofs.Graph.LayerSearch
import Vicinity.Proofs.Graph.Linked
import Vicinity.Proofs.Graph.Links
import Vicinity.Proofs.Graph.Marking
import Vicinity.Proofs.Graph.Mending
import Vicinity.Proofs.Graph.Mesh
import Vicinity.Proofs.Graph.Numbering
import Vicinity.Proofs.Graph.Ranging
import Vicinity.Proofs.Graph.Ranking
import Vicinity.Proofs.Graph.Reachability
import Vicinity.Proofs.Graph.Refilling
import Vicinity.Proofs.Graph.Refusal
import Vicinity.Proofs.Graph.Relocation
import Vicinity.Proofs.Graph.Renaming
import Vicinity.Proofs.Graph.Repair
import Vicinity.Proofs.Graph.Replacement
import Vicinity.Proofs.Graph.Replies
import Vicinity.Proofs.Graph.Small
import Vicinity.Proofs.Graph.Vetting
import Vicinity.Proofs.Graph.Walk
import Vicinity.Proofs.Graph.WellFormed
import Vicinity.Proofs.Holdings
import Vicinity.Proofs.Image.Acceptance
import Vicinity.Proofs.Image.Fields
import Vicinity.Proofs.Image.Reloading
import Vicinity.Proofs.Image.RoundTrip
import Vicinity.Proofs.Image.Scan
import Vicinity.Proofs.Image.Spelling
import Vicinity.Proofs.Image.Truncation
import Vicinity.Proofs.LabelMap
import Vicinity.Proofs.Leading
import Vicinity.Proofs.PriorityHeap
import Vicinity.Proofs.PriorityHeap.Operations
import Vicinity.Proofs.PriorityHeap.Order
import Vicinity.Proofs.PriorityHeap.Positions
import Vicinity.Proofs.Query
import Vicinity.Proofs.Reordering
import Vicinity.Proofs.Reply
import Vicinity.Proofs.Settings
import Vicinity.Proofs.Sorting
import Vicinity.Proofs.Sorting.Adaptive
import Vicinity.Proofs.Sorting.Merge
import Vicinity.Proofs.Tiered.Adoption
import Vicinity.Proofs.Tiered.Buffering
import Vicinity.Proofs.Tiered.Contents
import Vicinity.Proofs.Tiered.Counting
import Vicinity.Proofs.Tiered.Draining
import Vicinity.Proofs.Tiered.Exactness
import Vicinity.Proofs.Tiered.Faithful
import Vicinity.Proofs.Tiered.Interleaving
import Vicinity.Proofs.Tiered.Merging
import Vicinity.Proofs.Tiered.Meshing
import Vicinity.Proofs.Tiered.Orderly
import Vicinity.Proofs.Tiered.Performing
import Vicinity.Proofs.Tiered.Preparing
import Vicinity.Proofs.Tiered.Scheduling
import Vicinity.Proofs.Tiered.SwapJobs
import Vicinity.Proofs.Tiered.Sweeping
import Vicinity.Proofs.Tiered.Tending
import Vicinity.Proofs.Tiered.Tracking
import Vicinity.Query
import Vicinity.Reply
import Vicinity.Settings
import Vicinity.Settings.Key
import Vicinity.Settings.Layers
import Vicinity.Sorting
import Vicinity.Sorting.Adaptive
import Vicinity.Sorting.Block
import Vicinity.Sorting.Merge
import Vicinity.Sorting.Runs
import Vicinity.Tiered.Basic
import Vicinity.Tiered.Host
import Vicinity.Tiered.Job
import Vicinity.Tiered.Schedule
