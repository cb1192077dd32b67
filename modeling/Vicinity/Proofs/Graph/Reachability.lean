import Vicinity.Proofs.Graph.Guarded.Calls
import Vicinity.Proofs.Graph.Small

/-!
What holds of a graph after any sequence of calls.

`Intact` collects what a caller may rely on: the integrity check passes in whatever order it visits
the labels, the counter of the deleted nodes is their number, every slot has its vector, the label
map lists each live node once and under its own label, both ends of every edge record it once, the
capacity is a whole number of blocks with room for every node, serial numbers are unique, and the
next call finds every node, vector and layer that it looks for. Deletions may be under way; nothing
is asked of how far they are.
-/

namespace Vicinity.Graph

variable {α : Type}

variable [Element α]

/-- What calls leave in order, whatever they are and whether they succeed. -/
structure Intact (config : Config) (g : Graph α) : Prop where
  integrity : ∀ order, order.Perm g.labels.entries → g.integrityVia order = .ok ()
  tallied : g.markedCount = g.nodes.countP (·.deleted)
  aligned : g.vectors.size = g.nodeCount * config.dim.toNat
  listed_once : ∀ id, g.isLive id = true → g.mappedIds.count id = 1
  listed_under_own : ∀ id, g.isLive id = true →
    ∃ label, g.label? id = some label ∧ id ∈ g.idsOf label
  out_nodup : ∀ id layer, (g.links id layer).out.Nodup
  incoming_nodup : ∀ id layer, (g.links id layer).incoming.Nodup
  mirrored : ∀ a b layer, b ∈ (g.links a layer).out ↔ a ∈ (g.links b layer).incoming
  whole_blocks : config.blockSize.toNat ∣ g.capacity.toNat
  fits : g.nodeCount ≤ g.capacity.toNat
  generation_inj : ∀ a b x, g.generation? a = some x → g.generation? b = some x → a = b
  generation_lt : ∀ id x, g.generation? id = some x → x < g.nextGeneration
  nothing_missing : ∀ call : Call α, call.Admissible g → call.guardedRun g = some (call.run g)

/-- Every sequence of calls leaves a graph intact. -/
theorem Reachable.intact {config : Config} {g : Graph α} (reachable : Reachable config g) :
    Intact config g := by
  obtain ⟨wf, config_eq⟩ := reachable.wellFormed
  exact
    { integrity := fun _ visits => wf.integrityVia visits
      tallied := wf.stocked.tallied
      aligned := config_eq ▸ wf.stocked.aligned
      listed_once := fun id live => wf.labelled.count_mappedIds live
      listed_under_own := fun id live => wf.labelled.mem_idsOf_label live
      out_nodup := wf.linked.out_nodup
      incoming_nodup := wf.linked.incoming_nodup
      mirrored := wf.linked.mirrored
      whole_blocks := config_eq ▸ wf.stocked.whole_blocks
      fits := wf.stocked.fits
      generation_inj := wf.stocked.generation_inj
      generation_lt := wf.stocked.generation_lt
      nothing_missing := fun call admissible => Call.guardedRun_eq_some wf admissible }

/-- While a node with edges awaits the end of its deletion, too. -/
theorem intact_after_marking :
    Reachable planeConfig firstMarked ∧ firstMarked.isDeleted 0 = true ∧
      0 ∈ (firstMarked.links 1 0).out ∧ Intact planeConfig firstMarked := by
  obtain ⟨within, _, deleted, _, edge⟩ := firstMarked_spec
  exact ⟨within.reachable, deleted, edge, within.reachable.intact⟩

end Vicinity.Graph
