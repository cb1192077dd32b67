import Vicinity.Graph.Index
import Vicinity.Graph.Integrity
import Vicinity.Proofs.Graph.Marking

/-!
Serial numbers decide nothing.

A node's serial number tells it from the nodes that stood in its slot before, and that is all it is
for. `unnumbered` forgets the numbers and puts messages before those that were logged. What a graph
answers is the same without them, and a change commutes with forgetting them: every operation that
stores nothing does so exactly, since it neither reads a number nor hands one out. Storing a vector
hands out the next one, so there the numbers have to be forgotten once more afterwards
(`insert_unnumbered`, `add_unnumbered`).
-/

namespace Vicinity.Graph

variable {α : Type}

/-- The node with its serial number forgotten. -/
def Node.unnumbered (node : Node) : Node := { node with generation := 0 }

/-- The graph with its serial numbers forgotten, and with earlier messages before its own. -/
def unnumbered (earlier : Log.Journal) (g : Graph α) : Graph α :=
  { g with
    nodes := g.nodes.map Node.unnumbered
    nextGeneration := 0
    journal := earlier ++ g.journal }

variable (earlier : Log.Journal) (g : Graph α)

theorem unnumbered_unnumbered (first : Log.Journal) :
    (g.unnumbered earlier).unnumbered first = g.unnumbered (first ++ earlier) := by
  simp only [unnumbered, Array.map_map, List.append_assoc]
  rfl

/-- A graph without numbers has none to forget. -/
theorem forget_unnumbered : (g.unnumbered earlier).unnumbered [] = g.unnumbered earlier := by
  rw [unnumbered_unnumbered, List.nil_append]

/-! ### What a graph holds -/

theorem config_unnumbered : (g.unnumbered earlier).config = g.config := rfl

theorem entryPoint_unnumbered : (g.unnumbered earlier).entryPoint = g.entryPoint := rfl

theorem capacity_unnumbered : (g.unnumbered earlier).capacity = g.capacity := rfl

theorem drawCount_unnumbered : (g.unnumbered earlier).drawCount = g.drawCount := rfl

theorem getElem?_nodes_unnumbered (id : Nat) :
    (g.unnumbered earlier).nodes[id]? = g.nodes[id]?.map Node.unnumbered := by
  simp [unnumbered]

theorem nodeCount_unnumbered : (g.unnumbered earlier).nodeCount = g.nodeCount := by
  simp [nodeCount, unnumbered]

theorem markedCount_unnumbered : (g.unnumbered earlier).markedCount = g.markedCount := rfl

theorem size_unnumbered : (g.unnumbered earlier).size = g.size := by
  rw [size, nodeCount_unnumbered, markedCount_unnumbered, size]

theorem idsOf_unnumbered (label : Label) :
    (g.unnumbered earlier).idsOf label = g.idsOf label := rfl

theorem label?_unnumbered (id : Nat) : (g.unnumbered earlier).label? id = g.label? id := by
  rw [label?, getElem?_nodes_unnumbered, Option.map_map]
  rfl

theorem vector?_unnumbered (id : Nat) : (g.unnumbered earlier).vector? id = g.vector? id := rfl

theorem countDeleted_unnumbered :
    (g.unnumbered earlier).nodes.countP (·.deleted) = g.nodes.countP (·.deleted) := by
  rw [unnumbered, Array.countP_map]
  rfl

theorem isDeleted_unnumbered (id : Nat) :
    (g.unnumbered earlier).isDeleted id = g.isDeleted id := by
  rw [isDeleted, getElem?_nodes_unnumbered, Option.any_map]
  rfl

theorem isLive_unnumbered (id : Nat) : (g.unnumbered earlier).isLive id = g.isLive id := by
  rw [isLive, getElem?_nodes_unnumbered, Option.any_map]
  rfl

theorem isIsolated_unnumbered (id : Nat) :
    (g.unnumbered earlier).isIsolated id = g.isIsolated id := by
  rw [isIsolated, getElem?_nodes_unnumbered, Option.any_map]
  rfl

theorem links_unnumbered (id layer : Nat) :
    (g.unnumbered earlier).links id layer = g.links id layer := by
  rw [links, getElem?_nodes_unnumbered, Option.bind_map]
  rfl

theorem isFull_unnumbered : (g.unnumbered earlier).isFull = g.isFull := by
  rw [isFull, nodeCount_unnumbered, capacity_unnumbered, isFull]

theorem toHits_unnumbered (found : List Candidate) :
    (g.unnumbered earlier).toHits found = g.toHits found := by
  simp only [toHits, label?_unnumbered]
  rfl

/-! ### Edges and capacity -/

/-- Changing a member and the whole array commute when the two changes do. -/
theorem modify_map {β γ : Type} {e : β → γ} {f : β → β} {h : γ → γ}
    (commute : ∀ b, h (e b) = e (f b)) (xs : Array β) (i : Nat) :
    (xs.map e).modify i h = (xs.modify i f).map e := by
  refine Array.ext_getElem? fun j => ?_
  simp only [Array.getElem?_map, Array.getElem?_modify]
  split
  · rw [Option.map_map, Option.map_map]
    exact congrArg (Option.map · _) (funext commute)
  · rfl

/-- A loop over a graph and something beside it forgets the numbers when its step does. -/
theorem foldl_unnumbered {β γ : Type} {step : Graph α × β → γ → Graph α × β}
    (commute : ∀ state c, step (state.1.unnumbered earlier, state.2) c =
      ((step state c).1.unnumbered earlier, (step state c).2)) (cs : List γ) (g : Graph α) (b : β) :
    cs.foldl step (g.unnumbered earlier, b) =
      ((cs.foldl step (g, b)).1.unnumbered earlier, (cs.foldl step (g, b)).2) := by
  induction cs generalizing g b with
  | nil => rfl
  | cons c cs ih =>
      rw [List.foldl_cons, List.foldl_cons, commute (g, b) c, ih]

theorem modifyLinks_unnumbered (id layer : Nat) (f : Links → Links) :
    (g.unnumbered earlier).modifyLinks id layer f =
      (g.modifyLinks id layer f).unnumbered earlier := by
  have edited := modify_map (e := Node.unnumbered) (fun _ => rfl) g.nodes id
    (f := (·.modifyLayer layer f)) (h := (·.modifyLayer layer f))
  simp only [modifyLinks, unnumbered, edited]

theorem addEdge_unnumbered (source target layer : Nat) :
    (g.unnumbered earlier).addEdge source target layer =
      (g.addEdge source target layer).unnumbered earlier := by
  unfold addEdge
  rw [links_unnumbered]
  split
  · rfl
  · rw [modifyLinks_unnumbered, modifyLinks_unnumbered]

theorem removeEdge_unnumbered (source target layer : Nat) :
    (g.unnumbered earlier).removeEdge source target layer =
      (g.removeEdge source target layer).unnumbered earlier := by
  unfold removeEdge
  rw [modifyLinks_unnumbered, modifyLinks_unnumbered]

theorem resize_unnumbered (capacity : UInt64) :
    (g.unnumbered earlier).resize capacity = (g.resize capacity).unnumbered earlier := by
  simp only [resize, unnumbered, List.append_assoc]

theorem ensureCapacity_unnumbered :
    (g.unnumbered earlier).ensureCapacity = g.ensureCapacity.unnumbered earlier := by
  simp only [ensureCapacity, isFull_unnumbered, resize_unnumbered, config_unnumbered,
    capacity_unnumbered]
  exact (apply_ite (unnumbered earlier) _ _ _).symm

theorem shrinkToFit_unnumbered :
    (g.unnumbered earlier).shrinkToFit = g.shrinkToFit.unnumbered earlier := by
  simp only [shrinkToFit, nodeCount_unnumbered, resize_unnumbered, config_unnumbered,
    capacity_unnumbered]
  exact (apply_ite (unnumbered earlier) _ _ _).symm

/-! ### Marks and slots -/

theorem tallest?_unnumbered : (g.unnumbered earlier).tallest? = g.tallest? := by
  have taller : (g.unnumbered earlier).taller = g.taller := by
    funext best id
    unfold Graph.taller
    rw [getElem?_nodes_unnumbered]
    cases g.nodes[id]? <;> rfl
  rw [tallest?, taller, nodeCount_unnumbered, tallest?]

theorem replaceEntry_unnumbered (old : Nat) :
    (g.unnumbered earlier).replaceEntry old = (g.replaceEntry old).unnumbered earlier := by
  have live : (g.unnumbered earlier).isLive = g.isLive :=
    funext (isLive_unnumbered earlier g)
  unfold replaceEntry
  rw [links_unnumbered, live, tallest?_unnumbered,
    show (g.unnumbered earlier).maxLevel = g.maxLevel from rfl]
  cases (g.links old g.maxLevel).out.find? g.isLive with
  | some id => rfl
  | none => cases g.tallest? <;> rfl

theorem setMark_unnumbered (id : Nat) (label : Label) :
    (g.unnumbered earlier).setMark id label = (g.setMark id label).unnumbered earlier := by
  have marked := modify_map (e := Node.unnumbered) (fun _ => rfl) g.nodes id
    (f := ({ · with deleted := true })) (h := ({ · with deleted := true }))
  simp only [setMark, dropId, unnumbered, marked]

theorem markDeleted_of_getElem? {g : Graph α} {id : Nat} {node : Node}
    (found : g.nodes[id]? = some node) :
    g.markDeleted id =
      if node.deleted then .error (.node id .alreadyDeleted)
      else .ok (if g.entryPoint = some id then (g.setMark id node.label).replaceEntry id
        else g.setMark id node.label) := by
  unfold markDeleted
  rw [found]
  rfl

theorem markDeleted_unnumbered (id : Nat) :
    (g.unnumbered earlier).markDeleted id =
      (g.markDeleted id).map (unnumbered earlier) := by
  cases found : g.nodes[id]? with
  | none =>
      unfold markDeleted
      rw [getElem?_nodes_unnumbered, nodeCount_unnumbered, found]
      rfl
  | some node =>
      have forgotten : (g.unnumbered earlier).nodes[id]? = some node.unnumbered := by
        rw [getElem?_nodes_unnumbered, found, Option.map_some]
      have deleted : node.unnumbered.deleted = node.deleted := rfl
      have label : node.unnumbered.label = node.label := rfl
      have entry : (g.unnumbered earlier).entryPoint = g.entryPoint := rfl
      rw [markDeleted_of_getElem? found, markDeleted_of_getElem? forgotten]
      simp only [deleted, label, entry, setMark_unnumbered, replaceEntry_unnumbered]
      split
      · rfl
      · split <;> rfl

theorem renameLayer_unnumbered (old new layer : Nat) :
    renameLayer old new (g.unnumbered earlier) layer =
      (renameLayer old new g layer).unnumbered earlier := by
  simp only [renameLayer, links_unnumbered]
  rw [List.foldl_hom (unnumbered earlier) fun g t => modifyLinks_unnumbered earlier g t layer _,
    List.foldl_hom (unnumbered earlier) fun g s => modifyLinks_unnumbered earlier g s layer _]

theorem swapIfInBounds_map {β γ : Type} (f : β → γ) (xs : Array β) (i j : Nat) :
    (xs.map f).swapIfInBounds i j = (xs.swapIfInBounds i j).map f := by
  have size : (xs.map f).size = xs.size := Array.size_map
  refine Array.ext (by simp) fun k lt lt' => ?_
  simp only [Array.getElem_swapIfInBounds, Array.getElem_map, size]
  split
  · rfl
  · split <;> rfl

theorem moveNode_unnumbered (label : Label) (old new : Nat) :
    (g.unnumbered earlier).moveNode label old new =
      (g.moveNode label old new).unnumbered earlier := by
  simp only [moveNode, unnumbered, swapIfInBounds_map]

theorem relocate_unnumbered (old new : Nat) :
    (g.unnumbered earlier).relocate old new = (g.relocate old new).unnumbered earlier := by
  unfold relocate
  rw [getElem?_nodes_unnumbered]
  cases g.nodes[old]? with
  | none => rfl
  | some node =>
      dsimp only [Option.map_some, Node.unnumbered]
      rw [List.foldl_hom (unnumbered earlier) fun g layer =>
        renameLayer_unnumbered earlier g old new layer]
      exact moveNode_unnumbered ..

theorem dropLast_unnumbered :
    (g.unnumbered earlier).dropLast = g.dropLast.unnumbered earlier := by
  simp only [dropLast, nodeCount_unnumbered]
  simp only [unnumbered, Array.map_pop]

theorem swapRemove_unnumbered (id : Nat) :
    (g.unnumbered earlier).swapRemove id = (g.swapRemove id).map (unnumbered earlier) := by
  unfold swapRemove
  rw [getElem?_nodes_unnumbered]
  cases g.nodes[id]? with
  | none =>
      rw [nodeCount_unnumbered]
      rfl
  | some node =>
      have deleted : node.unnumbered.deleted = node.deleted := rfl
      have isolated : node.unnumbered.isIsolated = node.isIsolated := rfl
      simp only [Option.map_some, deleted, isolated, relocate_unnumbered, nodeCount_unnumbered,
        isDeleted_unnumbered, dropLast_unnumbered]
      split
      · rfl
      · split
        · rfl
        · split <;> rfl

theorem forEachId_unnumbered {step : Graph α → Nat → Except Failure (Graph α)}
    (commutes : ∀ g id, step (unnumbered earlier g) id = (step g id).map (unnumbered earlier))
    (ids : List Nat) (g : Graph α) :
    (g.unnumbered earlier).forEachId step ids =
      ((g.forEachId step ids).1.unnumbered earlier, (g.forEachId step ids).2) := by
  induction ids generalizing g with
  | nil => rfl
  | cons id ids ih =>
      rw [forEachId, forEachId, commutes]
      cases step g id with
      | error failure => rfl
      | ok h => exact ih h

theorem append_unnumbered (label : Label) (vector : List α) (level : Nat) :
    ((g.unnumbered earlier).append label vector level).unnumbered [] =
      (g.append label vector level).unnumbered earlier := by
  simp only [append, unnumbered, nodeCount, Array.size_map, Array.map_push, Array.map_map,
    List.nil_append]
  rfl

/-! ### The check of the structure -/

theorem checkEach_map {β γ : Type} (check : γ → Except Violation Unit) (f : β → γ) (bs : List β) :
    checkEach check (bs.map f) = checkEach (fun b => check (f b)) bs := by
  induction bs with
  | nil => rfl
  | cons b bs ih =>
      rw [List.map_cons, checkEach, checkEach, ih]

theorem checkTarget_unnumbered (id layer target : Nat) :
    checkTarget (g.unnumbered earlier) id layer target = checkTarget g id layer target := by
  unfold checkTarget
  rw [getElem?_nodes_unnumbered]
  cases g.nodes[target]? <;> rfl

theorem checkOut_unnumbered (id layer : Nat) (seen targets : List Nat) :
    checkOut (g.unnumbered earlier) id layer seen targets = checkOut g id layer seen targets := by
  induction targets generalizing seen with
  | nil => rfl
  | cons target targets ih => simp only [checkOut, checkTarget_unnumbered, ih]

theorem checkLinks_unnumbered (id layer : Nat) (links : Links) :
    checkLinks (g.unnumbered earlier) id layer links = checkLinks g id layer links := by
  have incoming : checkIncoming (g.unnumbered earlier) id layer = checkIncoming g id layer := by
    funext source
    rw [checkIncoming, links_unnumbered, checkIncoming]
  simp only [checkLinks, checkOut_unnumbered, incoming]
  rfl

theorem checkNode_unnumbered (id : Nat) (node : Node) :
    checkNode (g.unnumbered earlier) id node.unnumbered = checkNode g id node := by
  simp only [checkNode, checkLinks_unnumbered]
  rfl

theorem checkEntry_unnumbered (live : Nat) :
    checkEntry (g.unnumbered earlier) live = checkEntry g live := by
  unfold checkEntry
  rw [entryPoint_unnumbered]
  cases g.entryPoint with
  | none => rfl
  | some entry =>
      dsimp only
      rw [getElem?_nodes_unnumbered]
      cases g.nodes[entry]? <;> rfl

theorem checkLabels_unnumbered (order : List (Label × List Nat)) (live : Nat) :
    checkLabels (g.unnumbered earlier) order live = checkLabels g order live := by
  have listed : checkLabelledId (g.unnumbered earlier) = checkLabelledId g := by
    funext label id
    unfold checkLabelledId
    rw [getElem?_nodes_unnumbered]
    cases g.nodes[id]? <;> rfl
  have entry : checkLabel (g.unnumbered earlier) = checkLabel g := by
    funext entry
    rw [checkLabel, listed, config_unnumbered, checkLabel]
  rw [checkLabels, entry, checkLabels]

theorem integrityVia_unnumbered (order : List (Label × List Nat)) :
    (g.unnumbered earlier).integrityVia order = g.integrityVia order := by
  have nodes : (g.unnumbered earlier).nodes.toList = g.nodes.toList.map Node.unnumbered :=
    Array.toList_map
  simp only [integrityVia, countDeleted_unnumbered, nodes, List.zipIdx_map, checkEach_map,
    Prod.map, id, checkNode_unnumbered, checkEntry_unnumbered, checkLabels_unnumbered,
    nodeCount_unnumbered]
  rfl

variable [Element α]

/-! ### Searches -/

theorem distanceTo_unnumbered (query : List α) (id : Nat) :
    (g.unnumbered earlier).distanceTo query id = g.distanceTo query id := by
  rw [distanceTo, vector?_unnumbered, config_unnumbered, distanceTo]

theorem distanceBetween_unnumbered (a b : Nat) :
    (g.unnumbered earlier).distanceBetween a b = g.distanceBetween a b := by
  simp only [distanceBetween, vector?_unnumbered, distanceTo_unnumbered]

theorem nearer_unnumbered (query : List α) :
    (g.unnumbered earlier).nearer query = g.nearer query := by
  funext best id
  rw [nearer_eq, nearer_eq, distanceTo_unnumbered]

theorem descend_unnumbered (query : List α) (layer : Nat) (place : Candidate) :
    (g.unnumbered earlier).descend query layer place = g.descend query layer place := by
  refine descend_congr (fun place => ?_) place
  rw [round, round, links_unnumbered, nearer_unnumbered]

theorem entryOn?_unnumbered (query : List α) (layer : Nat) :
    (g.unnumbered earlier).entryOn? query layer = g.entryOn? query layer := by
  have descent : (fun place l => (g.unnumbered earlier).descend query l place) =
      fun place l => g.descend query l place :=
    funext fun place => funext fun l => descend_unnumbered earlier g query l place
  simp only [entryOn?, descent, distanceTo_unnumbered]
  rfl

theorem visit_unnumbered (query : List α) (ef : Nat) :
    Beam.visit (g.unnumbered earlier) query ef = Beam.visit g query ef := by
  funext beam id
  simp only [Beam.visit, distanceTo_unnumbered, isDeleted_unnumbered]

theorem explore_unnumbered (query : List α) (ef layer : Nat) (beam : Beam) :
    Beam.explore (g.unnumbered earlier) query ef layer beam =
      Beam.explore g query ef layer beam := by
  fun_induction Beam.explore g query ef layer beam with
  | case1 beam queue =>
      unfold Beam.explore
      split
      · rfl
      case h_2 c rest other =>
        rw [queue] at other
        cases other
  | case2 beam c rest queue done =>
      unfold Beam.explore
      split
      · rfl
      case h_2 d others same =>
        rw [queue] at same
        cases same
        exact if_pos done
  | case3 beam c rest queue more ih =>
      conv_lhs => unfold Beam.explore
      split
      case h_1 none =>
        rw [queue] at none
        cases none
      case h_2 d others same =>
        rw [queue] at same
        cases same
        rw [if_neg more, links_unnumbered, visit_unnumbered]
        exact ih

theorem searchLayer_unnumbered (query : List α) (place : Candidate) (ef layer : Nat) :
    (g.unnumbered earlier).searchLayer query place ef layer =
      g.searchLayer query place ef layer := by
  simp only [searchLayer, nodeCount_unnumbered, isDeleted_unnumbered, explore_unnumbered]

theorem search_unnumbered (query : List α) (k ef : Nat) :
    (g.unnumbered earlier).search query k ef = g.search query k ef := by
  simp only [search, entryOn?_unnumbered, searchLayer_unnumbered, toHits_unnumbered]
  rfl

theorem range_visit_unnumbered (query : List α) (radius epsilon : Binary64) :
    RangeWalk.visit (g.unnumbered earlier) query radius epsilon =
      RangeWalk.visit g query radius epsilon := by
  funext walk id
  simp only [RangeWalk.visit, distanceTo_unnumbered, isLive_unnumbered]

theorem range_explore_unnumbered (query : List α) (radius epsilon : Binary64) (walk : RangeWalk) :
    RangeWalk.explore (g.unnumbered earlier) query radius epsilon walk =
      RangeWalk.explore g query radius epsilon walk := by
  fun_induction RangeWalk.explore g query radius epsilon walk with
  | case1 walk queue =>
      unfold RangeWalk.explore
      split
      · rfl
      case h_2 c rest other =>
        rw [queue] at other
        cases other
  | case2 walk c rest queue done =>
      unfold RangeWalk.explore
      split
      · rfl
      case h_2 d others same =>
        rw [queue] at same
        cases same
        exact if_pos done
  | case3 walk c rest queue more ih =>
      conv_lhs => unfold RangeWalk.explore
      split
      case h_1 none =>
        rw [queue] at none
        cases none
      case h_2 d others same =>
        rw [queue] at same
        cases same
        rw [if_neg more, links_unnumbered, range_visit_unnumbered]
        exact ih

theorem rangeSearch_unnumbered (query : List α) (radius epsilon : Binary64) :
    (g.unnumbered earlier).rangeSearch query radius epsilon =
      g.rangeSearch query radius epsilon := by
  simp only [rangeSearch, entryOn?_unnumbered, nodeCount_unnumbered, isLive_unnumbered,
    range_explore_unnumbered, toHits_unnumbered]
  rfl

/-! ### Insertion -/

theorem choose_unnumbered (cap : Nat) : (g.unnumbered earlier).choose cap = g.choose cap := by
  funext chosen c
  simp only [choose, distanceBetween_unnumbered]

theorem chooseNeighbors_unnumbered (cap : Nat) (candidates : List Candidate) :
    (g.unnumbered earlier).chooseNeighbors cap candidates = g.chooseNeighbors cap candidates := by
  simp only [chooseNeighbors, choose_unnumbered]

theorem farthest?_unnumbered (id layer : Nat) :
    (g.unnumbered earlier).farthest? id layer = g.farthest? id layer := by
  have farther : (g.unnumbered earlier).farther id = g.farther id := by
    funext worst n
    simp only [Graph.farther, distanceBetween_unnumbered]
  rw [farthest?, farther, links_unnumbered, farthest?]

theorem evictFarthest_unnumbered (id layer : Nat) :
    (g.unnumbered earlier).evictFarthest id layer =
      (g.evictFarthest id layer).unnumbered earlier := by
  unfold evictFarthest
  rw [farthest?_unnumbered]
  cases g.farthest? id layer with
  | none => rfl
  | some victim => exact removeEdge_unnumbered ..

theorem connect_unnumbered (id layer neighbor : Nat) :
    (g.unnumbered earlier).connect id layer neighbor =
      (g.connect id layer neighbor).unnumbered earlier := by
  unfold connect
  simp only [addEdge_unnumbered, links_unnumbered, evictFarthest_unnumbered, config_unnumbered]
  split <;> rfl

theorem connectLayer_unnumbered (id : Nat) (vector : List α) (state : Graph α × Candidate)
    (layer : Nat) :
    connectLayer id vector (state.1.unnumbered earlier, state.2) layer =
      ((connectLayer id vector state layer).1.unnumbered earlier,
        (connectLayer id vector state layer).2) := by
  simp only [connectLayer, searchLayer_unnumbered, chooseNeighbors_unnumbered, config_unnumbered]
  rw [List.foldl_hom (unnumbered earlier) fun g n => connect_unnumbered earlier g id layer n]

theorem wire_unnumbered (id : Nat) (vector : List α) (level : Nat) :
    (g.unnumbered earlier).wire id vector level = (g.wire id vector level).unnumbered earlier := by
  unfold wire
  rw [entryOn?_unnumbered]
  cases g.entryOn? vector level with
  | none => rfl
  | some place =>
      dsimp only
      rw [show (g.unnumbered earlier).maxLevel = g.maxLevel from rfl,
        foldl_unnumbered earlier (connectLayer_unnumbered earlier id vector)]
      split <;> rfl

/-- A new node has a number, which the graph without numbers then forgets. -/
theorem insert_unnumbered (label : Label) (vector : List α) :
    ((g.unnumbered earlier).insert label vector).map (Prod.map (unnumbered []) id) =
      (g.insert label vector).map (Prod.map (unnumbered earlier) id) := by
  unfold insert
  rw [config_unnumbered, isFull_unnumbered, capacity_unnumbered, drawCount_unnumbered,
    nodeCount_unnumbered]
  split
  · rfl
  · split
    · rfl
    · simp only [Except.map, Prod.map, ← wire_unnumbered, append_unnumbered]

/-! ### Deletion -/

theorem accept_unnumbered (id layer cap : Nat) (state : Graph α × List Nat) (c : Candidate) :
    accept id layer cap (state.1.unnumbered earlier, state.2) c =
      ((accept id layer cap state c).1.unnumbered earlier, (accept id layer cap state c).2) := by
  simp only [accept, distanceBetween_unnumbered, addEdge_unnumbered]
  split <;> rfl

theorem candidatesFor_unnumbered (id : Nat) (existing replacements : List Nat) :
    (g.unnumbered earlier).candidatesFor id existing replacements =
      g.candidatesFor id existing replacements := by
  simp only [candidatesFor, isLive_unnumbered, distanceBetween_unnumbered]

theorem reconnect_unnumbered (replacements : List Nat) (layer id : Nat) :
    (g.unnumbered earlier).reconnect replacements layer id =
      (g.reconnect replacements layer id).unnumbered earlier := by
  simp only [reconnect, links_unnumbered, candidatesFor_unnumbered, config_unnumbered,
    foldl_unnumbered earlier (accept_unnumbered earlier id layer _)]
  split
  · rfl
  · split
    · exact addEdge_unnumbered ..
    · rfl

theorem unlink_unnumbered (id layer : Nat) (replacements : List Nat) (n : Nat) :
    unlink id layer replacements (g.unnumbered earlier) n =
      (unlink id layer replacements g n).unnumbered earlier := by
  simp only [unlink, removeEdge_unnumbered, isDeleted_unnumbered, reconnect_unnumbered]
  split <;> rfl

theorem repairLayer_unnumbered (id layer : Nat) :
    (g.unnumbered earlier).repairLayer id layer =
      (g.repairLayer id layer).unnumbered earlier := by
  simp only [repairLayer, links_unnumbered]
  rw [List.foldl_hom (unnumbered earlier) fun g n => unlink_unnumbered earlier g id layer _ n,
    List.foldl_hom (unnumbered earlier) fun g c => removeEdge_unnumbered earlier g id c layer]

theorem repair_unnumbered (id : Nat) :
    (g.unnumbered earlier).repair id = (g.repair id).map (unnumbered earlier) := by
  unfold repair
  rw [getElem?_nodes_unnumbered, nodeCount_unnumbered]
  cases g.nodes[id]? with
  | none => rfl
  | some node =>
      dsimp only [Option.map_some, Node.unnumbered]
      rw [List.foldl_hom (unnumbered earlier) fun g layer =>
        repairLayer_unnumbered earlier g id layer]
      split <;> rfl

theorem detach_unnumbered (id : Nat) :
    (g.unnumbered earlier).detach id =
      ((g.detach id).1.unnumbered earlier, (g.detach id).2) := by
  unfold detach
  rw [markDeleted_unnumbered]
  cases g.markDeleted id with
  | error failure => rfl
  | ok marked =>
      dsimp only [Except.map]
      rw [repair_unnumbered]
      cases marked.repair id <;> rfl

theorem detachAll_unnumbered (ids : List Nat) :
    (g.unnumbered earlier).detachAll ids =
      ((g.detachAll ids).1.unnumbered earlier, (g.detachAll ids).2) := by
  induction ids generalizing g with
  | nil => rfl
  | cons id ids ih =>
      rw [detachAll, detachAll, detach_unnumbered]
      rcases g.detach id with ⟨h, result⟩
      cases result with
      | error failure => rfl
      | ok done => exact ih h

theorem removeLabel_unnumbered (label : Label) :
    (g.unnumbered earlier).removeLabel label =
      ((g.removeLabel label).1.unnumbered earlier, (g.removeLabel label).2) := by
  unfold removeLabel
  rw [idsOf_unnumbered]
  dsimp only
  split
  · rfl
  · rw [detachAll_unnumbered]
    rcases g.detachAll (g.idsOf label) with ⟨h, result⟩
    cases result with
    | error failure => rfl
    | ok done =>
        dsimp only
        rw [forEachId_unnumbered earlier (swapRemove_unnumbered earlier)]
        rcases h.forEachId swapRemove (Sorting.sortBy (fun a b => b < a) (g.idsOf label)) with
          ⟨freed, result⟩
        cases result with
        | error failure => rfl
        | ok done => exact congrArg (·, _) (shrinkToFit_unnumbered earlier freed)

/-- With room made, both graphs refuse the vector alike, or both store it. -/
theorem insert_ensureCapacity_unnumbered (label : Label) (vector : List α) :
    (∃ failure, (g.unnumbered earlier).ensureCapacity.insert label vector = .error failure ∧
      g.ensureCapacity.insert label vector = .error failure) ∨
    ∃ h k i j, (g.unnumbered earlier).ensureCapacity.insert label vector = .ok (h, i) ∧
      g.ensureCapacity.insert label vector = .ok (k, j) ∧
      h.unnumbered [] = k.unnumbered earlier := by
  have inserted := insert_unnumbered earlier g.ensureCapacity label vector
  rw [ensureCapacity_unnumbered]
  revert inserted
  cases (g.ensureCapacity.unnumbered earlier).insert label vector <;>
    cases g.ensureCapacity.insert label vector <;> intro inserted
  case error.error failure _ =>
    cases inserted
    exact .inl ⟨failure, rfl, rfl⟩
  case error.ok | ok.error => cases inserted
  case ok.ok stored stored' =>
    simp only [Except.map, Except.ok.injEq, Prod.map, Prod.mk.injEq] at inserted
    exact .inr ⟨stored.1, stored'.1, stored.2, stored'.2, rfl, rfl, inserted.1⟩

/-- Storing clears the label exactly and then inserts. -/
theorem add_unnumbered (label : Label) (vector : List α) :
    Prod.map (unnumbered []) id ((g.unnumbered earlier).add label vector) =
      Prod.map (unnumbered earlier) id (g.add label vector) := by
  have alike : ∀ {h k : Graph α} {result : Except Failure Unit},
      h.unnumbered [] = k.unnumbered earlier →
      Prod.map (unnumbered []) id (h, result) = Prod.map (unnumbered earlier) id (k, result) :=
    fun same => congrArg (·, _) same
  have cleared :
      (if g.config.multi = true then (g.unnumbered earlier, .ok 0)
        else (g.unnumbered earlier).removeLabel label) =
      Prod.map (unnumbered earlier) id
        (if g.config.multi = true then (g, .ok 0) else g.removeLabel label) := by
    split
    · rfl
    · exact removeLabel_unnumbered earlier g label
  unfold add
  rw [config_unnumbered]
  split
  · exact alike (forget_unnumbered earlier g)
  · rw [cleared]
    generalize (if g.config.multi = true then (g, .ok 0) else g.removeLabel label) = outcome
    rcases outcome with ⟨g, removed⟩
    cases removed with
    | error failure => exact alike (forget_unnumbered earlier g)
    | ok count =>
        dsimp only [Prod.map, id]
        obtain ⟨failure, forgotten, kept⟩ | ⟨h, k, i, j, forgotten, kept, same⟩ :=
          insert_ensureCapacity_unnumbered earlier g label vector
        · rw [forgotten, kept, ensureCapacity_unnumbered]
          exact alike (forget_unnumbered earlier g.ensureCapacity)
        · rw [forgotten, kept]
          exact alike same

end Vicinity.Graph
