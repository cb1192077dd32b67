import Mathlib.Data.List.Nodup
import Vicinity.Proofs.Graph.Repair

/-!
Freeing the slot of a deleted node keeps a graph well-formed.

The node in the last slot moves into the free one and its id is rewritten in every list that
mentions it: in those of its neighbours, in that of its label, and where searches start. `Frees`
states the whole of it by two renamings that undo each other. Read backwards, slot `j` holds what
stood in slot `rename id last j`; read forwards, id `x` is now `rename last id x`. Since no list
mentions the freed id, the second is injective on all ids that occur (`rename_rename`). The node
that moves is live, so a node that is marked deleted stays in its slot until that is freed
(`isDeleted_swapRemove`).
-/

namespace Vicinity.Graph

variable {α : Type}

/-! ### Renaming ids -/

theorem rename_self (id x : Nat) : rename id id x = x := by
  unfold rename
  split
  case isTrue same => exact same.symm
  case isFalse => rfl

theorem rename_of_ne {old x : Nat} (ne : x ≠ old) (new : Nat) : rename old new x = x := if_neg ne

/-- Renaming back leads to the same id, unless it is the one that was free. -/
theorem rename_rename {old new x : Nat} (other : x ≠ new) :
    rename new old (rename old new x) = x := by
  unfold rename
  by_cases moved : x = old
  · simp [moved]
  · simp [moved, other]

/-- The ids after a removal are those below the last slot. -/
theorem rename_lt {last id x : Nat} (other : x ≠ id) (le : id ≤ last) (lt : x < last + 1) :
    rename last id x < last := by
  unfold rename
  split
  · omega
  · omega

theorem rename_le {last id j : Nat} (lt : j < last) : rename id last j ≤ last := by
  unfold rename
  split
  · exact Nat.le_refl _
  · exact Nat.le_of_lt lt

theorem map_rename_of_not_mem {old new : Nat} {ids : List Nat} (absent : old ∉ ids) :
    ids.map (rename old new) = ids := by
  have fixed : ∀ x ∈ ids, rename old new x = x := by
    intro x mem
    refine rename_of_ne ?_ new
    rintro rfl
    exact absent mem
  rw [List.map_congr_left fixed, List.map_id']

theorem map_rename_self (id : Nat) (ids : List Nat) : ids.map (rename id id) = ids := by
  rw [List.map_congr_left fun x _ => rename_self id x, List.map_id']

/-- In a list without the free id the renamed one takes the place of the old one. -/
theorem mem_map_rename {last id j : Nat} {ids : List Nat} (free : id ∉ ids) (lt : j < last) :
    j ∈ ids.map (rename last id) ↔ rename id last j ∈ ids := by
  constructor
  · intro mem
    obtain ⟨x, old, rfl⟩ := List.mem_map.1 mem
    have other : x ≠ id := by
      rintro rfl
      exact free old
    rwa [rename_rename other]
  · intro mem
    refine List.mem_map.2 ⟨_, mem, ?_⟩
    exact rename_rename (Nat.ne_of_lt lt)

theorem nodup_map_rename {last id : Nat} {ids : List Nat} (free : id ∉ ids) (nodup : ids.Nodup) :
    (ids.map (rename last id)).Nodup := by
  have other : ∀ x ∈ ids, x ≠ id := by
    rintro x mem rfl
    exact free mem
  refine nodup.map_on fun x at_x y at_y same => ?_
  have back := congrArg (rename id last) same
  rwa [rename_rename (other x at_x), rename_rename (other y at_y)] at back

/-- Links with an id written for another in both lists. -/
def Links.rename (old new : Nat) (links : Links) : Links where
  out := links.out.map (Graph.rename old new)
  incoming := links.incoming.map (Graph.rename old new)

theorem Links.rename_self (id : Nat) (links : Links) : links.rename id id = links := by
  simp only [Links.rename, map_rename_self]

/-! ### Renaming on one layer -/

/-- Changes that do not add up are made once, in whatever order and how often they come. -/
theorem links_foldl_modifyLinks {f : Links → Links} (empty : f {} = {})
    (again : ∀ l, f (f l) = f l) (layer : Nat) (ts : List Nat) (g : Graph α) (j k : Nat) :
    (ts.foldl (fun g t => g.modifyLinks t layer f) g).links j k =
      if j ∈ ts ∧ layer = k then f (g.links j k) else g.links j k := by
  induction ts generalizing g with
  | nil => simp
  | cons t ts ih =>
      rw [List.foldl_cons, ih, links_modifyLinks_of_empty _ _ _ empty]
      by_cases here : layer = k
      · by_cases first : t = j
        · by_cases later : j ∈ ts <;> simp [here, first, later, again]
        · simp [here, first, eq_comm (a := j)]
      · simp [here]

theorem map_rename_idem (old new : Nat) (ids : List Nat) :
    (ids.map (rename old new)).map (rename old new) = ids.map (rename old new) := by
  have same : rename old new ∘ rename old new = rename old new := by
    funext x
    simp only [Function.comp_apply, rename]
    split <;> simp_all
  rw [List.map_map, same]

theorem rewired_foldl_modifyLinks (g : Graph α) (layer : Nat) (f : Links → Links)
    (ts : List Nat) : Rewired g (ts.foldl (fun g t => g.modifyLinks t layer f) g) :=
  Rewired.foldl (fun g t => rewired_modifyLinks g t layer f) g ts

theorem rewired_renameLayer (old new : Nat) (g : Graph α) (layer : Nat) :
    Rewired g (renameLayer old new g layer) :=
  (rewired_foldl_modifyLinks ..).trans (rewired_foldl_modifyLinks ..)

/-- The neighbours of a node are the only ones that mention it, so every list of the layer has the
new id for the old one. -/
theorem links_renameLayer {g : Graph α} {layer : Nat}
    (mirrored : ∀ a b, b ∈ (g.links a layer).out ↔ a ∈ (g.links b layer).incoming)
    (old new j k : Nat) :
    (renameLayer old new g layer).links j k =
      if layer = k then (g.links j k).rename old new else g.links j k := by
  unfold renameLayer
  dsimp only
  rw [links_foldl_modifyLinks rfl (fun l => by simp only [map_rename_idem]),
    links_foldl_modifyLinks rfl (fun l => by simp only [map_rename_idem])]
  by_cases here : layer = k
  · subst here
    have off_out : j ∉ (g.links old layer).incoming → old ∉ (g.links j layer).out :=
      mt (mirrored j old).1
    have off_incoming : j ∉ (g.links old layer).out → old ∉ (g.links j layer).incoming :=
      mt (mirrored old j).2
    by_cases target : j ∈ (g.links old layer).out <;>
      by_cases source : j ∈ (g.links old layer).incoming <;>
      simp [target, source, Links.rename, map_rename_of_not_mem, off_out, off_incoming]
  · simp [here]

theorem links_foldl_renameLayer {layers : List Nat} (nodup : layers.Nodup) {g : Graph α}
    (mirrored : ∀ k ∈ layers, ∀ a b, b ∈ (g.links a k).out ↔ a ∈ (g.links b k).incoming)
    (old new j k : Nat) :
    (layers.foldl (renameLayer old new) g).links j k =
      if k ∈ layers then (g.links j k).rename old new else g.links j k := by
  induction layers generalizing g with
  | nil => simp
  | cons layer layers ih =>
      obtain ⟨fresh, nodup⟩ := List.nodup_cons.1 nodup
      have step := links_renameLayer (mirrored layer List.mem_cons_self) old new
      rw [List.foldl_cons, ih nodup]
      · rw [step]
        by_cases here : layer = k
        · subst here
          simp [fresh]
        · simp [here, eq_comm (a := k)]
      · intro l mem a b
        have apart : layer ≠ l := by
          rintro rfl
          exact fresh mem
        rw [step, step, if_neg apart, if_neg apart]
        exact mirrored l (List.mem_cons_of_mem _ mem) a b

/-! ### Freeing a slot -/

/-- What a graph looks like once the slot of a node was freed. -/
structure Frees (g : Graph α) (id : Nat) (h : Graph α) : Prop where
  config_eq : h.config = g.config
  capacity_eq : h.capacity = g.capacity
  journal_eq : h.journal = g.journal
  maxLevel_eq : h.maxLevel = g.maxLevel
  nextGeneration_eq : h.nextGeneration = g.nextGeneration
  markedCount_eq : h.markedCount = g.markedCount - 1
  nodeCount_eq : g.nodeCount = h.nodeCount + 1
  id_le : id ≤ h.nodeCount
  entryPoint_eq : h.entryPoint = g.entryPoint.map (rename h.nodeCount id)
  find?_eq (l : Label) :
    h.labels.find? l = (g.labels.find? l).map (·.map (rename h.nodeCount id))
  countDeleted_eq : h.nodes.countP (·.deleted) + 1 = g.nodes.countP (·.deleted)
  bare_eq (j : Nat) : j < h.nodeCount →
    h.nodes[j]?.map Node.bare = g.nodes[rename id h.nodeCount j]?.map Node.bare
  links_eq (j k : Nat) : j < h.nodeCount →
    h.links j k = (g.links (rename id h.nodeCount j) k).rename h.nodeCount id
  aligned : h.vectors.size = h.nodeCount * g.config.dim.toNat
  vector?_eq {j : Nat} : j < h.nodeCount → h.vector? j = g.vector? (rename id h.nodeCount j)

theorem nodeCount_dropLast (g : Graph α) : g.dropLast.nodeCount = g.nodeCount - 1 :=
  Array.size_pop

/-- The node in the last slot goes. -/
theorem frees_last {g : Graph α} (aligned : g.vectors.size = g.nodeCount * g.config.dim.toNat)
    (deleted : g.isDeleted (g.nodeCount - 1) = true) :
    g.Frees (g.nodeCount - 1) g.dropLast := by
  have positive := lt_nodeCount_of_isDeleted deleted
  have count := g.nodeCount_dropLast
  have cut : g.dropLast.vectors.size = (g.nodeCount - 1) * g.config.dim.toNat :=
    Arena.size_truncate aligned (Nat.sub_le ..)
  have kept : ∀ j, j < g.nodeCount - 1 → g.dropLast.nodes[j]? = g.nodes[j]? := by
    intro j lt
    exact Array.getElem?_pop.trans (if_pos lt)
  constructor
  case config_eq | capacity_eq | journal_eq | maxLevel_eq | nextGeneration_eq
    | markedCount_eq => rfl
  case nodeCount_eq =>
    rw [count]
    omega
  case id_le => exact Nat.le_of_eq count.symm
  case entryPoint_eq =>
    rw [count]
    show g.entryPoint = _
    cases g.entryPoint <;> simp [rename_self]
  case find?_eq =>
    intro l
    rw [count]
    show g.labels.find? l = _
    cases g.labels.find? l <;> simp [map_rename_self]
  case countDeleted_eq =>
    obtain ⟨node, at_last, marked⟩ := isDeleted_eq_true_iff.1 deleted
    exact Arena.countP_pop at_last marked
  case bare_eq =>
    intro j lt
    rw [count] at lt ⊢
    rw [rename_self, kept j lt]
  case links_eq =>
    intro j k lt
    rw [count] at lt ⊢
    rw [rename_self, Links.rename_self]
    simp only [links, kept j lt]
  case aligned => rw [cut, count]
  case vector?_eq =>
    intro j lt
    rw [count] at lt ⊢
    rw [rename_self]
    exact Arena.read?_truncate aligned (Nat.sub_le ..) lt

/-- The graph with an id rewritten in the links of all nodes, before the node moves. -/
def renameAll (g : Graph α) (old new : Nat) : Graph α :=
  (List.range (g.layerCount old)).foldl (renameLayer old new) g

theorem rewired_renameAll (g : Graph α) (old new : Nat) : Rewired g (g.renameAll old new) :=
  Rewired.foldl (fun g layer => rewired_renameLayer old new g layer) g _

theorem links_renameAll {g : Graph α} (paired : g.Paired) (old new j k : Nat) :
    (g.renameAll old new).links j k = (g.links j k).rename old new := by
  rw [renameAll, links_foldl_renameLayer List.nodup_range fun l _ a b => paired.mirrored a b l]
  split
  · rfl
  case isFalse above =>
    -- The node does not stand there, so no list of the layer mentions it.
    have absent : ¬ g.Stands old k := mt List.mem_range.2 above
    have no_out : old ∉ (g.links j k).out := fun edge => absent (paired.stands_target edge)
    have no_incoming : old ∉ (g.links j k).incoming := fun edge =>
      absent (paired.stands_source edge)
    simp only [Links.rename, map_rename_of_not_mem no_out, map_rename_of_not_mem no_incoming]

theorem relocate_eq {g : Graph α} {old : Nat} (lt : old < g.nodeCount) (new : Nat) :
    g.relocate old new =
      { g.renameAll old new with
        vectors := Arena.copy g.config.dim.toNat old new g.vectors
        labels := (g.relocate old new).labels
        entryPoint := g.entryPoint.map (rename old new)
        nodes := (g.renameAll old new).nodes.swapIfInBounds new old } := by
  have at_old : g.nodes[old]? = some g.nodes[old] := Array.getElem?_eq_getElem lt
  have rewired := rewired_renameAll g old new
  have entry_eq := rewired.entryPoint_eq
  have vectors_eq := rewired.vectors_eq
  have config_eq := rewired.config_eq
  rw [renameAll, layerCount_of_getElem? at_old] at entry_eq vectors_eq config_eq
  simp only [relocate, moveNode, renameAll, at_old, layerCount_of_getElem? at_old, entry_eq,
    vectors_eq, config_eq]

/-- Only the label of the node that moves mentions it. -/
theorem find?_relocate {g : Graph α} (listed : g.Listed) {old : Nat} {node : Node}
    (at_old : g.nodes[old]? = some node) (new : Nat) (l : Label) :
    (g.relocate old new).labels.find? l = (g.labels.find? l).map (·.map (rename old new)) := by
  have unmentioned : node.label ≠ l → ∀ ids, g.labels.find? l = some ids → old ∉ ids := by
    intro other ids found mem
    have mem : old ∈ g.idsOf l := by
      rw [idsOf, found]
      exact mem
    have own := (listed l old mem).2
    rw [label?, at_old] at own
    cases own
    exact other rfl
  have labels_eq := (rewired_renameAll g old new).labels_eq
  rw [renameAll, layerCount_of_getElem? at_old] at labels_eq
  simp only [relocate, moveNode, at_old, labels_eq]
  by_cases same : node.label = l
  · rw [← same]
    cases at_label : g.labels.find? node.label with
    | none => exact at_label
    | some ids =>
        dsimp only
        rw [LabelMap.find?_insert, if_pos rfl, Option.map_some]
  · have unchanged : (g.labels.find? l).map (·.map (rename old new)) = g.labels.find? l := by
      cases found : g.labels.find? l with
      | none => rfl
      | some ids => rw [Option.map_some, map_rename_of_not_mem (unmentioned same ids found)]
    rw [unchanged]
    cases g.labels.find? node.label with
    | none => rfl
    | some ids =>
        dsimp only
        rw [LabelMap.find?_insert, if_neg same]

/-- The node in the last slot moves into the free one. -/
theorem frees_relocate {g : Graph α} (paired : g.Paired) (listed : g.Listed)
    (aligned : g.vectors.size = g.nodeCount * g.config.dim.toNat) {id : Nat}
    (deleted : g.isDeleted id = true) :
    g.Frees id (g.relocate (g.nodeCount - 1) id).dropLast := by
  have lt := lt_nodeCount_of_isDeleted deleted
  have last_lt : g.nodeCount - 1 < g.nodeCount := by omega
  have rewired := rewired_renameAll g (g.nodeCount - 1) id
  have size : (g.renameAll (g.nodeCount - 1) id).nodes.size = g.nodeCount := rewired.nodeCount_eq
  have links_eq := links_renameAll paired (g.nodeCount - 1) id
  have labels_eq := find?_relocate listed (Array.getElem?_eq_getElem last_lt) id
  have moved := relocate_eq last_lt id
  generalize g.relocate (g.nodeCount - 1) id = relocated at moved labels_eq ⊢
  generalize g.renameAll (g.nodeCount - 1) id = renamed at rewired size moved links_eq
  have count : relocated.nodeCount = g.nodeCount := by
    rw [nodeCount, moved, ← size]
    exact Array.size_swapIfInBounds
  have left : relocated.dropLast.nodeCount = g.nodeCount - 1 := by
    rw [nodeCount_dropLast, count]
  have slot : ∀ j, j < g.nodeCount - 1 →
      relocated.dropLast.nodes[j]? = renamed.nodes[rename id (g.nodeCount - 1) j]? := by
    intro j below
    rw [dropLast, moved, ← size]
    exact Arena.getElem?_pop_swapIfInBounds (by rw [size]; exact lt) (by rw [size]; exact below)
  have config : relocated.config = g.config := by
    rw [moved]
    exact rewired.config_eq
  have vectors : relocated.dropLast.vectors = Arena.truncate g.config.dim.toNat (g.nodeCount - 1)
      (Arena.copy g.config.dim.toNat (g.nodeCount - 1) id g.vectors) := by
    rw [dropLast, config, count, moved]
  have whole : g.vectors.size = (g.nodeCount - 1 + 1) * g.config.dim.toNat := by
    rw [aligned, Nat.sub_add_cancel (Nat.one_le_of_lt lt)]
  have cut : relocated.dropLast.vectors.size = (g.nodeCount - 1) * g.config.dim.toNat := by
    rw [vectors]
    exact Arena.size_truncate (by rw [Arena.size_copy, aligned]) (Nat.sub_le ..)
  constructor
  case config_eq => exact config
  case capacity_eq =>
    rw [dropLast, moved]
    exact rewired.capacity_eq
  case journal_eq =>
    rw [dropLast, moved]
    exact rewired.journal_eq
  case maxLevel_eq =>
    rw [dropLast, moved]
    exact rewired.maxLevel_eq
  case nextGeneration_eq =>
    rw [dropLast, moved]
    exact rewired.nextGeneration_eq
  case markedCount_eq =>
    rw [dropLast, moved]
    exact congrArg (· - 1) rewired.markedCount_eq
  case nodeCount_eq =>
    rw [left]
    omega
  case id_le =>
    rw [left]
    omega
  case entryPoint_eq =>
    rw [left, dropLast, moved]
  case find?_eq =>
    intro l
    rw [left]
    exact labels_eq l
  case countDeleted_eq =>
    obtain ⟨node, at_id, marked⟩ :=
      isDeleted_eq_true_iff.1 ((rewired.isDeleted_eq id).trans deleted)
    rw [dropLast, moved, ← rewired.countDeleted_eq, ← size]
    exact Arena.countP_pop_swapIfInBounds at_id marked
  case bare_eq =>
    intro j below
    rw [left] at below ⊢
    rw [slot j below]
    exact rewired.getElem?_bare _
  case links_eq =>
    intro j k below
    rw [left] at below ⊢
    rw [← links_eq]
    simp only [links, slot j below]
  case aligned => rw [cut, left]
  case vector?_eq =>
    intro j below
    rw [left] at below ⊢
    have same_dim : relocated.dropLast.config = g.config := config
    rw [vector?, same_dim, vectors]
    exact Arena.read?_truncate_copy whole (by omega) below

/-- A slot can be freed when its node is deleted and without edges, and the last slot, unless it is
this one, holds no deleted node. -/
theorem swapRemove_eq_ok_iff {g h : Graph α} {id : Nat} :
    g.swapRemove id = .ok h ↔
      g.isDeleted id = true ∧ g.Isolated id ∧
        ((id = g.nodeCount - 1 ∧ h = g.dropLast) ∨
          (id ≠ g.nodeCount - 1 ∧ g.isDeleted (g.nodeCount - 1) = false ∧
            h = (g.relocate (g.nodeCount - 1) id).dropLast)) := by
  have isolated : ∀ {node : Node}, g.nodes[id]? = some node →
      (node.isIsolated = true ↔ g.Isolated id) := by
    intro node at_id
    have lt : id < g.nodeCount := (Array.getElem?_eq_some_iff.1 at_id).1
    have : g.isIsolated id = true ↔ id < g.nodeCount ∧ g.Isolated id := isIsolated_iff
    simpa [isIsolated, at_id, lt] using this
  unfold swapRemove
  cases at_id : g.nodes[id]? with
  | none => simp [isDeleted, at_id]
  | some node =>
      have deleted : g.isDeleted id = node.deleted := by simp [isDeleted, at_id]
      rw [deleted, ← isolated at_id]
      by_cases ready : node.deleted = true ∧ node.isIsolated = true
      · by_cases last : id = g.nodeCount - 1
        · simp [ready.1, ready.2, last, eq_comm (b := h)]
        · cases pending : g.isDeleted (g.nodeCount - 1) <;>
            simp [ready.1, ready.2, last, pending, eq_comm (b := h)]
      · have refused : (!node.deleted || !node.isIsolated) = true := by
          cases h₁ : node.deleted <;> cases h₂ : node.isIsolated <;> simp_all
        simp only [refused, if_true]
        constructor
        · intro absurd
          cases absurd
        · rintro ⟨h₁, h₂, _⟩
          exact absurd ⟨h₁, h₂⟩ ready

/-! ### What stays -/

theorem lt_nodeCount_of_generation? {g : Graph α} {j : Nat} {x : Nat}
    (there : g.generation? j = some x) : j < g.nodeCount := by
  obtain ⟨node, at_j, _⟩ := Option.map_eq_some_iff.1 there
  exact (Array.getElem?_eq_some_iff.1 at_j).1

/-- There are no links beyond the last slot. -/
theorem links_beyond {g : Graph α} {j : Nat} (ge : ¬ j < g.nodeCount) (k : Nat) :
    g.links j k = {} :=
  links_eq_empty fun stands => ge (lt_nodeCount_of_stands stands)

/-- A node that is not live is listed nowhere. -/
theorem Listed.not_mem_idsOf {g : Graph α} (listed : g.Listed) {id : Nat}
    (dead : g.isLive id = false) (l : Label) : id ∉ g.idsOf l := by
  intro mem
  rw [(listed l id mem).1] at dead
  cases dead

namespace Frees

variable {g h : Graph α} {id : Nat} (frees : g.Frees id h)

include frees

/-- What does not depend on the contents of layers is found in the slot it came from. -/
theorem getElem?_map {β : Type} {f : Node → β} (blind : ∀ node, f node.bare = f node) {j : Nat}
    (lt : j < h.nodeCount) :
    h.nodes[j]?.map f = g.nodes[rename id h.nodeCount j]?.map f := by
  have same := congrArg (Option.map f) (frees.bare_eq j lt)
  have comp : f ∘ Node.bare = f := funext blind
  rwa [Option.map_map, Option.map_map, comp] at same

theorem label?_eq {j : Nat} (lt : j < h.nodeCount) :
    h.label? j = g.label? (rename id h.nodeCount j) := frees.getElem?_map (fun _ => rfl) lt

theorem generation?_eq {j : Nat} (lt : j < h.nodeCount) :
    h.generation? j = g.generation? (rename id h.nodeCount j) :=
  frees.getElem?_map (fun _ => rfl) lt

theorem isLive_eq {j : Nat} (lt : j < h.nodeCount) :
    h.isLive j = g.isLive (rename id h.nodeCount j) := by
  have same := frees.getElem?_map (f := fun node => node.deleted) (fun _ => rfl) lt
  have := congrArg (Option.any fun deleted => !deleted) same
  simpa only [isLive, Option.any_map] using this

theorem isDeleted_eq {j : Nat} (lt : j < h.nodeCount) :
    h.isDeleted j = g.isDeleted (rename id h.nodeCount j) := by
  have same := frees.getElem?_map (f := fun node => node.deleted) (fun _ => rfl) lt
  have := congrArg (Option.any fun deleted => deleted) same
  simpa only [isDeleted, Option.any_map] using this

theorem layerCount_eq {j : Nat} (lt : j < h.nodeCount) :
    h.layerCount j = g.layerCount (rename id h.nodeCount j) := by
  have := frees.getElem?_map (f := fun node => node.layers.length)
    (fun node => by simp [Node.bare]) lt
  simp only [layerCount, this]

theorem idsOf_eq (l : Label) : h.idsOf l = (g.idsOf l).map (rename h.nodeCount id) := by
  simp only [idsOf, frees.find?_eq]
  cases g.labels.find? l <;> rfl

/-- The node of a slot has no edges when it had none where it stood before. -/
theorem isolated_iff {j : Nat} (lt : j < h.nodeCount) :
    h.Isolated j ↔ g.Isolated (rename id h.nodeCount j) := by
  simp only [Isolated, frees.links_eq j _ lt]
  refine forall_congr' fun k => ?_
  constructor
  · intro empty
    have out := congrArg Links.out empty
    have incoming := congrArg Links.incoming empty
    simp only [Links.rename, List.map_eq_nil_iff] at out incoming
    cases links : g.links (rename id h.nodeCount j) k
    simp_all
  · intro empty
    rw [empty]
    rfl

/-- A node other than the freed one stands in the slot that its id was renamed to. -/
theorem rename_lt {x : Nat} (other : x ≠ id) (lt : x < g.nodeCount) :
    rename h.nodeCount id x < h.nodeCount :=
  Graph.rename_lt other frees.id_le (by rw [← frees.nodeCount_eq]; exact lt)

/-- A list of nodes other than the freed one mentions, renamed, what it mentioned before. -/
theorem mem_map_iff {ids : List Nat} (free : id ∉ ids) (there : ∀ x ∈ ids, x < g.nodeCount)
    {j : Nat} :
    j ∈ ids.map (rename h.nodeCount id) ↔ j < h.nodeCount ∧ rename id h.nodeCount j ∈ ids := by
  constructor
  · intro mem
    obtain ⟨x, old, rfl⟩ := List.mem_map.1 mem
    have other : x ≠ id := by
      rintro rfl
      exact free old
    exact ⟨frees.rename_lt other (there x old), by rwa [rename_rename other]⟩
  · rintro ⟨lt, old⟩
    exact (mem_map_rename free lt).2 old

/-- The edges are those of before between the slots that the ends came from. -/
theorem mem_out_iff (paired : g.Paired) (alone : g.Isolated id) (a b k : Nat) :
    b ∈ (h.links a k).out ↔ a < h.nodeCount ∧ b < h.nodeCount ∧
      rename id h.nodeCount b ∈ (g.links (rename id h.nodeCount a) k).out := by
  by_cases lt : a < h.nodeCount
  · rw [frees.links_eq a k lt, Links.rename, and_iff_right lt]
    exact frees.mem_map_iff (paired.not_mem_out alone _ k) fun _ edge =>
      paired.target_lt edge
  · simp [links_beyond lt, lt]

theorem mem_incoming_iff (paired : g.Paired) (alone : g.Isolated id) (a b k : Nat) :
    a ∈ (h.links b k).incoming ↔ b < h.nodeCount ∧ a < h.nodeCount ∧
      rename id h.nodeCount a ∈ (g.links (rename id h.nodeCount b) k).incoming := by
  by_cases lt : b < h.nodeCount
  · rw [frees.links_eq b k lt, Links.rename, and_iff_right lt]
    exact frees.mem_map_iff (paired.not_mem_incoming alone _ k) fun _ edge =>
      lt_nodeCount_of_stands (paired.stands_source edge)
  · simp [links_beyond lt, lt]

theorem paired (paired : g.Paired) (alone : g.Isolated id) : h.Paired where
  out_nodup j k := by
    by_cases lt : j < h.nodeCount
    · rw [frees.links_eq j k lt]
      -- No list mentions the freed id, so the renaming is injective on every list.
      exact nodup_map_rename (paired.not_mem_out alone _ _) (paired.out_nodup ..)
    · rw [links_beyond lt]
      exact List.nodup_nil
  mirrored a b k := by
    rw [frees.mem_out_iff paired alone, frees.mem_incoming_iff paired alone, paired.mirrored]
    exact and_left_comm
  irreflexive j k loop :=
    paired.irreflexive _ k ((frees.mem_out_iff paired alone j j k).1 loop).2.2

theorem linked (linked : g.Linked) (alone : g.Isolated id) : h.Linked where
  toPaired := frees.paired linked.toPaired alone
  incoming_nodup j k := by
    by_cases lt : j < h.nodeCount
    · rw [frees.links_eq j k lt]
      exact nodup_map_rename (linked.not_mem_incoming alone _ _) (linked.incoming_nodup ..)
    · rw [links_beyond lt]
      exact List.nodup_nil

theorem withinDegree (within : g.WithinDegree) : h.WithinDegree := fun j k => by
  by_cases lt : j < h.nodeCount
  · rw [frees.links_eq j k lt, frees.config_eq, Links.rename, List.length_map]
    exact within _ k
  · rw [links_beyond lt]
    exact Nat.zero_le _

theorem mem_idsOf_iff (listed : g.Listed) (dead : g.isLive id = false) (l : Label) (j : Nat) :
    j ∈ h.idsOf l ↔ j < h.nodeCount ∧ rename id h.nodeCount j ∈ g.idsOf l := by
  rw [frees.idsOf_eq]
  exact frees.mem_map_iff (listed.not_mem_idsOf dead l) fun x mem =>
    lt_nodeCount_of_isLive (listed l x mem).1

theorem listed (listed : g.Listed) (dead : g.isLive id = false) : h.Listed := by
  intro l j mem
  obtain ⟨lt, before⟩ := (frees.mem_idsOf_iff listed dead l j).1 mem
  rw [frees.isLive_eq lt, frees.label?_eq lt]
  exact listed l _ before

theorem labelled (labelled : g.Labelled) (dead : g.isLive id = false) : h.Labelled where
  mem_idsOf l j := by
    rw [frees.mem_idsOf_iff labelled.listed dead, labelled.mem_idsOf]
    constructor
    · rintro ⟨lt, live, own⟩
      rw [frees.isLive_eq lt, frees.label?_eq lt]
      exact ⟨live, own⟩
    · rintro ⟨live, own⟩
      have lt := lt_nodeCount_of_isLive live
      rw [frees.isLive_eq lt] at live
      rw [frees.label?_eq lt] at own
      exact ⟨lt, live, own⟩
  nodup l := by
    rw [frees.idsOf_eq]
    exact nodup_map_rename (labelled.listed.not_mem_idsOf dead l) (labelled.nodup l)
  nonempty l ids found := by
    rw [frees.find?_eq] at found
    obtain ⟨old, at_label, rfl⟩ := Option.map_eq_some_iff.1 found
    exact fun none => labelled.nonempty l old at_label (List.map_eq_nil_iff.1 none)
  single one l := by
    rw [frees.idsOf_eq, List.length_map]
    exact labelled.single (frees.config_eq ▸ one) l

theorem anchored (anchored : g.Anchored) (dead : g.isLive id = false) : h.Anchored := by
  have moved : ∀ x, g.isLive x = true → rename h.nodeCount id x < h.nodeCount ∧
      rename id h.nodeCount (rename h.nodeCount id x) = x := by
    intro x live
    have other : x ≠ id := by
      rintro rfl
      rw [dead] at live
      cases live
    exact ⟨frees.rename_lt other (lt_nodeCount_of_isLive live), rename_rename other⟩
  refine ⟨fun e entry => ?_, fun e entry => ?_, fun absent j => ?_, fun j live => ?_⟩
  · rw [frees.entryPoint_eq] at entry
    obtain ⟨x, at_entry, rfl⟩ := Option.map_eq_some_iff.1 entry
    obtain ⟨lt, back⟩ := moved x (anchored.live x at_entry)
    rw [frees.isLive_eq lt, back]
    exact anchored.live x at_entry
  · rw [frees.entryPoint_eq] at entry
    obtain ⟨x, at_entry, rfl⟩ := Option.map_eq_some_iff.1 entry
    obtain ⟨lt, back⟩ := moved x (anchored.live x at_entry)
    rw [frees.layerCount_eq lt, back, frees.maxLevel_eq]
    exact anchored.level x at_entry
  · rw [frees.entryPoint_eq, Option.map_eq_none_iff] at absent
    cases live : h.isLive j with
    | false => rfl
    | true =>
        rw [frees.isLive_eq (lt_nodeCount_of_isLive live), anchored.absent absent] at live
        cases live
  · have lt := lt_nodeCount_of_isLive live
    rw [frees.isLive_eq lt] at live
    rw [frees.layerCount_eq lt, frees.maxLevel_eq]
    exact anchored.below _ live

theorem rooted (rooted : g.Rooted) (dead : g.isLive id = false) : h.Rooted where
  toAnchored := frees.anchored rooted.toAnchored dead
  ground absent := by
    rw [frees.entryPoint_eq, Option.map_eq_none_iff] at absent
    exact frees.maxLevel_eq.trans (rooted.ground absent)

theorem filled (filled : g.Filled) : h.Filled where
  aligned := by
    rw [frees.config_eq]
    exact frees.aligned
  tallied := by
    have := frees.countDeleted_eq
    rw [frees.markedCount_eq, filled.tallied]
    omega
  layered j lt := by
    have le : rename id h.nodeCount j ≤ h.nodeCount := rename_le lt
    rw [frees.layerCount_eq lt]
    apply filled.layered
    rw [frees.nodeCount_eq]
    omega

theorem stocked (stocked : g.Stocked) : h.Stocked where
  toFilled := frees.filled stocked.toFilled
  few_layers j := by
    by_cases lt : j < h.nodeCount
    · rw [frees.layerCount_eq lt]
      exact stocked.few_layers _
    · rw [layerCount, Array.getElem?_eq_none (Nat.not_lt.1 lt)]
      exact Nat.zero_le _
  generation_lt j x there := by
    rw [frees.generation?_eq (lt_nodeCount_of_generation? there)] at there
    rw [frees.nextGeneration_eq]
    exact stocked.generation_lt _ x there
  generation_inj a b x at_a at_b := by
    have lt_a := lt_nodeCount_of_generation? at_a
    have lt_b := lt_nodeCount_of_generation? at_b
    rw [frees.generation?_eq lt_a] at at_a
    rw [frees.generation?_eq lt_b] at at_b
    have same := congrArg (rename h.nodeCount id) (stocked.generation_inj _ _ x at_a at_b)
    rwa [rename_rename (Nat.ne_of_lt lt_a), rename_rename (Nat.ne_of_lt lt_b)] at same
  fits := by
    have := stocked.fits
    rw [frees.nodeCount_eq] at this
    rw [frees.capacity_eq]
    omega
  whole_blocks := by
    rw [frees.capacity_eq, frees.config_eq]
    exact stocked.whole_blocks

end Frees

/-- Freeing the slot of a deleted node without edges. -/
theorem Sturdy.swapRemove {g h : Graph α} (sturdy : g.Sturdy) {id : Nat}
    (removed : g.swapRemove id = .ok h) : h.Sturdy ∧ g.Frees id h := by
  obtain ⟨deleted, alone, how⟩ := swapRemove_eq_ok_iff.1 removed
  have lt := lt_nodeCount_of_isDeleted deleted
  have dead := (isLive_eq_false_iff lt).2 deleted
  have frees : g.Frees id h := by
    rcases how with ⟨last, rfl⟩ | ⟨_, _, rfl⟩
    · rw [last] at deleted ⊢
      exact frees_last sturdy.filled.aligned deleted
    · exact frees_relocate sturdy.paired sturdy.listed sturdy.filled.aligned deleted
  exact ⟨⟨frees.paired sturdy.paired alone, frees.withinDegree sturdy.within,
    frees.listed sturdy.listed dead, frees.anchored sturdy.anchored dead,
    frees.filled sturdy.filled⟩, frees⟩

theorem WellFormed.swapRemove {g h : Graph α} (wf : g.WellFormed) {id : Nat}
    (removed : g.swapRemove id = .ok h) : h.WellFormed ∧ g.Frees id h := by
  obtain ⟨deleted, alone, _⟩ := swapRemove_eq_ok_iff.1 removed
  have dead := (isLive_eq_false_iff (lt_nodeCount_of_isDeleted deleted)).2 deleted
  obtain ⟨sturdy, frees⟩ := wf.sturdy.swapRemove removed
  refine ⟨⟨?_, frees.linked wf.linked alone, sturdy.within, frees.labelled wf.labelled dead,
    frees.rooted wf.rooted dead, frees.stocked wf.stocked⟩, frees⟩
  rw [frees.config_eq]
  exact wf.usable

/-! ### Deleted nodes -/

/-- The node that moves when a slot is freed is live, so a deleted node keeps its slot. -/
theorem isDeleted_swapRemove {g h : Graph α} (sturdy : g.Sturdy) {id : Nat}
    (removed : g.swapRemove id = .ok h) (j : Nat) :
    h.isDeleted j = true ↔ j ≠ id ∧ g.isDeleted j = true := by
  obtain ⟨_, frees⟩ := sturdy.swapRemove removed
  obtain ⟨_, _, how⟩ := swapRemove_eq_ok_iff.1 removed
  have count := frees.nodeCount_eq
  have last_live : id ≠ h.nodeCount → g.isDeleted h.nodeCount = false := by
    rcases how with ⟨last, _⟩ | ⟨_, live, _⟩
    · intro other
      omega
    · intro _
      rwa [count, Nat.add_sub_cancel] at live
  constructor
  · intro deleted
    have lt := lt_nodeCount_of_isDeleted deleted
    rw [frees.isDeleted_eq lt] at deleted
    by_cases here : j = id
    · have other : id ≠ h.nodeCount := by omega
      rw [rename, if_pos here, last_live other] at deleted
      cases deleted
    · rw [rename, if_neg here] at deleted
      exact ⟨here, deleted⟩
  · rintro ⟨ne, deleted⟩
    have lt := lt_nodeCount_of_isDeleted deleted
    have before_last : j ≠ h.nodeCount := by
      rintro rfl
      rw [last_live (Ne.symm ne)] at deleted
      cases deleted
    have lt : j < h.nodeCount := by omega
    rw [frees.isDeleted_eq lt, rename, if_neg ne]
    exact deleted

theorem generation?_swapRemove {g h : Graph α} (sturdy : g.Sturdy) {id : Nat}
    (removed : g.swapRemove id = .ok h) {j : Nat} (deleted : h.isDeleted j = true) :
    h.generation? j = g.generation? j := by
  obtain ⟨_, frees⟩ := sturdy.swapRemove removed
  have ne := ((isDeleted_swapRemove sturdy removed j).1 deleted).1
  rw [frees.generation?_eq (lt_nodeCount_of_isDeleted deleted), rename, if_neg ne]

theorem isolated_swapRemove {g h : Graph α} (sturdy : g.Sturdy) {id : Nat}
    (removed : g.swapRemove id = .ok h) {j : Nat} (deleted : h.isDeleted j = true) :
    h.Isolated j ↔ g.Isolated j := by
  obtain ⟨_, frees⟩ := sturdy.swapRemove removed
  have ne := ((isDeleted_swapRemove sturdy removed j).1 deleted).1
  rw [frees.isolated_iff (lt_nodeCount_of_isDeleted deleted), rename, if_neg ne]

end Vicinity.Graph
