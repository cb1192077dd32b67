import Vicinity.Proofs.Graph.Insertion

/-!
Insertions that give up where they would index a node or a layer that is not there.

Reading a graph answers something for every id and layer: no links, or an infinite distance, where
there is nothing to read. The operations in `Guarded` do the same as those of the graph, except that
they end with `none` at the first node or layer they look for and do not find. They run into that in
no well-formed graph and return what the plain operations do (`Guarded.insert_eq_some`). So the
answers for what is missing never matter.
-/

namespace Vicinity.Graph

/-! ### Runs that may give up -/

/-- A result that is there only if what was read for it is. -/
def reading {β : Type} (present : Prop) [Decidable present] (result : β) : Option β :=
  if present then some result else none

theorem reading_eq_some {β : Type} {present : Prop} [Decidable present] (there : present)
    (result : β) : reading present result = some result := if_pos there

/-- A run in which no step gives up. The condition may speak of the items that are left. -/
theorem foldlM_eq_some {σ β : Type} {motive : List β → σ → Prop} {f : σ → β → Option σ}
    {g : σ → β → σ}
    (step : ∀ b bs s, motive (b :: bs) s → f s b = some (g s b) ∧ motive bs (g s b))
    {l : List β} {s : σ} (start : motive l s) : l.foldlM f s = some (l.foldl g s) := by
  induction l generalizing s with
  | nil => rfl
  | cons b bs ih =>
      obtain ⟨done, next⟩ := step b bs s start
      simp only [List.foldlM_cons, done, Option.bind_eq_bind, Option.bind_some, List.foldl_cons]
      exact ih next

variable {α : Type}

/-- There is a node in the slot, and its vector in the arena. -/
def Occupied (g : Graph α) (id : Nat) : Prop := id < g.nodeCount ∧ (g.vector? id).isSome = true

instance (g : Graph α) (id : Nat) : Decidable (g.Occupied id) :=
  inferInstanceAs (Decidable (_ ∧ _))

/-- The node stands on the layer, and its neighbours there are nodes with vectors. -/
def Opens (g : Graph α) (id layer : Nat) : Prop :=
  g.Stands id layer ∧ ∀ n ∈ (g.links id layer).out, g.Occupied n

instance (g : Graph α) (id layer : Nat) : Decidable (g.Opens id layer) :=
  inferInstanceAs (Decidable (_ ∧ _))

/-- Every node has its vector. -/
def Vectored (g : Graph α) : Prop := ∀ id, id < g.nodeCount → g.Occupied id

theorem Filled.vectored {g : Graph α} (filled : g.Filled) : g.Vectored := by
  intro id lt
  obtain ⟨vector, there⟩ := filled.exists_vector lt
  exact ⟨lt, by rw [there]; rfl⟩

theorem Rewired.occupied_iff {g h : Graph α} (rewired : Rewired g h) (id : Nat) :
    h.Occupied id ↔ g.Occupied id := by
  rw [Occupied, Occupied, rewired.nodeCount_eq, rewired.vector?_eq]

theorem Rewired.vectored {g h : Graph α} (rewired : Rewired g h) (vectored : g.Vectored) :
    h.Vectored := by
  intro id lt
  rw [rewired.nodeCount_eq] at lt
  exact (rewired.occupied_iff id).2 (vectored id lt)

theorem Vectored.of_stands {g : Graph α} (vectored : g.Vectored) {id layer : Nat}
    (stands : g.Stands id layer) : g.Occupied id :=
  vectored id (lt_nodeCount_of_stands stands)

theorem Vectored.opens {g : Graph α} (vectored : g.Vectored) (paired : g.Paired) {id layer : Nat}
    (stands : g.Stands id layer) : g.Opens id layer :=
  ⟨stands, fun n edge => vectored n (paired.target_lt edge)⟩

namespace Guarded

/-! ### Reads and edges -/

/-- The links of a node that stands on the layer. -/
def links (g : Graph α) (id layer : Nat) : Option Links :=
  reading (g.Stands id layer) (g.links id layer)

def addEdge (g : Graph α) (source target layer : Nat) : Option (Graph α) :=
  reading (g.Stands source layer ∧ g.Stands target layer) (g.addEdge source target layer)

def removeEdge (g : Graph α) (source target layer : Nat) : Option (Graph α) :=
  reading (g.Stands source layer ∧ g.Stands target layer) (g.removeEdge source target layer)

theorem links_eq_some {g : Graph α} {id layer : Nat} (stands : g.Stands id layer) :
    links g id layer = some (g.links id layer) := reading_eq_some stands _

theorem addEdge_eq_some {g : Graph α} {source target layer : Nat} (here : g.Stands source layer)
    (there : g.Stands target layer) :
    addEdge g source target layer = some (g.addEdge source target layer) :=
  reading_eq_some ⟨here, there⟩ _

theorem removeEdge_eq_some {g : Graph α} {source target layer : Nat}
    (here : g.Stands source layer) (there : g.Stands target layer) :
    removeEdge g source target layer = some (g.removeEdge source target layer) :=
  reading_eq_some ⟨here, there⟩ _

/-! ### Searching -/

variable [Element α]

/-- The distance from a query to a node that is there. -/
def distanceTo (g : Graph α) (query : List α) (id : Nat) : Option Binary64 :=
  reading (g.Occupied id) (g.distanceTo query id)

def descend (g : Graph α) (query : List α) (layer : Nat) (place : Candidate) :
    Option Candidate :=
  if g.Opens place.id layer then
    let next := (g.links place.id layer).out.foldl (g.nearer query) place
    if next.distance.lt place.distance then descend g query layer next else some place
  else none
termination_by g.countNearer query place.distance
decreasing_by exact countNearer_lt g query ‹_›

def entryOn? (g : Graph α) (query : List α) (layer : Nat) : Option (Option Candidate) :=
  match g.entryPoint with
  | none => some none
  | some entry => do
    let distance ← distanceTo g query entry
    let place ← (layersDown g.maxLevel layer).foldlM (fun place l => descend g query l place)
      ⟨distance, entry⟩
    some (some place)

def explore (g : Graph α) (query : List α) (ef layer : Nat) (beam : Beam) : Option Beam :=
  match _h : beam.frontier.queue with
  | [] => some beam
  | c :: rest =>
    if beam.bound.lt c.distance && ef ≤ beam.best.size then some beam
    else if g.Opens c.id layer then
      explore g query ef layer <|
        (g.links c.id layer).out.foldl (Beam.visit g query ef)
          { beam with frontier := { beam.frontier with queue := rest } }
    else none
termination_by beam.frontier.pending
decreasing_by
  refine Nat.lt_of_le_of_lt (Beam.pending_foldl_visit ..) ?_
  simp only [Frontier.pending, _h, List.length_cons]
  omega

def searchLayer (g : Graph α) (query : List α) (place : Candidate) (ef layer : Nat) :
    Option (List Candidate) := do
  let start ← reading (place.id < g.nodeCount)
    { frontier := .start g.nodeCount place
      best := if g.isDeleted place.id then .empty
        else .insert .empty place.distance place.id : Beam }
  let beam ← explore g query ef layer start
  some (Candidate.sort (beam.best.toList.map fun e => ⟨e.priority, e.payload⟩))

theorem descend_eq_some {g : Graph α} (vectored : g.Vectored) (paired : g.Paired)
    (query : List α) (layer : Nat)
    (place : Candidate) (start : g.Stands place.id layer) :
    descend g query layer place = some (g.descend query layer place) := by
  fun_induction g.descend query layer place with
  | case1 place next nearer ih =>
      rw [descend, if_pos (vectored.opens paired start)]
      dsimp only
      rw [if_pos nearer]
      apply ih
      rcases id_foldl_nearer g query (g.links place.id layer).out place with same | edge
      · rwa [show next.id = place.id from same]
      · exact paired.stands_target edge
  | case2 place next far =>
      rw [descend, if_pos (vectored.opens paired start)]
      exact if_neg far

theorem entryOn?_eq_some {g : Graph α} (vectored : g.Vectored) (paired : g.Paired)
    (query : List α) {layer : Nat}
    (entry : ∀ id, g.entryPoint = some id → g.Stands id g.maxLevel) :
    entryOn? g query layer = some (g.entryOn? query layer) := by
  unfold entryOn? Graph.entryOn?
  cases at_entry : g.entryPoint with
  | none => rfl
  | some id =>
      have stands := entry id at_entry
      -- The place of the descent stands on every layer that is left.
      have walk := foldlM_eq_some
        (motive := fun layers (place : Candidate) => layers.Pairwise (· > ·) ∧
          ∀ l ∈ layers, g.Stands place.id l)
        (f := fun place l => descend g query l place)
        (g := fun place l => g.descend query l place)
        (l := layersDown g.maxLevel layer) (s := ⟨g.distanceTo query id, id⟩)
        (fun l ls place here => by
          obtain ⟨descending, stands⟩ := here
          rw [List.pairwise_cons] at descending
          refine ⟨descend_eq_some vectored paired query l place (stands l List.mem_cons_self),
            descending.2, fun k mem => ?_⟩
          exact (descend_keeps (paired.passes_stands l) query place
            (stands l List.mem_cons_self)).mono (Nat.le_of_lt (descending.1 k mem)))
        ⟨by
          rw [layersDown, List.pairwise_reverse]
          exact List.pairwise_lt_range', fun l mem => by
          have := List.mem_range'_1.1 (List.mem_reverse.1 mem)
          exact stands.mono (by omega)⟩
      simp only [distanceTo, reading_eq_some (vectored.of_stands stands),
        Option.bind_eq_bind, Option.bind_some, walk, Option.map_some]

theorem explore_eq_some {g : Graph α} (vectored : g.Vectored) (paired : g.Paired)
    (query : List α) (ef : Nat) {layer : Nat} {beam : Beam}
    (keeps : beam.Keeps g (g.Stands · layer)) :
    explore g query ef layer beam = some (Beam.explore g query ef layer beam) := by
  fun_induction Beam.explore g query ef layer beam with
  | case1 beam queue =>
      unfold explore
      split
      · rfl
      case h_2 c rest other =>
        rw [queue] at other
        cases other
  | case2 beam c rest queue done =>
      unfold explore
      split
      · rfl
      case h_2 d others same =>
        rw [queue] at same
        cases same
        exact if_pos done
  | case3 beam c rest queue more ih =>
      have start : g.Stands c.id layer := keeps.queued c (queue ▸ List.mem_cons_self)
      have opened : Beam.Keeps g (g.Stands · layer)
          { beam with frontier := { beam.frontier with queue := rest } } :=
        ⟨fun d mem => keeps.queued d (queue ▸ List.mem_cons_of_mem _ mem), keeps.kept⟩
      unfold explore
      split
      case h_1 none =>
        rw [queue] at none
        cases none
      case h_2 d others same =>
        rw [queue] at same
        cases same
        rw [if_neg more, if_pos (vectored.opens paired start)]
        exact ih (Beam.Keeps.foldl_visit query ef (fun _ edge => paired.stands_target edge) opened)

theorem searchLayer_eq_some {g : Graph α} (vectored : g.Vectored) (paired : g.Paired)
    (query : List α) {place : Candidate} (ef : Nat) {layer : Nat}
    (start : g.Stands place.id layer) :
    searchLayer g query place ef layer = some (g.searchLayer query place ef layer) := by
  unfold searchLayer
  rw [reading_eq_some (lt_nodeCount_of_stands start)]
  simp only [Option.bind_eq_bind, Option.bind_some, explore_eq_some vectored paired query ef
    (.start start)]
  rfl

/-! ### Linking -/

def choose (g : Graph α) (cap : Nat) (chosen : List Nat) (c : Candidate) : Option (List Nat) :=
  reading (g.Occupied c.id ∧ ∀ s ∈ chosen, g.Occupied s) (g.choose cap chosen c)

def chooseNeighbors (g : Graph α) (cap : Nat) (candidates : List Candidate) :
    Option (List Nat) :=
  if candidates.length ≤ cap then some (candidates.map (·.id))
  else candidates.foldlM (choose g cap) []

def farthest? (g : Graph α) (id layer : Nat) : Option (Option Candidate) :=
  reading (g.Opens id layer) (g.farthest? id layer)

def evictFarthest (g : Graph α) (id layer : Nat) : Option (Graph α) := do
  match ← farthest? g id layer with
  | some victim => removeEdge g id victim.id layer
  | none => some g

def connect (g : Graph α) (id layer : Nat) (neighbor : Nat) : Option (Graph α) := do
  let linked ← addEdge g id neighbor layer
  let linked ← addEdge linked neighbor id layer
  let there ← links linked neighbor layer
  if g.config.maxDegree layer < there.out.length then evictFarthest linked neighbor layer
  else some linked

def connectLayer (id : Nat) (vector : List α) (state : Graph α × Candidate) (layer : Nat) :
    Option (Graph α × Candidate) := do
  let (g, place) := state
  let found ← searchLayer g vector place g.config.efConstruction.toNat layer
  let chosen ← chooseNeighbors g (g.config.maxDegree layer) found
  let linked ← chosen.foldlM (fun g n => connect g id layer n) g
  some (linked, found.head?.getD place)

def wire (g : Graph α) (id : Nat) (vector : List α) (level : Nat) : Option (Graph α) := do
  match ← entryOn? g vector level with
  | none => some (g.setEntry id level)
  | some place =>
    let layers := (List.range (min level g.maxLevel + 1)).reverse
    let (linked, _) ← layers.foldlM (connectLayer id vector) (g, place)
    some (if g.maxLevel < level then linked.setEntry id level else linked)

def insert (g : Graph α) (label : Label) (vector : List α) :
    Option (Except Failure (Graph α × Nat)) :=
  match checkDimension g.config.dim.toNat vector.length with
  | .error fault => some (.error (.vector fault))
  | .ok () =>
    if g.isFull then some (.error (.full g.capacity.toNat))
    else do
      let prepared := g.config.metric.prepare vector
      let level := Level.draw g.config g.drawCount
      let id := g.nodeCount
      let wired ← wire (g.append label prepared level) id prepared level
      some (.ok (wired, id))

theorem chooseNeighbors_eq_some {g : Graph α} (cap : Nat) {candidates : List Candidate}
    (there : ∀ c ∈ candidates, g.Occupied c.id) :
    chooseNeighbors g cap candidates = some (g.chooseNeighbors cap candidates) := by
  unfold chooseNeighbors Graph.chooseNeighbors
  split
  · rfl
  · refine foldlM_eq_some (motive := fun cs chosen =>
      (∀ c ∈ cs, g.Occupied c.id) ∧ ∀ s ∈ chosen, g.Occupied s) ?_ ⟨there, by simp⟩
    rintro c cs chosen ⟨there, before⟩
    have here := there c List.mem_cons_self
    refine ⟨reading_eq_some ⟨here, before⟩ _, fun d mem => there d (List.mem_cons_of_mem _ mem),
      fun s mem => ?_⟩
    unfold Graph.choose at mem
    split at mem
    · rcases List.mem_append.1 mem with old | new
      · exact before s old
      · rw [List.mem_singleton.1 new]
        exact here
    · exact before s mem

theorem evictFarthest_eq_some {g : Graph α} (vectored : g.Vectored) (paired : g.Paired)
    {id layer : Nat} (here : g.Stands id layer) :
    evictFarthest g id layer = some (g.evictFarthest id layer) := by
  unfold evictFarthest farthest? Graph.evictFarthest
  rw [reading_eq_some (vectored.opens paired here)]
  simp only [Option.bind_eq_bind, Option.bind_some]
  cases victim : g.farthest? id layer with
  | none => rfl
  | some c =>
      have edge := (farthest?_spec g id layer).1 c victim
      exact removeEdge_eq_some here (paired.stands_target edge)

theorem connect_eq_some {g : Graph α} (vectored : g.Vectored) (paired : g.Paired)
    {id layer n : Nat} (here : g.Stands id layer) (there : g.Stands n layer) :
    connect g id layer n = some (g.connect id layer n) := by
  have first := rewired_addEdge g id n layer
  have here₁ := (first.stands_iff id layer).2 here
  have there₁ := (first.stands_iff n layer).2 there
  have second := rewired_addEdge (g.addEdge id n layer) n id layer
  have there₂ := (second.stands_iff n layer).2 there₁
  have both := (paired.addEdge here there).addEdge there₁ here₁
  unfold connect Graph.connect
  simp only [addEdge_eq_some here there, addEdge_eq_some there₁ here₁, links_eq_some there₂,
    evictFarthest_eq_some (second.vectored (first.vectored vectored)) both there₂,
    Option.bind_eq_bind, Option.bind_some]
  exact (apply_ite some ..).symm

theorem connectLayer_eq_some {base : Graph α} (base_vectored : base.Vectored) {id layer : Nat}
    {layers : List Nat} {state : Graph α × Candidate}
    (wiring : base.Wiring id (layer :: layers) state)
    (vector : List α) :
    connectLayer id vector state layer = some (Graph.connectLayer id vector state layer) := by
  obtain ⟨g, place⟩ := state
  have paired : g.Paired := wiring.paired
  have vectored : g.Vectored := wiring.edits.rewired.vectored base_vectored
  have here : g.Stands id layer := wiring.here layer List.mem_cons_self
  have start : g.Stands place.id layer := wiring.start layer List.mem_cons_self
  have found_stands : ∀ c ∈ g.searchLayer vector place g.config.efConstruction.toNat layer,
      g.Stands c.id layer := fun c found =>
    (searchLayer_keeps (paired.passes_stands layer) vector _ start found).1
  have there : ∀ n ∈ g.chooseNeighbors (g.config.maxDegree layer)
      (g.searchLayer vector place g.config.efConstruction.toNat layer), g.Stands n layer := by
    intro n chosen
    obtain ⟨c, found, rfl⟩ := (chooseNeighbors_spec ..).1 n chosen
    exact found_stands c found
  have connected := foldlM_eq_some
    (motive := fun ns (g : Graph α) => g.Vectored ∧ g.Paired ∧ g.Stands id layer ∧
      ∀ n ∈ ns, g.Stands n layer)
    (f := fun g n => connect g id layer n) (g := fun g n => g.connect id layer n)
    (fun n ns g kept => by
      obtain ⟨vectored, paired, here, there⟩ := kept
      have n_stands := there n List.mem_cons_self
      have rewired := rewired_connect g id layer n
      exact ⟨connect_eq_some vectored paired here n_stands, rewired.vectored vectored,
        (edits_connect here n_stands).paired paired, (rewired.stands_iff ..).2 here,
        fun m mem => (rewired.stands_iff ..).2 (there m (List.mem_cons_of_mem _ mem))⟩)
    ⟨vectored, paired, here, there⟩
  unfold connectLayer Graph.connectLayer
  simp only [searchLayer_eq_some vectored paired vector _ start, chooseNeighbors_eq_some _
    (fun c found => vectored.of_stands (found_stands c found)), connected,
    Option.bind_eq_bind, Option.bind_some]

theorem wire_eq_some {g : Graph α} (vectored : g.Vectored) (paired : g.Paired)
    (within : g.WithinDegree) {id level : Nat}
    (entry : ∀ e, g.entryPoint = some e → g.Stands e g.maxLevel)
    (here : ∀ layer, layer ≤ level → g.Stands id layer) (fresh : g.Isolated id)
    (vector : List α) : wire g id vector level = some (g.wire id vector level) := by
  unfold wire Graph.wire
  rw [entryOn?_eq_some vectored paired vector entry]
  simp only [Option.bind_eq_bind, Option.bind_some]
  cases arrives : g.entryOn? vector level with
  | none => rfl
  | some place =>
      have walked := foldlM_eq_some
        (motive := fun layers state => layers.Pairwise (· > ·) ∧ g.Wiring id layers state)
        (f := connectLayer id vector) (g := Graph.connectLayer id vector)
        (fun layer layers state here => by
          obtain ⟨descending, wiring⟩ := here
          rw [List.pairwise_cons] at descending
          exact ⟨connectLayer_eq_some vectored wiring vector, descending.2,
            wiring.connectLayer descending.1 vector⟩)
        ⟨wiredLayers_descending g level, Wiring.initial paired within entry here fresh arrives⟩
      unfold wiredLayers at walked
      simp only [walked, Option.bind_some]

/-- An insertion into a well-formed graph finds every node and layer that it looks for. -/
theorem insert_eq_some {g : Graph α} (wf : g.WellFormed) (label : Label) (vector : List α) :
    insert g label vector = some (g.insert label vector) := by
  unfold insert Graph.insert
  cases fits : checkDimension g.config.dim.toNat vector.length with
  | error fault => rfl
  | ok _ =>
      have length : (g.config.metric.prepare vector).length = g.config.dim.toNat := by
        rw [Metric.length_prepare]
        exact (checkDimension_eq_ok_iff.1 fits).1
      have filled := wf.stocked.toFilled.append label length (Level.draw g.config g.drawCount)
      dsimp only
      rw [wire_eq_some filled.vectored (wf.linked.toPaired.append ..) (wf.within.append _ _ _)
        (wf.rooted.stands_entry_append _ _ _) (stands_append_self g _ _ _)
        (isolated_append_self g _ _ _)]
      exact (apply_ite some ..).symm

end Guarded

end Vicinity.Graph
