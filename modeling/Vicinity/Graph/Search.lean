import Vicinity.Graph.Basic
import Vicinity.Graph.Frontier
import Vicinity.PriorityHeap
import Vicinity.Reply

/-!
Searching a graph.

A search descends greedily from the entry point to layer 0 and explores that layer from where it
ended. `searchLayer` keeps the nearest live nodes in a beam of bounded width; `rangeSearch` follows
candidates within a boundary that tightens as nearer nodes turn up. Deleted nodes are walked through
and never reported.
-/

namespace Vicinity.Graph

variable {α : Type} [Element α]

/-! ### Greedy descent -/

/-- The nearer of the best candidate so far and a neighbour. -/
def nearer (g : Graph α) (query : List α) (best : Candidate) (id : Nat) : Candidate :=
  match g.vector? id with
  | none => best
  | some vector =>
    let distance := g.config.metric.distance query vector
    if distance.lt best.distance then ⟨distance, id⟩ else best

/-- The number of vectors nearer to the query than a distance. -/
def countNearer (g : Graph α) (query : List α) (distance : Binary64) : Nat :=
  (Arena.vectors g.config.dim.toNat g.vectors).countP fun vector =>
    (g.config.metric.distance query vector).lt distance

/-- The best neighbour is at the distance of a vector, or it is the candidate itself. -/
theorem foldl_nearer (g : Graph α) (query : List α) (ids : List Nat) (best : Candidate) :
    ids.foldl (g.nearer query) best = best ∨
      ∃ vector ∈ Arena.vectors g.config.dim.toNat g.vectors,
        (ids.foldl (g.nearer query) best).distance = g.config.metric.distance query vector := by
  induction ids generalizing best with
  | nil => exact .inl rfl
  | cons id ids ih =>
    rw [List.foldl_cons]
    rcases ih (g.nearer query best id) with h | h
    · rw [h]
      unfold nearer
      split
      · exact .inl rfl
      case h_2 vector stored =>
        dsimp only
        split
        · exact .inr ⟨vector, Arena.mem_vectors stored, rfl⟩
        · exact .inl rfl
    · exact .inr h

/-- Fewer are nearer than one that is nearer. -/
theorem countP_lt_of_strict {β : Type} {p q : β → Bool} {xs : List β}
    (sub : ∀ x, p x = true → q x = true) {x : β} (mem : x ∈ xs) (hp : p x = false)
    (hq : q x = true) : xs.countP p < xs.countP q := by
  induction xs with
  | nil => simp at mem
  | cons y ys ih =>
    have le : ys.countP p ≤ ys.countP q := List.countP_mono_left fun z _ => sub z
    rcases List.mem_cons.1 mem with rfl | mem
    · rw [List.countP_cons_of_neg (by simp [hp]), List.countP_cons_of_pos hq]
      omega
    · have lt := ih mem
      by_cases hy : p y = true
      · rw [List.countP_cons_of_pos hy, List.countP_cons_of_pos (sub y hy)]
        omega
      · rw [List.countP_cons_of_neg hy]
        rw [List.countP_cons]
        omega

theorem countNearer_lt (g : Graph α) (query : List α) {ids : List Nat} {best : Candidate}
    (h : (ids.foldl (g.nearer query) best).distance.lt best.distance = true) :
    g.countNearer query (ids.foldl (g.nearer query) best).distance <
      g.countNearer query best.distance := by
  rcases foldl_nearer g query ids best with eq | ⟨vector, mem, eq⟩
  · rw [eq, Binary64.lt_irrefl] at h
    contradiction
  · exact countP_lt_of_strict (fun _ hx => Binary64.lt_trans hx h) mem
      (by rw [← eq]; exact Binary64.lt_irrefl _) (by rw [← eq]; exact h)

/-- Go from neighbour to nearer neighbour on a layer until none is nearer. -/
def descend (g : Graph α) (query : List α) (layer : Nat) (place : Candidate) : Candidate :=
  let next := (g.links place.id layer).out.foldl (g.nearer query) place
  if next.distance.lt place.distance then g.descend query layer next else place
termination_by g.countNearer query place.distance
decreasing_by exact countNearer_lt g query ‹_›

/-- The layers from `high` down to the one above `low`. -/
def layersDown (high low : Nat) : List Nat := (List.range' (low + 1) (high - low)).reverse

/-- Where a search on a layer starts: the end of a descent from the entry point. -/
def entryOn? (g : Graph α) (query : List α) (layer : Nat) : Option Candidate :=
  g.entryPoint.map fun entry =>
    (layersDown g.maxLevel layer).foldl (fun place l => g.descend query l place)
      ⟨g.distanceTo query entry, entry⟩

/-! ### Beam search -/

/-- A walk with the best live nodes seen so far. -/
structure Beam where
  frontier : Frontier
  best : PriorityHeap

namespace Beam

/-- The distance of the worst node kept, beyond every number when none is kept. -/
def bound (beam : Beam) : Binary64 := (beam.best.peek?.map (·.priority)).getD .infinity

/-- Drop the worst node when there are too many. -/
def trim (ef : Nat) (best : PriorityHeap) : PriorityHeap :=
  if ef < best.size then
    match best.pop? with
    | some (_, rest) => rest
    | none => best
  else best

/-- Look at a neighbour: one not seen before is queued when the beam has room or it is nearer than
the bound, and kept when it is also live. -/
def visit (g : Graph α) (query : List α) (ef : Nat) (beam : Beam) (id : Nat) : Beam :=
  match beam.frontier.enter? id with
  | none => beam
  | some frontier =>
    let distance := g.distanceTo query id
    if beam.best.size < ef || distance.lt beam.bound then
      { frontier := frontier.push ⟨distance, id⟩
        best := if g.isDeleted id then beam.best else trim ef (beam.best.insert distance id) }
    else { beam with frontier }

theorem pending_visit (g : Graph α) (query : List α) (ef : Nat) (beam : Beam) (id : Nat) :
    (visit g query ef beam id).frontier.pending ≤ beam.frontier.pending := by
  unfold visit
  split
  · exact Nat.le_refl _
  case h_2 frontier h =>
    have := Frontier.pending_enter? h
    dsimp only
    split
    · simp only [Frontier.pending_push]
      omega
    · dsimp only
      omega

theorem pending_foldl_visit (g : Graph α) (query : List α) (ef : Nat) (ids : List Nat)
    (beam : Beam) :
    (ids.foldl (visit g query ef) beam).frontier.pending ≤ beam.frontier.pending := by
  induction ids generalizing beam with
  | nil => exact Nat.le_refl _
  | cons id ids ih => exact Nat.le_trans (ih _) (pending_visit g query ef beam id)

/-- Expand candidates, the nearest first, until the nearest is beyond the bound of a full beam. -/
def explore (g : Graph α) (query : List α) (ef layer : Nat) (beam : Beam) : Beam :=
  match _h : beam.frontier.queue with
  | [] => beam
  | c :: rest =>
    if beam.bound.lt c.distance && ef ≤ beam.best.size then beam
    else
      explore g query ef layer <|
        (g.links c.id layer).out.foldl (visit g query ef)
          { beam with frontier := { beam.frontier with queue := rest } }
termination_by beam.frontier.pending
decreasing_by
  refine Nat.lt_of_le_of_lt (pending_foldl_visit ..) ?_
  simp only [Frontier.pending, _h, List.length_cons]
  omega

end Beam

/-- The nearest live nodes on a layer that a beam of width `ef` finds from a place, sorted. The
width is a number: no memory is set aside for a beam before its nodes are found. -/
def searchLayer (g : Graph α) (query : List α) (place : Candidate) (ef layer : Nat) :
    List Candidate :=
  let beam : Beam :=
    { frontier := .start g.nodeCount place
      best := if g.isDeleted place.id then .empty else .insert .empty place.distance place.id }
  let found := (Beam.explore g query ef layer beam).best.toList
  Candidate.sort (found.map fun e => ⟨e.priority, e.payload⟩)

/-! ### Queries -/

/-- The first hit of each label that is not among those seen. -/
def firstPerLabel (seen : List Label) : List Hit → List Hit
  | [] => []
  | hit :: hits =>
    if hit.label ∈ seen then firstPerLabel seen hits
    else hit :: firstPerLabel (hit.label :: seen) hits

/-- Candidates as hits. With several vectors a label only its first hit counts. -/
def toHits (g : Graph α) (found : List Candidate) : List Hit :=
  let hits := found.filterMap fun c => (g.label? c.id).map fun label => ⟨label, c.distance⟩
  if g.config.multi then firstPerLabel [] hits else hits

/-- The `k` nearest labels that a beam of width `ef` finds. -/
def search (g : Graph α) (query : List α) (k ef : Nat) : Except Failure Reply :=
  match checkDimension g.config.dim.toNat query.length with
  | .error fault => .error (.vector fault)
  | .ok () =>
    if ef < k then .error (.narrowBeam ef k)
    else if k = 0 then .ok []
    else
      let query := g.config.metric.prepare query
      match g.entryOn? query 0 with
      | none => .ok []
      | some place => .ok ((g.toHits (g.searchLayer query place ef 0)).take k)

/-! ### Range search -/

/-- A walk with the hits so far and the distance up to which it reaches. -/
structure RangeWalk where
  frontier : Frontier
  /-- The distance of the nearest node seen, or the radius when that is larger. -/
  reach : Binary64
  found : List Candidate

namespace RangeWalk

/-- How far candidates are followed. -/
def boundary (epsilon : Binary64) (walk : RangeWalk) : Binary64 :=
  walk.reach * (.one + epsilon)

/-- Look at a neighbour: one not seen before that lies within the boundary is queued, pulls the
reach in when it is nearer, and is a hit when it is live and within the radius. -/
def visit (g : Graph α) (query : List α) (radius epsilon : Binary64) (walk : RangeWalk) (id : Nat) :
    RangeWalk :=
  match walk.frontier.enter? id with
  | none => walk
  | some frontier =>
    let distance := g.distanceTo query id
    if distance.lt (walk.boundary epsilon) then
      { frontier := frontier.push ⟨distance, id⟩
        reach := if distance.lt walk.reach then distance.max radius else walk.reach
        found := if distance.le radius && g.isLive id then walk.found ++ [⟨distance, id⟩]
          else walk.found }
    else { walk with frontier }

theorem pending_visit (g : Graph α) (query : List α) (radius epsilon : Binary64)
    (walk : RangeWalk) (id : Nat) :
    (visit g query radius epsilon walk id).frontier.pending ≤ walk.frontier.pending := by
  unfold visit
  split
  · exact Nat.le_refl _
  case h_2 frontier h =>
    have := Frontier.pending_enter? h
    dsimp only
    split
    · simp only [Frontier.pending_push]
      omega
    · dsimp only
      omega

theorem pending_foldl_visit (g : Graph α) (query : List α) (radius epsilon : Binary64)
    (ids : List Nat) (walk : RangeWalk) :
    (ids.foldl (visit g query radius epsilon) walk).frontier.pending ≤ walk.frontier.pending := by
  induction ids generalizing walk with
  | nil => exact Nat.le_refl _
  | cons id ids ih => exact Nat.le_trans (ih _) (pending_visit g query radius epsilon walk id)

/-- Expand candidates, the nearest first, until the nearest is beyond the boundary. -/
def explore (g : Graph α) (query : List α) (radius epsilon : Binary64) (walk : RangeWalk) :
    RangeWalk :=
  match _h : walk.frontier.queue with
  | [] => walk
  | c :: rest =>
    if (walk.boundary epsilon).lt c.distance then walk
    else
      explore g query radius epsilon <|
        (g.links c.id 0).out.foldl (visit g query radius epsilon)
          { walk with frontier := { walk.frontier with queue := rest } }
termination_by walk.frontier.pending
decreasing_by
  refine Nat.lt_of_le_of_lt (pending_foldl_visit ..) ?_
  simp only [Frontier.pending, _h, List.length_cons]
  omega

end RangeWalk

/-- The labels found within a radius. -/
def rangeSearch (g : Graph α) (query : List α) (radius epsilon : Binary64) :
    Except Failure Reply :=
  match checkDimension g.config.dim.toNat query.length with
  | .error fault => .error (.vector fault)
  | .ok () =>
    if radius.lt .zero || epsilon.lt .zero then .error .negativeRange
    else
      let query := g.config.metric.prepare query
      match g.entryOn? query 0 with
      | none => .ok []
      | some place =>
        let walk : RangeWalk :=
          { frontier := .start g.nodeCount place
            reach := place.distance.max radius
            found := if place.distance.le radius && g.isLive place.id then [place] else [] }
        let found := (walk.explore g query radius epsilon).found
        .ok (g.toHits (Candidate.sort found))

end Vicinity.Graph
