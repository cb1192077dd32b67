import Vicinity.Proofs.Binary64.Arithmetic
import Vicinity.Proofs.Graph.Replies

/-!
How far the hits of a range search spread.

A range search passes from a hit to the nodes linked from it (`Spreading`). Which of them it takes
is decided by three comparisons: a node is followed when it is strictly within the boundary, a walk
goes on up to the boundary, and a hit is anything up to the radius. As long as the boundary is
beyond the radius they agree, and every live node within the radius that is linked from a hit is a
hit. Where the boundary is no larger than the radius, which it is for a radius of zero or infinity
and for a share that is rounded away, a node just at the radius may be missed (`RangeReply`), be it
at the very place of the query (`rangeSearch_misses`).
-/

namespace Vicinity.Graph

variable {α : Type} [Element α]

/-- A live node within the radius and strictly within the boundary that goes with the radius. -/
structure Due (g : Graph α) (query : List α) (radius epsilon : Binary64) (id : Nat) : Prop where
  live : g.isLive id = true
  within : (g.distanceTo query id).le radius = true
  inside : (g.distanceTo query id).lt (radius * (.one + epsilon)) = true

namespace RangeWalk

variable {g : Graph α} {query : List α} {radius epsilon : Binary64} {walk : RangeWalk}

/-- A node that was seen changes nothing. Another one is seen from now on. Strictly within the
boundary it is queued, and found when it is a hit. -/
theorem visit_cases (g : Graph α) (query : List α) (radius epsilon : Binary64) (walk : RangeWalk)
    {id : Nat} (inside : id < walk.frontier.seen.size) :
    (walk.frontier.Seen id ∧ visit g query radius epsilon walk id = walk) ∨
      ∃ frontier, walk.frontier.enter? id = some frontier ∧
        (((g.distanceTo query id).lt (walk.boundary epsilon) = true ∧
            visit g query radius epsilon walk id =
              { frontier := frontier.push ⟨g.distanceTo query id, id⟩
                reach := if (g.distanceTo query id).lt walk.reach then
                    (g.distanceTo query id).max radius
                  else walk.reach
                found := if (g.distanceTo query id).le radius && g.isLive id then
                    walk.found ++ [⟨g.distanceTo query id, id⟩]
                  else walk.found }) ∨
          ((g.distanceTo query id).lt (walk.boundary epsilon) = false ∧
            visit g query radius epsilon walk id = { walk with frontier })) := by
  unfold visit
  cases entered : walk.frontier.enter? id with
  | none => exact .inl ⟨Frontier.seen_of_enter?_none inside entered, rfl⟩
  | some frontier =>
      refine .inr ⟨frontier, rfl, ?_⟩
      dsimp only
      split
      case isTrue near => exact .inl ⟨near, rfl⟩
      case isFalse far => exact .inr ⟨Bool.eq_false_iff.2 far, rfl⟩

/-- With nothing to expand the walk ends. -/
theorem explore_of_nil (empty : walk.frontier.queue = []) :
    explore g query radius epsilon walk = walk := by
  rw [explore]
  split
  · rfl
  case h_2 first =>
    rw [empty] at first
    cases first

/-- Within the boundary the first of the queue is expanded. -/
theorem explore_of_cons {c : Candidate} {rest : List Candidate}
    (first : walk.frontier.queue = c :: rest)
    (within : (walk.boundary epsilon).lt c.distance = false) :
    explore g query radius epsilon walk = explore g query radius epsilon
      ((g.links c.id 0).out.foldl (visit g query radius epsilon)
        { walk with frontier := { walk.frontier with queue := rest } }) := by
  rw [explore]
  split
  case h_1 empty =>
    rw [empty] at first
    cases first
  case h_2 c' rest' first' =>
    obtain ⟨rfl, rfl⟩ := List.cons.inj (first.symm.trans first')
    rw [within, if_neg Bool.noConfusion]

/-! ### From hit to hit -/

/-- What holds in the middle of looking at the neighbours of a node, with some of them left: the
nodes seen that are due were found, and each of those found waits to be expanded or has all its
out-neighbours seen but for some that are left. -/
structure Spreading (g : Graph α) (query : List α) (radius epsilon : Binary64) (rest : List Nat)
    (walk : RangeWalk) : Prop where
  size_seen : walk.frontier.seen.size = g.nodeCount
  queued : Candidate.Queued walk.frontier.queue
  wide : radius.le walk.reach = true
  caught : ∀ id, walk.frontier.Seen id → g.Due query radius epsilon id →
    id ∈ walk.found.map (·.id)
  followed : ∀ c ∈ walk.found, c ∈ walk.frontier.queue ∨
    ∀ next ∈ (g.links c.id 0).out, walk.frontier.Seen next ∨ next ∈ rest

/-- A node that was seen is looked at again. -/
theorem Spreading.skip {id : Nat} {rest : List Nat}
    (spreading : walk.Spreading g query radius epsilon (id :: rest))
    (seen : walk.frontier.Seen id) :
    walk.Spreading g query radius epsilon rest where
  size_seen := spreading.size_seen
  queued := spreading.queued
  wide := spreading.wide
  caught := spreading.caught
  followed c found := (spreading.followed c found).imp_right fun passed next edge =>
    Beam.seen_or_left seen (fun _ before => before) next (passed next edge)

/-- A node that was not seen before is looked at, and found when it is due. -/
theorem Spreading.enter {id : Nat} {rest : List Nat} {next : RangeWalk}
    (spreading : walk.Spreading g query radius epsilon (id :: rest)) {frontier : Frontier}
    (entered : walk.frontier.enter? id = some frontier)
    (seen_eq : next.frontier.seen = frontier.seen)
    (queued : Candidate.Queued next.frontier.queue)
    (waiting : ∀ c ∈ walk.frontier.queue, c ∈ next.frontier.queue)
    (wide : radius.le next.reach = true)
    (still : ∀ c ∈ walk.found, c ∈ next.found)
    (among : ∀ c ∈ next.found, c ∈ walk.found ∨ c ∈ next.frontier.queue)
    (caught : g.Due query radius epsilon id → id ∈ next.found.map (·.id)) :
    next.Spreading g query radius epsilon rest := by
  obtain ⟨same_size, _, seen_iff⟩ := Frontier.enter?_eq_some entered
  have seen_iff : ∀ x, next.frontier.Seen x ↔ x = id ∨ walk.frontier.Seen x := by
    intro x
    rw [Frontier.Seen, seen_eq]
    exact seen_iff x
  constructor
  case size_seen => rw [seen_eq, same_size, spreading.size_seen]
  case queued => exact queued
  case wide => exact wide
  case caught =>
    intro x seen due
    rcases (seen_iff x).1 seen with rfl | before
    · exact caught due
    · exact List.map_subset _ still (spreading.caught x before due)
  case followed =>
    intro c found
    rcases among c found with old | waits
    · refine (spreading.followed c old).imp (waiting c) fun passed y edge => ?_
      exact Beam.seen_or_left ((seen_iff id).2 (.inl rfl))
        (fun x before => (seen_iff x).2 (.inr before)) y (passed y edge)
    · exact .inl waits

section Accepted

variable (radius_ok : Binary64.zero.le radius = true) (epsilon_ok : Binary64.zero.le epsilon = true)

include radius_ok epsilon_ok

/-- A node that is due is within any boundary that a walk has. -/
theorem lt_boundary_of_due (wide : radius.le walk.reach = true) {id : Nat}
    (due : g.Due query radius epsilon id) :
    (g.distanceTo query id).lt (walk.boundary epsilon) = true :=
  Binary64.lt_mul_of_le radius_ok (Binary64.one_le_one_add epsilon_ok) wide due.within due.inside

theorem Spreading.visit {id : Nat} {rest : List Nat}
    (spreading : walk.Spreading g query radius epsilon (id :: rest)) (inside : id < g.nodeCount) :
    (visit g query radius epsilon walk id).Spreading g query radius epsilon rest := by
  have number := (Binary64.numbers_of_le radius_ok).2
  rcases visit_cases g query radius epsilon walk (spreading.size_seen ▸ inside) with
    ⟨seen, unchanged⟩ | ⟨frontier, entered, ⟨_, taken⟩ | ⟨far, passed_over⟩⟩
  · rw [unchanged]
    exact spreading.skip seen
  · have queue_eq := Frontier.queue_enter? entered
    rw [taken]
    apply spreading.enter entered rfl
    case queued => exact (queue_eq ▸ spreading.queued).insertSorted _
    case waiting => exact fun c waits => Beam.mem_queue_push.2 (.inr (queue_eq ▸ waits))
    case wide =>
      dsimp only
      split
      · exact Binary64.le_max_right number
      · exact spreading.wide
    case still =>
      intro c found
      dsimp only
      split
      · exact List.mem_append_left _ found
      · exact found
    case among =>
      intro c found
      dsimp only at found
      split at found
      · refine (List.mem_append.1 found).imp_right fun new => ?_
        exact Beam.mem_queue_push.2 (.inl (List.mem_singleton.1 new))
      · exact .inl found
    case caught =>
      intro due
      dsimp only
      rw [due.within, due.live, Bool.and_self, if_pos rfl, List.map_append]
      exact List.mem_append_right _ (List.mem_singleton_self id)
  · have queue_eq := Frontier.queue_enter? entered
    rw [passed_over]
    apply spreading.enter entered rfl
    case queued => exact queue_eq ▸ spreading.queued
    case waiting => exact fun c waits => queue_eq ▸ waits
    case wide => exact spreading.wide
    case still => exact fun c found => found
    case among => exact fun c found => .inl found
    case caught =>
      intro due
      rw [lt_boundary_of_due radius_ok epsilon_ok spreading.wide due] at far
      cases far

theorem Spreading.foldl_visit {ids : List Nat}
    (spreading : walk.Spreading g query radius epsilon ids)
    (inside : ∀ id ∈ ids, id < g.nodeCount) :
    (ids.foldl (RangeWalk.visit g query radius epsilon) walk).Spreading g query radius epsilon
      [] := by
  induction ids generalizing walk with
  | nil => exact spreading
  | cons id ids ih =>
      exact ih (spreading.visit radius_ok epsilon_ok (inside id List.mem_cons_self))
        fun x mem => inside x (List.mem_cons_of_mem _ mem)

omit radius_ok epsilon_ok in
/-- A candidate that is taken off the queue is followed up by looking at its out-neighbours. -/
theorem Spreading.expand (spreading : walk.Spreading g query radius epsilon []) {c : Candidate}
    {queue : List Candidate} (first : walk.frontier.queue = c :: queue) :
    Spreading g query radius epsilon (g.links c.id 0).out
      { walk with frontier := { walk.frontier with queue } } where
  size_seen := spreading.size_seen
  queued := by
    have queued := spreading.queued
    rw [first] at queued
    exact (List.pairwise_cons.1 queued).2
  wide := spreading.wide
  caught := spreading.caught
  followed d found := by
    rcases spreading.followed d found with waits | passed
    · rw [first] at waits
      rcases List.mem_cons.1 waits with rfl | later
      · exact .inr fun next edge => .inr edge
      · exact .inl later
    · exact .inr fun next edge => (passed next edge).imp_right nofun

/-- Where the exploration stops, no hit waits to be expanded: the first of the queue is beyond the
boundary, and the boundary is not within the radius. -/
theorem Spreading.followed_at_stop (spreading : walk.Spreading g query radius epsilon [])
    (finding : walk.Finding g query radius) {c : Candidate} {queue : List Candidate}
    (first : walk.frontier.queue = c :: queue)
    (beyond : (walk.boundary epsilon).lt c.distance = true) {d : Candidate}
    (found : d ∈ walk.found) : ∀ next ∈ (g.links d.id 0).out, walk.frontier.Seen next := by
  rcases spreading.followed d found with waits | passed
  case inr => exact fun next edge => (passed next edge).resolve_right List.not_mem_nil
  case inl =>
    have queued := spreading.queued
    rw [first] at queued waits
    obtain ⟨number, number_c⟩ := Binary64.numbers_of_lt beyond
    have near := Binary64.le_trans (finding.within d found) spreading.wide
    have reach_le : walk.reach.le (walk.boundary epsilon) = true :=
      Binary64.le_mul (Binary64.le_trans radius_ok spreading.wide)
        (Binary64.one_le_one_add epsilon_ok) (.inr number)
    have farther := queued.first_le waits number_c (Binary64.numbers_of_le near).1
    have within := Binary64.le_trans farther (Binary64.le_trans near reach_le)
    rw [Binary64.not_lt_of_le within] at beyond
    cases beyond

/-- When the exploration ends, all that is due next to a hit was found. -/
theorem Spreading.explore (paired : g.Paired)
    (spreading : walk.Spreading g query radius epsilon []) (finding : walk.Finding g query radius) :
    (explore g query radius epsilon walk).Spreading g query radius epsilon [] ∧
      ∀ c ∈ (explore g query radius epsilon walk).found, ∀ next ∈ (g.links c.id 0).out,
        (explore g query radius epsilon walk).frontier.Seen next := by
  fun_induction RangeWalk.explore g query radius epsilon walk with
  | case1 walk empty =>
      refine ⟨spreading, fun c found next edge => ?_⟩
      rcases spreading.followed c found with waits | passed
      · rw [empty] at waits
        cases waits
      · exact (passed next edge).resolve_right List.not_mem_nil
  | case2 walk c rest queue beyond =>
      refine ⟨spreading, fun d found => ?_⟩
      exact spreading.followed_at_stop radius_ok epsilon_ok finding queue beyond found
  | case3 walk c rest queue _ ih =>
      have inside : ∀ id ∈ (g.links c.id 0).out, id < g.nodeCount := fun id edge =>
        paired.target_lt edge
      exact ih ((spreading.expand queue).foldl_visit radius_ok epsilon_ok inside)
        ((finding.pop rest).foldl_visit epsilon _)

omit epsilon_ok in
theorem Spreading.start {place : Candidate} (inside : place.id < g.nodeCount)
    (place_true : place.distance = g.distanceTo query place.id) :
    (start g radius place).Spreading g query radius epsilon [] where
  size_seen := by simp [RangeWalk.start, Frontier.start]
  queued := List.pairwise_singleton _ place
  wide := Binary64.le_max_right (Binary64.numbers_of_le radius_ok).2
  caught id seen due := by
    rw [(Frontier.seen_start inside id).1 seen] at due ⊢
    rw [RangeWalk.start, place_true, due.within, due.live, Bool.and_self, if_pos rfl]
    exact List.mem_singleton_self _
  followed c found := by
    rw [RangeWalk.start] at found
    dsimp only at found
    split at found
    · exact .inl found
    · cases found

end Accepted

/-! ### Within the boundary -/

/-- What holds of a walk that began within the radius: its reach is the radius, and but for the
start every hit is strictly within the boundary. -/
structure Tight (radius epsilon : Binary64) (start : Nat) (walk : RangeWalk) : Prop where
  reach_eq : walk.reach.Equals radius
  inside : ∀ c ∈ walk.found,
    c.id = start ∨ c.distance.lt (radius * (.one + epsilon)) = true

theorem Tight.visit {start : Nat} (tight : walk.Tight radius epsilon start)
    (number : (Binary64.one + epsilon).isNaN = false) (query : List α) (id : Nat) :
    (visit g query radius epsilon walk id).Tight radius epsilon start := by
  unfold RangeWalk.visit
  split
  · exact tight
  · dsimp only
    split
    case isFalse => exact ⟨tight.reach_eq, tight.inside⟩
    case isTrue near =>
      constructor
      case reach_eq =>
        dsimp only
        split
        case isTrue nearer =>
          have within := Binary64.le_trans (Binary64.le_of_lt nearer) tight.reach_eq.1
          exact Binary64.max_equals within
        case isFalse => exact tight.reach_eq
      case inside =>
        intro c found
        dsimp only at found
        split at found
        case isFalse => exact tight.inside c found
        case isTrue =>
          rcases List.mem_append.1 found with old | new
          · exact tight.inside c old
          · rw [List.mem_singleton.1 new]
            exact .inr (Binary64.lt_mul_congr tight.reach_eq number ▸ near)

omit [Element α] in
theorem Tight.start {place : Candidate} (near : place.distance.le radius = true) :
    (start g radius place).Tight radius epsilon place.id where
  reach_eq := Binary64.max_equals near
  inside c found := by
    rw [RangeWalk.start] at found
    dsimp only at found
    split at found
    · rw [List.mem_singleton.1 found]
      exact .inl rfl
    · cases found

theorem Tight.explore {start : Nat} (tight : walk.Tight radius epsilon start)
    (number : (Binary64.one + epsilon).isNaN = false) (query : List α) :
    (explore g query radius epsilon walk).Tight radius epsilon start :=
  explore_keeps (fun _ id tight => tight.visit number query id)
    (fun _ _ tight => ⟨tight.reach_eq, tight.inside⟩) tight

/-- What is found stays found. -/
theorem found_explore (g : Graph α) (query : List α) (radius epsilon : Binary64) {c : Candidate}
    (found : c ∈ walk.found) : c ∈ (explore g query radius epsilon walk).found := by
  refine explore_keeps (motive := fun walk => c ∈ walk.found) (fun walk id found => ?_)
    (fun _ _ found => found) found
  unfold RangeWalk.visit
  split
  · exact found
  · dsimp only
    split
    case isFalse => exact found
    case isTrue =>
      dsimp only
      split
      · exact List.mem_append_left _ found
      · exact found

end RangeWalk

/-! ### Replies -/

/-- A node is reported when the label that it is listed under is. -/
def Reports (g : Graph α) (reply : Reply) (id : Nat) : Prop :=
  ∃ label ∈ reply.labels, id ∈ g.idsOf label

instance (g : Graph α) (reply : Reply) (id : Nat) : Decidable (g.Reports reply id) :=
  inferInstanceAs (Decidable (∃ label ∈ reply.labels, id ∈ g.idsOf label))

/-- With one vector a label, what is reported is what was found. -/
theorem RangeWalk.Finding.reports_iff {g : Graph α} {query : List α} {radius : Binary64}
    {walk : RangeWalk} (finding : walk.Finding g query radius) (labelled : g.Labelled)
    (single : g.config.multi = false) (id : Nat) :
    g.Reports (g.toHits (Candidate.sort walk.found)) id ↔ ∃ c ∈ walk.found, c.id = id := by
  have sorted := Candidate.sort_perm walk.found
  constructor
  · rintro ⟨label, listed, at_label⟩
    obtain ⟨hit, mem, rfl⟩ := List.mem_map.1 listed
    obtain ⟨c, among, named, _⟩ := mem_toHits mem
    have found := sorted.mem_iff.1 among
    obtain ⟨live, named'⟩ := (labelled.mem_idsOf hit.label id).1 at_label
    exact ⟨c, found, labelled.eq_of_label? single (finding.live c found) live named named'⟩
  · rintro ⟨c, found, rfl⟩
    obtain ⟨label, named, listed⟩ := labelled.mem_idsOf_label (finding.live c found)
    refine ⟨label, List.mem_map.2 ⟨⟨label, c.distance⟩, ?_, rfl⟩, listed⟩
    rw [toHits_single single]
    exact List.mem_filterMap.2 ⟨c, sorted.mem_iff.2 found, by rw [named, Option.map_some]⟩

/-- What a range search reports, by the boundary that goes with the radius. Live nodes within the
radius are reported next to those that are, unless they are at the radius itself and the boundary is
no larger, or the boundary is no number. A search that begins within the radius reports its start
when it is live, and of the other nodes only those strictly within the boundary. -/
structure RangeReply (g : Graph α) (query : List α) (radius boundary : Binary64) (reply : Reply) :
    Prop where
  spreads : ∀ id next, g.Reports reply id → next ∈ (g.links id 0).out → g.isLive next = true →
    (g.distanceTo query next).le radius = true →
      g.Reports reply next ∨ boundary.isNaN = true ∨
        (g.distanceTo query next).Equals radius ∧ boundary.Equals radius
  begins : ∀ place, g.entryOn? query 0 = some place → place.distance.le radius = true →
    g.isLive place.id = true → g.Reports reply place.id
  inside : ∀ place, g.entryOn? query 0 = some place → place.distance.le radius = true →
    ∀ id, g.Reports reply id → id = place.id ∨ (g.distanceTo query id).lt boundary = true

/-- Where no search begins, nothing is reported. -/
theorem RangeReply.nil {g : Graph α} {query : List α} (nowhere : g.entryOn? query 0 = none)
    (radius boundary : Binary64) : g.RangeReply query radius boundary [] where
  spreads id next reported := by
    obtain ⟨label, mem, _⟩ := reported
    cases mem
  begins place arrives := by
    rw [nowhere] at arrives
    cases arrives
  inside place arrives := by
    rw [nowhere] at arrives
    cases arrives

/-- A node within the radius is strictly within the boundary, or both are at the radius. -/
theorem inside_or_at_radius {distance radius epsilon : Binary64}
    (radius_ok : Binary64.zero.le radius = true) (epsilon_ok : Binary64.zero.le epsilon = true)
    (within : distance.le radius = true) :
    distance.lt (radius * (.one + epsilon)) = true ∨ (radius * (.one + epsilon)).isNaN = true ∨
      distance.Equals radius ∧ (radius * (.one + epsilon)).Equals radius := by
  cases inside : distance.lt (radius * (.one + epsilon)) with
  | true => exact .inl rfl
  | false =>
      cases number : (radius * (.one + epsilon)).isNaN with
      | true => exact .inr (.inl rfl)
      | false =>
          have number_d := (Binary64.numbers_of_le within).1
          have above := Binary64.le_of_not_lt number_d number inside
          have grown : radius.le (radius * (.one + epsilon)) = true :=
            Binary64.le_mul radius_ok (Binary64.one_le_one_add epsilon_ok) (.inr number)
          exact .inr (.inr ⟨⟨within, Binary64.le_trans grown above⟩,
            Binary64.le_trans above within, grown⟩)

/-- What a walk from a place finds makes such a reply. -/
theorem Labelled.rangeReply {g : Graph α} (labelled : g.Labelled)
    (single : g.config.multi = false) (paired : g.Paired) {query : List α} {place : Candidate}
    (arrives : g.entryOn? query 0 = some place) (stands : place.id < g.nodeCount)
    {radius epsilon : Binary64} (radius_ok : Binary64.zero.le radius = true)
    (epsilon_ok : Binary64.zero.le epsilon = true) :
    g.RangeReply query radius (radius * (.one + epsilon)) (g.toHits (Candidate.sort
      (RangeWalk.explore g query radius epsilon (.start g radius place)).found)) := by
  have place_true := distance_entryOn? arrives
  have start : RangeWalk.Finding g query radius (.start g radius place) :=
    .start stands place_true
  have finding := start.explore epsilon
  obtain ⟨spreading, passed_on⟩ :=
    (RangeWalk.Spreading.start radius_ok stands place_true).explore radius_ok epsilon_ok paired
      start
  have reports_iff := finding.reports_iff labelled single
  constructor
  case spreads =>
    intro id next reported edge live within
    obtain ⟨c, found, rfl⟩ := (reports_iff id).1 reported
    refine (inside_or_at_radius radius_ok epsilon_ok within).imp_left fun inside => ?_
    have caught := spreading.caught next (passed_on c found next edge) ⟨live, within, inside⟩
    exact (reports_iff next).2 (List.mem_map.1 caught)
  case begins =>
    intro place' arrives' near live
    obtain rfl := Option.some.inj (arrives.symm.trans arrives')
    refine (reports_iff place.id).2 ⟨place, RangeWalk.found_explore g query radius epsilon ?_, rfl⟩
    rw [RangeWalk.start, near, live]
    exact List.mem_singleton_self _
  case inside =>
    intro place' arrives' near id reported
    obtain rfl := Option.some.inj (arrives.symm.trans arrives')
    obtain ⟨c, found, rfl⟩ := (reports_iff id).1 reported
    have number := (Binary64.numbers_of_le (Binary64.one_le_one_add epsilon_ok)).2
    have start_tight : (RangeWalk.start g radius place).Tight radius epsilon place.id := .start near
    have tight := start_tight.explore (g := g) number query
    rw [← finding.measured c found]
    exact tight.inside c found

/-- A range search of a graph that passes the integrity check, with one vector a label, answers any
query of the dimension so, whatever the distances. -/
theorem range_spreads {g : Graph α} (passed : g.integrity = .ok ())
    (single : g.config.multi = false) {query : List α}
    (accepted : checkDimension g.config.dim.toNat query.length = .ok ()) {radius epsilon : Binary64}
    (radius_ok : Binary64.zero.le radius = true) (epsilon_ok : Binary64.zero.le epsilon = true) :
    ∃ reply, g.rangeSearch query radius epsilon = .ok reply ∧
      g.RangeReply (g.config.metric.prepare query) radius (radius * (.one + epsilon)) reply := by
  have sound := integrity_eq_ok_iff.1 passed
  have labelled := sound.labelled (sound.nodup_of_single single)
  rw [rangeSearch_eq accepted (Binary64.not_lt_of_le radius_ok) (Binary64.not_lt_of_le epsilon_ok)]
  cases arrives : g.entryOn? (g.config.metric.prepare query) 0 with
  | none => exact ⟨[], rfl, .nil arrives radius _⟩
  | some place =>
      have stands := sound.sturdy.lt_nodeCount_of_entryOn? arrives
      exact ⟨_, rfl, labelled.rangeReply single sound.paired arrives stands radius_ok epsilon_ok⟩

/-- Two linked nodes at one place. -/
def coinciding : Graph Binary64 where
  config := { dim := 1, metric := .l2 }
  nodes := #[
    { label := 1, generation := 0, layers := [⟨[1], [1]⟩] },
    { label := 2, generation := 1, layers := [⟨[0], [0]⟩] }]
  vectors := #[.zero, .zero]
  labels := (LabelMap.empty.insert 1 [0]).insert 2 [1]
  entryPoint := some 0
  capacity := 1024
  nextGeneration := 2

theorem entryOn?_coinciding : coinciding.entryOn? [.zero] 0 = some ⟨.zero, 0⟩ := by
  rw [entryOn?_of_le _ (Nat.le_refl 0)]
  decide +kernel

/-- Within a radius of one both nodes are reported. -/
theorem range_spreads_coinciding :
    coinciding.integrity = .ok () ∧
      ∃ reply, coinciding.rangeSearch [.zero] .one coinciding.config.epsilon = .ok reply ∧
        coinciding.Reports reply 0 ∧ coinciding.Reports reply 1 := by
  have passed : coinciding.integrity = .ok () := by decide +kernel
  have accepted : checkDimension coinciding.config.dim.toNat [Binary64.zero].length = .ok () := rfl
  have radius_ok : Binary64.zero.le .one = true := by decide
  have epsilon_ok : Binary64.zero.le coinciding.config.epsilon = true := by decide
  obtain ⟨reply, searched, answers⟩ := range_spreads passed rfl accepted radius_ok epsilon_ok
  have first := answers.begins _ entryOn?_coinciding (by decide) (by decide)
  refine ⟨passed, reply, searched, first, ?_⟩
  have apart : ¬ (Binary64.one * (.one + coinciding.config.epsilon)).Equals .one := by
    unfold Binary64.Equals
    decide +kernel
  have number : (Binary64.one * (.one + coinciding.config.epsilon)).isNaN = false := by
    decide +kernel
  rcases answers.spreads 0 1 first (by decide) (by decide) (by decide +kernel) with
    reported | nan | ⟨_, same⟩
  · exact reported
  · rw [number] at nan
    cases nan
  · exact absurd same apart

/-- Within a radius of zero the second node is missed, although it is at the place of the query like
the first one, which is reported. -/
theorem rangeSearch_misses :
    (coinciding.integrity = .ok () ∧ coinciding.config.multi = false ∧
        coinciding.Comparable [.zero] ∧ Binary64.zero.le coinciding.config.epsilon = true) ∧
      coinciding.rangeSearch [.zero] .zero coinciding.config.epsilon = .ok [⟨1, .zero⟩] ∧
      coinciding.Reports [⟨1, .zero⟩] 0 ∧ 1 ∈ (coinciding.links 0 0).out ∧
      coinciding.isLive 1 = true ∧ (coinciding.distanceTo [.zero] 1).le .zero = true ∧
      ¬ coinciding.Reports [⟨1, .zero⟩] 1 := by
  refine ⟨⟨by decide +kernel, rfl, fun id live => ?_, by decide⟩, ?_, by decide +kernel⟩
  · have lt : id < 2 := lt_nodeCount_of_isLive live
    have near : ∀ id < 2, (coinciding.distanceTo [.zero] id).isNaN = false := by decide +kernel
    exact near id lt
  · have accepted : checkDimension coinciding.config.dim.toNat [Binary64.zero].length = .ok () :=
      rfl
    have prepared : coinciding.config.metric.prepare [Binary64.zero] = [.zero] := rfl
    have found : (RangeWalk.explore coinciding [.zero] .zero coinciding.config.epsilon
        (.start coinciding .zero ⟨.zero, 0⟩)).found = [⟨.zero, 0⟩] := by
      have first : (RangeWalk.start coinciding .zero ⟨.zero, 0⟩).frontier.queue = [⟨.zero, 0⟩] :=
        rfl
      rw [RangeWalk.explore_of_cons first (by decide +kernel),
        RangeWalk.explore_of_nil (by decide +kernel)]
      decide +kernel
    rw [rangeSearch_eq accepted (by decide) (by decide), prepared, entryOn?_coinciding]
    dsimp only
    rw [found]
    decide +kernel

end Vicinity.Graph
