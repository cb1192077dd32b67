import Vicinity.Proofs.Graph.Exactness

/-!
Replies of a graph are sound.

A sound reply names each label once, lists the scores in order, and every score is the distance of
the query to a live node of that label (`SoundReply`). A beam search keeps no node twice and only
live ones, with their distances (`Beam.Searching`, `Beam.Measured`), and so does a range search,
which finds nothing beyond its radius either (`RangeWalk.Finding`); what they find is turned into
hits by `Labelled.sound_toHits`. So the queries of every graph that calls lead to have sound
replies, with deletions under way as well (`Attained.replies_sound`). Nothing is asked of the query
but its length: scores that are NaN have their place in the total order too.
-/

namespace Vicinity.Graph

variable {α : Type}

/-! ### One hit a label -/

theorem firstPerLabel_spec (seen : List Label) (hits : List Hit) :
    (Reply.labels (firstPerLabel seen hits)).Nodup ∧
      ∀ label ∈ Reply.labels (firstPerLabel seen hits), label ∉ seen := by
  induction hits generalizing seen with
  | nil => exact ⟨List.nodup_nil, fun _ mem => by cases mem⟩
  | cons hit hits ih =>
      unfold firstPerLabel
      split
      case isTrue => exact ih seen
      case isFalse fresh =>
        obtain ⟨nodup, unseen⟩ := ih (hit.label :: seen)
        refine ⟨List.nodup_cons.2 ⟨fun again => ?_, nodup⟩, fun label mem => ?_⟩
        · exact unseen hit.label again List.mem_cons_self
        · rcases List.mem_cons.1 mem with rfl | later
          · exact fresh
          · exact fun old => unseen label later (List.mem_cons_of_mem _ old)

theorem firstPerLabel_sublist (seen : List Label) (hits : List Hit) :
    (firstPerLabel seen hits).Sublist hits := by
  induction hits generalizing seen with
  | nil => exact .slnil
  | cons hit hits ih =>
      unfold firstPerLabel
      split
      · exact (ih seen).cons hit
      · exact (ih _).cons_cons hit

theorem toHits_sublist (g : Graph α) (found : List Candidate) :
    (g.toHits found).Sublist (g.hitsOf found) := by
  unfold toHits
  split
  · exact firstPerLabel_sublist [] _
  · exact List.Sublist.refl _

/-- A hit is a candidate under the label of its node. -/
theorem mem_toHits {g : Graph α} {found : List Candidate} {hit : Hit}
    (mem : hit ∈ g.toHits found) :
    ∃ c ∈ found, g.label? c.id = some hit.label ∧ c.distance = hit.score := by
  obtain ⟨c, among, named⟩ := List.mem_filterMap.1 ((g.toHits_sublist found).subset mem)
  obtain ⟨label, at_id, rfl⟩ := Option.map_eq_some_iff.1 named
  exact ⟨c, among, at_id, rfl⟩

theorem nodup_labels_toHits {g : Graph α} (multi : g.config.multi = true)
    (found : List Candidate) : (Reply.labels (g.toHits found)).Nodup := by
  rw [toHits_multi multi]
  exact (firstPerLabel_spec ..).1

/-- With one vector a label a label has one live node. -/
theorem Labelled.eq_of_label? {g : Graph α} (labelled : g.Labelled)
    (single : g.config.multi = false) {a b : Nat} (live_a : g.isLive a = true)
    (live_b : g.isLive b = true) {label : Label} (at_a : g.label? a = some label)
    (at_b : g.label? b = some label) : a = b := by
  have in_a := (labelled.mem_idsOf label a).2 ⟨live_a, at_a⟩
  have in_b := (labelled.mem_idsOf label b).2 ⟨live_b, at_b⟩
  have few := labelled.single single label
  match ids : g.idsOf label with
  | [] =>
      rw [ids] at in_a
      cases in_a
  | [id] =>
      rw [ids, List.mem_singleton] at in_a in_b
      rw [in_a, in_b]
  | _ :: _ :: _ =>
      rw [ids] at few
      simp at few

variable [Element α]

/-! ### Sound replies -/

/-- A reply with each label once and its scores in order, each of them the distance of a live node
that is listed under the label. The order is the total one; as long as scores are numbers, none is
larger than a later one. -/
structure SoundReply (g : Graph α) (query : List α) (reply : Reply) : Prop where
  distinct : reply.labels.Nodup
  ordered : reply.Pairwise fun a b => b.score.totalLt a.score = false
  ascending : reply.Pairwise fun a b =>
    a.score.isNaN = false → b.score.isNaN = false → a.score.le b.score = true
  witnessed : ∀ hit ∈ reply, ∃ id ∈ g.idsOf hit.label, ∃ node, g.nodes[id]? = some node ∧
    node.deleted = false ∧ node.label = hit.label ∧
      ∃ vector, g.vector? id = some vector ∧ g.config.metric.distance query vector = hit.score

theorem SoundReply.nil (g : Graph α) (query : List α) : g.SoundReply query [] where
  distinct := List.nodup_nil
  ordered := .nil
  ascending := .nil
  witnessed _ mem := by cases mem

theorem SoundReply.sublist {g : Graph α} {query : List α} {reply reply' : Reply}
    (sound : g.SoundReply query reply) (sub : reply'.Sublist reply) :
    g.SoundReply query reply' where
  distinct := sound.distinct.sublist (sub.map _)
  ordered := sound.ordered.sublist sub
  ascending := sound.ascending.sublist sub
  witnessed hit mem := sound.witnessed hit (sub.subset mem)

/-- Live nodes, none of them twice, with their distances and in order make a sound reply. -/
theorem Labelled.sound_toHits {g : Graph α} (labelled : g.Labelled) (filled : g.Filled)
    {query : List α} {found : List Candidate} (nodup : (found.map (·.id)).Nodup)
    (live : ∀ c ∈ found, g.isLive c.id = true)
    (at_distance : ∀ c ∈ found, c.distance = g.distanceTo query c.id)
    (queued : Candidate.Queued found) : g.SoundReply query (g.toHits found) := by
  have ordered : (g.toHits found).Pairwise fun a b => b.score.totalLt a.score = false := by
    refine List.Pairwise.sublist (g.toHits_sublist found)
      (List.pairwise_filterMap.2 (queued.imp fun {a b} le => ?_))
    rintro hit named hit' named'
    obtain ⟨label, _, rfl⟩ := Option.map_eq_some_iff.1 named
    obtain ⟨label', _, rfl⟩ := Option.map_eq_some_iff.1 named'
    exact Candidate.totalLt_eq_false_of_rank_le le
  constructor
  case ordered => exact ordered
  case ascending =>
    refine ordered.imp fun {a b} not_before number_a number_b => ?_
    refine Binary64.le_of_not_lt number_b number_a (Bool.eq_false_iff.2 fun less => ?_)
    rw [Binary64.totalLt_of_lt less] at not_before
    cases not_before
  case distinct =>
    cases multi : g.config.multi with
    | true => exact nodup_labels_toHits multi found
    | false =>
        refine List.Nodup.sublist ((g.toHits_sublist found).map _) ?_
        rw [List.Nodup, List.pairwise_map, hitsOf, List.pairwise_filterMap]
        refine (List.pairwise_map.1 nodup).imp_of_mem fun {a b} in_a in_b other => ?_
        rintro hit named hit' named' same
        obtain ⟨label, at_a, rfl⟩ := Option.map_eq_some_iff.1 named
        obtain ⟨label', at_b, rfl⟩ := Option.map_eq_some_iff.1 named'
        cases same
        exact other (labelled.eq_of_label? multi (live a in_a) (live b in_b) at_a at_b)
  case witnessed =>
    intro hit mem
    obtain ⟨c, among, named, score⟩ := mem_toHits mem
    have live := live c among
    obtain ⟨node, at_id, kept⟩ := isLive_eq_true_iff.1 live
    obtain ⟨vector, there⟩ := filled.exists_vector (lt_nodeCount_of_isLive live)
    have distance := at_distance c among
    refine ⟨c.id, (labelled.mem_idsOf hit.label c.id).2 ⟨live, named⟩, node, at_id, kept, ?_,
      vector, there, ?_⟩
    · simpa [label?, at_id] using named
    · rw [← score, distance, distanceTo, there]

/-! ### Range searches -/

namespace RangeWalk

/-- What holds in the middle of a range search. -/
structure Finding (g : Graph α) (query : List α) (radius : Binary64) (walk : RangeWalk) :
    Prop where
  seen : ∀ c ∈ walk.found, walk.frontier.Seen c.id
  nodup : (walk.found.map (·.id)).Nodup
  live : ∀ c ∈ walk.found, g.isLive c.id = true
  measured : ∀ c ∈ walk.found, c.distance = g.distanceTo query c.id
  within : ∀ c ∈ walk.found, c.distance.le radius = true

variable {g : Graph α} {query : List α} {radius : Binary64} {walk : RangeWalk}

/-- A node that was not seen before is looked at. It is a hit or not, whatever becomes of the queue
and of the reach. -/
theorem Finding.enter (finding : walk.Finding g query radius) {id : Nat} {frontier : Frontier}
    (entered : walk.frontier.enter? id = some frontier) {next : RangeWalk}
    (seen_eq : next.frontier.seen = frontier.seen)
    (outcome : next.found = walk.found ∨
      ((g.distanceTo query id).le radius = true ∧ g.isLive id = true) ∧
        next.found = walk.found ++ [⟨g.distanceTo query id, id⟩]) :
    next.Finding g query radius := by
  obtain ⟨_, unseen, seen_iff⟩ := Frontier.enter?_eq_some entered
  have seen_iff : ∀ x, next.frontier.Seen x ↔ x = id ∨ walk.frontier.Seen x := by
    intro x
    rw [Frontier.Seen, seen_eq]
    exact seen_iff x
  have seen : ∀ c ∈ walk.found, next.frontier.Seen c.id :=
    fun c mem => (seen_iff c.id).2 (.inr (finding.seen c mem))
  rcases outcome with same | ⟨⟨near, live⟩, more⟩
  · constructor
    case seen => rwa [same]
    case nodup => exact same ▸ finding.nodup
    case live => exact same ▸ finding.live
    case measured => exact same ▸ finding.measured
    case within => exact same ▸ finding.within
  · have either : ∀ c ∈ next.found, c ∈ walk.found ∨ c = ⟨g.distanceTo query id, id⟩ := by
      intro c mem
      rw [more] at mem
      exact (List.mem_append.1 mem).imp_right List.mem_singleton.1
    constructor
    case nodup =>
      rw [more, List.map_append, List.nodup_append]
      refine ⟨finding.nodup, List.nodup_singleton _, ?_⟩
      rintro x old y new rfl
      obtain ⟨c, mem, rfl⟩ := List.mem_map.1 old
      have same : c.id = id := List.mem_singleton.1 new
      exact unseen (same ▸ finding.seen c mem)
    all_goals
      intro c mem
      rcases either c mem with old | rfl
    case seen.inl => exact seen c old
    case seen.inr => exact (seen_iff id).2 (.inl rfl)
    case live.inl => exact finding.live c old
    case live.inr => exact live
    case measured.inl => exact finding.measured c old
    case measured.inr => rfl
    case within.inl => exact finding.within c old
    case within.inr => exact near

theorem Finding.visit (finding : walk.Finding g query radius) (epsilon : Binary64) (id : Nat) :
    (visit g query radius epsilon walk id).Finding g query radius := by
  unfold RangeWalk.visit
  split
  · exact finding
  case h_2 frontier entered =>
    dsimp only
    split
    case isFalse => exact finding.enter entered rfl (.inl rfl)
    case isTrue =>
      refine finding.enter entered rfl ?_
      dsimp only
      split
      case isTrue hit => exact .inr ⟨Bool.and_eq_true_iff.1 hit, rfl⟩
      case isFalse => exact .inl rfl

theorem Finding.foldl_visit (finding : walk.Finding g query radius) (epsilon : Binary64)
    (ids : List Nat) :
    (ids.foldl (RangeWalk.visit g query radius epsilon) walk).Finding g query radius :=
  List.foldlRecOn ids _ finding fun _ finding id _ => finding.visit epsilon id

/-- What stays when a node is looked at and when a candidate is taken off the queue stays throughout
an exploration. -/
theorem explore_keeps {epsilon : Binary64} {motive : RangeWalk → Prop}
    (visits : ∀ walk id, motive walk → motive (RangeWalk.visit g query radius epsilon walk id))
    (pops : ∀ walk queue, motive walk →
      motive { walk with frontier := { walk.frontier with queue } }) (holds : motive walk) :
    motive (explore g query radius epsilon walk) := by
  fun_induction RangeWalk.explore g query radius epsilon walk with
  | case1 => exact holds
  | case2 => exact holds
  | case3 walk c rest queue _ ih =>
      exact ih (List.foldlRecOn _ _ (pops walk rest holds) fun walk holds id _ =>
        visits walk id holds)

theorem Finding.pop (finding : walk.Finding g query radius) (queue : List Candidate) :
    Finding g query radius { walk with frontier := { walk.frontier with queue } } :=
  ⟨finding.seen, finding.nodup, finding.live, finding.measured, finding.within⟩

theorem Finding.explore (finding : walk.Finding g query radius) (epsilon : Binary64) :
    (explore g query radius epsilon walk).Finding g query radius :=
  explore_keeps (fun _ id finding => finding.visit epsilon id)
    (fun _ queue finding => finding.pop queue) finding

/-- A walk that begins at a place, which is a hit when it is live and near enough. -/
def start (g : Graph α) (radius : Binary64) (place : Candidate) : RangeWalk where
  frontier := .start g.nodeCount place
  reach := place.distance.max radius
  found := if place.distance.le radius && g.isLive place.id then [place] else []

theorem Finding.start {place : Candidate} (inside : place.id < g.nodeCount)
    (place_true : place.distance = g.distanceTo query place.id) :
    (start g radius place).Finding g query radius := by
  unfold RangeWalk.start
  split
  case isTrue hit =>
    rw [Bool.and_eq_true] at hit
    constructor
    case nodup => exact List.nodup_singleton _
    all_goals
      intro c mem
      rw [List.mem_singleton.1 mem]
    case seen => exact (Frontier.seen_start inside place.id).2 rfl
    case live => exact hit.2
    case measured => exact place_true
    case within => exact hit.1
  case isFalse =>
    constructor
    case nodup => exact List.nodup_nil
    all_goals
      intro c mem
      cases mem

/-- What a range search has found makes a sound reply within the radius. -/
theorem Finding.sound (finding : walk.Finding g query radius) (labelled : g.Labelled)
    (filled : g.Filled) :
    g.SoundReply query (g.toHits (Candidate.sort walk.found)) ∧
      ∀ hit ∈ g.toHits (Candidate.sort walk.found), hit.score.le radius = true := by
  have same := Candidate.sort_perm walk.found
  constructor
  · exact labelled.sound_toHits filled ((same.map _).nodup_iff.2 finding.nodup)
      (fun c mem => finding.live c (same.mem_iff.1 mem))
      (fun c mem => finding.measured c (same.mem_iff.1 mem)) (Candidate.queued_sort _)
  · intro hit mem
    obtain ⟨c, found, _, score⟩ := mem_toHits mem
    rw [← score]
    exact finding.within c (same.mem_iff.1 found)

end RangeWalk

/-! ### Queries -/

theorem Labelled.search_sound {g : Graph α} (labelled : g.Labelled) (sturdy : g.Sturdy)
    {query : List α}
    (accepted : checkDimension g.config.dim.toNat query.length = .ok ()) {k ef : Nat}
    (wide : k ≤ ef) :
    ∃ reply, g.search query k ef = .ok reply ∧
      g.SoundReply (g.config.metric.prepare query) reply ∧ reply.length ≤ k := by
  rw [search, accepted]
  dsimp only
  rw [if_neg (Nat.not_lt.2 wide)]
  split
  case isTrue => exact ⟨[], rfl, .nil _ _, Nat.zero_le _⟩
  case isFalse asked =>
    cases arrives : g.entryOn? (g.config.metric.prepare query) 0 with
    | none => exact ⟨[], rfl, .nil _ _, Nat.zero_le _⟩
    | some place =>
        have positive : 0 < ef := by omega
        have inside := sturdy.lt_nodeCount_of_entryOn? arrives
        have paired := sturdy.paired
        have passes : g.Passes 0 (· < g.nodeCount) := fun _ _ _ edge => paired.target_lt edge
        have nodup := (searchLayer_complete paired inside positive
          (g.config.metric.prepare query) 0).1
        have sound := labelled.sound_toHits sturdy.filled nodup
          (fun c found => by
            obtain ⟨lt, kept⟩ := searchLayer_keeps passes _ ef inside found
            exact isLive_of_not_isDeleted lt kept)
          (fun c found =>
            distance_searchLayer paired inside positive (distance_entryOn? arrives) found)
          (queued_searchLayer ..)
        exact ⟨_, rfl, sound.sublist (List.take_sublist ..), List.length_take_le ..⟩

/-- A range search that is not refused reports what the walk from where the descent ends finds. -/
theorem rangeSearch_eq {g : Graph α} {query : List α}
    (accepted : checkDimension g.config.dim.toNat query.length = .ok ()) {radius epsilon : Binary64}
    (radius_ok : radius.lt .zero = false) (epsilon_ok : epsilon.lt .zero = false) :
    g.rangeSearch query radius epsilon = .ok
      (match g.entryOn? (g.config.metric.prepare query) 0 with
      | none => []
      | some place => g.toHits (Candidate.sort (RangeWalk.explore g
          (g.config.metric.prepare query) radius epsilon (.start g radius place)).found)) := by
  rw [rangeSearch, accepted]
  dsimp only
  rw [radius_ok, epsilon_ok, Bool.or_false, if_neg Bool.noConfusion]
  cases g.entryOn? (g.config.metric.prepare query) 0 <;> rfl

theorem Labelled.rangeSearch_sound {g : Graph α} (labelled : g.Labelled) (sturdy : g.Sturdy)
    {query : List α}
    (accepted : checkDimension g.config.dim.toNat query.length = .ok ()) {radius epsilon : Binary64}
    (radius_ok : radius.lt .zero = false) (epsilon_ok : epsilon.lt .zero = false) :
    ∃ reply, g.rangeSearch query radius epsilon = .ok reply ∧
      g.SoundReply (g.config.metric.prepare query) reply ∧
      ∀ hit ∈ reply, hit.score.le radius = true := by
  rw [rangeSearch_eq accepted radius_ok epsilon_ok]
  cases arrives : g.entryOn? (g.config.metric.prepare query) 0 with
  | none => exact ⟨[], rfl, .nil _ _, fun _ mem => by cases mem⟩
  | some place =>
      have inside := sturdy.lt_nodeCount_of_entryOn? arrives
      have started : RangeWalk.Finding g (g.config.metric.prepare query) radius
          (.start g radius place) := .start inside (distance_entryOn? arrives)
      exact ⟨_, rfl, (started.explore epsilon).sound labelled sturdy.filled⟩

/-- The replies to a query of a graph that calls lead to: one that does not have the dimension is
refused. Any other one gets a sound reply, of no more hits than asked for from a search and of
hits within the radius from a range search. Ids are numbers of slots, however many there are: where
they have 32 bits, `idLimit` nodes are the most that a graph can have. -/
theorem Attained.replies_sound {config : Config} {g : Graph α} (attained : Attained config g)
    (query : List α) :
    (∀ fault, checkDimension config.dim.toNat query.length = .error fault →
      (∀ k ef, g.search query k ef = .error (.vector fault)) ∧
        ∀ radius epsilon, g.rangeSearch query radius epsilon = .error (.vector fault)) ∧
    (query.length = config.dim.toNat →
      (∀ k ef, k ≤ ef → ∃ reply, g.search query k ef = .ok reply ∧
        g.SoundReply (config.metric.prepare query) reply ∧ reply.length ≤ k) ∧
      ∀ radius epsilon : Binary64, radius.lt .zero = false → epsilon.lt .zero = false →
        ∃ reply, g.rangeSearch query radius epsilon = .ok reply ∧
          g.SoundReply (config.metric.prepare query) reply ∧
          ∀ hit ∈ reply, hit.score.le radius = true) := by
  obtain ⟨⟨sturdy, labelled⟩, rfl, usable⟩ := attained.labelled
  constructor
  case left =>
    intro fault wrong
    constructor
    · intro k ef
      rw [search, wrong]
    · intro radius epsilon
      rw [rangeSearch, wrong]
  case right =>
    intro fits
    have accepted := checkDimension_eq_ok_iff.2 ⟨fits, dim_pos usable⟩
    exact ⟨fun k ef wide => labelled.search_sound sturdy accepted wide,
      fun radius epsilon radius_ok epsilon_ok =>
        labelled.rangeSearch_sound sturdy accepted radius_ok epsilon_ok⟩

/-- So they are while the entry point of a search is being deleted. -/
theorem replies_sound_while_deleting :
    Attained planeConfig firstMarked ∧
      (∃ reply, firstMarked.search [.zero, .zero] 1 10 = .ok reply ∧
        firstMarked.SoundReply [.zero, .zero] reply ∧ reply.length ≤ 1) ∧
      ∃ reply, firstMarked.rangeSearch [.zero, .zero] .one .zero = .ok reply ∧
        firstMarked.SoundReply [.zero, .zero] reply ∧ ∀ hit ∈ reply, hit.score.le .one = true := by
  have attained := firstMarked_spec.1.reachable.attained
  obtain ⟨searches, ranges⟩ := (attained.replies_sound [.zero, .zero]).2 rfl
  exact ⟨attained, searches 1 10 (by decide), ranges .one .zero (by decide) (by decide)⟩

end Vicinity.Graph
