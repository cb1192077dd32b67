import Vicinity.Proofs.Exhaustive
import Vicinity.Proofs.Graph.Holdings
import Vicinity.Proofs.Graph.Ranking
import Vicinity.Proofs.Graph.Refusal
import Vicinity.Proofs.Graph.Small

/-!
Searches in small graphs are exact.

Where live nodes are linked with each other, as they are in a mesh, a beam that is as wide as the
number of hits asked for finds the nearest of all live vectors (`Vantage.leading`): with room to
spare it finds every live node within reach, which are all of them, and without room no live node is
nearer than one that is found, since it is linked from there. So the search of a small graph finds
the scores that an exhaustive one finds, whatever deletions are under way (`Within.search_exact`).
-/

namespace Vicinity.Graph

variable {α : Type} [Element α]

/-! ### Live nodes as hits -/

/-- A node as a hit of a query. -/
def hitOf (g : Graph α) (query : List α) (id : Nat) : Hit :=
  ⟨(g.label? id).getD 0, g.distanceTo query id⟩

/-- The hits before several of one label are left out. -/
def hitsOf (g : Graph α) (found : List Candidate) : List Hit :=
  found.filterMap fun c => (g.label? c.id).map fun label => ⟨label, c.distance⟩

theorem hits_holdings {g : Graph α} (filled : g.Filled) (query : List α) :
    g.holdings.hits g.config.metric query = g.liveIds.map (g.hitOf query) := by
  rw [Holdings.hits, holdings, List.map_filterMap, liveIds, ← List.filterMap_eq_map,
    List.filterMap_filter]
  apply List.filterMap_congr
  intro id _
  cases live : g.isLive id with
  | false => rw [held?_eq_none live, if_neg Bool.noConfusion, Option.map_none]
  | true =>
      obtain ⟨label, vector, own, there, held⟩ := filled.exists_held live
      have hit : g.hitOf query id = ⟨label, g.config.metric.distance query vector⟩ := by
        rw [hitOf, own, distanceTo, there]
        rfl
      rw [held, if_pos rfl, Option.map_some, Function.comp_apply, hit]

/-- No distance to a live node is NaN when none to a vector held is. -/
theorem comparable_of_holdings {g : Graph α} (filled : g.Filled) {query : List α}
    (comparable : g.holdings.Comparable g.config.metric query) : g.Comparable query := by
  intro id live
  apply comparable.numeric (g.hitOf query id)
  rw [hits_holdings filled]
  exact List.mem_map_of_mem (mem_liveIds.2 live)

omit [Element α] in
/-- With one vector a label every hit counts. -/
theorem toHits_single {g : Graph α} (single : g.config.multi = false) (found : List Candidate) :
    g.toHits found = g.hitsOf found := by
  rw [toHits, single]
  rfl

omit [Element α] in
/-- With several vectors a label only its first hit does. -/
theorem toHits_multi {g : Graph α} (multi : g.config.multi = true) (found : List Candidate) :
    g.toHits found = firstPerLabel [] (g.hitsOf found) := by
  rw [toHits, multi]
  rfl

/-- Candidates that are live nodes at their distances are hits one by one. -/
theorem hitsOf_eq {g : Graph α} {query : List α} {found : List Candidate}
    (live : ∀ c ∈ found, g.isLive c.id = true)
    (at_distance : ∀ c ∈ found, c.distance = g.distanceTo query c.id) :
    g.hitsOf found = (found.map (·.id)).map (g.hitOf query) := by
  rw [hitsOf, List.map_map, ← List.filterMap_eq_map]
  apply List.filterMap_congr
  intro c among
  obtain ⟨node, at_id, _⟩ := isLive_eq_true_iff.1 (live c among)
  simp [label?, at_id, hitOf, at_distance c among]

/-! ### Searching among linked nodes -/

/-- The items of a list outside another one that comes from it are what is left of it. -/
theorem perm_append_filter_not_mem {β : Type} [DecidableEq β] {as bs : List β} (nodup : as.Nodup)
    (sub : ∀ a ∈ as, a ∈ bs) (nodup' : bs.Nodup) :
    (as ++ bs.filter fun b => b ∉ as).Perm bs := by
  refine (List.perm_ext_iff_of_nodup ?_ nodup').2 fun x => ?_
  · refine List.nodup_append.2 ⟨nodup, nodup'.filter _, ?_⟩
    rintro a in_as _ outside rfl
    exact of_decide_eq_true (List.mem_filter.1 outside).2 in_as
  · rw [List.mem_append, List.mem_filter, decide_eq_true_eq]
    constructor
    · rintro (in_as | ⟨in_bs, _⟩)
      · exact sub x in_as
      · exact in_bs
    · intro in_bs
      exact (Classical.em (x ∈ as)).imp_right fun absent => ⟨in_bs, absent⟩

/-- Edges of layer 0 lead from a place to every live node, and live nodes are linked with each
other there. -/
structure Vantage (g : Graph α) (query : List α) (place : Candidate) : Prop where
  paired : g.Paired
  filled : g.Filled
  inside : place.id < g.nodeCount
  distance_eq : place.distance = g.distanceTo query place.id
  reaches : ∀ id, g.isLive id = true → g.Reaches 0 place.id id
  together : ∀ a b, g.isLive a = true → g.isLive b = true → a ≠ b → b ∈ (g.links a 0).out

namespace Vantage

variable {g : Graph α} {query : List α} {place : Candidate} {ef : Nat}

theorem isLive_of_found (vantage : g.Vantage query place) {c : Candidate}
    (found : c ∈ g.searchLayer query place ef 0) : g.isLive c.id = true := by
  have passes : g.Passes 0 (· < g.nodeCount) := fun _ _ _ edge => vantage.paired.target_lt edge
  obtain ⟨inside, kept⟩ := searchLayer_keeps passes query ef vantage.inside found
  exact isLive_of_not_isDeleted inside kept

/-- A live node that is not found is no nearer than any that is. -/
theorem le_of_not_found (vantage : g.Vantage query place) (comparable : g.Comparable query)
    (positive : 0 < ef) {c : Candidate} (found : c ∈ g.searchLayer query place ef 0) {id : Nat}
    (live : g.isLive id = true) (missed : id ∉ (g.searchLayer query place ef 0).map (·.id)) :
    c.distance.le (g.distanceTo query id) = true := by
  have listed : c.id ∈ (g.searchLayer query place ef 0).map (·.id) := List.mem_map_of_mem found
  have other : c.id ≠ id := by
    rintro rfl
    exact missed listed
  have edge := vantage.together c.id id (vantage.isLive_of_found found) live other
  have nearest := searchLayer_nearest vantage.paired comparable vantage.inside positive
    vantage.distance_eq 0
  obtain ⟨_, within⟩ :=
    (nearest c.id listed id edge (not_isDeleted_of_isLive live)).resolve_left missed
  exact within c found

/-- With room to spare every live node is found. -/
theorem found_of_room (vantage : g.Vantage query place) (positive : 0 < ef)
    (room : (g.searchLayer query place ef 0).length < ef) {id : Nat}
    (live : g.isLive id = true) : id ∈ (g.searchLayer query place ef 0).map (·.id) := by
  obtain ⟨_, _, complete⟩ :=
    searchLayer_complete vantage.paired vantage.inside positive query 0
  exact complete room id (vantage.reaches id live) (not_isDeleted_of_isLive live)

/-- A beam finds the nearest of all vectors that the graph holds. -/
theorem leading (vantage : g.Vantage query place) (comparable : g.Comparable query)
    (positive : 0 < ef) :
    Leading Hit.key ef (g.holdings.hits g.config.metric query)
      (g.hitsOf (g.searchLayer query place ef 0)) := by
  have inside := vantage.inside
  obtain ⟨nodup, narrow, _⟩ := searchLayer_complete vantage.paired inside positive query 0
  have at_distance : ∀ c ∈ g.searchLayer query place ef 0, c.distance = g.distanceTo query c.id :=
    fun c found => distance_searchLayer vantage.paired inside positive vantage.distance_eq found
  have live : ∀ c ∈ g.searchLayer query place ef 0, g.isLive c.id = true :=
    fun c found => vantage.isLive_of_found found
  let ids := (g.searchLayer query place ef 0).map (·.id)
  let missed := g.liveIds.filter fun id => id ∉ ids
  have all : (ids ++ missed).Perm g.liveIds := by
    refine perm_append_filter_not_mem nodup (fun id found => ?_) (nodup_liveIds g)
    obtain ⟨c, among, rfl⟩ := List.mem_map.1 found
    exact mem_liveIds.2 (live c among)
  rw [hitsOf_eq live at_distance, hits_holdings vantage.filled]
  constructor
  case ordered =>
    rw [List.map_map]
    refine List.pairwise_map.2 ((queued_searchLayer ..).imp_of_mem fun {a b} in_a in_b le => ?_)
    have key_le := Candidate.key_le_of_rank_le le
    rwa [at_distance a in_a, at_distance b in_b] at key_le
  case split =>
    refine ⟨missed.map (g.hitOf query), ?_, fun a here b there => ?_⟩
    · rw [← List.map_append]
      exact all.map _
    · obtain ⟨u, found, rfl⟩ := List.mem_map.1 here
      obtain ⟨c, among, rfl⟩ := List.mem_map.1 found
      obtain ⟨v, in_missed, rfl⟩ := List.mem_map.1 there
      obtain ⟨live_v, not_found⟩ := List.mem_filter.1 in_missed
      have within := vantage.le_of_not_found comparable positive among
        (mem_liveIds.1 live_v) (of_decide_eq_true not_found)
      rw [at_distance c among] at within
      obtain ⟨number, number'⟩ := Binary64.numbers_of_le within
      exact (Binary64.le_iff number number').1 within
  case length_eq =>
    have length := all.length_eq
    rw [List.length_append] at length
    have found : ids.length = (g.searchLayer query place ef 0).length := List.length_map _
    rw [List.length_map, List.length_map, List.length_map, ← found]
    rcases Nat.lt_or_ge ids.length ef with room | full
    · have none : missed = [] := by
        refine List.filter_eq_nil_iff.2 fun id live_id missing => of_decide_eq_true missing ?_
        exact vantage.found_of_room positive (found ▸ room) (mem_liveIds.1 live_id)
      rw [none, List.length_nil] at length
      omega
    · omega

end Vantage

/-! ### Searching a mesh -/

namespace SmallMesh

variable {config : Config} {g : Graph α} {query : List α} {place : Candidate} {ef : Nat}

theorem vantage (mesh : SmallMesh config g) (arrives : g.entryOn? query 0 = some place) :
    g.Vantage query place where
  paired := mesh.wf.linked.toPaired
  filled := mesh.wf.stocked.toFilled
  inside := mesh.wf.sturdy.lt_nodeCount_of_entryOn? arrives
  distance_eq := distance_entryOn? arrives
  reaches _ live := mesh.meshed.reaches mesh.wf.rooted arrives live
  together := mesh.meshed.together

/-- A search lists the nearest vectors, whichever nodes are on the way to them. -/
theorem search_leading (mesh : SmallMesh config g) (single : config.multi = false)
    (fits : checkDimension config.dim.toNat query.length = .ok ())
    (comparable : g.holdings.Comparable config.metric (config.metric.prepare query)) {k : Nat}
    (enough : k ≤ ef) :
    ∃ reply, g.search query k ef = .ok reply ∧
      Leading Hit.key k (g.holdings.hits config.metric (config.metric.prepare query)) reply := by
  obtain rfl := mesh.config_eq
  cases at_entry : g.entryPoint with
  | none =>
      refine ⟨[], search_of_no_entry fits enough at_entry, ?_⟩
      rw [hits_holdings mesh.wf.stocked.toFilled, mesh.wf.rooted.liveIds_eq_nil at_entry]
      exact .nil k
  | some entry =>
      obtain ⟨place, arrives⟩ := exists_entryOn? at_entry (g.config.metric.prepare query) 0
      rcases Nat.eq_zero_or_pos k with rfl | asked
      · refine ⟨[], ?_, .zero _⟩
        rw [search, fits]
        rfl
      · have leading := (mesh.vantage arrives).leading 
          (comparable_of_holdings mesh.wf.stocked.toFilled comparable)
          (Nat.lt_of_lt_of_le asked enough)
        rw [← toHits_single single] at leading
        exact ⟨_, search_of_arrives fits asked enough arrives, leading.take enough⟩

end SmallMesh

/-- The search of a small graph agrees with an exhaustive search of the same vectors. -/
theorem Within.search_exact {config : Config} (single : config.multi = false)
    (wide : config.IsWide) {g : Graph α} (within : Within config config.meshLimit g) {f : Flat α}
    (exhaustive_single : f.multi = false) (same_dim : f.dim = config.dim.toNat)
    (same_metric : f.metric = config.metric) (same_vectors : f.holdings.Perm g.holdings)
    {query : List α} (fits : query.length = config.dim.toNat)
    (comparable : g.holdings.Comparable config.metric (config.metric.prepare query)) {k ef : Nat}
    (enough : k ≤ ef) :
    ∃ found expected, g.search query k ef = .ok found ∧ f.search query k = .ok expected ∧
      found.length = min k g.size ∧ Reply.SameScores found expected ∧
      (g.holdings.Apart config.metric (config.metric.prepare query) → found = expected) := by
  have mesh := within.smallMesh wide
  have nonzero : config.dim.toNat ≠ 0 := mesh.config_eq ▸ dim_pos mesh.wf.usable
  have dimension : checkDimension config.dim.toNat query.length = .ok () :=
    checkDimension_eq_ok_iff.2 ⟨fits, nonzero⟩
  obtain ⟨found, searched, leading⟩ := mesh.search_leading single dimension comparable enough
  have comparable' := comparable.perm same_vectors
  rw [← same_metric] at comparable'
  obtain ⟨expected, scanned, leading'⟩ :=
    Flat.search_leading exhaustive_single (same_dim ▸ dimension) comparable' k
  rw [same_metric] at leading'
  have leading' := leading'.perm (same_vectors.map _)
  refine ⟨found, expected, searched, scanned, ?_, ?_, fun apart => ?_⟩
  · rw [leading.length_eq, Holdings.length_hits, length_holdings mesh.wf.stocked.toFilled]
  · exact Reply.sameScores_of_leading comparable.numeric leading leading'
  · exact leading.eq_of_injOn leading' (comparable.eq_of_key_eq apart)

/-- Of the two vectors one is left. -/
theorem holdings_firstMarked : firstMarked.holdings = [(8, [.one, .zero])] := by
  have pair := isPair_insert (7, [.zero, .one]) (8, [.one, .zero]) (by decide) rfl rfl
  have marks := (pair.marked Nat.two_pos).2
  have labelled := pair.within.reachable.wellFormed.1.labelled
  have own := (labelled.mem_idsOf 8 1).1 (pair.idsOf_second ▸ List.mem_singleton_self 1)
  have first : firstMarked.held? 0 = none := by rw [firstMarked, marks.held?_eq, if_pos rfl]
  have second : firstMarked.held? 1 = some (8, [.one, .zero]) := by
    rw [firstMarked, marks.held?_eq, if_neg Nat.one_ne_zero]
    exact held?_eq_some_iff.2 ⟨own.1, own.2, pair.vector?_second⟩
  have two : List.range 2 = [0, 1] := rfl
  rw [holdings, firstMarked_spec.2.1, two, List.filterMap_cons, first, List.filterMap_cons, second]
  rfl

/-- The search of that graph agrees with an exhaustive one of the vector that is left. -/
theorem search_exact_while_deleting :
    let left : Flat Binary64 := (Flat.new 2 .l2 false 1).push 8 [.one, .zero]
    Within planeConfig planeConfig.meshLimit firstMarked ∧
      ∃ found expected, firstMarked.search [.zero, .zero] 1 10 = .ok found ∧
        left.search [.zero, .zero] 1 = .ok expected ∧ found.length = min 1 firstMarked.size ∧
        Reply.SameScores found expected ∧
        (firstMarked.holdings.Apart .l2 [.zero, .zero] → found = expected) := by
  have within := firstMarked_spec.1
  have held := holdings_firstMarked
  have comparable : firstMarked.holdings.Comparable .l2 [Binary64.zero, .zero] := by
    rw [held, Holdings.Comparable]
    decide
  refine ⟨within, ?_⟩
  exact within.search_exact rfl (by decide : 2 * planeConfig.m.toNat ≤ _) rfl rfl rfl
    (held ▸ .refl _) rfl comparable (by decide)

end Vicinity.Graph
