import Vicinity.Proofs.Graph.Beam
import Vicinity.Proofs.Graph.Calls
import Vicinity.Proofs.Image.Acceptance

/-!
When a search finds something.

Deleted nodes stay ways through and are not reported. So the descent through the upper layers may
end at a deleted node from which no edge on layer 0 leads to a live one, and then nothing is found
although there are live nodes (`search_misses`). That is the only way to find nothing: it depends
neither on the number of results asked for nor on the width of the beam (`Obtained.search_finds`).
It cannot happen once the deleted nodes have been repaired, nor in a graph of one layer.

Nothing is asked of the graph but that it was obtained by calls from an empty one or one that was
loaded, and nothing of the calls (`Obtained`).
-/

namespace Vicinity.Graph

variable {α : Type}

/-! ### Hits -/

theorem toHits_nil (g : Graph α) : g.toHits [] = [] := by
  unfold toHits
  split <;> rfl

/-- Candidates that are nodes of the graph make hits. -/
theorem toHits_ne_nil {g : Graph α} {found : List Candidate}
    (inside : ∀ c ∈ found, c.id < g.nodeCount) (nonempty : found ≠ []) : g.toHits found ≠ [] := by
  cases found with
  | nil => exact absurd rfl nonempty
  | cons c found =>
      obtain ⟨label, named⟩ : ∃ label, g.label? c.id = some label := by
        rw [label?, Array.getElem?_eq_getElem (inside c List.mem_cons_self)]
        exact ⟨_, rfl⟩
      unfold toHits
      rw [List.filterMap_cons, named]
      dsimp only [Option.map_some]
      split
      · simp [firstPerLabel]
      · exact List.cons_ne_nil _ _

variable [Element α]

/-! ### Where the descent ends -/

/-- The descent ends at a live node when it can only pass through live ones. -/
theorem Sturdy.isLive_entryOn? {g : Graph α} (sturdy : g.Sturdy)
    (repaired : ∀ id, g.isDeleted id = true → g.Isolated id) {query : List α} {layer : Nat}
    {place : Candidate} (arrives : g.entryOn? query layer = some place) :
    g.isLive place.id = true := by
  obtain ⟨entry, at_entry, keeps⟩ := entryOn?_keeps arrives
  refine keeps (fun id => g.isLive id = true) (fun l id _ next edge => ?_)
    (sturdy.anchored.live entry at_entry)
  apply isLive_of_not_isDeleted (sturdy.paired.target_lt edge)
  rw [Bool.eq_false_iff]
  exact fun deleted => sturdy.paired.not_mem_out (repaired next deleted) id l edge

/-- On the highest layer and above it there is no descent. -/
theorem Sturdy.isLive_entryOn?_of_le {g : Graph α} (sturdy : g.Sturdy) {query : List α}
    {layer : Nat} (high : g.maxLevel ≤ layer) {place : Candidate}
    (arrives : g.entryOn? query layer = some place) : g.isLive place.id = true := by
  rw [entryOn?_of_le query high] at arrives
  obtain ⟨entry, at_entry, rfl⟩ := Option.map_eq_some_iff.1 arrives
  exact sturdy.anchored.live entry at_entry

/-! ### Searches -/

omit [Element α] in
/-- With a live node there is a start of searches. -/
theorem Sturdy.exists_entryPoint {g : Graph α} (sturdy : g.Sturdy)
    (some_live : ∃ id, g.isLive id = true) : ∃ entry, g.entryPoint = some entry := by
  obtain ⟨id, live⟩ := some_live
  refine Option.ne_none_iff_exists'.1 fun none => ?_
  rw [sturdy.anchored.absent none] at live
  cases live

/-- Something is reported exactly when a live node is reached from where the descent ended. -/
theorem Sturdy.found_iff {g : Graph α} (sturdy : g.Sturdy) {query : List α} {place : Candidate}
    (arrives : g.entryOn? query 0 = some place) {k ef : Nat} (asked : 0 < k) (wide : k ≤ ef) :
    (g.toHits (g.searchLayer query place ef 0)).take k ≠ [] ↔
      ∃ id, g.Reaches 0 place.id id ∧ g.isLive id = true := by
  have inside := sturdy.lt_nodeCount_of_entryOn? arrives
  have positive : 0 < ef := Nat.lt_of_lt_of_le asked wide
  rw [← searchLayer_ne_nil_iff sturdy.paired inside positive query 0, Ne, List.take_eq_nil_iff,
    not_or, and_iff_right (Nat.ne_of_gt asked)]
  constructor
  · intro hits none
    rw [none, toHits_nil] at hits
    exact hits rfl
  · apply toHits_ne_nil
    intro c found
    have passes : g.Passes 0 (· < g.nodeCount) := fun _ _ _ edge => sturdy.paired.target_lt edge
    exact (searchLayer_keeps passes query ef inside found).1

/-- The graphs that any calls lead to from an empty one or from one that was loaded. -/
inductive Obtained : Graph α → Prop where
  | new {config : Config} {g : Graph α} : Graph.new config = .ok g → Obtained g
  | loaded {bytes : List UInt8} {g : Graph α} : Image.load bytes = .ok g → Obtained g
  | call {g : Graph α} (call : Call α) : Obtained g → Obtained (call.run g)

theorem Obtained.sturdy {g : Graph α} (obtained : Obtained g) :
    g.Sturdy ∧ g.config.fault? = none := by
  induction obtained with
  | new made =>
      have wf := (wellFormed_new made).1
      exact ⟨wf.sturdy, wf.usable⟩
  | loaded loaded =>
      obtain ⟨usable, passed⟩ := Image.checked_of_load loaded
      exact ⟨(integrity_eq_ok_iff.1 passed).sturdy, usable⟩
  | call call _ ih =>
      obtain ⟨sturdy, config⟩ := ih.1.call call
      exact ⟨sturdy, config ▸ ih.2⟩

/-- A search of a graph with a live node finds something exactly when edges of layer 0 lead to a
live node from where the descent ended; so it does when that node is live, which it is once every
deleted node was repaired, and in a graph of one layer. -/
theorem Obtained.search_finds {g : Graph α} (obtained : Obtained g)
    (some_live : ∃ id, g.isLive id = true) {query : List α}
    (fits : query.length = g.config.dim.toNat) {k ef : Nat} (asked : 0 < k) (wide : k ≤ ef) :
    ∃ place reply, g.entryOn? (g.config.metric.prepare query) 0 = some place ∧
      g.search query k ef = .ok reply ∧
      (reply ≠ [] ↔ ∃ id, g.Reaches 0 place.id id ∧ g.isLive id = true) ∧
      (g.isLive place.id = true → reply ≠ []) ∧
      ((∀ id, g.isDeleted id = true → g.Isolated id) → reply ≠ []) ∧
      (g.maxLevel = 0 → reply ≠ []) := by
  obtain ⟨sturdy, usable⟩ := obtained.sturdy
  obtain ⟨entry, at_entry⟩ := sturdy.exists_entryPoint some_live
  have accepted : checkDimension g.config.dim.toNat query.length = .ok () :=
    checkDimension_eq_ok_iff.2 ⟨fits, dim_pos usable⟩
  obtain ⟨place, arrives⟩ := exists_entryOn? at_entry (g.config.metric.prepare query) 0
  have found_iff := sturdy.found_iff arrives asked wide
  have of_live := fun live : g.isLive place.id = true => found_iff.2 ⟨place.id, .refl, live⟩
  exact ⟨place, _, arrives, search_of_arrives accepted asked wide arrives, found_iff, of_live,
    fun repaired => of_live (sturdy.isLive_entryOn? repaired arrives),
    fun flat => of_live (sturdy.isLive_entryOn?_of_le (Nat.le_of_eq flat) arrives)⟩

/-! ### A detour -/

/-- A live node and a deleted one that is its neighbour on layer 1 only. -/
def detour : Graph Binary64 where
  config := { dim := 1, metric := .l2 }
  nodes := #[
    { label := 1, generation := 0, layers := [{}, ⟨[1], []⟩] },
    { label := 2, deleted := true, generation := 1, layers := [{}, ⟨[], [0]⟩] }]
  vectors := #[.zero, .one]
  markedCount := 1
  labels := LabelMap.empty.insert 1 [0]
  entryPoint := some 0
  maxLevel := 1
  capacity := 1024
  nextGeneration := 2

theorem load_detour : Image.load (Image.write detour) = .ok detour := by decide +kernel

/-- A search that is nearer to the deleted node ends there. -/
theorem entryOn?_detour : detour.entryOn? [.one] 0 = some ⟨.zero, 1⟩ := by
  have start : detour.entryOn? [.one] 0 =
      some (detour.descend [.one] 1 ⟨detour.distanceTo [.one] 0, 0⟩) := rfl
  have nearer : (detour.links 0 1).out.foldl (detour.nearer [.one])
      ⟨detour.distanceTo [.one] 0, 0⟩ = ⟨.zero, 1⟩ := by decide +kernel
  have closer : Binary64.zero.lt (detour.distanceTo [.one] 0) = true := by decide +kernel
  rw [start, descend, nearer]
  dsimp only
  rw [if_pos closer, descend_of_no_out rfl]

/-- A search whose descent ends at the deleted node does not find the live one, since nothing leads
away from there on layer 0. -/
theorem search_misses :
    Obtained detour ∧ detour.isLive 0 = true ∧ detour.search [.one] 1 1 = .ok [] := by
  refine ⟨.loaded load_detour, by decide, ?_⟩
  have nothing : detour.searchLayer [.one] ⟨.zero, 1⟩ 1 0 = [] := by
    rw [searchLayer_of_no_out rfl]
    rfl
  have accepted : checkDimension detour.config.dim.toNat [Binary64.one].length = .ok () := rfl
  have prepared : detour.config.metric.prepare [Binary64.one] = [.one] := rfl
  simp only [search, accepted, prepared, entryOn?_detour, nothing, toHits_nil]
  rfl

/-- Once the deleted node is repaired the same search finds the live one. -/
theorem search_finds_after_repair :
    let repaired := (Call.repair 1).run detour
    Obtained repaired ∧ ∃ reply, repaired.search [.one] 1 1 = .ok reply ∧ reply ≠ [] := by
  have obtained := (Obtained.loaded load_detour).call (.repair 1)
  have live : ((Call.repair 1).run detour).isLive 0 = true := by decide +kernel
  have fits : [Binary64.one].length = ((Call.repair 1).run detour).config.dim.toNat := by
    decide +kernel
  obtain ⟨_, reply, _, answered, _, _, of_repaired, _⟩ :=
    obtained.search_finds ⟨0, live⟩ fits Nat.one_pos (Nat.le_refl 1)
  refine ⟨obtained, reply, answered, of_repaired fun id deleted => ?_⟩
  have lt := lt_nodeCount_of_isDeleted deleted
  have count : ((Call.repair 1).run detour).nodeCount = 2 := by decide +kernel
  have ne : id ≠ 0 := by
    rintro rfl
    rw [not_isDeleted_of_isLive live] at deleted
    cases deleted
  have second : id = 1 := by omega
  subst second
  have alone : ((Call.repair 1).run detour).isIsolated 1 = true := by decide +kernel
  exact (isIsolated_iff.1 alone).2

end Vicinity.Graph
