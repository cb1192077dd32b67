import Vicinity.Proofs.Graph.Downhill
import Vicinity.Proofs.Graph.Mending

/-!
How far a repair keeps nodes within reach of each other.

A way between two other nodes goes from one to the next by an edge, or comes through the repaired
node, in by one edge and out by another (`Hop`). A repair leaves the edges, and a passage through
the node stays when its source takes the edge across. It is offered to live nodes only, for live
targets only, and pruned like any neighbour. So a live node may come out of reach, and `Bridged`
says exactly when: on every way to it there is a hop that is lost, and for each of these there is
one of four reasons.
-/

namespace Vicinity.Graph

variable {α : Type}

/-- A step between two nodes by an edge, or by two edges through another node. -/
def Hop (g : Graph α) (id layer a b : Nat) : Prop :=
  a ≠ id ∧ b ≠ id ∧ (b ∈ (g.links a layer).out ∨
    a ≠ b ∧ id ∈ (g.links a layer).out ∧ b ∈ (g.links id layer).out)

/-- A way to a node other than the one in between consists of hops, and a way to that one ends with
an edge. -/
theorem Reaches.hops {g : Graph α} {id layer u v : Nat} (start : u ≠ id)
    (way : g.Reaches layer u v) :
    (v ≠ id → Relation.ReflTransGen (g.Hop id layer) u v) ∧
      (v = id → ∃ n, n ≠ id ∧ Relation.ReflTransGen (g.Hop id layer) u n ∧
        id ∈ (g.links n layer).out) := by
  induction way with
  | refl => exact ⟨fun _ => .refl, fun same => absurd same start⟩
  | tail before edge ih =>
      rename_i b c
      by_cases through : b = id
      · obtain ⟨n, other, hops, enters⟩ := ih.2 through
        subst through
        refine ⟨fun beyond => ?_, fun _ => ⟨n, other, hops, enters⟩⟩
        by_cases back : n = c
        · exact back ▸ hops
        · exact hops.tail ⟨other, beyond, .inr ⟨back, enters, edge⟩⟩
      · have hops := ih.1 through
        refine ⟨fun beyond => hops.tail ⟨through, beyond, .inl edge⟩, ?_⟩
        rintro rfl
        exact ⟨b, through, hops, edge⟩

theorem Hop.reaches {g : Graph α} {id layer a b : Nat} (hop : g.Hop id layer a b) :
    g.Reaches layer a b := by
  obtain ⟨_, _, edge | ⟨_, enters, leaves⟩⟩ := hop
  · exact .single edge
  · exact .tail (.single enters) leaves

/-- Nodes other than the one in between reach each other by hops. -/
theorem reaches_iff_hops {g : Graph α} {id layer u v : Nat} (start : u ≠ id) (goal : v ≠ id) :
    g.Reaches layer u v ↔ Relation.ReflTransGen (g.Hop id layer) u v := by
  constructor
  · exact fun way => (way.hops start).1 goal
  · intro hops
    induction hops with
    | refl => exact .refl
    | tail _ hop ih => exact (ih hop.1).trans hop.reaches

variable [Element α]

/-- What a repair makes of the ways on a layer between nodes other than the repaired one. -/
structure Bridged (g : Graph α) (id layer : Nat) (h : Graph α) : Prop where
  /-- One node reached another by hops. -/
  before (u v : Nat) : u ≠ id → v ≠ id →
    (g.Reaches layer u v ↔ Relation.ReflTransGen (g.Hop id layer) u v)
  /-- One node reaches another by those of the hops that are edges now. -/
  after (u v : Nat) : u ≠ id → v ≠ id →
    (h.Reaches layer u v ↔ Relation.ReflTransGen
      (fun a b => g.Hop id layer a b ∧ b ∈ (h.links a layer).out) u v)
  /-- Ways that avoid the repaired node stay. -/
  avoiding (u v : Nat) : Relation.ReflTransGen
    (fun a b => a ≠ id ∧ b ≠ id ∧ b ∈ (g.links a layer).out) u v → h.Reaches layer u v
  /-- Nothing comes within reach that was not. -/
  no_more (u v : Nat) : h.Reaches layer u v → g.Reaches layer u v
  /-- A hop is lost only if it is a passage, and then its ends are not both live, or its source has
  no room left, or a neighbour of the source is nearer to the target than the source is. -/
  lost (a b : Nat) : g.Hop id layer a b → b ∉ (h.links a layer).out →
    (b ∉ (g.links a layer).out ∧ id ∈ (g.links a layer).out ∧ b ∈ (g.links id layer).out) ∧
      (g.isLive a = false ∨ g.isLive b = false ∨
        g.config.maxDegree layer ≤ (h.links a layer).out.length ∨
          ∃ s ∈ (h.links a layer).out,
            (g.distanceBetween a b).le (g.distanceBetween s b) = false)

/-- The edges after a repair are hops before it. -/
theorem Sturdy.hop_of_repair {g h : Graph α} (sturdy : g.Sturdy) {id layer a b : Nat}
    (repaired : g.repair id = .ok h) (edge : b ∈ (h.links a layer).out) : g.Hop id layer a b := by
  have mended := sturdy.mended repaired
  have source : a ≠ id := by
    rintro rfl
    rw [mended.isolated layer] at edge
    cases edge
  have target : b ≠ id := by
    rintro rfl
    exact mended.paired.not_mem_out mended.isolated a layer edge
  rw [out_repair sturdy.paired sturdy.within repaired source] at edge
  refine ⟨source, target, (mem_mendedOut edge).imp_right ?_⟩
  rintro ⟨_, enters, _, leaves, other⟩
  exact ⟨Ne.symm other, enters, leaves⟩

/-- A passage between live nodes is taken, or there is a reason why it is not. -/
theorem mem_mendedOut_or {g : Graph α} {id layer a b : Nat} (live : g.isLive a = true)
    (enters : id ∈ (g.links a layer).out) (leaves : b ∈ (g.links id layer).out) (other : b ≠ a)
    (live_b : g.isLive b = true) :
    b ∈ g.mendedOut id layer a ∨ g.config.maxDegree layer ≤ (g.mendedOut id layer a).length ∨
      ∃ s ∈ g.mendedOut id layer a,
        (g.distanceBetween a b).le (g.distanceBetween s b) = false := by
  simp only [mendedOut, mend, if_pos enters, if_pos live]
  exact mem_refill_or leaves other live_b _

theorem Sturdy.bridged {g h : Graph α} (sturdy : g.Sturdy) {id : Nat}
    (repaired : g.repair id = .ok h) (layer : Nat) : g.Bridged id layer h := by
  constructor
  case before => exact fun u v start goal => reaches_iff_hops start goal
  case after =>
    intro u v _ _
    constructor
    · exact Relation.ReflTransGen.mono
        (fun a b edge => ⟨sturdy.hop_of_repair repaired edge, edge⟩) u v
    · exact Relation.ReflTransGen.mono (fun a b hop => hop.2) u v
  case avoiding =>
    refine fun u v => Relation.ReflTransGen.mono (fun a b edge => ?_) u v
    obtain ⟨source, target, edge⟩ := edge
    rw [out_repair sturdy.paired sturdy.within repaired source]
    exact mem_mendedOut_of_mem edge target
  case no_more =>
    intro u v way
    induction way with
    | refl => exact .refl
    | tail _ edge ih => exact ih.trans (sturdy.hop_of_repair repaired edge).reaches
  case lost =>
    intro a b hop gone
    obtain ⟨source, target, way⟩ := hop
    rw [out_repair sturdy.paired sturdy.within repaired source] at gone ⊢
    have fresh : b ∉ (g.links a layer).out := fun edge => gone (mem_mendedOut_of_mem edge target)
    obtain ⟨other, enters, leaves⟩ := way.resolve_left fresh
    refine ⟨⟨fresh, enters, leaves⟩, ?_⟩
    cases live : g.isLive a with
    | false => exact .inl rfl
    | true =>
        cases live_b : g.isLive b with
        | false => exact .inr (.inl rfl)
        | true =>
            have taken := mem_mendedOut_or live enters leaves (Ne.symm other) live_b
            exact .inr (.inr (taken.resolve_left gone))

/-! ### A crossing that is repaired -/

/-- Insertions look for one neighbour only. -/
def narrowConfig : Config := { dim := 1, metric := .l2, multi := true, efConstruction := 1 }

/-- Points on a line, stored in an order that links each with the nearest one before it. Two are
then deleted: the one in the middle of them all, and one through which another one links to it. -/
def crossingCalls : List (Call Binary64) := [
  .ensureCapacity,
  .insert 1 [⟨0x4032000000000000⟩],  -- 18
  .insert 2 [⟨0x0000000000000000⟩],  -- 0
  .insert 3 [⟨0x4036000000000000⟩],  -- 22
  .insert 4 [⟨0x4038000000000000⟩],  -- 24
  .insert 5 [⟨0x4033000000000000⟩],  -- 19
  .insert 6 [⟨0x4020000000000000⟩],  -- 8
  .markDeleted 0,
  .markDeleted 2]

def crossing : Graph Binary64 :=
  crossingCalls.foldl (fun g call => call.run g) { config := narrowConfig }

/-- Its layer 0. -/
def crossingFloor : Graph Binary64 :=
  let first : Graph Binary64 := { config := narrowConfig, capacity := 1024 }
  ((((((((first.append 1 [⟨0x4032000000000000⟩] 0).attach
    2 [⟨0x0000000000000000⟩] 0).attach
    3 [⟨0x4036000000000000⟩] 0).attach
    4 [⟨0x4038000000000000⟩] 2).attach
    5 [⟨0x4033000000000000⟩] 0).attach
    6 [⟨0x4020000000000000⟩] 1).setMark 0 1).setMark 2 3)

theorem traced_crossing : Traced narrowConfig crossingFloor crossing := by
  have empty : Reachable narrowConfig ({ config := narrowConfig } : Graph Binary64) := .new rfl
  have start : Traced narrowConfig { config := narrowConfig, capacity := 1024 }
      (Call.ensureCapacity.run ({ config := narrowConfig } : Graph Binary64)) :=
    { reachable := empty.call .ensureCapacity (by decide : 0 < idLimit)
      agrees := ⟨rfl, rfl, fun _ => rfl, fun _ => rfl⟩
      filled := ⟨rfl, rfl, fun _ lt => absurd lt (Nat.not_lt_zero _)⟩
      listed := fun _ _ mem => by cases mem
      capacity_eq := rfl
      out_eq := fun _ => rfl }
  have one := start.insert_first rfl 1 [⟨0x4032000000000000⟩] rfl rfl rfl
  have two := one.insert rfl rfl 2 [⟨0x0000000000000000⟩] 0 (by decide +kernel)
  have three := two.insert rfl rfl 3 [⟨0x4036000000000000⟩] 0 (by decide +kernel)
  have four := three.insert rfl rfl 4 [⟨0x4038000000000000⟩] 2 (by decide +kernel)
  have five := four.insert rfl rfl 5 [⟨0x4033000000000000⟩] 0 (by decide +kernel)
  have six := five.insert rfl rfl 6 [⟨0x4020000000000000⟩] 1 (by decide +kernel)
  have marked := six.markDeleted 0 1 (by decide +kernel) (by decide +kernel)
  have done := marked.markDeleted 2 3 (by decide +kernel) (by decide +kernel)
  simp only [crossing, crossingCalls, crossingFloor, List.foldl_cons, List.foldl_nil]
  exact done

theorem isDeleted_crossing : crossing.isDeleted 0 = true := by
  rw [traced_crossing.agrees.isDeleted_eq]
  decide +kernel

/-- What the nodes of the crossing link to once the one in the middle was repaired. -/
theorem out_repair_crossing {h : Graph Binary64} (repaired : crossing.repair 0 = .ok h) {n : Nat}
    (other : n ≠ 0) : (h.links n 0).out = crossingFloor.mendedOut 0 0 n := by
  have traced := traced_crossing
  rw [out_repair traced.sturdy.paired traced.sturdy.within repaired other]
  exact mendedOut_congr traced.agrees traced.out_eq n

theorem passes_repair_crossing {h : Graph Binary64} (repaired : crossing.repair 0 = .ok h)
    {side : List Nat}
    (closed : ∀ n ∈ side, n ≠ 0 ∧ ∀ next ∈ crossingFloor.mendedOut 0 0 n, next ∈ side) :
    h.Passes 0 (· ∈ side) := by
  intro n mem next edge
  obtain ⟨other, within⟩ := closed n mem
  rw [out_repair_crossing repaired other] at edge
  exact within next edge

/-! ### Repairs in reachable graphs -/

/-- A repair in a reachable graph leaves every way on which no hop is lost, and makes no new one. -/
theorem repair_bridges {config : Config} {g : Graph α} (reachable : Reachable config g) {id : Nat}
    (deleted : g.isDeleted id = true) :
    ∃ h, g.repair id = .ok h ∧ ∀ layer, g.Bridged id layer h := by
  obtain ⟨h, repaired⟩ := repair_eq_ok deleted
  exact ⟨h, repaired, fun layer => reachable.wellFormed.1.sturdy.bridged repaired layer⟩

/-- The node on the right is linked with one on the left instead. -/
theorem repair_bridges_crossing :
    Reachable narrowConfig crossing ∧ crossing.isDeleted 0 = true ∧
      ∃ h, crossing.repair 0 = .ok h ∧ (∀ layer, crossing.Bridged 0 layer h) ∧
        crossing.Hop 0 0 4 1 ∧ (h.links 4 0).out = [1] := by
  have traced := traced_crossing
  obtain ⟨h, repaired, bridged⟩ := repair_bridges traced.reachable isDeleted_crossing
  have out_eq : (h.links 4 0).out = [1] := by
    rw [out_repair_crossing repaired (by decide)]
    decide +kernel
  have hop := traced.sturdy.hop_of_repair repaired (out_eq ▸ List.mem_singleton_self 1)
  exact ⟨traced.reachable, isDeleted_crossing, h, repaired, bridged, hop, out_eq⟩

/-- A repair may sever ways between live nodes. One node does not take the edge across, since it has
a neighbour that is nearer to the other one; another node is linked across a deleted node, which is
not offered any edge. -/
theorem repair_severs :
    Reachable narrowConfig crossing ∧ crossing.isDeleted 0 = true ∧
      ∃ h, crossing.repair 0 = .ok h ∧
        (crossing.isLive 1 = true ∧ crossing.isLive 4 = true ∧
          crossing.Reaches 0 1 4 ∧ ¬h.Reaches 0 1 4) ∧
        (crossing.isLive 3 = true ∧ crossing.isLive 4 = true ∧
          crossing.Reaches 0 3 4 ∧ ¬h.Reaches 0 3 4) := by
  have traced := traced_crossing
  have live : ∀ n ∈ [1, 3, 4], crossing.isLive n = true := by
    intro n mem
    rw [traced.agrees.isLive_eq]
    revert n mem
    decide +kernel
  have edge : ∀ a b, b ∈ (crossingFloor.links a 0).out → b ∈ (crossing.links a 0).out := by
    intro a b edge
    rwa [traced.out_eq]
  have from_middle : crossing.Reaches 0 0 4 := .single (edge 0 4 (by decide +kernel))
  have from_deleted : crossing.Reaches 0 2 4 := .head (edge 2 0 (by decide +kernel)) from_middle
  obtain ⟨h, repaired⟩ := repair_eq_ok isDeleted_crossing
  refine ⟨traced.reachable, isDeleted_crossing, h, repaired, ⟨live 1 (by decide),
    live 4 (by decide), .head (edge 1 0 (by decide +kernel)) from_middle, fun way => ?_⟩,
    live 3 (by decide), live 4 (by decide), .head (edge 3 2 (by decide +kernel)) from_deleted,
    fun way => ?_⟩
  · have left : h.Passes 0 (· ∈ [1, 5]) := passes_repair_crossing repaired (by decide +kernel)
    exact absurd (way.keeps left (by decide)) (by decide)
  · have right : h.Passes 0 (· ∈ [2, 3]) := passes_repair_crossing repaired (by decide +kernel)
    exact absurd (way.keeps right (by decide)) (by decide)

end Vicinity.Graph
