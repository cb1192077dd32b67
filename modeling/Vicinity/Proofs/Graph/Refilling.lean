import Vicinity.Proofs.Graph.Repair

/-!
Which replacements a node takes.

Insertions and repairs choose neighbours by the same rule (`choose`): the nearest candidate first,
while there is room, unless a neighbour chosen before is nearer to it. A node with some neighbours
that is offered replacements is left with what the rule makes of both (`refill`, `out_reconnect`).
What it refused once it refuses again, since it has no fewer neighbours by then (`refill_refill`).
All this depends on vectors and deletions, not on the edges of other nodes (`Agrees`).
The last branch of `reconnect`, for a node that was left without neighbours, is never the one that
helps: the first candidate is taken as long as nothing else is there.
-/

namespace Vicinity.Graph

variable {α : Type} [Element α]

/-! ### Distances -/

/-- Two graphs with the same parameters and the same vectors in the same slots, of which the same
are deleted. Their edges may differ. -/
structure Agrees (g h : Graph α) : Prop where
  config_eq : h.config = g.config
  nodeCount_eq : h.nodeCount = g.nodeCount
  vector?_eq (id : Nat) : h.vector? id = g.vector? id
  isDeleted_eq (id : Nat) : h.isDeleted id = g.isDeleted id

omit [Element α] in
theorem Rewired.agrees {g h : Graph α} (rewired : Rewired g h) : Agrees g h :=
  ⟨rewired.config_eq, rewired.nodeCount_eq, rewired.vector?_eq, rewired.isDeleted_eq⟩

namespace Agrees

variable {g h : Graph α} (agrees : Agrees g h)

include agrees

omit [Element α] in
theorem isLive_eq (id : Nat) : h.isLive id = g.isLive id := by
  rw [isLive_eq_decide, agrees.nodeCount_eq, agrees.isDeleted_eq, isLive_eq_decide]

theorem distanceTo_eq (query : List α) (id : Nat) :
    h.distanceTo query id = g.distanceTo query id := by
  rw [distanceTo, agrees.vector?_eq, agrees.config_eq, distanceTo]

theorem distanceBetween_eq (a b : Nat) : h.distanceBetween a b = g.distanceBetween a b := by
  simp only [distanceBetween, agrees.vector?_eq, agrees.distanceTo_eq]

theorem choose_eq : h.choose = g.choose := by
  funext cap chosen c
  simp only [choose, agrees.distanceBetween_eq]

theorem candidatesFor_eq (id : Nat) (existing replacements : List Nat) :
    h.candidatesFor id existing replacements = g.candidatesFor id existing replacements := by
  simp only [candidatesFor, agrees.isLive_eq, agrees.distanceBetween_eq]

theorem farther_eq : h.farther = g.farther := by
  funext id worst n
  simp only [farther, agrees.distanceBetween_eq]

end Agrees

/-! ### Choosing -/

section Choosing

variable {g : Graph α} {cap : Nat}

/-- A candidate is taken or it is not. -/
theorem choose_cases (g : Graph α) (cap : Nat) (chosen : List Nat) (c : Candidate) :
    g.choose cap chosen c = chosen ++ [c.id] ∨ g.choose cap chosen c = chosen := by
  unfold choose
  split
  · exact .inl rfl
  · exact .inr rfl

theorem prefix_choose (g : Graph α) (cap : Nat) (chosen : List Nat) (c : Candidate) :
    chosen <+: g.choose cap chosen c := by
  rcases g.choose_cases cap chosen c with taken | refused
  · exact ⟨[c.id], taken.symm⟩
  · exact ⟨[], by rw [List.append_nil, refused]⟩

/-- Choosing only adds to what was chosen before. -/
theorem prefix_foldl_choose (g : Graph α) (cap : Nat) (cs : List Candidate) (chosen : List Nat) :
    chosen <+: cs.foldl (g.choose cap) chosen := by
  induction cs generalizing chosen with
  | nil => exact List.prefix_refl _
  | cons c cs ih => exact (prefix_choose ..).trans (ih _)

theorem mem_foldl_choose {cs : List Candidate} {chosen : List Nat} {x : Nat}
    (mem : x ∈ cs.foldl (g.choose cap) chosen) : x ∈ chosen ∨ ∃ c ∈ cs, c.id = x := by
  induction cs generalizing chosen with
  | nil => exact .inl mem
  | cons c cs ih =>
      rcases ih mem with early | ⟨d, later, rfl⟩
      · rcases g.choose_cases cap chosen c with taken | refused
        · rw [taken, List.mem_append, List.mem_singleton] at early
          exact early.imp_right fun same => ⟨c, List.mem_cons_self, same.symm⟩
        · rw [refused] at early
          exact .inl early
      · exact .inr ⟨d, List.mem_cons_of_mem _ later, rfl⟩

/-- What is refused for lack of room, or for a neighbour that is nearer, is refused again when there
is less room and more neighbours. -/
theorem choose_eq_self_of_prefix {early late : List Nat} {c : Candidate} (before : early <+: late)
    (refused : g.choose cap early c = early) : g.choose cap late c = late := by
  unfold choose at refused ⊢
  split at refused
  · simp at refused
  case isFalse no =>
    apply if_neg
    intro yes
    apply no
    simp only [Bool.and_eq_true, decide_eq_true_eq, List.all_eq_true] at yes ⊢
    exact ⟨Nat.lt_of_le_of_lt before.length_le yes.1, fun s mem => yes.2 s (before.subset mem)⟩

/-- Once all candidates had their turn, each was taken or would be refused again. -/
theorem foldl_choose_settles (g : Graph α) (cap : Nat) (cs : List Candidate) (chosen : List Nat) :
    ∀ c ∈ cs, c.id ∈ cs.foldl (g.choose cap) chosen ∨
      g.choose cap (cs.foldl (g.choose cap) chosen) c = cs.foldl (g.choose cap) chosen := by
  induction cs generalizing chosen with
  | nil => exact fun c mem => absurd mem List.not_mem_nil
  | cons c cs ih =>
      intro d mem
      rcases List.mem_cons.1 mem with rfl | later
      · have rest := prefix_foldl_choose g cap cs (g.choose cap chosen d)
        rcases g.choose_cases cap chosen d with taken | refused
        · rw [taken] at rest
          left
          rw [List.foldl_cons, taken]
          exact rest.subset (List.mem_append_right _ (List.mem_singleton_self _))
        · right
          have early := prefix_foldl_choose g cap (d :: cs) chosen
          exact choose_eq_self_of_prefix early refused
      · exact ih _ d later

/-- When every candidate is refused nothing changes. -/
theorem foldl_choose_of_refused {cs : List Candidate} {chosen : List Nat}
    (refused : ∀ c ∈ cs, g.choose cap chosen c = chosen) :
    cs.foldl (g.choose cap) chosen = chosen := by
  induction cs with
  | nil => rfl
  | cons c cs ih =>
      obtain ⟨first, rest⟩ := List.forall_mem_cons.1 refused
      rw [List.foldl_cons, first]
      exact ih rest

/-- With room for one at least, some candidate of several is taken. -/
theorem foldl_choose_ne_nil (room : 0 < cap) {cs : List Candidate} (some_candidate : cs ≠ [])
    (chosen : List Nat) : cs.foldl (g.choose cap) chosen ≠ [] := by
  intro none
  obtain ⟨c, rest, rfl⟩ := List.exists_cons_of_ne_nil some_candidate
  rcases foldl_choose_settles g cap (c :: rest) chosen c List.mem_cons_self with taken | refused
  · rw [none] at taken
    cases taken
  · rw [none] at refused
    simp [choose, room] at refused

/-- Some neighbour is chosen when there is room for one and a candidate. -/
theorem chooseNeighbors_ne_nil_iff {cap : Nat} {cs : List Candidate} :
    g.chooseNeighbors cap cs ≠ [] ↔ cap ≠ 0 ∧ cs ≠ [] := by
  constructor
  · intro some_chosen
    obtain ⟨among, few⟩ := chooseNeighbors_spec g cap cs
    obtain ⟨n, chosen⟩ := List.exists_mem_of_ne_nil _ some_chosen
    obtain ⟨c, listed, _⟩ := among n chosen
    have := List.length_pos_of_mem chosen
    exact ⟨by omega, List.ne_nil_of_mem listed⟩
  · rintro ⟨room, some_candidate⟩
    unfold chooseNeighbors
    split
    · simpa using some_candidate
    · exact foldl_choose_ne_nil (Nat.pos_of_ne_zero room) some_candidate []

/-- What is chosen comes in the order of the candidates. -/
theorem foldl_choose_sublist (g : Graph α) (cap : Nat) (cs : List Candidate) (chosen : List Nat) :
    (cs.foldl (g.choose cap) chosen).Sublist (chosen ++ cs.map (·.id)) := by
  induction cs generalizing chosen with
  | nil => simp
  | cons c cs ih =>
      refine (ih (g.choose cap chosen c)).trans ?_
      rcases g.choose_cases cap chosen c with taken | refused
      · rw [taken, List.append_assoc]
        exact List.Sublist.refl _
      · rw [refused]
        exact List.Sublist.append_left (List.sublist_cons_self ..) chosen

/-- No candidate is chosen twice. -/
theorem nodup_chooseNeighbors (g : Graph α) (cap : Nat) {cs : List Candidate}
    (nodup : (cs.map (·.id)).Nodup) : (g.chooseNeighbors cap cs).Nodup := by
  unfold chooseNeighbors
  split
  · exact nodup
  · exact nodup.sublist (foldl_choose_sublist g cap cs [])

end Choosing

/-! ### Refilling -/

section Refilling

variable {g : Graph α}

/-- The candidates for a node are the live replacements that are new to it. -/
theorem mem_candidatesFor_iff {id : Nat} {existing replacements : List Nat} {c : Candidate} :
    c ∈ g.candidatesFor id existing replacements ↔
      (c.id ∈ replacements ∧ c.id ≠ id ∧ g.isLive c.id = true ∧ c.id ∉ existing) ∧
        c.distance = g.distanceBetween id c.id := by
  simp only [candidatesFor, Candidate.sort, (Sorting.sortBy_perm ..).mem_iff, List.mem_map,
    List.mem_filter, Bool.and_eq_true, bne_iff_ne, Bool.not_eq_true', List.contains_eq_mem,
    decide_eq_false_iff_not]
  constructor
  · rintro ⟨x, ⟨among, ⟨other, live⟩, fresh⟩, rfl⟩
    exact ⟨⟨among, other, live, fresh⟩, rfl⟩
  · rintro ⟨⟨among, other, live, fresh⟩, distance⟩
    exact ⟨c.id, ⟨among, ⟨other, live⟩, fresh⟩, by rw [← distance]⟩

theorem nodup_candidatesFor (id : Nat) (existing : List Nat) {replacements : List Nat}
    (nodup : replacements.Nodup) :
    ((g.candidatesFor id existing replacements).map (·.id)).Nodup := by
  simp only [candidatesFor, Candidate.sort]
  have ids : (fun c : Candidate => c.id) ∘ (fun x => ⟨g.distanceBetween id x, x⟩) =
      fun x => x := rfl
  rw [((Sorting.sortBy_perm ..).map _).nodup_iff, List.map_map, ids, List.map_id']
  exact nodup.filter _

/-- The neighbours of a node that has some and was offered replacements. -/
def refill (g : Graph α) (cap id : Nat) (replacements existing : List Nat) : List Nat :=
  (g.candidatesFor id existing replacements).foldl (g.choose cap) existing

theorem prefix_refill (cap id : Nat) (replacements existing : List Nat) :
    existing <+: g.refill cap id replacements existing := prefix_foldl_choose ..

theorem mem_refill {cap id x : Nat} {replacements existing : List Nat}
    (mem : x ∈ g.refill cap id replacements existing) :
    x ∈ existing ∨ x ∈ replacements ∧ x ≠ id ∧ g.isLive x = true := by
  rcases mem_foldl_choose mem with old | ⟨c, candidate, rfl⟩
  · exact .inl old
  · obtain ⟨⟨among, other, live, _⟩, _⟩ := mem_candidatesFor_iff.1 candidate
    exact .inr ⟨among, other, live⟩

/-- A node that has no neighbours and room for one gets one, when a live replacement is there. -/
theorem refill_ne_nil {cap id : Nat} (room : 0 < cap) {x : Nat} {replacements : List Nat}
    (among : x ∈ replacements) (other : x ≠ id) (live : g.isLive x = true)
    (existing : List Nat) : g.refill cap id replacements existing ≠ [] := by
  by_cases old : x ∈ existing
  · exact List.ne_nil_of_mem ((prefix_refill ..).subset old)
  · apply foldl_choose_ne_nil room
    have candidate : ⟨g.distanceBetween id x, x⟩ ∈ g.candidatesFor id existing replacements :=
      mem_candidatesFor_iff.2 ⟨⟨among, other, live, old⟩, rfl⟩
    exact List.ne_nil_of_mem candidate

/-- A live replacement is taken, or in the end there is no room for it or a neighbour that is nearer
to it. -/
theorem mem_refill_or {cap id x : Nat} {replacements : List Nat} (among : x ∈ replacements)
    (other : x ≠ id) (live : g.isLive x = true) (existing : List Nat) :
    x ∈ g.refill cap id replacements existing ∨
      cap ≤ (g.refill cap id replacements existing).length ∨
        ∃ s ∈ g.refill cap id replacements existing,
          (g.distanceBetween id x).le (g.distanceBetween s x) = false := by
  by_cases old : x ∈ existing
  · exact .inl ((prefix_refill ..).subset old)
  · have candidate : ⟨g.distanceBetween id x, x⟩ ∈ g.candidatesFor id existing replacements :=
      mem_candidatesFor_iff.2 ⟨⟨among, other, live, old⟩, rfl⟩
    refine (foldl_choose_settles g cap _ existing _ candidate).imp_right fun refused => ?_
    by_contra no
    obtain ⟨room, farther⟩ := not_or.1 no
    have taken : g.choose cap (g.refill cap id replacements existing)
        ⟨g.distanceBetween id x, x⟩ = g.refill cap id replacements existing ++ [x] := by
      apply if_pos
      simp only [Bool.and_eq_true, decide_eq_true_eq, List.all_eq_true]
      refine ⟨Nat.not_le.1 room, fun s mem => ?_⟩
      exact Bool.of_not_eq_false fun nearer => farther ⟨s, mem, nearer⟩
    rw [refill, refused] at taken
    simp at taken

/-- There is nothing left to take the second time. -/
theorem refill_refill (cap id : Nat) (replacements existing : List Nat) :
    g.refill cap id replacements (g.refill cap id replacements existing) =
      g.refill cap id replacements existing := by
  apply foldl_choose_of_refused
  intro c candidate
  obtain ⟨⟨among, other, live, fresh⟩, distance⟩ := mem_candidatesFor_iff.1 candidate
  have fresh_before : c.id ∉ existing := fun old => fresh ((prefix_refill ..).subset old)
  have candidate := mem_candidatesFor_iff.2 ⟨⟨among, other, live, fresh_before⟩, distance⟩
  exact (foldl_choose_settles g cap _ existing c candidate).resolve_left fresh

/-- Nothing is taken when there is no room. -/
theorem refill_of_full {cap id : Nat} {replacements existing : List Nat}
    (full : cap ≤ existing.length) : g.refill cap id replacements existing = existing := by
  apply foldl_choose_of_refused
  intro c _
  apply if_neg
  simp [Nat.not_lt.2 full]

end Refilling

/-! ### Offering replacements -/

section Offering

variable {g h : Graph α} {layer n : Nat}

/-- What a node links to is what was chosen for it. -/
theorem out_foldl_accept (rewired : Rewired g h) (here : g.Stands n layer) (cap : Nat)
    {cs : List Candidate} (nodup : (cs.map (·.id)).Nodup) {chosen : List Nat}
    (fresh : ∀ c ∈ cs, c.id ≠ n ∧ c.id ∉ chosen) (out_eq : (h.links n layer).out = chosen) :
    (cs.foldl (accept n layer cap) (h, chosen)).2 = cs.foldl (g.choose cap) chosen ∧
      ((cs.foldl (accept n layer cap) (h, chosen)).1.links n layer).out =
        cs.foldl (g.choose cap) chosen := by
  induction cs generalizing h chosen with
  | nil => exact ⟨rfl, out_eq⟩
  | cons c cs ih =>
      obtain ⟨other, new⟩ := fresh c List.mem_cons_self
      obtain ⟨apart, nodup⟩ := List.nodup_cons.1 nodup
      have here_h : h.Stands n layer := (rewired.stands_iff ..).2 here
      have eq : accept n layer cap (h, chosen) c =
          (if g.choose cap chosen c = chosen then h else h.addEdge n c.id layer,
            g.choose cap chosen c) := by
        simp only [accept, choose, rewired.agrees.distanceBetween_eq]
        split
        · simp
        · simp
      rw [List.foldl_cons, List.foldl_cons, eq]
      rcases g.choose_cases cap chosen c with taken | refused
      · have grows : chosen ++ [c.id] ≠ chosen := by simp
        rw [taken, if_neg grows]
        apply ih (rewired.trans (rewired_addEdge ..)) nodup
        · intro d later
          obtain ⟨other_d, new_d⟩ := fresh d (List.mem_cons_of_mem _ later)
          refine ⟨other_d, ?_⟩
          rw [List.mem_append, List.mem_singleton, not_or]
          exact ⟨new_d, fun same => apart (List.mem_map.2 ⟨d, later, same⟩)⟩
        · rw [← out_eq] at new ⊢
          rw [out_addEdge here_h, if_pos ⟨rfl, rfl, Ne.symm other, new⟩]
      · rw [refused, if_pos rfl]
        exact ih rewired nodup (fun d later => fresh d (List.mem_cons_of_mem _ later)) out_eq

/-- A node is left with what it had and what it was given of the replacements. -/
theorem out_reconnect (rewired : Rewired g h) (here : g.Stands n layer) {replacements : List Nat}
    (nodup : replacements.Nodup) :
    ((h.reconnect replacements layer n).links n layer).out =
      g.refill (g.config.maxDegree layer) n replacements (h.links n layer).out := by
  simp only [reconnect, rewired.config_eq, rewired.agrees.candidatesFor_eq]
  split
  case isTrue full => exact (refill_of_full full).symm
  case isFalse room =>
    have fresh : ∀ c ∈ g.candidatesFor n (h.links n layer).out replacements,
        c.id ≠ n ∧ c.id ∉ (h.links n layer).out := by
      intro c candidate
      obtain ⟨⟨_, other, _, new⟩, _⟩ := mem_candidatesFor_iff.1 candidate
      exact ⟨other, new⟩
    obtain ⟨chosen_eq, out_eq⟩ := out_foldl_accept rewired here (g.config.maxDegree layer)
      (nodup_candidatesFor n (h.links n layer).out nodup) fresh rfl
    split
    case h_1 c rest none candidates =>
      -- The first candidate would have been taken.
      rw [chosen_eq, candidates] at none
      exact absurd none (foldl_choose_ne_nil (by omega) (List.cons_ne_nil c rest) _)
    case h_2 => exact out_eq

/-- Offering replacements adds edges of the node, if any. -/
theorem reconnect_keeps {motive : Graph α → Prop} (start : motive h)
    (adds : ∀ k c, motive k → motive (k.addEdge n c layer)) (replacements : List Nat) :
    motive (h.reconnect replacements layer n) := by
  unfold reconnect
  dsimp only
  split
  · exact start
  · have accepted : ∀ (cap : Nat) (cs : List Candidate) (chosen : List Nat),
        motive (cs.foldl (accept n layer cap) (h, chosen)).1 := by
      intro cap cs chosen
      apply List.foldlRecOn (motive := fun state : Graph α × List Nat => motive state.1)
      · exact start
      · intro state holds c _
        unfold accept
        dsimp only
        split
        · exact adds _ _ holds
        · exact holds
    split
    · exact adds _ _ (accepted ..)
    · exact accepted ..

theorem rewired_unlink (id : Nat) (replacements : List Nat) :
    Rewired h (unlink id layer replacements h n) := by
  have removed := rewired_removeEdge h n id layer
  unfold unlink
  dsimp only
  split
  · exact removed
  · exact reconnect_keeps removed (fun k c rewired => rewired.trans (rewired_addEdge ..)) _

theorem out_unlink_of_ne (id : Nat) (replacements : List Nat) {j : Nat} (ne : n ≠ j) :
    ((unlink id layer replacements h n).links j layer).out = (h.links j layer).out := by
  have removed : ((h.removeEdge n id layer).links j layer).out = (h.links j layer).out := by
    rw [links_removeEdge, if_neg fun here => ne here.1]
  unfold unlink
  dsimp only
  split
  · exact removed
  · exact reconnect_keeps (motive := fun k => (k.links j layer).out = (h.links j layer).out) removed
      (fun k c same => (out_addEdge_of_ne k ne c layer layer).trans same) _

end Offering

end Vicinity.Graph
