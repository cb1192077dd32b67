import Vicinity.Proofs.Correspondence
import Vicinity.Proofs.Flat.Handles
import Vicinity.Proofs.Tiered.Adoption
import Vicinity.Proofs.Tiered.Contents

/-!
How often a vector is prepared on its way into the graph.

Both parts prepare what they are given. A write that goes straight to the graph gives it the vector
as it came. A write into the buffer leaves the prepared vector there, and the job that moves it
gives the graph that one, which is then prepared a second time (`Standing.forms`). When the metric
leaves vectors as they are, this makes no difference. A vector of unit length is in general not left
as it is when it is scaled again, so the way that a vector took can be told from the graph and from
the scores (`scaled_twice`).

Nothing that happens between a write and its job changes the buffered vector, although it may be
taken out: every operation treats the buffer as a run of calls does (`Advances`).
-/

namespace Vicinity.Tiered

variable {α : Type} [Element α] {t t' : Tiered α}

/-! ### What every operation leaves alone -/

/-- The parameters stay, and calls lead from the one buffer to the other. -/
structure Advances (t t' : Tiered α) : Prop where
  config_eq : t'.config = t.config
  graph_config_eq : t'.graph.config = t.graph.config
  calls : ∃ calls, t'.flat = t.flat.after calls

namespace Advances

theorem of_flat_eq (config_eq : t'.config = t.config)
    (graph_config_eq : t'.graph.config = t.graph.config) (flat_eq : t'.flat = t.flat) :
    Advances t t' := ⟨config_eq, graph_config_eq, [], flat_eq⟩

theorem refl (t : Tiered α) : Advances t t := of_flat_eq rfl rfl rfl

theorem trans {t'' : Tiered α} (first : Advances t t') (second : Advances t' t'') :
    Advances t t'' where
  config_eq := second.config_eq.trans first.config_eq
  graph_config_eq := second.graph_config_eq.trans first.graph_config_eq
  calls := by
    obtain ⟨calls, eq⟩ := first.calls
    obtain ⟨calls', eq'⟩ := second.calls
    refine ⟨calls ++ calls', ?_⟩
    rw [eq', eq, Flat.after, Flat.after, Flat.after, List.foldl_append]

end Advances

/-- The parts are made for the same vectors. -/
structure Matched (t : Tiered α) : Prop where
  config_eq : t.config.graph = t.graph.config
  metric_eq : t.flat.metric = t.graph.config.metric
  flat_wf : t.flat.WellFormed

theorem Matched.advance (matched : Matched t) (advances : Advances t t') : Matched t' := by
  obtain ⟨calls, eq⟩ := advances.calls
  constructor
  case config_eq =>
    rw [advances.config_eq, advances.graph_config_eq]
    exact matched.config_eq
  case metric_eq =>
    rw [eq, Flat.after_eq, advances.graph_config_eq]
    exact matched.metric_eq
  case flat_wf => exact eq ▸ matched.flat_wf.after calls

/-! ### Taking vectors into the graph -/

/-- All that happens is that the graph comes to hold vectors of a label. -/
structure Gains (t : Tiered α) (label : Label) (vectors : List (List α)) (t' : Tiered α) :
    Prop where
  config_eq : t'.config = t.config
  flat_eq : t'.flat = t.flat
  graph_config_eq : t'.graph.config = t.graph.config
  vectorsOf_eq : t'.graph.vectorsOf label = t.graph.vectorsOf label ++ vectors.map some

theorem Gains.advances {label : Label} {vectors : List (List α)}
    (gains : Gains t label vectors t') : Advances t t' :=
  .of_flat_eq gains.config_eq gains.graph_config_eq gains.flat_eq

omit [Element α] in
theorem gains_grow (t : Tiered α) (label : Label) :
    Gains t label [] (t.withGraph t.graph.ensureCapacity) := by
  obtain ⟨journal, own, taken⟩ := withGraph_eq t t.graph.ensureCapacity
  rw [taken, Graph.ensureCapacity_eq]
  exact ⟨rfl, rfl, rfl, (List.append_nil _).symm⟩

/-- The graph prepares the vector that it takes in. -/
theorem gains_insert (sturdy : t.graph.Sturdy) {label : Label} {vector : List α} {g : Graph α}
    {id : Nat}
    (inserted : (t.withGraph t.graph.ensureCapacity).graph.insert label vector = .ok (g, id)) :
    Gains t label [t.graph.config.metric.prepare vector]
      ((t.withGraph t.graph.ensureCapacity).withGraph g) := by
  have grown := gains_grow t label
  obtain ⟨journal, own, taken⟩ := withGraph_eq t t.graph.ensureCapacity
  obtain ⟨journal', own', taken'⟩ := withGraph_eq (t.withGraph t.graph.ensureCapacity) g
  have sturdy : (t.withGraph t.graph.ensureCapacity).graph.Sturdy := by
    rw [taken]
    exact sturdy.ensureCapacity.withCapacity _ own
  obtain ⟨_, stores⟩ := sturdy.insert inserted
  have held := stores.vectorsOf_eq sturdy.listed label
  rw [if_pos rfl, grown.vectorsOf_eq, List.map_nil, List.append_nil, grown.graph_config_eq] at held
  rw [taken']
  exact ⟨grown.config_eq, grown.flat_eq, stores.config_eq.trans grown.graph_config_eq, held⟩

/-! ### Removing a label -/

namespace Minded

variable {tasks : List Task} {inherited : List (Nat × Nat)}

omit [Element α] in
theorem marked_markNode {followup followup' : Followup}
    (minded : Minded t (followup.repairs ++ tasks) inherited) {id : Nat}
    (made : t.markNode followup id = .ok (t', followup')) :
    Marked t [id] t' ∧ t'.graph.config = t.graph.config := by
  unfold Tiered.markNode at made
  split at made
  · contradiction
  case h_2 h marked =>
    obtain ⟨_, marks, _⟩ := minded.sturdy.markDeleted marked
    obtain ⟨journal, own, taken⟩ := withGraph_eq t h
    rw [taken] at made
    dsimp only at made
    split at made
    · cases made
      exact ⟨marked_of_marks marks .., marks.config_eq⟩
    · split at made <;>
        · cases made
          exact ⟨marked_of_marks marks .., marks.config_eq⟩

omit [Element α] in
/-- A run of marks gets through to the end or to the first node that cannot be marked. -/
theorem marked_markNodes {ids : List Nat} {followup followup' : Followup} {removed : Nat}
    {result : Except Failure Nat} (minded : Minded t (followup.repairs ++ tasks) inherited)
    (made : t.markNodes followup removed ids = (t', followup', result)) :
    ∃ front, Marked t front t' ∧ t'.graph.config = t.graph.config ∧
      ∀ count, result = .ok count → front = ids := by
  induction ids generalizing t followup removed with
  | nil =>
      cases made
      exact ⟨[], .refl _, rfl, fun _ _ => rfl⟩
  | cons id ids ih =>
      rw [Tiered.markNodes] at made
      split at made
      · cases made
        refine ⟨[], .refl _, rfl, fun _ done => ?_⟩
        cases done
      case h_2 t₁ followup₁ first =>
        obtain ⟨marked, config⟩ := minded.marked_markNode first
        obtain ⟨front, rest, config', all⟩ := ih (minded.markNode first).1 made
        exact ⟨id :: front, marked.trans rest, config'.trans config,
          fun count done => congrArg (id :: ·) (all count done)⟩

theorem advances_removeLabel (minded : Minded t tasks inherited) {label : Label}
    {followup : Followup} {result : Except Failure Nat}
    (removed : t.removeLabel label = (t', followup, result)) :
    Advances t t' ∧ t'.flat = (t.flat.deleteLabel label).1 ∧
      ∀ count, result = .ok count → t'.graph.vectorsOf label = [] := by
  have shorter : Minded { t with flat := (t.flat.deleteLabel label).1 }
      (({} : Followup).repairs ++ tasks) inherited := ⟨minded.sturdy, minded.tended⟩
  obtain ⟨front, marked, config, all⟩ := shorter.marked_markNodes removed
  refine ⟨⟨marked.config_eq, config, [.deleteLabel label], marked.flat_eq⟩, marked.flat_eq,
    fun count done => ?_⟩
  rw [Graph.vectorsOf, marked.idsOf_eq, all count done]
  simp

end Minded

/-! ### Writes -/

/-- A write of a label goes straight to the graph. The vector that it replaces no longer counts. -/
def directly (t : Tiered α) (label : Label) : Bool :=
  { t with
    flat := if t.config.graph.multi then t.flat else (t.flat.deleteLabel label).1 }.writesDirectly

/-- The vectors of a label that stay in the graph when another is written. -/
def keptVectors (t : Tiered α) (label : Label) : List (Option (List α)) :=
  if t.config.graph.multi then t.graph.vectorsOf label else []

/-- Where a write has put its vector: prepared once into the graph, beside those that were kept, or
prepared once into the buffer, with the task to move it. -/
inductive Stored (t : Tiered α) (label : Label) (vector : List α)
    (kept : List (Option (List α))) (directly : Bool) (insert : Option Task) : Prop where
  | direct : directly = true → insert = none →
      t.graph.vectorsOf label = kept ++ [some (t.graph.config.metric.prepare vector)] →
      Stored t label vector kept directly insert
  | buffered (entry : Nat) : directly = false → insert = some (.insert entry label) →
      t.flat.entry? entry = some ⟨entry, label, t.graph.config.metric.prepare vector⟩ →
      t.graph.vectorsOf label = kept → Stored t label vector kept directly insert

/-- A job that moves a vector submits no other. -/
theorem perform_insert (t : Tiered α) (entry : Nat) (label : Label) :
    t.perform (.insert entry label) =
      ((t.absorb entry label).1, (t.absorb entry label).2, none) := rfl

/-- How a job that is to move a buffered vector ends. -/
inductive Moves (t : Tiered α) (entry : Nat) (label : Label) (t' : Tiered α) : Outcome → Prop where
  | gone (reason : String) : t.flat.entry? entry = none →
      t'.graph.vectorsOf label = t.graph.vectorsOf label → Moves t entry label t' (.skipped reason)
  | stuck (reason : String) : t'.graph.vectorsOf label = t.graph.vectorsOf label →
      Moves t entry label t' (.failed reason)
  | moved (row : Flat.Row α) : t.flat.entry? entry = some row →
      t'.graph.vectorsOf label = t.graph.vectorsOf label ++
        [some (t.graph.config.metric.prepare row.vector)] →
      Moves t entry label t' .completed

namespace Minded

variable {tasks : List Task} {inherited : List (Nat × Nat)}

theorem place_stored (minded : Minded t tasks inherited) (matched : Matched t)
    {followup followup' : Followup} (no_insert : followup.insert = none) {label : Label}
    {vector : List α} {result : Except Failure Unit}
    (placed : t.place followup label vector = (t', followup', result)) :
    Advances t t' ∧ (result = .ok () → Stored t' label vector (t.graph.vectorsOf label)
      t.writesDirectly followup'.insert) := by
  rw [Tiered.place] at placed
  cases straight : t.writesDirectly with
  | true =>
      rw [if_pos straight] at placed
      dsimp only at placed
      split at placed
      · cases placed
        exact ⟨(gains_grow t label).advances, fun done => by cases done⟩
      case h_2 g id inserted =>
        cases placed
        have gains := gains_insert minded.sturdy inserted
        refine ⟨gains.advances, fun _ => .direct rfl no_insert ?_⟩
        rw [gains.vectorsOf_eq, gains.graph_config_eq]
        rfl
  | false =>
      rw [if_neg (Bool.eq_false_iff.1 straight)] at placed
      split at placed
      · cases placed
        exact ⟨.refl _, fun done => by cases done⟩
      case h_2 flat entry added =>
        cases placed
        obtain ⟨flat_eq, _, _, stands⟩ := matched.flat_wf.entry?_of_addEntry added
        refine ⟨⟨rfl, rfl, [.addEntry label vector], flat_eq⟩, fun _ => ?_⟩
        refine .buffered entry rfl rfl ?_ rfl
        rw [← matched.metric_eq]
        exact stands

theorem write_stored (minded : Minded t tasks inherited) (matched : Matched t) {label : Label}
    {vector : List α} {followup : Followup} {result : Except Failure Unit}
    (written : t.write label vector = (t', followup, result)) :
    Advances t t' ∧ (result = .ok () → Stored t' label vector (t.keptVectors label)
      (t.directly label) followup.insert) := by
  rw [Tiered.write] at written
  split at written
  · cases written
    exact ⟨.refl _, fun done => by cases done⟩
  · rw [keptVectors, directly]
    cases multi : t.config.graph.multi with
    | true =>
        rw [if_pos multi] at written
        exact minded.place_stored matched rfl written
    | false =>
        rw [if_neg (Bool.eq_false_iff.1 multi)] at written
        split at written
        case h_1 t₁ followup₁ failure removed =>
          cases written
          have cleared := (minded.advances_removeLabel removed).1
          exact ⟨cleared, fun done => by cases done⟩
        case h_2 t₁ followup₁ count removed =>
          obtain ⟨minded₁, no_insert⟩ := minded.removeLabel removed
          obtain ⟨cleared, flat_eq, none⟩ := minded.advances_removeLabel removed
          obtain ⟨advances, stored⟩ :=
            minded₁.place_stored (matched.advance cleared) no_insert written
          have straight : t₁.writesDirectly =
              { t with flat := (t.flat.deleteLabel label).1 }.writesDirectly := by
            rw [writesDirectly, writesDirectly, cleared.config_eq, flat_eq]
          rw [none count rfl, straight] at stored
          exact ⟨cleared.trans advances, stored⟩

/-! ### Jobs -/

/-- A job that moves a vector gives the graph what the buffer holds, or moves nothing. -/
theorem absorb_moves (minded : Minded t tasks inherited) {entry : Nat}
    {label : Label} {outcome : Outcome} (done : t.absorb entry label = (t', outcome)) :
    Advances t t' ∧ Moves t entry label t' outcome := by
  rw [Tiered.absorb] at done
  split at done
  case h_1 gone =>
    cases done
    exact ⟨.refl _, .gone _ gone rfl⟩
  case h_2 row found =>
    have grown := gains_grow t label
    dsimp only at done
    split at done
    · cases done
      refine ⟨grown.advances, .stuck _ ?_⟩
      rw [grown.vectorsOf_eq, List.map_nil, List.append_nil]
    case h_2 g id inserted =>
      cases done
      have gains := gains_insert minded.sturdy inserted
      rw [grown.flat_eq]
      exact ⟨⟨gains.config_eq, gains.graph_config_eq, [.removeEntry entry], rfl⟩,
        .moved row found gains.vectorsOf_eq⟩

theorem advances_repairNode (minded : Minded t tasks inherited) {id x : Nat} {outcome : Outcome}
    {next? : Option Task} (done : t.repairNode id x = (t', outcome, next?)) : Advances t t' := by
  unfold Tiered.repairNode at done
  dsimp only at done
  split at done
  · cases done
    exact .of_flat_eq rfl rfl rfl
  · split at done
    · cases done
      exact .of_flat_eq rfl rfl rfl
    case h_2 h repaired =>
      obtain ⟨_, edits⟩ := minded.sturdy.repair repaired
      obtain ⟨journal, own, taken⟩ :=
        withGraph_eq { t with pendingRepairs := t.pendingRepairs - 1 } h
      rw [taken] at done
      split at done <;>
        · cases done
          exact .of_flat_eq rfl edits.rewired.config_eq rfl

omit [Element α] in
theorem config_swapAll {g : Graph α} (sturdy : g.Sturdy) (executed : Nat) (kept ids : List Nat) :
    (swapAll g executed kept ids).1.config = g.config := by
  let motive := fun h : Graph α => h.Sturdy ∧ h.config = g.config
  have step : ∀ h k id, motive h → h.swapRemove id = .ok k → motive k := by
    rintro h k id ⟨sturdy, config⟩ removed
    obtain ⟨sturdy, frees⟩ := sturdy.swapRemove removed
    exact ⟨sturdy, frees.config_eq.trans config⟩
  have start : motive g := ⟨sturdy, rfl⟩
  exact (swapAll_keeps step start executed kept ids).2

theorem advances_runGc (minded : Minded t tasks inherited) {freed : Nat}
    (passed : t.runGc = (t', freed)) : Advances t t' := by
  cases none_ready : t.ready.isEmpty with
  | true =>
      simp only [Tiered.runGc, none_ready, if_true] at passed
      cases passed
      exact .of_flat_eq rfl rfl rfl
  | false =>
      obtain ⟨g, n, kept, swapped⟩ : ∃ g n kept,
          swapAll t.graph 0 [] t.passOrder = (g, n, kept) := ⟨_, _, _, rfl⟩
      obtain ⟨journal, own, eq⟩ := runGc_eq none_ready swapped
      rw [eq] at passed
      cases passed
      have config := config_swapAll minded.sturdy 0 [] t.passOrder
      rw [swapped] at config
      refine .of_flat_eq rfl ?_ rfl
      change g.shrinkToFit.config = _
      rw [Graph.shrinkToFit_eq]
      exact config

theorem advances_perform {task : Task} (minded : Minded t tasks inherited)
    {outcome : Outcome} {next? : Option Task} (done : t.perform task = (t', outcome, next?)) :
    Advances t t' := by
  cases task with
  | insert entry label =>
      cases done
      exact (minded.absorb_moves rfl).1
  | repair id x => exact minded.advances_repairNode done
  | swap =>
      cases done
      exact minded.advances_runGc rfl

end Minded

/-! ### Every step -/

namespace World

/-- The states that steps lead to, be it from an empty index or from a buffer that was put in front
of a graph. -/
def Standing (w : World α) : Prop :=
  (∃ config, Reachable config w) ∨ ∃ config g, g.Obtained ∧ Adopted config g w

theorem Standing.step {w w' : World α} (standing : w.Standing) (step : Step w w') :
    w'.Standing := by
  rcases standing with ⟨config, reachable⟩ | ⟨config, g, obtained, adopted⟩
  · exact .inl ⟨config, reachable.step step⟩
  · exact .inr ⟨config, g, obtained, adopted.step step⟩

/-- Whatever happens at once is an advance. -/
theorem advances_step {w w' : World α} {inherited : List (Nat × Nat)}
    (minded : Minded w.index w.outstanding inherited) (matched : Matched w.index)
    (step : Step w w') : Advances w.index w'.index := by
  cases step with
  | write label vector few written => exact (minded.write_stored matched written).1
  | delete label removed => exact (minded.advances_removeLabel removed).1
  | submit front back task due => exact .of_flat_eq rfl rfl rfl
  | pass passed => exact minded.advances_runGc passed
  | run front back task handed done =>
      have begun : Minded (w.index.begin task) w.outstanding inherited :=
        ⟨minded.sturdy, minded.tended⟩
      have start : Advances w.index (w.index.begin task) := .of_flat_eq rfl rfl rfl
      exact start.trans (begun.advances_perform done)
  | finish front back task outcome ending => exact .of_flat_eq rfl rfl rfl

theorem Reachable.matched {config : Config} {w : World α} (reachable : Reachable config w) :
    Matched w.index ∧ Minded w.index w.outstanding [] := by
  obtain ⟨given, held⟩ := reachable.held
  obtain ⟨consistent, holds⟩ := held.holds
  have tracked := consistent.tracked
  refine ⟨⟨tracked.graph_config.symm, ?_, tracked.flat_wf⟩, tracked.graph_wf.sturdy, ?_⟩
  · rw [holds.metric_eq, tracked.graph_config]
  · rw [List.append_nil]
    exact tracked.tended

theorem Adopted.matched {config : Config} {g : Graph α} {w : World α} (sturdy : g.Sturdy)
    (adopted : Adopted config g w) : Matched w.index := by
  induction adopted with
  | start => exact ⟨rfl, rfl, Flat.wellFormed_new ..⟩
  | step before step ih => exact ih.advance (advances_step (before.minded sturdy) ih step)
  | write label vector before written ih =>
      exact ih.advance ((before.minded sturdy).write_stored ih written).1

/-- In every such state the deleted nodes are tended, and both parts are made for the same
vectors. -/
theorem Standing.spec {w : World α} (standing : w.Standing) :
    Matched w.index ∧ ∃ inherited, Minded w.index w.outstanding inherited := by
  rcases standing with ⟨config, reachable⟩ | ⟨config, g, obtained, adopted⟩
  · obtain ⟨matched, minded⟩ := reachable.matched
    exact ⟨matched, [], minded⟩
  · have sturdy := obtained.sturdy.1
    exact ⟨adopted.matched sturdy, _, adopted.minded sturdy⟩

/-- So the buffer goes through calls, whatever happens. -/
theorem Standing.steps {w w' : World α} (standing : w.Standing)
    (steps : Relation.ReflTransGen Step w w') : w'.Standing ∧ Advances w.index w'.index := by
  induction steps with
  | refl => exact ⟨standing, .refl _⟩
  | tail _ step ih =>
      obtain ⟨standing, advances⟩ := ih
      obtain ⟨matched, _, minded⟩ := standing.spec
      exact ⟨standing.step step, advances.trans (advances_step minded matched step)⟩

/-! ### Both ways into the graph -/

/-- An index that began empty has the task of every buffered vector outstanding, and the job that
carries it out moves the vector. -/
theorem Reachable.absorbs {config : Config} {w : World α} (reachable : Reachable config w)
    {entry : Nat} {label : Label} {vector : List α}
    (stands : w.index.flat.entry? entry = some ⟨entry, label, vector⟩) {t : Tiered α}
    {outcome : Outcome} (done : (w.index.begin (.insert entry label)).absorb entry label =
      (t, outcome)) : ∀ reason, outcome ≠ .failed reason := by
  have tracked := reachable.consistent.tracked
  have named := tracked.buffered.covered _ (tracked.flat_wf.entry?_eq_some_iff.1 stands).1
  have first := tracked.perm (List.perm_cons_erase (mem_insertsOf.1 named)).symm
  obtain ⟨_, ends, _⟩ := (first.withRegistry (w.index.registry.start .insert)).absorb done
  rintro reason rfl
  rcases ends with completed | ⟨_, skipped⟩
  · cases completed
  · cases skipped

/-- In an index that began empty nothing but its length speaks against a vector. -/
theorem Reachable.accepts {config : Config} {w : World α} (reachable : Reachable config w)
    (few : w.index.graph.nodeCount + w.index.flat.size < Graph.idLimit) (label : Label)
    {vector : List α}
    (fits : checkDimension w.index.config.graph.dim.toNat vector.length = .ok ()) :
    ∃ t followup, w.index.write label vector = (t, followup, .ok ()) := by
  obtain ⟨given, held⟩ := reachable.held
  obtain ⟨consistent, holds⟩ := held.holds
  obtain ⟨t, followup, result, written⟩ : ∃ t followup result,
      w.index.write label vector = (t, followup, result) := ⟨_, _, _, rfl⟩
  rcases holds.write consistent.tracked few written with ⟨_, rfl, _⟩ | ⟨fault, refused, _⟩
  · exact ⟨t, followup, written⟩
  · rw [fits] at refused
    cases refused

/-- A job that moves a vector finds what was there before any steps, or finds it gone, and the graph
prepares it. -/
theorem Standing.job {w w' : World α} (standing : w.Standing)
    (steps : Relation.ReflTransGen Step w w') {entry : Nat} {label : Label} {vector : List α}
    (stands : w.index.flat.entry? entry = some ⟨entry, label, vector⟩) {t : Tiered α}
    {outcome : Outcome} {next? : Option Task}
    (done : (w'.index.begin (.insert entry label)).perform (.insert entry label) =
      (t, outcome, next?)) :
    (t.graph.vectorsOf label = w'.index.graph.vectorsOf label ++
      if outcome = .completed then [some (w.index.graph.config.metric.prepare vector)] else []) ∧
    ((∃ config, Reachable config w') →
      (outcome = .completed ↔ w'.index.flat.containsEntry entry = true)) := by
  obtain ⟨standing', advances⟩ := standing.steps steps
  obtain ⟨matched, inherited, minded⟩ := standing'.spec
  have unchanged : ∀ row, w'.index.flat.entry? entry = some row →
      row = ⟨entry, label, vector⟩ := by
    obtain ⟨calls, flat_eq⟩ := advances.calls
    have later := standing.spec.1.flat_wf.entry?_after_of_some stands calls
    intro row found
    rw [flat_eq, later] at found
    exact (Option.some.inj (Option.ite_none_left_eq_some.1 found).2).symm
  have begun : Minded (w'.index.begin (.insert entry label)) w'.outstanding inherited :=
    ⟨minded.sturdy, minded.tended⟩
  obtain ⟨t₁, outcome₁, absorbed⟩ : ∃ t₁ outcome₁,
      (w'.index.begin (.insert entry label)).absorb entry label = (t₁, outcome₁) := ⟨_, _, rfl⟩
  rw [perform_insert, absorbed] at done
  cases done
  rw [matched.flat_wf.containsEntry_eq]
  cases (begun.absorb_moves absorbed).2 with
  | gone reason gone same =>
      have gone : w'.index.flat.entry? entry = none := gone
      rw [same, if_neg Outcome.noConfusion, List.append_nil, gone]
      exact ⟨rfl, fun _ => ⟨Outcome.noConfusion, Bool.noConfusion⟩⟩
  | stuck reason same =>
      rw [same, if_neg Outcome.noConfusion, List.append_nil]
      refine ⟨rfl, fun ⟨config, reachable⟩ => ⟨Outcome.noConfusion, fun there => ?_⟩⟩
      obtain ⟨row, found⟩ := Option.isSome_iff_exists.1 there
      rw [unchanged row found] at found
      exact absurd rfl (reachable.absorbs found absorbed reason)
  | moved row found moved =>
      have found : w'.index.flat.entry? entry = some row := found
      have moved : t₁.graph.vectorsOf label = w'.index.graph.vectorsOf label ++
          [some (w'.index.graph.config.metric.prepare row.vector)] := moved
      rw [moved, advances.graph_config_eq, unchanged row found, if_pos rfl, found]
      exact ⟨rfl, fun _ => ⟨fun _ => rfl, fun _ => rfl⟩⟩

/-- In which form a vector that was written gets into the graph. -/
structure Forms (w : World α) (metric : Metric) (label : Label) (vector : List α) (t : Tiered α)
    (followup : Followup) : Prop where
  direct : w.index.directly label = true → followup.insert = none ∧
    t.graph.vectorsOf label = w.index.keptVectors label ++ [some (metric.prepare vector)]
  buffered : w.index.directly label = false → ∃ entry,
    followup.insert = some (.insert entry label) ∧
    t.graph.vectorsOf label = w.index.keptVectors label ∧
    t.flat.entry? entry = some ⟨entry, label, metric.prepare vector⟩ ∧
    ∀ w', Relation.ReflTransGen Step { w with index := t, due := w.due ++ followup.tasks } w' →
      ∀ t' outcome next?,
        (w'.index.begin (.insert entry label)).perform (.insert entry label) =
          (t', outcome, next?) →
        (t'.graph.vectorsOf label = w'.index.graph.vectorsOf label ++
          if outcome = .completed then [some (metric.prepare (metric.prepare vector))] else []) ∧
        ((∃ config, Reachable config w') →
          (outcome = .completed ↔ w'.index.flat.containsEntry entry = true))
  /-- A metric that does not scale leaves either form what was given. -/
  plain : metric.normalizes = false →
    metric.prepare vector = vector ∧ metric.prepare (metric.prepare vector) = vector

/-- A vector that is written straight to the graph is prepared once, and one that a job moves there
is prepared twice, whatever happens between the write and the job. In an index that began empty a
vector of its dimension is written, and the job moves it unless it was taken out meanwhile. -/
theorem Standing.forms {w : World α} (standing : w.Standing)
    (few : w.index.graph.nodeCount + w.index.flat.size < Graph.idLimit) (label : Label)
    (vector : List α) :
    (∀ t followup, w.index.write label vector = (t, followup, .ok ()) →
      Forms w w.index.config.graph.metric label vector t followup) ∧
    ((∃ config, Reachable config w) →
      checkDimension w.index.config.graph.dim.toNat vector.length = .ok () →
      ∃ t followup, w.index.write label vector = (t, followup, .ok ())) := by
  refine ⟨fun t followup written => ?_,
    fun ⟨config, reachable⟩ fits => reachable.accepts few label fits⟩
  obtain ⟨matched, _, minded⟩ := standing.spec
  obtain ⟨advances, stored⟩ := minded.write_stored matched written
  have metric_eq : t.graph.config.metric = w.index.config.graph.metric := by
    rw [advances.graph_config_eq, matched.config_eq]
  have plain : w.index.config.graph.metric.normalizes = false →
      w.index.config.graph.metric.prepare vector = vector ∧
        w.index.config.graph.metric.prepare (w.index.config.graph.metric.prepare vector) =
          vector := fun plain => by simp only [prepare_of_plain plain, and_self]
  rcases stored rfl with ⟨straight, none, held⟩ | ⟨entry, other, task, stands, held⟩
  case direct =>
    rw [metric_eq] at held
    refine ⟨fun _ => ⟨none, held⟩, fun other => ?_, plain⟩
    rw [straight] at other
    cases other
  case buffered =>
    have after := standing.step (.write label vector few written)
    rw [metric_eq] at stands
    refine ⟨fun straight => ?_, fun _ => ⟨entry, task, held, stands, ?_⟩, plain⟩
    · rw [other] at straight
      cases straight
    · intro w' steps t' outcome next? done
      rw [← metric_eq] at stands ⊢
      exact after.job steps stands done

/-- An empty index over directions in the plane. -/
def compass (mode : WriteMode) : Tiered Binary64 :=
  { ofGraph { graph := { dim := 2, metric := .cosine }, writeMode := mode }
      { config := { dim := 2, metric := .cosine } } with
    sharesJournal := true }

theorem reachable_compass (mode : WriteMode) :
    Reachable (compass mode).config { index := compass mode } := .new rfl

/-- Three to the right and two up. -/
def bearing : List Binary64 := [⟨0x4008000000000000⟩, ⟨0x4000000000000000⟩]

/-- A direction that is written into the buffer. -/
theorem forms_bearing :
    Standing { index := compass .buffered } ∧ (compass .buffered).directly 7 = false ∧
      ∃ t followup, (compass .buffered).write 7 bearing = (t, followup, .ok ()) ∧
        Forms { index := compass .buffered } .cosine 7 bearing t followup := by
  have empty := reachable_compass .buffered
  have standing : Standing { index := compass .buffered } := .inl ⟨_, empty⟩
  have room : 0 < Graph.idLimit := by decide
  obtain ⟨forms, accepted⟩ := standing.forms room 7 bearing
  obtain ⟨t, followup, written⟩ := accepted ⟨_, empty⟩ rfl
  exact ⟨standing, rfl, t, followup, written, forms t followup written⟩

/-- The same direction in two graphs, to which it was written in one case and moved in the other, is
not the same vector, and not at the same distance. -/
theorem scaled_twice :
    let direct := ((compass .inPlace).write 7 bearing).1
    let written := ((compass .buffered).write 7 bearing).1.submit (.insert 0 7)
    let moved := (written.begin (.insert 0 7)).absorb 0 7
    Reachable (compass .inPlace).config { index := direct } ∧
      Reachable (compass .buffered).config
        { index := moved.1, ending := [(.insert 0 7, moved.2)] } ∧
      moved.2 = .completed ∧
      direct.graph.vectorsOf 7 = [some (Metric.cosine.prepare bearing)] ∧
      moved.1.graph.vectorsOf 7 ≠ [some (Metric.cosine.prepare bearing)] ∧
      moved.1.graph.distanceTo [.one, .zero] 0 ≠ direct.graph.distanceTo [.one, .zero] 0 := by
  intro direct written moved
  have in_place := (reachable_compass .inPlace).step (.write 7 bearing (by decide) rfl)
  have buffered := (reachable_compass .buffered).step (.write 7 bearing (by decide) rfl)
  have submitted := buffered.step (.submit [] [] (.insert 0 7) rfl)
  have done : (written.begin (.insert 0 7)).perform (.insert 0 7) = (moved.1, moved.2, none) :=
    perform_insert ..
  have ran := submitted.step (.run [] [] (.insert 0 7) rfl done)
  exact ⟨in_place, ran, by decide +kernel, by decide +kernel, by decide +kernel, by decide +kernel⟩

end World

end Vicinity.Tiered
