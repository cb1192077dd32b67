import Vicinity.Proofs.Graph.Holdings
import Vicinity.Proofs.Tiered.Interleaving

/-!
What a buffered graph holds, whatever its jobs have done so far.

The holdings of a buffered graph are those of its buffer and its graph together. A removal drops the
vectors of its label, a write adds one, and everything else moves vectors from one part or one slot
to another: a job that absorbs a buffered vector takes it out of the buffer and puts it into the
graph, repairs rewire, and passes free slots that hold nothing. So the holdings agree with a plain
list on which only the calls act (`Held`), in every state that calls, jobs and passes lead to in any
order (`Held.holds`).
-/

namespace Vicinity.Tiered

variable {α : Type}

/-- The vectors of both parts. -/
def holdings (t : Tiered α) : Holdings α := t.flat.holdings ++ t.graph.holdings

theorem size_eq {t : Tiered α} (filled : t.graph.Filled) : t.size = t.holdings.length := by
  rw [size, holdings, List.length_append, Flat.length_holdings, Graph.length_holdings filled]

/-- The holdings are what was given, and both parts store vectors in the same form. -/
structure Holds (t : Tiered α) (given : Holdings α) : Prop where
  metric_eq : t.flat.metric = t.config.graph.metric
  agrees : Holdings.Agrees t.config.graph.metric t.holdings given

theorem holds_new {config : Config} {t : Tiered α} (made : Tiered.new config = .ok t) :
    Holds t [] := by
  unfold Tiered.new Graph.new at made
  split at made
  · contradiction
  case h_2 graph graph_made =>
    split at graph_made
    · contradiction
    · cases graph_made
      cases made
      exact ⟨rfl, .refl _, fun _ => .refl _⟩

/-- Where the vectors stand does not matter. -/
theorem Holds.perm {t t' : Tiered α} {given : Holdings α} (holds : Holds t given)
    (config_eq : t'.config = t.config) (metric_eq : t'.flat.metric = t.flat.metric)
    (same : t'.holdings.Perm t.holdings) : Holds t' given := by
  refine ⟨?_, ?_⟩
  · rw [metric_eq, config_eq]
    exact holds.metric_eq
  · rw [config_eq]
    exact holds.agrees.perm same

/-! ### Removals -/

theorem markNode_graph {t t' : Tiered α} {followup followup' : Followup} {id : Nat}
    (made : t.markNode followup id = .ok (t', followup')) :
    ∃ h own, t.graph.markDeleted id = .ok h ∧ t'.graph = { h with journal := own } := by
  unfold markNode at made
  split at made
  · contradiction
  case h_2 h marked =>
    obtain ⟨journal, own, taken⟩ := withGraph_eq t h
    refine ⟨h, own, marked, ?_⟩
    rw [taken] at made
    dsimp only at made
    split at made
    · cases made
      rfl
    · split at made <;> cases made <;> rfl

/-- The slots of marked nodes hold nothing, and the others what they held. -/
theorem held?_markNodes {ids : List Nat} {t t' : Tiered α} (wf : t.graph.WellFormed)
    {followup followup' : Followup} {removed count : Nat}
    (made : t.markNodes followup removed ids = (t', followup', .ok count)) :
    t'.graph.nodeCount = t.graph.nodeCount ∧
      ∀ j, t'.graph.held? j = if j ∈ ids then none else t.graph.held? j := by
  induction ids generalizing t followup removed with
  | nil =>
      cases made
      exact ⟨rfl, fun _ => by simp⟩
  | cons id ids ih =>
      unfold markNodes at made
      split at made
      · cases made
      case h_2 t₁ followup₁ first =>
        obtain ⟨h, own, marked, graph_eq⟩ := markNode_graph first
        obtain ⟨wf_h, marks, _⟩ := wf.markDeleted marked
        have same : ∀ j, t₁.graph.held? j = h.held? j := fun j => by
          rw [graph_eq]
          rfl
        obtain ⟨count_eq, held⟩ := ih (graph_eq ▸ wf_h.withJournal own) made
        refine ⟨count_eq.trans ?_, fun j => ?_⟩
        · rw [graph_eq]
          exact marks.nodeCount_eq
        · rw [held, same, marks.held?_eq]
          by_cases here : j = id <;> simp [here]

/-- A removal drops the vectors of its label from both parts and counts them. -/
theorem Tracked.holdings_removeLabel {t t' : Tiered α} {tasks : List Task}
    (tracked : Tracked t tasks) {label : Label} {followup : Followup} {result : Except Failure Nat}
    (removed : t.removeLabel label = (t', followup, result)) :
    result = .ok (t.holdings.count label) ∧
      t'.holdings.Perm (t.holdings.delete label) ∧ t'.flat.metric = t.flat.metric := by
  have labelled := tracked.graph_wf.labelled
  have live : ∀ id ∈ t.graph.idsOf label, t.graph.isLive id = true := fun id mem =>
    ((labelled.mem_idsOf label id).1 mem).1
  have shorter : Tracked { t with flat := (t.flat.deleteLabel label).1 }
      (({} : Followup).repairs ++ tasks) := tracked.deleteLabel label
  obtain ⟨rfl, _, marked, _⟩ := shorter.markNodes (labelled.nodup label) live removed
  obtain ⟨count_eq, held⟩ := held?_markNodes (t := { t with flat := (t.flat.deleteLabel label).1 })
    tracked.graph_wf removed
  have total : (t.flat.deleteLabel label).2 + (t.graph.idsOf label).length =
      t.holdings.count label := by
    have buffered : (t.flat.deleteLabel label).2 = t.flat.holdings.count label :=
      Flat.length_entriesOf tracked.flat_wf label
    rw [buffered, Graph.length_idsOf labelled tracked.graph_wf.stocked.toFilled, holdings,
      Holdings.count_append]
  have graph_eq : t'.graph.holdings = t.graph.holdings.delete label :=
    Graph.holdings_eq_delete labelled count_eq held
  refine ⟨congrArg Except.ok total, ?_, ?_⟩
  · rw [holdings, marked.flat_eq, graph_eq, holdings, Holdings.delete_append]
    exact (Flat.perm_holdings_deleteLabel tracked.flat_wf label).append_right _
  · rw [marked.flat_eq]
    dsimp only
    rw [Flat.deleteLabel_eq]
    rfl

theorem Holds.removeLabel {t t' : Tiered α} {tasks : List Task} {given : Holdings α}
    (holds : Holds t given) (tracked : Tracked t tasks) {label : Label} {followup : Followup}
    {result : Except Failure Nat} (removed : t.removeLabel label = (t', followup, result)) :
    Holds t' (given.delete label) ∧ result = .ok (given.count label) := by
  obtain ⟨rfl, same, metric_eq⟩ := tracked.holdings_removeLabel removed
  obtain ⟨_, _, _, config_eq, _⟩ := tracked.removeLabel removed
  have dropped : Holds t' (given.delete label) := by
    refine ⟨?_, ?_⟩
    · rw [metric_eq, config_eq]
      exact holds.metric_eq
    · rw [config_eq]
      exact (holds.agrees.delete label).perm same
  exact ⟨dropped, congrArg Except.ok (holds.agrees.count_eq label)⟩

/-! ### Passes -/

theorem perm_holdings_swapAll {g : Graph α} (wf : g.WellFormed) (executed : Nat)
    (kept ids : List Nat) : (swapAll g executed kept ids).1.holdings.Perm g.holdings := by
  let motive := fun h : Graph α => h.WellFormed ∧ h.holdings.Perm g.holdings
  have step : ∀ h k id, motive h → h.swapRemove id = .ok k → motive k := by
    rintro h k id ⟨wf_h, same⟩ removed
    obtain ⟨wf_k, frees⟩ := wf_h.swapRemove removed
    have deleted := (Graph.swapRemove_eq_ok_iff.1 removed).1
    have dead := (Graph.isLive_eq_false_iff (Graph.lt_nodeCount_of_isDeleted deleted)).2 deleted
    exact ⟨wf_k, (frees.perm_holdings dead).trans same⟩
  have start : motive g := ⟨wf, .refl _⟩
  exact (swapAll_keeps step start executed kept ids).2

theorem Holds.runGc {t t' : Tiered α} {given : Holdings α} (holds : Holds t given)
    (wf : t.graph.WellFormed) {freed : Nat} (passed : t.runGc = (t', freed)) : Holds t' given := by
  cases none_ready : t.ready.isEmpty with
  | true =>
      simp only [Tiered.runGc, none_ready, if_true] at passed
      cases passed
      exact holds.perm rfl rfl (.refl _)
  | false =>
      obtain ⟨g, n, kept, swapped⟩ : ∃ g n kept,
          swapAll t.graph 0 [] t.passOrder = (g, n, kept) := ⟨_, _, _, rfl⟩
      obtain ⟨journal, own, eq⟩ := runGc_eq none_ready swapped
      rw [eq] at passed
      cases passed
      refine holds.perm rfl rfl (List.Perm.append_left _ ?_)
      have unmoved : g.shrinkToFit.holdings = g.holdings := by
        rw [Graph.shrinkToFit_eq]
        exact Graph.holdings_of_nodes_eq rfl rfl rfl
      have same := perm_holdings_swapAll wf 0 [] t.passOrder
      rw [swapped] at same
      exact (List.Perm.of_eq unmoved).trans same

variable [Element α]

/-! ### Storing -/

theorem holdings_grownGraph {t : Tiered α} (wf : t.graph.WellFormed)
    (few : t.graph.nodeCount < Graph.idLimit) {label : Label}
    (absent : t.graph.config.multi = false → t.graph.contains label = false) {vector : List α}
    {g : Graph α} {id : Nat} (inserted : t.grownGraph.insert label vector = .ok (g, id)) :
    g.holdings = t.graph.holdings ++ [(label, t.graph.config.metric.prepare vector)] := by
  obtain ⟨config, nodes, vectors, labels⟩ := grownGraph_same t
  obtain ⟨wf_grown, _⟩ := wellFormed_grownGraph wf few
  have unmapped : t.grownGraph.config.multi = false → t.grownGraph.contains label = false := by
    rw [config, Graph.contains, labels, ← Graph.contains]
    exact absent
  obtain ⟨_, stores, _⟩ := wf_grown.insert unmapped inserted
  rw [stores.holdings_eq, Graph.holdings_of_nodes_eq config nodes vectors, config]

/-- Placing a vector adds it to one of the parts. -/
theorem Tracked.holdings_place {t t' : Tiered α} {tasks : List Task} {followup followup' : Followup}
    (tracked : Tracked t (followup.tasks ++ tasks))
    (few : t.graph.nodeCount + t.flat.size < Graph.idLimit) {label : Label}
    (unbuffered : t.config.graph.multi = false →
      ∀ row ∈ t.flat.rows, row.label ≠ label)
    (absent : t.config.graph.multi = false → t.graph.contains label = false) {vector : List α}
    (fits : checkDimension t.config.graph.dim.toNat vector.length = .ok ())
    (metric_eq : t.flat.metric = t.config.graph.metric) {result : Except Failure Unit}
    (placed : t.place followup label vector = (t', followup', result)) :
    result = .ok () ∧ t'.flat.metric = t.flat.metric ∧
      t'.holdings.Perm (t.holdings ++ [(label, t.config.graph.metric.prepare vector)]) := by
  have config := tracked.graph_config
  rw [Tiered.place] at placed
  by_cases direct : t.writesDirectly = true
  · rw [if_pos direct] at placed
    rw [← config] at absent fits
    obtain ⟨g, id, inserted, _⟩ :=
      insert_grownGraph tracked.graph_wf tracked.tended (by omega) absent fits
    have held := holdings_grownGraph tracked.graph_wf (by omega) absent inserted
    rw [grownGraph] at inserted
    obtain ⟨journal, own, taken⟩ := withGraph_eq t t.graph.ensureCapacity
    obtain ⟨journal', own', taken'⟩ := withGraph_eq (t.withGraph t.graph.ensureCapacity) g
    dsimp only at placed
    rw [inserted] at placed
    dsimp only at placed
    rw [taken', taken] at placed
    cases placed
    refine ⟨rfl, rfl, .of_eq ?_⟩
    change t.flat.holdings ++ g.holdings = t.flat.holdings ++ t.graph.holdings ++ _
    rw [held, config, List.append_assoc]
  · rw [if_neg direct] at placed
    have fits : checkDimension t.flat.dim vector.length = .ok () := tracked.flat_dim ▸ fits
    have length := (checkDimension_eq_ok_iff.1 fits).1
    have added := Flat.addEntry_eq_ok tracked.flat_wf label fits (tracked.flat_multi ▸ unbuffered)
    rw [added] at placed
    cases placed
    refine ⟨rfl, rfl, ?_⟩
    rw [holdings, Flat.holdings_push tracked.flat_wf label length, metric_eq, holdings,
      List.append_assoc, List.append_assoc]
    exact List.Perm.append_left _ List.perm_append_comm

/-- The form in which a vector is stored is the one given, unless the metric scales vectors. -/
theorem prepare_of_plain {metric : Metric} (plain : metric.normalizes = false) (vector : List α) :
    metric.prepare vector = vector := by
  rw [Metric.prepare, plain]
  exact if_neg Bool.noConfusion

/-- A write adds its vector, or the dimension is wrong and nothing happens. -/
theorem Holds.write {t t' : Tiered α} {tasks : List Task} {given : Holdings α}
    (holds : Holds t given) (tracked : Tracked t tasks)
    (few : t.graph.nodeCount + t.flat.size < Graph.idLimit) {label : Label} {vector : List α}
    {followup : Followup} {result : Except Failure Unit}
    (written : t.write label vector = (t', followup, result)) :
    (checkDimension t.config.graph.dim.toNat vector.length = .ok () ∧ result = .ok () ∧
        Holds t' (given.store t.config.graph.multi label vector)) ∨
      ∃ fault, checkDimension t.config.graph.dim.toNat vector.length = .error fault ∧
        result = .error (.vector fault) ∧ t' = t ∧ followup = {} := by
  rw [Tiered.write] at written
  cases fits : checkDimension t.config.graph.dim.toNat vector.length with
  | error fault =>
      rw [fits] at written
      cases written
      exact .inr ⟨fault, rfl, rfl, rfl, rfl⟩
  | ok _ =>
      rw [fits] at written
      dsimp only at written
      refine .inl ⟨rfl, ?_⟩
      cases multi : t.config.graph.multi with
      | true =>
          have several : t.config.graph.multi = false → False := fun single => by
            rw [multi] at single
            cases single
          rw [if_pos multi] at written
          have start : Tracked t (({} : Followup).tasks ++ tasks) := tracked
          obtain ⟨done, metric_eq, same⟩ := start.holdings_place few
            (fun single => (several single).elim) (fun single => (several single).elim) fits
            holds.metric_eq written
          obtain ⟨_, _, config_eq, _⟩ := start.place rfl few
            (fun single => (several single).elim) (fun single => (several single).elim) fits written
          refine ⟨done, ?_, ?_⟩
          · rw [metric_eq, config_eq]
            exact holds.metric_eq
          · rw [config_eq]
            exact (holds.agrees.append label fun plain => prepare_of_plain plain vector).perm same
      | false =>
          rw [if_neg (Bool.eq_false_iff.1 multi)] at written
          obtain ⟨t₁, followup₁, result₁, removed⟩ : ∃ t₁ followup₁ result₁,
              t.removeLabel label = (t₁, followup₁, result₁) := ⟨_, _, _, rfl⟩
          obtain ⟨⟨count, rfl⟩, tracked₁, none, config₁, _, _, fewer, unbuffered, absent, _⟩ :=
            tracked.removeLabel removed
          obtain ⟨holds₁, _⟩ := holds.removeLabel tracked removed
          rw [removed] at written
          have few₁ := Nat.lt_of_le_of_lt fewer few
          obtain ⟨done, metric_eq, same⟩ := tracked₁.holdings_place few₁ (fun _ => unbuffered)
            (fun _ => absent) (config₁ ▸ fits) holds₁.metric_eq written
          obtain ⟨_, _, config_eq, _⟩ := tracked₁.place none few₁ (fun _ => unbuffered)
            (fun _ => absent) (config₁ ▸ fits) written
          refine ⟨done, ?_, ?_⟩
          · rw [metric_eq, config_eq]
            exact holds₁.metric_eq
          · rw [config_eq]
            exact (holds₁.agrees.append label fun plain => prepare_of_plain plain vector).perm same

/-! ### Jobs -/

/-- Absorbing a vector moves it from the buffer into the graph. -/
theorem Holds.absorb {t t' : Tiered α} {tasks : List Task} {given : Holdings α} {entry : Nat}
    {label : Label} (holds : Holds t given) (tracked : Tracked t (.insert entry label :: tasks))
    {outcome : Outcome} (done : t.absorb entry label = (t', outcome)) : Holds t' given := by
  rw [Tiered.absorb] at done
  cases found : t.flat.entry? entry with
  | none =>
      rw [found] at done
      cases done
      exact holds
  | some row =>
      obtain ⟨mem, here⟩ := tracked.flat_wf.entry?_eq_some_iff.1 found
      have label_eq : row.label = label := tracked.buffered.label_eq mem here
      have shorter := size_removeEntry_lt tracked.flat_wf mem
      have room := tracked.room
      have config := tracked.graph_config
      have absent : t.graph.config.multi = false → t.graph.contains label = false := fun single =>
        label_eq ▸ tracked.unmapped (config ▸ single) row mem
      have fits : checkDimension t.graph.config.dim.toNat row.vector.length = .ok () := by
        refine checkDimension_eq_ok_iff.2 ⟨?_, Graph.dim_pos tracked.graph_wf.usable⟩
        rw [tracked.flat_wf.vector_length row mem, tracked.flat_dim, config]
      obtain ⟨g, id, inserted, _⟩ :=
        insert_grownGraph tracked.graph_wf tracked.tended (by omega) absent fits
      have held := holdings_grownGraph tracked.graph_wf (by omega) absent inserted
      have taken_out := Flat.perm_holdings_removeEntry tracked.flat_wf mem
      rw [grownGraph] at inserted
      obtain ⟨journal, own, taken⟩ := withGraph_eq t t.graph.ensureCapacity
      obtain ⟨journal', own', taken'⟩ := withGraph_eq (t.withGraph t.graph.ensureCapacity) g
      rw [found] at done
      dsimp only at done
      rw [inserted] at done
      dsimp only at done
      rw [taken', taken] at done
      cases done
      subst here label_eq
      refine ⟨?_, ?_⟩
      · dsimp only
        rw [Flat.removeEntry_eq]
        exact holds.metric_eq
      · dsimp only
        have before : t.holdings.Perm ((row.label, row.vector) ::
            ((t.flat.removeEntry row.entry).1.holdings ++ t.graph.holdings)) :=
          taken_out.append_right _
        have after := (holds.agrees.perm before.symm).replace
          fun plain => prepare_of_plain plain row.vector
        refine after.perm ?_
        change ((t.flat.removeEntry row.entry).1.holdings ++ g.holdings).Perm _
        rw [held, config, ← List.append_assoc]
        exact List.perm_append_singleton ..

/-- A repair moves nothing. -/
theorem Holds.repairNode {t t' : Tiered α} {given : Holdings α} (holds : Holds t given)
    (wf : t.graph.WellFormed) {id x : Nat} {outcome : Outcome} {next? : Option Task}
    (done : t.repairNode id x = (t', outcome, next?)) : Holds t' given := by
  unfold Tiered.repairNode at done
  dsimp only at done
  split at done
  · cases done
    exact holds.perm rfl rfl (.refl _)
  · split at done
    · cases done
      exact holds.perm rfl rfl (.refl _)
    case h_2 h repaired =>
      obtain ⟨_, rewired, _⟩ := wf.repair repaired
      obtain ⟨journal, own, taken⟩ :=
        withGraph_eq { t with pendingRepairs := t.pendingRepairs - 1 } h
      have same : (t.flat.holdings ++ h.holdings).Perm t.holdings := by
        rw [rewired.holdings_eq]
        exact .refl _
      rw [taken] at done
      split at done <;>
        · cases done
          exact holds.perm rfl rfl same

theorem Holds.perform {t t' : Tiered α} {task : Task} {tasks : List Task} {given : Holdings α}
    (holds : Holds t given) (tracked : Tracked t (task :: tasks)) {outcome : Outcome}
    {next? : Option Task} (done : t.perform task = (t', outcome, next?)) : Holds t' given := by
  cases task with
  | insert entry label =>
      obtain ⟨t₁, outcome₁, absorbed⟩ : ∃ t₁ outcome₁,
          t.absorb entry label = (t₁, outcome₁) := ⟨_, _, rfl⟩
      rw [Tiered.perform, absorbed] at done
      cases done
      exact holds.absorb tracked absorbed
  | repair id x => exact holds.repairNode tracked.graph_wf done
  | swap =>
      obtain ⟨t₁, freed, passed⟩ : ∃ t₁ freed, t.runGc = (t₁, freed) := ⟨_, _, rfl⟩
      rw [Tiered.perform, passed] at done
      cases done
      exact holds.runGc tracked.graph_wf passed

/-! ### What the calls have left -/

namespace World

/-- What happens without a call. -/
inductive Background : World α → World α → Prop where
  /-- A recorded task is handed out. -/
  | submit {w : World α} (front back : List Task) (task : Task) :
      w.due = front ++ task :: back →
      Background w { w with
        index := w.index.submit task, due := front ++ back, handed := w.handed ++ [task] }
  /-- A pass is made. -/
  | pass {w : World α} {t : Tiered α} {freed : Nat} :
      w.index.runGc = (t, freed) → Background w { w with index := t }
  /-- A job that was handed out runs. -/
  | run {w : World α} (front back : List Task) (task : Task) {t : Tiered α} {outcome : Outcome}
      {next? : Option Task} :
      w.handed = front ++ task :: back →
      (w.index.begin task).perform task = (t, outcome, next?) →
      Background w { w with
        index := t, due := w.due ++ next?.toList, handed := front ++ back
        ending := w.ending ++ [(task, outcome)] }
  /-- A job that has run is counted as finished. -/
  | finish {w : World α} (front back : List (Task × Outcome)) (task : Task) (outcome : Outcome) :
      w.ending = front ++ (task, outcome) :: back →
      Background w { w with index := w.index.finish task outcome, ending := front ++ back }

/-- A list on which only a write that succeeds acts. -/
def stored (multi : Bool) (given : Holdings α) (label : Label) (vector : List α) :
    Except Failure Unit → Holdings α
  | .ok () => given.store multi label vector
  | .error _ => given

/-- The states that steps lead to, with what the calls among them leave in a plain list. -/
inductive Held (config : Config) : World α → Holdings α → Prop where
  | new {t : Tiered α} : Tiered.new config = .ok t → Held config { index := t } []
  | write {w : World α} {given : Holdings α} (label : Label) (vector : List α) {t : Tiered α}
      {followup : Followup} {result : Except Failure Unit} :
      Held config w given → w.index.graph.nodeCount + w.index.flat.size < Graph.idLimit →
      w.index.write label vector = (t, followup, result) →
      Held config { w with index := t, due := w.due ++ followup.tasks }
        (stored config.graph.multi given label vector result)
  | delete {w : World α} {given : Holdings α} (label : Label) {t : Tiered α} {followup : Followup}
      {result : Except Failure Nat} :
      Held config w given → w.index.removeLabel label = (t, followup, result) →
      Held config { w with index := t, due := w.due ++ followup.tasks } (given.delete label)
  | background {w w' : World α} {given : Holdings α} :
      Held config w given → Background w w' → Held config w' given

theorem Background.step {w w' : World α} (background : Background w w') : Step w w' := by
  cases background with
  | submit front back task due => exact .submit front back task due
  | pass passed => exact .pass passed
  | run front back task handed done => exact .run front back task handed done
  | finish front back task outcome ending => exact .finish front back task outcome ending

theorem Held.reachable {config : Config} {w : World α} {given : Holdings α}
    (held : Held config w given) : Reachable config w := by
  induction held with
  | new made => exact .new made
  | write label vector _ few written ih => exact ih.step (.write label vector few written)
  | delete label _ removed ih => exact ih.step (.delete label removed)
  | background _ background ih => exact ih.step background.step

/-- Every state that steps lead to comes with such a list. -/
theorem Reachable.held {config : Config} {w : World α} (reachable : Reachable config w) :
    ∃ given, Held config w given := by
  induction reachable with
  | new made => exact ⟨[], .new made⟩
  | step _ step ih =>
      obtain ⟨given, held⟩ := ih
      cases step with
      | write label vector few written => exact ⟨_, held.write label vector few written⟩
      | delete label removed => exact ⟨_, held.delete label removed⟩
      | submit front back task due => exact ⟨_, held.background (.submit front back task due)⟩
      | pass passed => exact ⟨_, held.background (.pass passed)⟩
      | run front back task handed done =>
          exact ⟨_, held.background (.run front back task handed done)⟩
      | finish front back task outcome ending =>
          exact ⟨_, held.background (.finish front back task outcome ending)⟩

theorem holds_background {config : Config} {w w' : World α} {given : Holdings α}
    (holds : Holds w.index given) (consistent : Consistent config w)
    (background : Background w w') : Holds w'.index given := by
  cases background with
  | submit => exact holds.perm rfl rfl (.refl _)
  | pass passed => exact holds.runGc consistent.tracked.graph_wf passed
  | run front back task handed done =>
      have start : Holds (w.index.begin task) given := holds.perm rfl rfl (.refl _)
      exact start.perform (consistent.begun handed) done
  | finish => exact holds.perm rfl rfl (.refl _)

/-- In every state the index holds what the calls have left. -/
theorem Held.holds {config : Config} {w : World α} {given : Holdings α}
    (held : Held config w given) : Consistent config w ∧ Holds w.index given := by
  refine ⟨held.reachable.consistent, ?_⟩
  induction held with
  | new made => exact holds_new made
  | write label vector held few written ih =>
      have consistent := held.reachable.consistent
      rw [← consistent.config_eq]
      rcases ih.write consistent.tracked few written with
        ⟨_, rfl, holds⟩ | ⟨fault, _, rfl, rfl, rfl⟩
      · exact holds
      · exact ih
  | delete label held removed ih =>
      exact (ih.removeLabel held.reachable.consistent.tracked removed).1
  | background held background ih => exact holds_background ih held.reachable.consistent background

/-- With one vector a label the list has no more either. -/
theorem Held.count_le {config : Config} (single : config.graph.multi = false) {w : World α}
    {given : Holdings α} (held : Held config w given) (label : Label) : given.count label ≤ 1 := by
  induction held generalizing label with
  | new => exact Nat.zero_le 1
  | @write _ given l vector _ _ result _ _ _ ih =>
      cases result with
      | ok _ =>
          rw [single]
          exact Holdings.count_store_le ih l vector label
      | error failure => exact ih label
  | delete l _ _ ih =>
      rw [Holdings.count_delete]
      split
      · exact Nat.zero_le 1
      · exact ih label
  | background _ _ ih => exact ih label

end World

end Vicinity.Tiered
