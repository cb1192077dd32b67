import Vicinity.Proofs.Graph.Integrity
import Vicinity.Proofs.Tiered.Scheduling

/-!
Running waiting jobs until none is left.

A job weighs more than the one it submits, so the owner of a backlog can run the oldest job only so
many times (`Runs.weight_le`), and running all of them ends with none waiting (`runs_runAll`). What
is left then has no buffered vector and no node that awaits repair.

That the ready nodes are few then needs that no pass was missed. A pass can leave all nodes ready
when the last slot holds one that awaits repair, so the length of the list alone does not call for a
pass; `PassAhead` says that with enough nodes ready some waiting job will make one: a swap, or a
repair that submits it unless one waits already. Every operation keeps this, and without jobs it
says that the ready nodes are fewer than those a pass is made for. `Reachable.drained` puts this
together.

Where every job runs at once there is no backlog to run, and what is left after a call is the same
(`Inline.Reachable.only_pass_left`).
-/

namespace Vicinity.Tiered

variable {α : Type}

theorem gcThreshold_pos (config : Config) : 0 < config.gcThreshold := Nat.le_max_right ..

/-- When enough nodes are ready for a pass, a job that waits will make one. -/
structure PassAhead (t : Tiered α) (jobs : List Task) : Prop where
  due : t.config.gcThreshold ≤ t.ready.length → ∃ task ∈ jobs, task.kind ≠ .insert
  scheduled : t.swapScheduled = true → .swap ∈ jobs

theorem passAhead_new {config : Config} {t : Tiered α} (made : Tiered.new config = .ok t) :
    PassAhead t [] := by
  have empty : t.ready = [] ∧ t.swapScheduled = false := by
    unfold Tiered.new at made
    split at made
    · contradiction
    · cases made
      exact ⟨rfl, rfl⟩
  constructor
  case due =>
    intro enough
    have positive := gcThreshold_pos t.config
    rw [empty.1, List.length_nil] at enough
    omega
  case scheduled =>
    intro scheduled
    rw [empty.2] at scheduled
    contradiction

/-- After a pass, nodes are ready only when a repair waits. -/
theorem passAhead_runGc {t t' : Tiered α} {jobs : List Task} (tracked : Tracked t jobs)
    {freed : Nat} (passed : t.runGc = (t', freed)) : PassAhead t' jobs := by
  obtain ⟨_, _, _, _, unscheduled, _, emptied⟩ := tracked.runGc passed
  constructor
  case due =>
    intro enough
    by_cases none : repairsOf jobs = []
    · have positive := gcThreshold_pos t'.config
      rw [emptied none, List.length_nil] at enough
      omega
    · obtain ⟨⟨id, x⟩, named⟩ := List.exists_mem_of_ne_nil _ none
      exact ⟨_, mem_repairsOf.1 named, Kind.noConfusion⟩
  case scheduled =>
    intro scheduled
    rw [unscheduled] at scheduled
    contradiction

/-- Handing tasks out puts them behind the others and counts them. -/
theorem Backlog.submitAll_eq (t : Tiered α) (jobs tasks : List Task) :
    ∃ registry, tasks.foldl (fun s task => Backlog.submit s.1 s.2 task) (t, jobs) =
      ({ t with registry }, jobs ++ tasks) := by
  induction tasks generalizing t jobs with
  | nil => exact ⟨t.registry, by simp⟩
  | cons task tasks ih =>
      obtain ⟨registry, handed⟩ := ih (t.submit task) (jobs ++ [task])
      refine ⟨registry, ?_⟩
      rw [List.foldl_cons, Backlog.submit, handed, List.append_assoc]
      rfl

namespace PassAhead

theorem mono {t : Tiered α} {jobs jobs' : List Task} (ahead : PassAhead t jobs)
    (among : jobs ⊆ jobs') : PassAhead t jobs' := by
  constructor
  case due =>
    intro enough
    obtain ⟨task, mem, kind⟩ := ahead.due enough
    exact ⟨task, among mem, kind⟩
  case scheduled => exact fun now => among (ahead.scheduled now)

/-- A write that has no pass to make leaves it to the jobs. -/
theorem written {t t' : Tiered α} {jobs : List Task} {followup : Followup}
    (ahead : PassAhead t jobs) (config : t'.config = t.config)
    (scheduled : t'.swapScheduled = t.swapScheduled)
    (due : followup.gcDue = decide (t'.config.gcThreshold ≤ t'.ready.length) ∨
      t'.ready = t.ready ∧ followup.gcDue = false)
    (no_pass : followup.gcDue = false) : PassAhead t' jobs := by
  constructor
  case due =>
    intro enough
    rcases due with due | ⟨same, _⟩
    · rw [no_pass] at due
      exact absurd enough (of_decide_eq_false due.symm)
    · exact ahead.due (config ▸ same ▸ enough)
  case scheduled => exact fun now => ahead.scheduled (scheduled ▸ now)

/-- A write makes a pass itself when it leaves enough nodes ready. -/
theorem settle {t t' : Tiered α} {jobs : List Task} {followup : Followup} (ahead : PassAhead t jobs)
    (tracked : Tracked t' (followup.tasks ++ jobs)) (config : t'.config = t.config)
    (scheduled : t'.swapScheduled = t.swapScheduled)
    (due : followup.gcDue = decide (t'.config.gcThreshold ≤ t'.ready.length) ∨
      t'.ready = t.ready ∧ followup.gcDue = false) :
    PassAhead (Backlog.settle t' jobs followup).1 (Backlog.settle t' jobs followup).2 := by
  obtain ⟨registry, handed⟩ := Backlog.submitAll_eq t' jobs followup.tasks
  simp only [Backlog.settle, handed]
  cases gc : followup.gcDue with
  | true => exact passAhead_runGc ((tracked.withRegistry registry).perm List.perm_append_comm) rfl
  | false =>
      have ahead' := (ahead.written config scheduled due gc).mono
        (List.subset_append_left jobs followup.tasks)
      exact ⟨ahead'.due, ahead'.scheduled⟩

variable [Element α]

/-- A job that runs makes the pass, leaves it to the others, or submits it. -/
theorem perform {t t' : Tiered α} {jobs : List Task} {task : Task} {outcome : Outcome}
    {next? : Option Task} (ahead : PassAhead t (task :: jobs)) (tracked : Tracked t (task :: jobs))
    (done : t.perform task = (t', outcome, next?)) : PassAhead t' (jobs ++ next?.toList) := by
  cases task with
  | insert entry label =>
      cases done
      obtain ⟨_, _, config, _, ready, scheduled⟩ := tracked.absorb rfl
      constructor
      case due =>
        intro enough
        rw [config, ready] at enough
        obtain ⟨task, mem, kind⟩ := ahead.due enough
        rcases List.mem_cons.1 mem with rfl | mem
        · exact absurd rfl kind
        · exact ⟨task, List.mem_append_left _ mem, kind⟩
      case scheduled =>
        intro now
        have mem := ahead.scheduled (scheduled ▸ now)
        exact List.mem_append_left _ (List.mem_of_ne_of_mem Task.noConfusion mem)
  | repair id x =>
      obtain ⟨_, _, config, _, _, _, _, _, how⟩ := tracked.repairNode done
      rcases how with ⟨rfl, _⟩ | ⟨rfl, scheduled, called⟩
      · have last : Task.swap ∈ jobs ++ [.swap] := List.mem_append_right _ List.mem_cons_self
        exact ⟨fun _ => ⟨_, last, Kind.noConfusion⟩, fun _ => last⟩
      · have waits : t.swapScheduled = true → Task.swap ∈ jobs ++ [] := fun now =>
          List.mem_append_left _ (List.mem_of_ne_of_mem Task.noConfusion (ahead.scheduled now))
        constructor
        case due => exact fun enough => ⟨_, waits (called enough), Kind.noConfusion⟩
        case scheduled => exact fun now => waits (scheduled ▸ now)
  | swap =>
      cases done
      exact (passAhead_runGc (tracked_cons_swap.1 tracked) rfl).mono
        (List.subset_append_left jobs [])

theorem execute {t : Tiered α} {jobs : List Task} {task : Task} (ahead : PassAhead t (task :: jobs))
    (tracked : Tracked t (task :: jobs)) :
    PassAhead (Backlog.execute t jobs task).1 (Backlog.execute t jobs task).2.1 := by
  obtain ⟨t', outcome, next?, done⟩ : ∃ t' outcome next?,
      (t.begin task).perform task = (t', outcome, next?) := ⟨_, _, _, rfl⟩
  have begun : PassAhead (t.begin task) (task :: jobs) := ⟨ahead.due, ahead.scheduled⟩
  obtain ⟨due, scheduled⟩ := begun.perform (tracked.withRegistry _) done
  simp only [Backlog.execute, done]
  cases next? with
  | none =>
      rw [Option.toList_none, List.append_nil] at due scheduled
      exact ⟨due, scheduled⟩
  | some next => exact ⟨due, scheduled⟩

end PassAhead

namespace Backlog

variable [Element α]

/-! ### Running jobs -/

/-- The oldest job is run, so many times. -/
inductive Runs : Backlog α → Nat → Backlog α → Prop where
  | stop (b : Backlog α) : Runs b 0 b
  | next {b b' b'' : Backlog α} {outcome : Outcome} {ran : Nat} :
      b.runNext? = some (b', outcome) → Runs b' ran b'' → Runs b (ran + 1) b''

theorem runNext?_eq_none {b : Backlog α} : b.runNext? = none ↔ b.jobs = [] := by
  unfold runNext?
  cases b.jobs with
  | nil => exact ⟨fun _ => rfl, fun _ => rfl⟩
  | cons task jobs => exact ⟨fun h => by contradiction, fun h => by contradiction⟩

/-- Each job that runs takes some weight away. -/
theorem Runs.weight_le {b b' : Backlog α} {ran : Nat} (runs : Runs b ran b') :
    b'.weight + ran ≤ b.weight := by
  induction runs with
  | stop => exact Nat.le_refl _
  | next first _ ih =>
      have lighter := weight_runNext? first
      omega

/-- No run is longer than one after which no job waits. -/
theorem Runs.le_of_drained {b b' : Backlog α} {ran : Nat} (runs : Runs b ran b') {last : Backlog α}
    {all : Nat} (drained : Runs b all last) (no_job : last.jobs = []) : ran ≤ all := by
  induction runs generalizing all with
  | stop => exact Nat.zero_le _
  | next first _ ih =>
      cases drained with
      | stop =>
          rw [runNext?_eq_none.2 no_job] at first
          contradiction
      | next first' rest =>
          rw [first] at first'
          cases first'
          exact Nat.succ_le_succ (ih rest)

/-- Running all jobs runs the oldest until none waits. -/
theorem runs_runAll (b : Backlog α) (before : Nat) :
    ∃ ran, Runs b ran (b.runAll before).1 ∧ (b.runAll before).2 = before + ran ∧
      (b.runAll before).1.jobs = [] := by
  fun_induction runAll b before with
  | case1 b before none_left => exact ⟨0, .stop b, rfl, runNext?_eq_none.1 none_left⟩
  | case2 b before b' outcome first ih =>
      obtain ⟨ran, runs, count, no_job⟩ := ih
      exact ⟨ran + 1, .next first runs, by omega, no_job⟩

/-! ### Every state -/

/-- The states that calls lead to, starting with an empty index. -/
inductive Reachable (config : Config) : Backlog α → Prop where
  | new {t : Tiered α} : Tiered.new config = .ok t → Reachable config ⟨some t, []⟩
  /-- A vector is stored, when there is an id left for it. -/
  | add {t t' : Tiered α} {jobs jobs' : List Task} (label : Label) (vector : List α)
      {result : Except Failure Unit} :
      Reachable config ⟨some t, jobs⟩ → t.graph.nodeCount + t.flat.size < Graph.idLimit →
      Backlog.add t jobs label vector = (t', jobs', result) → Reachable config ⟨some t', jobs'⟩
  | delete {t t' : Tiered α} {jobs jobs' : List Task} (label : Label)
      {result : Except Failure Nat} :
      Reachable config ⟨some t, jobs⟩ → Backlog.delete t jobs label = (t', jobs', result) →
      Reachable config ⟨some t', jobs'⟩
  | runNext {b b' : Backlog α} {outcome : Outcome} :
      Reachable config b → b.runNext? = some (b', outcome) → Reachable config b'
  | runGc {t t' : Tiered α} {jobs : List Task} {freed : Nat} :
      Reachable config ⟨some t, jobs⟩ → t.runGc = (t', freed) → Reachable config ⟨some t', jobs⟩
  | runAll {b b' : Backlog α} {ran : Nat} :
      Reachable config b → b.runAll 0 = (b', ran) → Reachable config b'

/-- The index is there with the jobs that are left to do, and no pass was missed. -/
structure Serviced (config : Config) (b : Backlog α) (t : Tiered α) : Prop where
  index_eq : b.index? = some t
  reachable : World.Reachable config { index := t, handed := b.jobs }
  pass_ahead : PassAhead t b.jobs

theorem Serviced.tracked {config : Config} {b : Backlog α} {t : Tiered α}
    (serviced : Serviced config b t) : Tracked t b.jobs := serviced.reachable.consistent.tracked

theorem Serviced.runNext? {config : Config} {b b' : Backlog α} {t : Tiered α}
    (serviced : Serviced config b t) {outcome : Outcome}
    (ran : b.runNext? = some (b', outcome)) : ∃ t', Serviced config b' t' := by
  obtain ⟨index?, jobs⟩ := b
  have index_eq : index? = some t := serviced.index_eq
  subst index_eq
  cases jobs with
  | nil => cases ran
  | cons task jobs =>
      cases ran
      exact ⟨_, rfl, serviced.reachable.execute [],
        serviced.pass_ahead.execute serviced.tracked⟩

theorem Serviced.runs {config : Config} {b b' : Backlog α} {ran : Nat} (runs : Runs b ran b')
    {t : Tiered α} (serviced : Serviced config b t) : ∃ t', Serviced config b' t' := by
  induction runs generalizing t with
  | stop => exact ⟨t, serviced⟩
  | next first _ ih =>
      obtain ⟨_, serviced⟩ := serviced.runNext? first
      exact ih serviced

theorem Reachable.serviced {config : Config} {b : Backlog α} (reachable : Reachable config b) :
    ∃ t, Serviced config b t := by
  induction reachable with
  | new made => exact ⟨_, rfl, .new made, passAhead_new made⟩
  | @add t _ _ _ label vector _ _ few added ih =>
      obtain ⟨_, index_eq, reachable, pass_ahead⟩ := ih
      cases index_eq
      obtain ⟨t₁, followup, result₁, written⟩ : ∃ t₁ followup result₁,
          t.write label vector = (t₁, followup, result₁) := ⟨_, _, _, rfl⟩
      obtain ⟨tracked, config, _, scheduled, due⟩ :=
        reachable.consistent.tracked.write few written
      have served := pass_ahead.settle tracked config scheduled due
      have reached := reachable.add few label vector
      simp only [Backlog.add, written] at added reached
      cases added
      exact ⟨_, rfl, reached, served⟩
  | @delete t _ _ _ label _ _ deleted ih =>
      obtain ⟨_, index_eq, reachable, pass_ahead⟩ := ih
      cases index_eq
      obtain ⟨t₁, followup, result₁, removed⟩ : ∃ t₁ followup result₁,
          t.removeLabel label = (t₁, followup, result₁) := ⟨_, _, _, rfl⟩
      obtain ⟨_, tracked, _, config, _, scheduled, _, _, _, due⟩ :=
        reachable.consistent.tracked.removeLabel removed
      have served := pass_ahead.settle tracked config scheduled due
      have reached := reachable.delete label
      simp only [Backlog.delete, removed] at deleted reached
      cases deleted
      exact ⟨_, rfl, reached, served⟩
  | runNext _ ran ih =>
      obtain ⟨_, serviced⟩ := ih
      exact serviced.runNext? ran
  | runGc _ passed ih =>
      obtain ⟨_, index_eq, reachable, _⟩ := ih
      cases index_eq
      exact ⟨_, rfl, reachable.step (.pass passed),
        passAhead_runGc reachable.consistent.tracked passed⟩
  | @runAll b _ _ _ ran ih =>
      obtain ⟨_, serviced⟩ := ih
      obtain ⟨_, runs, _⟩ := runs_runAll b 0
      rw [ran] at runs
      exact serviced.runs runs

/-! ### No job left -/

/-- All that is left to do is one pass. -/
structure Drained (config : Config) (t : Tiered α) : Prop where
  buffer_empty : t.flat.size = 0
  no_repair_pending : t.pendingRepairs = 0
  none_pending : ∀ kind, t.registry.pending kind = 0
  few_ready : t.ready.length < config.gcThreshold
  deleted_ready : ∀ id, t.graph.isDeleted id = true → id ∈ t.ready
  pass_frees_all : ∀ t' freed, t.runGc = (t', freed) →
    freed = t.ready.length ∧ t'.ready = [] ∧ t'.graph.markedCount = 0

theorem Serviced.only_pass_left {config : Config} {t : Tiered α}
    (serviced : Serviced config ⟨some t, []⟩ t) : Drained config t := by
  obtain ⟨config_eq, tracked, counted, _⟩ := serviced.reachable.consistent
  constructor
  case buffer_empty =>
    rw [← Flat.length_rows, List.length_eq_zero_iff]
    refine List.eq_nil_iff_forall_not_mem.2 fun row mem => ?_
    cases tracked.buffered.covered row mem
  case no_repair_pending => exact tracked.pending
  case none_pending => exact fun kind => counted.pending_eq kind
  case few_ready =>
    refine Nat.lt_of_not_le fun enough => ?_
    obtain ⟨_, mem, _⟩ := serviced.pass_ahead.due (config_eq ▸ enough)
    cases mem
  case deleted_ready =>
    intro id deleted
    rcases tracked.tended.covered id deleted with ready | ⟨_, named⟩
    · exact ready
    · cases named
  case pass_frees_all =>
    intro t' freed passed
    obtain ⟨tracked', _, _, _, _, total, emptied⟩ := tracked.runGc passed
    have none_ready : t'.ready = [] := emptied rfl
    rw [none_ready, List.length_nil] at total
    refine ⟨total, none_ready, ?_⟩
    rw [tracked'.tended.markedCount_eq tracked'.graph_wf.stocked.toFilled, none_ready]
    rfl

/-- Whatever was called, the waiting jobs run out, and one pass then removes every deleted node. -/
theorem Reachable.drained {config : Config} {b : Backlog α} (reachable : Reachable config b) :
    ∃ t ran, b.runAll 0 = (⟨some t, []⟩, ran) ∧ Runs b ran ⟨some t, []⟩ ∧ ran ≤ b.weight ∧
      (∀ other b', Runs b other b' → other ≤ ran) ∧ Drained config t := by
  obtain ⟨_, serviced⟩ := reachable.serviced
  obtain ⟨ran, runs, count, no_job⟩ := runs_runAll b 0
  obtain ⟨t, ended⟩ := serviced.runs runs
  have ended_eq : (b.runAll 0).1 = ⟨some t, []⟩ := by
    rw [← ended.index_eq, ← no_job]
  rw [ended_eq] at runs ended
  refine ⟨t, ran, Prod.ext ended_eq (count.trans (Nat.zero_add _)), runs, ?_, ?_,
    ended.only_pass_left⟩
  · exact Nat.le_of_add_left_le runs.weight_le
  · exact fun other b' shorter => shorter.le_of_drained runs rfl

/-- Two vectors were stored. The older one was moved into the graph and deleted, and the other one
waits in the buffer. -/
theorem drained_after_deletion :
    let first := Backlog.add World.emptyPlanes [] 7 [⟨0⟩, ⟨1⟩]
    let second := Backlog.add first.1 first.2.1 8 [⟨1⟩, ⟨0⟩]
    let moved := Backlog.execute second.1 [.insert 1 8] (.insert 0 7)
    let deleted := Backlog.delete moved.1 moved.2.1 7
    let b : Backlog Binary64 := ⟨some deleted.1, deleted.2.1⟩
    Reachable World.emptyPlanes.config b ∧
      ∃ t ran, b.runAll 0 = (⟨some t, []⟩, ran) ∧ Runs b ran ⟨some t, []⟩ ∧ ran ≤ b.weight ∧
        (∀ other b', Runs b other b' → other ≤ ran) ∧ Drained World.emptyPlanes.config t := by
  have empty : Reachable World.emptyPlanes.config ⟨some World.emptyPlanes, []⟩ := .new rfl
  have first := empty.add 7 [⟨0⟩, ⟨1⟩] (by decide) rfl
  have second := first.add 8 [⟨1⟩, ⟨0⟩] (by decide) rfl
  have moved := second.runNext rfl
  have deleted := moved.delete 7 rfl
  exact ⟨deleted, deleted.drained⟩

end Backlog

/-! ### Jobs at once -/

namespace Inline

variable [Element α] {config : Config}

/-- A task that is due can be done first. -/
theorem tracked_of_due {t : Tiered α} {front back : List Task} {task : Task}
    {ending : List (Task × Outcome)}
    (reachable : World.Reachable config { index := t, due := front ++ task :: back, ending }) :
    Tracked t (task :: (front ++ back)) := by
  have outstanding : (front ++ task :: back ++ []).Perm (task :: (front ++ back)) := by
    rw [List.append_nil]
    exact List.perm_middle
  exact reachable.consistent.tracked.perm outstanding.symm

/-- A task that runs at once, with all that it submits, leaves the pass to the other ones. -/
theorem passAhead_run {t : Tiered α} {task : Task} (front : List Task) {back : List Task}
    {ending : List (Task × Outcome)}
    (reachable : World.Reachable config { index := t, due := front ++ task :: back, ending })
    (ahead : PassAhead t (task :: (front ++ back))) :
    PassAhead (run t task).1 (front ++ back) := by
  fun_induction run t task generalizing front back ending with
  | case1 t task t₁ outcome done =>
      have begun : PassAhead ((t.submit task).begin task) (task :: (front ++ back)) :=
        ⟨ahead.due, ahead.scheduled⟩
      have first := tracked_of_due reachable
      obtain ⟨due, scheduled⟩ := begun.perform (first.withRegistry _) done
      rw [Option.toList_none, List.append_nil] at due scheduled
      exact ⟨due, scheduled⟩
  | case2 t task t₁ outcome next done t₂ inner ran_next ih =>
      have begun : PassAhead ((t.submit task).begin task) (task :: (front ++ back)) :=
        ⟨ahead.due, ahead.scheduled⟩
      have first := tracked_of_due reachable
      have performed := begun.perform (first.withRegistry _) done
      have ran := (reachable.step (.submit front back task rfl)).step (.run [] [] task rfl done)
      have inside := ih (front ++ back) ran (performed.mono ?_)
      · rw [ran_next, List.append_nil] at inside
        exact ⟨inside.due, inside.scheduled⟩
      · rw [List.append_nil]
        exact (List.perm_append_singleton next (front ++ back)).subset

theorem passAhead_runAll {tasks : List Task} {t : Tiered α} (finished : Finished)
    (reachable : World.Reachable config { index := t, due := tasks })
    (ahead : PassAhead t tasks) :
    PassAhead (tasks.foldl (fun (t, finished) task =>
      let (t, more) := run t task
      (t, finished ++ more)) (t, finished)).1 [] := by
  induction tasks generalizing t finished with
  | nil => exact ahead
  | cons task tasks ih => exact ih _ (reachable.runInline []) (passAhead_run [] reachable ahead)

/-- The tasks of a write run out before the write ends. -/
theorem serviced_settle {t : Tiered α} {followup : Followup}
    (reachable : World.Reachable config { index := t, due := followup.tasks })
    (ahead : followup.gcDue = false → PassAhead t followup.tasks) :
    Backlog.Serviced config ⟨some (settle t followup).1, []⟩ (settle t followup).1 := by
  refine ⟨rfl, reachable.settleInline, ?_⟩
  have ran := reachable
  rw [← List.append_nil followup.tasks] at ran
  have ran := ran.runAllInline []
  unfold settle
  dsimp only
  split
  case isTrue => exact passAhead_runGc ran.consistent.tracked rfl
  case isFalse no_pass =>
    exact passAhead_runAll [] reachable (ahead (Bool.eq_false_iff.2 no_pass))

/-- The states that calls lead to, starting with an empty index. -/
inductive Reachable (config : Config) : Tiered α → Prop where
  | new {t : Tiered α} : Tiered.new config = .ok t → Reachable config t
  /-- A vector is stored, when there is an id left for it. -/
  | add {t : Tiered α} (label : Label) (vector : List α) : Reachable config t →
      t.graph.nodeCount + t.flat.size < Graph.idLimit →
      Reachable config (Inline.add t label vector).1
  | delete {t : Tiered α} (label : Label) : Reachable config t →
      Reachable config (Inline.delete t label).1
  | runGc {t : Tiered α} : Reachable config t → Reachable config t.runGc.1

theorem Reachable.serviced {t : Tiered α} (reachable : Reachable config t) :
    Backlog.Serviced config ⟨some t, []⟩ t := by
  induction reachable with
  | new made => exact ⟨rfl, .new made, passAhead_new made⟩
  | @add t label vector _ few ih =>
      obtain ⟨_, reachable, pass_ahead⟩ := ih
      obtain ⟨_, config_eq, _, scheduled, due⟩ := reachable.consistent.tracked.write few rfl
      refine serviced_settle (reachable.step (.write label vector few rfl)) fun no_pass => ?_
      exact (pass_ahead.written config_eq scheduled due no_pass).mono (List.nil_subset _)
  | @delete t label _ ih =>
      obtain ⟨_, reachable, pass_ahead⟩ := ih
      obtain ⟨_, _, _, config_eq, _, scheduled, _, _, _, due⟩ :=
        reachable.consistent.tracked.removeLabel rfl
      refine serviced_settle (reachable.step (.delete label rfl)) fun no_pass => ?_
      exact (pass_ahead.written config_eq scheduled due no_pass).mono (List.nil_subset _)
  | runGc _ ih =>
      obtain ⟨_, reachable, _⟩ := ih
      exact ⟨rfl, reachable.step (.pass rfl), passAhead_runGc reachable.consistent.tracked rfl⟩

/-- Where every job runs at once, each call ends with one pass at most left to do. -/
theorem Reachable.only_pass_left {t : Tiered α} (reachable : Reachable config t) :
    Backlog.Drained config t ∧ t.swapScheduled = false := by
  have serviced := reachable.serviced
  refine ⟨serviced.only_pass_left, Bool.eq_false_iff.2 fun scheduled => ?_⟩
  exact List.not_mem_nil (serviced.pass_ahead.scheduled scheduled)

end Inline

end Vicinity.Tiered
