import Vicinity.Image.File
import Vicinity.Proofs.Graph.Numbering
import Vicinity.Proofs.Image.Truncation

/-!
A reloaded graph cannot be told from the one that was stored.

An image leaves out the serial numbers of the nodes and the messages, and nothing else. Neither has
a part in what a graph does: a call on two graphs that differ in no more (`Alike`) returns the same
to both, logs the same and leaves two graphs that differ in no more (`Blind.call`), and whatever can
be asked of one is answered alike by the other (`Alike.answer`). So after any calls on a stored
graph and on its reloaded twin, every answer, every failure, every message and the image of either
agree (`Reachable.reloaded`). The serial number of a slot is the one thing that may differ, and it
is the one thing that is not a `Question`.

The check of the structure is asked with the order in which it visits the labels, since a map of
labels has none: for the same order both graphs report the same violation. In two different orders
they may name different labels, but either both pass or neither does. As long as the calls are
admissible both pass, and there is nothing to name.
-/

namespace Vicinity

open Image

namespace Graph

variable {α : Type}

/-! ### Blind operations -/

/-- Two graphs that differ in their serial numbers and in what the first had logged before. -/
def Alike (earlier : Log.Journal) (g h : Graph α) : Prop := g.unnumbered [] = h.unnumbered earlier

theorem Alike.journal {earlier : Log.Journal} {g h : Graph α} (alike : Alike earlier g h) :
    g.journal = earlier ++ h.journal := congrArg Graph.journal alike

theorem Alike.labels {earlier : Log.Journal} {g h : Graph α} (alike : Alike earlier g h) :
    g.labels = h.labels := by
  have same : (g.unnumbered []).labels = (h.unnumbered earlier).labels :=
    congrArg Graph.labels alike
  exact same

/-- A graph and what is loaded from its image. -/
theorem alike_renumbered (g : Graph α) : Alike g.journal g g.renumbered := by
  have nodes : g.nodes.map Node.unnumbered = g.renumbered.nodes.map Node.unnumbered := by
    refine Array.ext_getElem? fun id => ?_
    rw [Array.getElem?_map, Array.getElem?_map, renumbered, Array.getElem?_mapIdx, Option.map_map]
    rfl
  unfold Alike unnumbered
  rw [nodes, List.nil_append]
  simp only [renumbered, List.append_nil]

/-- An operation that serial numbers and earlier messages make no difference to: it returns the same
without them, and leaves the same once they are forgotten. -/
def Blind {β : Type} (operation : Graph α → Graph α × β) : Prop :=
  ∀ (earlier : Log.Journal) (g : Graph α),
    Prod.map (unnumbered []) id (operation (g.unnumbered earlier)) =
      Prod.map (unnumbered earlier) id (operation g)

section Operations

variable {β : Type} {operation : Graph α → Graph α × β} {earlier : Log.Journal}

/-- Both graphs are compared with the one that has no numbers. -/
theorem Blind.alike {g h : Graph α} (blind : Blind operation) (alike : Alike earlier g h) :
    Prod.map (unnumbered []) id (operation g) =
      Prod.map (unnumbered earlier) id (operation h) := by
  calc Prod.map (unnumbered []) id (operation g)
      = Prod.map (unnumbered []) id (operation (g.unnumbered [])) := (blind [] g).symm
    _ = Prod.map (unnumbered []) id (operation (h.unnumbered earlier)) := by rw [alike]
    _ = Prod.map (unnumbered earlier) id (operation h) := blind earlier h

/-- It is enough that forgetting the numbers first or last comes to the same. -/
theorem Blind.of_commutes
    (commutes : ∀ earlier g, operation (unnumbered earlier g) =
      Prod.map (unnumbered earlier) id (operation g)) : Blind operation := by
  intro earlier g
  rw [commutes]
  exact congrArg (·, _) (forget_unnumbered earlier _)

/-- A step of a deletion, which only fails or succeeds. -/
theorem Blind.step {step : Graph α → Except Failure (Graph α)}
    (commutes : ∀ earlier g, step (unnumbered earlier g) = (step g).map (unnumbered earlier)) :
    Blind fun g => (g.orKeep (step g), (step g).map fun _ => ()) := by
  refine .of_commutes fun earlier g => ?_
  rw [commutes]
  cases step g <;> rfl

end Operations

variable [Element α]

/-! ### Calls -/

theorem Blind.add (label : Label) (vector : List α) : Blind (Graph.add · label vector) :=
  fun earlier g => add_unnumbered earlier g label vector

/-- The graphs differ in no more after an item than before it. -/
theorem Blind.addBatch (items : List (Label × List α)) :
    Blind fun g : Graph α => VectorIndex.addBatch g items := by
  induction items with
  | nil => exact fun earlier g => congrArg (·, _) (forget_unnumbered earlier g)
  | cons item items ih =>
      obtain ⟨label, vector⟩ := item
      intro earlier g
      have step :
          Prod.map (unnumbered []) id (VectorIndex.add (g.unnumbered earlier) label vector) =
            Prod.map (unnumbered earlier) id (VectorIndex.add g label vector) :=
        Blind.add label vector earlier g
      simp only [VectorIndex.addBatch]
      revert step
      rcases VectorIndex.add (g.unnumbered earlier) label vector with ⟨h, result⟩
      rcases VectorIndex.add g label vector with ⟨k, other⟩
      intro step
      obtain ⟨alike, same⟩ := Prod.mk.inj step
      have same : result = other := same
      subst same
      cases result with
      | error failure => exact step
      | ok done => exact ih.alike alike

namespace Call

/-- What a call returns. -/
def Result : Call α → Type
  | insert _ _ => Except Failure Nat
  | removeLabel _ => Except Failure Nat
  | ensureCapacity => Unit
  | shrinkToFit => Unit
  | _ => Except Failure Unit

/-- What a call on a graph returns. -/
def result (g : Graph α) : (call : Call α) → call.Result
  | insert label vector => (g.insert label vector).map (·.2)
  | add label vector => (g.add label vector).2
  | addBatch items => (VectorIndex.addBatch g items).2
  | removeLabel label => (g.removeLabel label).2
  | markDeleted id => (g.markDeleted id).map fun _ => ()
  | repair id => (g.repair id).map fun _ => ()
  | swapRemove id => (g.swapRemove id).map fun _ => ()
  | ensureCapacity => ()
  | shrinkToFit => ()

end Call

theorem Blind.insert (label : Label) (vector : List α) : Blind fun g =>
    (g.orKeep ((g.insert label vector).map (·.1)), (g.insert label vector).map (·.2)) := by
  intro earlier g
  have inserted := insert_unnumbered earlier g label vector
  dsimp only
  revert inserted
  cases (g.unnumbered earlier).insert label vector <;> cases g.insert label vector <;>
    intro inserted
  case error.error =>
    cases inserted
    exact congrArg (·, _) (forget_unnumbered earlier g)
  case error.ok | ok.error => cases inserted
  case ok.ok =>
    obtain ⟨graph, returned⟩ := Prod.mk.inj (Except.ok.inj inserted)
    exact Prod.ext graph (congrArg Except.ok returned)

theorem Blind.call (call : Call α) : Blind fun g => (call.run g, call.result g) := by
  cases call with
  | insert label vector => exact .insert label vector
  | add label vector => exact .add label vector
  | addBatch items => exact .addBatch items
  | removeLabel label => exact .of_commutes fun earlier g => removeLabel_unnumbered earlier g label
  | markDeleted id => exact .step fun earlier g => markDeleted_unnumbered earlier g id
  | repair id => exact .step fun earlier g => repair_unnumbered earlier g id
  | swapRemove id => exact .step fun earlier g => swapRemove_unnumbered earlier g id
  | ensureCapacity =>
      exact .of_commutes fun earlier g => congrArg (·, ()) (ensureCapacity_unnumbered earlier g)
  | shrinkToFit =>
      exact .of_commutes fun earlier g => congrArg (·, ()) (shrinkToFit_unnumbered earlier g)

/-- The graph after calls, each of which may fail. -/
def after (g : Graph α) (calls : List (Call α)) : Graph α := calls.foldl Call.run g

/-- Each call is admissible when its turn comes. -/
def Call.AllAdmissible (g : Graph α) : List (Call α) → Prop
  | [] => True
  | call :: calls => call.Admissible g ∧ AllAdmissible (call.run g) calls

theorem Reachable.after {config : Config} {g : Graph α} (reachable : Reachable config g)
    {calls : List (Call α)} (admissible : Call.AllAdmissible g calls) :
    Reachable config (g.after calls) := by
  induction calls generalizing g with
  | nil => exact reachable
  | cons call calls ih => exact ih (reachable.call call admissible.1) admissible.2

theorem Alike.after {earlier : Log.Journal} {g h : Graph α} (alike : Alike earlier g h)
    (calls : List (Call α)) : Alike earlier (g.after calls) (h.after calls) := by
  induction calls generalizing g h with
  | nil => exact alike
  | cons call calls ih => exact ih (Prod.mk.inj ((Blind.call call).alike alike)).1

/-! ### Questions -/

/-- What can be asked of a graph without changing it, apart from the serial number of a slot. -/
inductive Question (α : Type) where
  | config
  | capacity
  | nodeCount
  | markedCount
  | size
  | labelCount
  | entryPoint
  | maxLevel
  | info
  | contains (label : Label)
  | idsOf (label : Label)
  | label? (id : Nat)
  | vector? (id : Nat)
  | isDeleted (id : Nat)
  | isIsolated (id : Nat)
  | search (query : List α) (k ef : Nat)
  | rangeSearch (query : List α) (radius epsilon : Binary64)
  | topK (query : List α) (k : Nat) (parameters : Query.Parameters)
  | rangeQuery (query : List α) (radius : Binary64) (parameters : Query.Parameters)
  /-- Check the structure and visit the labels in an order. -/
  | integrity (order : List (Label × List Nat))
  | image
  | writeFile (tree : FileTree) (path : String)

namespace Question

def Answer : Question α → Type
  | config => Config
  | capacity => UInt64
  | nodeCount | markedCount | size | labelCount | maxLevel => Nat
  | entryPoint => Option Nat
  | info => IndexInfo
  | contains _ | isDeleted _ | isIsolated _ => Bool
  | idsOf _ => List Nat
  | label? _ => Option Label
  | vector? _ => Option (List α)
  | search _ _ _ | rangeSearch _ _ _ | topK _ _ _ | rangeQuery _ _ _ => Except Failure Reply
  | integrity _ => Except Violation Unit
  | image => List UInt8
  | writeFile _ _ => Except Failure FileTree

/-- The answer of a graph. -/
def answer (g : Graph α) : (question : Question α) → question.Answer
  | config => g.config
  | capacity => g.capacity
  | nodeCount => g.nodeCount
  | markedCount => g.markedCount
  | size => g.size
  | labelCount => g.labelCount
  | entryPoint => g.entryPoint
  | maxLevel => g.maxLevel
  | info => g.info
  | contains label => g.contains label
  | idsOf label => g.idsOf label
  | label? id => g.label? id
  | vector? id => g.vector? id
  | isDeleted id => g.isDeleted id
  | isIsolated id => g.isIsolated id
  | search query k ef => g.search query k ef
  | rangeSearch query radius epsilon => g.rangeSearch query radius epsilon
  | topK query k parameters => g.topK query k parameters
  | rangeQuery query radius parameters => g.rangeQuery query radius parameters
  | integrity order => g.integrityVia order
  | image => write g
  | writeFile tree path => Image.writeFile g tree path

end Question

theorem write_unnumbered (earlier : Log.Journal) (g : Graph α) :
    write (g.unnumbered earlier) = write g := by
  have nodes : (g.unnumbered earlier).nodes.toList = g.nodes.toList.map Node.unnumbered := by
    rw [unnumbered, Array.toList_map]
  simp only [write, writeVersion, Image.parameters, nodeCount_unnumbered, nodes, List.flatMap_map]
  rfl

theorem info_unnumbered (earlier : Log.Journal) (g : Graph α) :
    (g.unnumbered earlier).info = g.info := by
  simp only [Graph.info, size_unnumbered, markedCount_unnumbered]
  rfl

theorem answer_unnumbered (earlier : Log.Journal) (g : Graph α) (question : Question α) :
    question.answer (g.unnumbered earlier) = question.answer g := by
  cases question with
  | config | capacity | labelCount | entryPoint | maxLevel | contains | idsOf => rfl
  | nodeCount => exact nodeCount_unnumbered earlier g
  | markedCount => rfl
  | size => exact size_unnumbered earlier g
  | info => exact info_unnumbered earlier g
  | label? id => exact label?_unnumbered earlier g id
  | vector? id => rfl
  | isDeleted id => exact isDeleted_unnumbered earlier g id
  | isIsolated id => exact isIsolated_unnumbered earlier g id
  | search query k ef => exact search_unnumbered earlier g query k ef
  | rangeSearch query radius epsilon => exact rangeSearch_unnumbered earlier g query radius epsilon
  | topK query k parameters => exact search_unnumbered earlier g query k _
  | rangeQuery query radius parameters => exact rangeSearch_unnumbered earlier g query radius _
  | integrity order => exact integrityVia_unnumbered earlier g order
  | image => exact write_unnumbered earlier g
  | writeFile tree path =>
      simp only [Question.answer, Image.writeFile, write_unnumbered]
      rfl

theorem Alike.answer {earlier : Log.Journal} {g h : Graph α} (alike : Alike earlier g h)
    (question : Question α) : question.answer g = question.answer h := by
  rw [← answer_unnumbered [] g, alike, answer_unnumbered]

/-! ### Reloading -/

/-- No calls tell two graphs apart: each returns the same on both, every answer afterwards is the
same, and both log the same from here on. In whatever orders their labels are visited, the check of
the structure passes on both or on neither. -/
structure Indistinguishable (g h : Graph α) : Prop where
  result : ∀ (calls : List (Call α)) (call : Call α),
    call.result (g.after calls) = call.result (h.after calls)
  answer : ∀ (calls : List (Call α)) (question : Question α),
    question.answer (g.after calls) = question.answer (h.after calls)
  logged : ∀ calls : List (Call α), ∃ messages,
    (g.after calls).journal = g.journal ++ messages ∧
      (h.after calls).journal = h.journal ++ messages
  verdict : ∀ (calls : List (Call α)) (order order' : List (Label × List Nat)),
    order.Perm (g.after calls).labels.entries → order'.Perm (h.after calls).labels.entries →
      ((g.after calls).integrityVia order = .ok () ↔ (h.after calls).integrityVia order' = .ok ())

theorem Alike.indistinguishable {g h : Graph α} (alike : Alike g.journal g h)
    (silent : h.journal = []) : Indistinguishable g h where
  result calls call := (Prod.mk.inj ((Blind.call call).alike (alike.after calls))).2
  answer calls := (alike.after calls).answer
  logged calls := ⟨_, (alike.after calls).journal, by rw [silent, List.nil_append]⟩
  verdict calls order order' visits visits' := by
    have alike := alike.after calls
    have same : (g.after calls).integrityVia order' = (h.after calls).integrityVia order' :=
      alike.answer (.integrity order')
    rw [← alike.labels] at visits'
    rw [integrityVia_ok_congr visits visits', same]

/-- A graph that calls lead to is loaded from its image, and what is loaded cannot be told from it.
After admissible calls the check of the structure passes on both, in whatever orders their labels
are visited. -/
theorem Reachable.reloaded {config : Config} {g : Graph α} (reachable : Reachable config g)
    (narrow : config.dim.toNat ≤ maxDimension) (few : g.nodeCount < idLimit) :
    ∃ twin, load (write g) = .ok twin ∧ Indistinguishable g twin ∧
      ∀ calls, Call.AllAdmissible g calls → ∀ order order',
        order.Perm (g.after calls).labels.entries →
          order'.Perm (twin.after calls).labels.entries →
            (g.after calls).integrityVia order = .ok () ∧
              (twin.after calls).integrityVia order' = .ok () := by
  have read := (reachable.readFrom_write narrow few).1 []
  rw [List.append_nil] at read
  have same := (alike_renumbered g).indistinguishable rfl
  refine ⟨g.renumbered, load_of_readFrom read, same, ?_⟩
  intro calls admissible order order' visits visits'
  have passes := (reachable.after admissible).wellFormed.1.integrityVia visits
  exact ⟨passes, (same.verdict calls order order' visits visits').1 passes⟩

/-- In the middle of a deletion, too, whatever admissible calls follow. -/
theorem reloaded_after_marking :
    firstMarked.isDeleted 0 = true ∧ 0 ∈ (firstMarked.links 1 0).out ∧
      ∃ twin, load (write firstMarked) = .ok twin ∧ Indistinguishable firstMarked twin ∧
        ∀ calls, Call.AllAdmissible firstMarked calls → ∀ order order',
          order.Perm (firstMarked.after calls).labels.entries →
            order'.Perm (twin.after calls).labels.entries →
              (firstMarked.after calls).integrityVia order = .ok () ∧
                (twin.after calls).integrityVia order' = .ok () := by
  obtain ⟨within, count, deleted, _, edge⟩ := firstMarked_spec
  have narrow : planeConfig.dim.toNat ≤ maxDimension := by decide
  have few : firstMarked.nodeCount < idLimit := count ▸ (by decide : 2 < idLimit)
  exact ⟨deleted, edge, within.reachable.reloaded narrow few⟩

end Graph

end Vicinity
