import Vicinity.Proofs.Image.RoundTrip
import Vicinity.Settings

/-!
The three places where the parameters of an index are checked.

Settings are checked before anything is made of them, a graph checks the parameters it is made with,
and an image is checked when it is read. The first two ask the same of the parameters that they
share, except that only settings are refused for their epsilon (`Settings.validate_eq_ok_iff`). An
image carries whatever parameters its graph had, and what becomes of the image of an empty graph is
decided by them alone (`Image.load_write_unoccupied`): it is loaded when the graph could be made and
the dimension is within the limit of images.
-/

namespace Vicinity

/-! ### Settings and new graphs -/

theorem Graph.new_eq_ok_iff {α : Type} [Element α] {config : Graph.Config} :
    (∃ g : Graph α, Graph.new config = .ok g) ↔ config.fault? = none := by
  unfold Graph.new
  cases config.fault? <;> simp

/-- Settings are usable when their graph is, with an epsilon that is a number and not negative and
with swap jobs that come due. -/
theorem Settings.validate_eq_ok_iff (s : Settings) :
    s.validate = .ok s ↔ s.graphConfig.fault? = none ∧ s.graph.epsilon.isNaN = false ∧
      s.graph.epsilon.lt .zero = false ∧ s.tiered.swapJobThreshold ≠ 0 := by
  have usable : s.validate = .ok s ↔ s.fault? = none := by
    unfold validate
    cases s.fault? <;> simp
  rw [usable, Graph.Config.fault?_eq_none_iff, ← and_assoc (a := _ = false),
    ← Bool.or_eq_false_iff]
  unfold fault? graphConfig
  generalize (s.graph.epsilon.isNaN || s.graph.epsilon.lt .zero) = unusable
  repeat' split
  all_goals simp_all

/-! ### Images of empty graphs -/

/-- A graph without nodes, whatever room it has set aside and whatever levels were drawn before. -/
def Graph.unoccupied {α : Type} (config : Graph.Config) (capacity drawCount : UInt64) : Graph α :=
  { config, capacity, drawCount }

namespace Image

variable {α : Type}

theorem numbersFit_unoccupied (config : Graph.Config) (capacity drawCount : UInt64) :
    NumbersFit (Graph.unoccupied config capacity drawCount : Graph α) where
  few := (by decide : 0 < noEntry)
  level := (by decide : 0 < UInt64.size)
  entry _ start := by cases start

/-- The check has nothing to look at. -/
theorem integrity_unoccupied (config : Graph.Config) (capacity drawCount : UInt64) :
    (Graph.unoccupied config capacity drawCount : Graph α).integrity = .ok () := by
  simp [Graph.unoccupied, Graph.integrity, Graph.integrityVia, Graph.demand, Graph.checkEach,
    Graph.checkEntry, Graph.checkLabels, Graph.nodeCount, LabelMap.empty, bind, Except.bind]

variable [Element α]

theorem load_eq_map (bytes : List UInt8) :
    load bytes = (readFrom bytes).map fun read : Graph α × List UInt8 => read.1 := by
  unfold load
  cases (readFrom bytes : Except LoadFault (Graph α × List UInt8)) <;> rfl

/-- What becomes of the image of an empty graph. -/
theorem load_write_unoccupied (config : Graph.Config) (capacity drawCount : UInt64) :
    load (write (Graph.unoccupied config capacity drawCount : Graph α)) =
      if config.dim = 0 then .error (.inconsistent .dimensionZero)
      else if maxDimension < config.dim.toNat then
        .error (.inconsistent (.dimensionTooLarge config.dim.toNat maxDimension))
      else
        match config.fault? with
        | some fault => .error (.inconsistent (.parameters fault))
        | none => .ok (Graph.unoccupied config capacity drawCount : Graph α) := by
  let g : Graph α := Graph.unoccupied config capacity drawCount
  have supported : Supported currentVersion := ⟨by decide, by decide⟩
  have front := leads_header g supported
  have image : write g = header g currentVersion ++ (parameters g currentVersion ++ word64 0) := rfl
  rw [load_eq_map]
  change (readFrom (write g)).map _ = _
  rw [image]
  split
  case isTrue zero =>
    rw [if_pos (show g.config.dim = 0 from zero)] at front
    exact congrArg _ (front.andThen scanPayload _)
  case isFalse nonzero =>
    rw [if_neg (show ¬g.config.dim = 0 from nonzero)] at front
    split
    case isTrue wide =>
      rw [if_pos (show maxDimension < g.config.dim.toNat from wide)] at front
      exact congrArg _ (front.andThen scanPayload _)
    case isFalse narrow =>
      rw [if_neg (show ¬maxDimension < g.config.dim.toNat from narrow)] at front
      have start := front.reads (.pure _)
      have fields := leads_parameters
        (numbersFit_unoccupied (α := α) config capacity drawCount) currentVersion
      change Leads _ _ (match config.fault? with | some _ => _ | none => _) at fields
      cases usable : config.fault? with
      | some fault =>
          rw [usable] at fields
          have payload : Leads (scanPayload ⟨currentVersion, .hnsw, Element.dataType α, config.dim⟩)
              (parameters g currentVersion) (Scan.reject (.parameters fault) : Scan (Graph α)) :=
            fields.andThen _
          rw [← List.append_assoc]
          exact congrArg _ (Leads.bind start payload (word64 0))
      | none =>
          rw [usable] at fields
          have roomy : ¬(decide (capacity.toNat < 0) || decide (noEntry ≤ 0)) = true := by
            simp [noEntry]
          have payload : Reads (scanPayload ⟨currentVersion, .hnsw, Element.dataType α, config.dim⟩)
              (parameters g currentVersion ++ ([] ++ ([] ++ word64 0))) g := by
            refine (fields.reads (.skip roomy (.pure _))).bind ?_
            refine (Reads.pure []).bind ((Reads.pure []).bind ?_)
            refine (reads_unsigned_word64 (by decide)).bind_pure (Reads.bind_pure (.pure _) ?_)
            exact Graph.reads_checked (integrity_unoccupied config capacity drawCount)
          have whole := start.bind payload []
          rw [List.append_nil] at whole
          exact congrArg _ whole

/-- An image of an empty graph is loaded when the graph could be made and is not too wide. -/
theorem load_write_unoccupied_iff (config : Graph.Config) (capacity drawCount : UInt64) :
    (∃ g : Graph α, load (write (Graph.unoccupied config capacity drawCount : Graph α)) = .ok g) ↔
      config.fault? = none ∧ config.dim.toNat ≤ maxDimension := by
  rw [load_write_unoccupied]
  split
  case isTrue zero =>
    have : config.fault? ≠ none := fun usable =>
      ((Graph.Config.fault?_eq_none_iff config).1 usable).1 zero
    simp [this]
  case isFalse =>
    split
    case isTrue wide => simp [Nat.not_le.2 wide]
    case isFalse narrow => cases config.fault? <;> simp [Nat.not_lt.1 narrow]

end Image

/-! ### The gates together -/

/-- Settings with an epsilon that is a number and not negative, and with swap jobs that come due,
are accepted exactly when the graph of their parameters can be made, and its image can be loaded
exactly when the dimension is within the limit of images, too. -/
theorem Settings.gates_agree {α : Type} [Element α] (s : Settings)
    (number : s.graph.epsilon.isNaN = false) (nonnegative : s.graph.epsilon.lt .zero = false)
    (comes_due : s.tiered.swapJobThreshold ≠ 0) :
    (s.validate = .ok s ↔ ∃ g : Graph α, Graph.new s.graphConfig = .ok g) ∧
      ∀ capacity drawCount,
        (∃ g : Graph α, Image.load (Image.write
          (Graph.unoccupied s.graphConfig capacity drawCount : Graph α)) = .ok g) ↔
          s.validate = .ok s ∧ s.dim.toNat ≤ Image.maxDimension := by
  have usable : s.validate = .ok s ↔ s.graphConfig.fault? = none := by
    rw [validate_eq_ok_iff]
    simp [number, nonnegative, comes_due]
  refine ⟨?_, fun capacity drawCount => ?_⟩
  · rw [usable, Graph.new_eq_ok_iff]
  · rw [usable, Image.load_write_unoccupied_iff]
    rfl

/-- The usual settings of an index over planes. -/
theorem Settings.gates_agree_plane :
    let s : Settings := { dim := 2 }
    s.graph.epsilon.isNaN = false ∧ s.graph.epsilon.lt .zero = false ∧
      s.tiered.swapJobThreshold ≠ 0 ∧ s.validate = .ok s ∧
      (∃ g : Graph Binary64, Graph.new s.graphConfig = .ok g) ∧
      ∃ g : Graph Binary64, Image.load (Image.write
        (Graph.unoccupied s.graphConfig 0 0 : Graph Binary64)) = .ok g := by
  intro s
  have number : s.graph.epsilon.isNaN = false := by decide
  have nonnegative : s.graph.epsilon.lt .zero = false := by decide
  have comes_due : s.tiered.swapJobThreshold ≠ 0 := by decide
  have accepted : s.validate = .ok s :=
    s.validate_eq_ok_iff.2 ⟨by decide, number, nonnegative, comes_due⟩
  obtain ⟨made, loaded⟩ := s.gates_agree (α := Binary64) number nonnegative comes_due
  exact ⟨number, nonnegative, comes_due, accepted, made.1 accepted,
    (loaded 0 0).2 ⟨accepted, by decide⟩⟩

/-- A dimension above the limit of images is accepted everywhere else, and a negative epsilon is
refused by settings only. -/
theorem Settings.gates_differ :
    let wide : Settings := { dim := 1048577 }
    let negative : Settings := { dim := 2, graph := { epsilon := ⟨0xbff0000000000000⟩ } }
    (wide.validate = .ok wide ∧ ∃ g : Graph Binary64, Graph.new wide.graphConfig = .ok g ∧
      Image.load (α := Binary64) (Image.write g) =
        .error (.inconsistent (.dimensionTooLarge 1048577 1048576))) ∧
    negative.validate = .error (.epsilonNegative ⟨0xbff0000000000000⟩) ∧
      ∃ g : Graph Binary64, Graph.new negative.graphConfig = .ok g ∧
        ∃ k : Graph Binary64, Image.load (Image.write g) = .ok k := by
  intro wide negative
  have accepted : wide.validate = .ok wide := by cbv
  have refused : negative.validate = .error (.epsilonNegative negative.graph.epsilon) := by cbv
  have read := Image.load_write_unoccupied_iff (α := Binary64) negative.graphConfig 0 0
  exact ⟨⟨accepted, _, rfl, Image.load_write_unoccupied ..⟩,
    refused, _, rfl, read.2 ⟨by cbv, by decide⟩⟩

end Vicinity
