import Mathlib.Data.List.Perm.Basic
import Vicinity.Query

/-!
Which lists of named values are accepted, and what they resolve to.

`Acceptable` says what a list must be without any order in it, and `stated` says which parameters
the values of a list make up. Taking the values in one after the other comes to both
(`takeAll_eq_ok_iff`), because what was taken in so far is again a list of values (`or_stated`).
Refusals do depend on the order: the one that is reported belongs to the shortest front that cannot
be taken in, and only what two parameters may not say together is left for the whole list.
-/

namespace Vicinity.Query

/-! ### Names -/

theorem sameName_iff {a b : String} :
    sameName a b = true ↔ a.toList.map Char.toLower = b.toList.map Char.toLower := by
  simp [sameName]

theorem sameName_comm (a b : String) : sameName a b = sameName b a := by
  rw [Bool.eq_iff_iff, sameName_iff, sameName_iff, eq_comm]

theorem sameName_of_same {a b c : String} (ha : sameName a c = true) (hb : sameName b c = true) :
    sameName a b = true := by
  rw [sameName_iff] at ha hb ⊢
  rw [ha, hb]

/-- No text names two parameters. -/
theorem Name.eq_of_sameName {text : String} {a b : Name} (ha : sameName text a.text = true)
    (hb : sameName text b.text = true) : a = b := by
  rw [sameName_comm] at ha hb
  have h := sameName_of_same ha hb
  revert h
  cases a <;> cases b <;> decide

theorem name?_eq_some_iff {algorithm : Algorithm} {text : String} {name : Name} :
    name? algorithm text = some name ↔
      name.appliesTo algorithm = true ∧ sameName text name.text = true := by
  constructor
  · intro h
    simpa using List.find?_some h
  · rintro ⟨applies, same⟩
    cases found : name? algorithm text with
    | none =>
      have := List.find?_eq_none.1 found name (by cases name <;> decide)
      simp [applies, same] at this
    | some other =>
      have h : sameName text other.text = true := by
        have := List.find?_some found
        simp only [Bool.and_eq_true] at this
        exact this.2
      rw [Name.eq_of_sameName h same]

/-! ### Acceptable lists -/

/-- The text is one that the parameter can be set to. -/
def WellFormed (name : Name) (value : String) : Prop :=
  match name with
  | .efRuntime | .batchSize =>
    ∃ n, Numeral.integer? value = some n ∧ 0 < n ∧ n < 0x8000000000000000
  | .epsilon =>
    ∃ x, Numeral.double? value = some x ∧ x.isFinite = true ∧ Binary64.zero.lt x = true
  | .hybridPolicy => sameName value "batches" = true ∨ sameName value "adhoc_bf" = true

/-- The kinds of query that take the parameter. -/
def Allowed (kind : Kind) (name : Name) : Prop :=
  match name with
  | .efRuntime => kind ≠ .range
  | .epsilon => kind = .range
  | .batchSize | .hybridPolicy => kind = .hybrid

/-- The list gives the parameter a value. -/
def Mentions (raws : List (String × String)) (name : Name) : Prop :=
  ∃ raw ∈ raws, sameName raw.1 name.text = true

/-- Every value can be taken in. -/
structure Proper (algorithm : Algorithm) (kind : Kind) (raws : List (String × String)) : Prop where
  known : ∀ raw ∈ raws, ∃ name : Name,
    name.appliesTo algorithm = true ∧ sameName raw.1 name.text = true
  once : raws.Pairwise fun a b => sameName a.1 b.1 = false
  wellFormed : ∀ raw ∈ raws, ∀ name : Name, sameName raw.1 name.text = true → WellFormed name raw.2
  allowed : ∀ name, Mentions raws name → Allowed kind name

/-- The values can be taken in, and an exhaustive scan comes with neither batches nor a candidate
list. -/
structure Acceptable (algorithm : Algorithm) (kind : Kind) (raws : List (String × String)) : Prop
    extends Proper algorithm kind raws where
  compatible : ∀ raw ∈ raws, sameName raw.1 Name.hybridPolicy.text = true →
    sameName raw.2 "adhoc_bf" = true → ¬ Mentions raws .batchSize ∧ ¬ Mentions raws .efRuntime

section Lists

variable {algorithm : Algorithm} {kind : Kind} {raw : String × String}
  {raws raws' front rest : List (String × String)} {name : Name}

theorem mentions_cons :
    Mentions (raw :: raws) name ↔ sameName raw.1 name.text = true ∨ Mentions raws name := by
  simp [Mentions]

@[simp] theorem not_mentions_nil : ¬ Mentions [] name := by simp [Mentions]

/-- What the first value names is not named again, if names are given once. -/
theorem not_mentions_of_apart (apart : ∀ other ∈ raws, sameName raw.1 other.1 = false)
    (same : sameName raw.1 name.text = true) : ¬ Mentions raws name := by
  rintro ⟨other, hOther, sameOther⟩
  have := sameName_of_same same sameOther
  simp [apart other hOther] at this

theorem mentions_congr (perm : raws.Perm raws') : Mentions raws name ↔ Mentions raws' name := by
  simp only [Mentions, perm.mem_iff]

theorem Proper.congr (perm : raws.Perm raws') (proper : Proper algorithm kind raws) :
    Proper algorithm kind raws' where
  known r hr := proper.known r (perm.mem_iff.2 hr)
  once := proper.once.perm perm fun h => by rw [sameName_comm, h]
  wellFormed r hr := proper.wellFormed r (perm.mem_iff.2 hr)
  allowed name h := proper.allowed name ((mentions_congr perm).2 h)

theorem Acceptable.congr (perm : raws.Perm raws') (acceptable : Acceptable algorithm kind raws) :
    Acceptable algorithm kind raws' where
  toProper := acceptable.toProper.congr perm
  compatible r hr policy adHoc := by
    rw [← mentions_congr perm, ← mentions_congr perm]
    exact acceptable.compatible r (perm.mem_iff.2 hr) policy adHoc

/-- A list is proper when the rest is and its first value fits before it. -/
theorem proper_cons :
    Proper algorithm kind (raw :: raws) ↔
      (∃ name : Name, name.appliesTo algorithm = true ∧ sameName raw.1 name.text = true ∧
        ¬ Mentions raws name ∧ Allowed kind name ∧ WellFormed name raw.2) ∧
      Proper algorithm kind raws := by
  constructor
  · intro proper
    obtain ⟨name, applies, same⟩ := proper.known raw List.mem_cons_self
    have once := List.pairwise_cons.1 proper.once
    refine ⟨⟨name, applies, same, not_mentions_of_apart once.1 same,
      proper.allowed name (mentions_cons.2 (.inl same)),
      proper.wellFormed raw List.mem_cons_self name same⟩, ?_⟩
    exact
      { known := fun r hr => proper.known r (List.mem_cons_of_mem _ hr)
        once := once.2
        wellFormed := fun r hr => proper.wellFormed r (List.mem_cons_of_mem _ hr)
        allowed := fun name h => proper.allowed name (mentions_cons.2 (.inr h)) }
  · rintro ⟨⟨name, applies, same, absent, allowed, wellFormed⟩, proper⟩
    have isName : ∀ other : Name, sameName raw.1 other.text = true → other = name :=
      fun other h => Name.eq_of_sameName h same
    constructor
    case known =>
      exact List.forall_mem_cons.2 ⟨⟨name, applies, same⟩, proper.known⟩
    case once =>
      refine List.pairwise_cons.2 ⟨fun other hOther => ?_, proper.once⟩
      rw [← Bool.not_eq_true, sameName_comm]
      intro h
      rw [sameName_comm] at same
      exact absent ⟨other, hOther, sameName_of_same h same⟩
    case wellFormed =>
      refine List.forall_mem_cons.2 ⟨fun other h => ?_, proper.wellFormed⟩
      rw [isName other h]
      exact wellFormed
    case allowed =>
      intro other h
      rcases mentions_cons.1 h with h | h
      · rw [isName other h]
        exact allowed
      · exact proper.allowed other h

end Lists

/-! ### What values make up -/

/-- The value that a list gives a parameter, as far as it can be read. -/
def stated? {α : Type} (parse : String → Option α) (name : Name)
    (raws : List (String × String)) : Option α :=
  raws.findSome? fun raw => if sameName raw.1 name.text then parse raw.2 else none

/-- The parameters whose values are those of a list, and the defaults where it gives none. -/
def stated (raws : List (String × String)) : Parameters where
  efRuntime := stated? positiveInteger? .efRuntime raws
  epsilon := stated? positiveNumber? .epsilon raws
  batchSize := stated? positiveInteger? .batchSize raws
  mode := (stated? policy? .hybridPolicy raws).getD .standard

/-- These parameters, and the other ones where no value is set. -/
def Parameters.or (p q : Parameters) : Parameters where
  efRuntime := p.efRuntime.or q.efRuntime
  epsilon := p.epsilon.or q.epsilon
  batchSize := p.batchSize.or q.batchSize
  mode := if p.mode = .standard then q.mode else p.mode

section Stated

variable {α : Type} {parse : String → Option α} {name : Name} {raw : String × String}
  {raws raws' front rest : List (String × String)} {p q r : Parameters}

/-- Without a policy the mode stays. -/
@[simp] theorem Parameters.ite_standard {mode : Mode} :
    (if mode = .standard then .standard else mode) = mode := by
  split <;> simp_all

@[simp] theorem Parameters.empty_or : ({} : Parameters).or p = p := by
  simp [Parameters.or]

theorem Parameters.or_assoc : (p.or q).or r = p.or (q.or r) := by
  simp only [Parameters.or, Option.or_assoc, Parameters.mk.injEq, true_and]
  split <;> simp_all

theorem Parameters.has_or : (p.or q).has name = (p.has name || q.has name) := by
  cases name
  case hybridPolicy =>
    cases h : p.mode <;> simp [Parameters.has, Parameters.or, h]
  all_goals simp [Parameters.has, Parameters.or]

theorem stated?_append :
    stated? parse name (front ++ rest) = (stated? parse name front).or (stated? parse name rest) :=
  List.findSome?_append

theorem policy?_ne_standard {value : String} : policy? value ≠ some .standard := by
  unfold policy?
  split <;> [simp; (split <;> simp)]

theorem stated?_policy_ne_standard : stated? policy? name raws ≠ some .standard := by
  intro h
  obtain ⟨raw, -, read⟩ := List.exists_of_findSome?_eq_some h
  split at read
  · exact policy?_ne_standard read
  · cases read

/-- What a list states is what its front states, and what the rest states where it leaves off. -/
theorem stated_append : stated (front ++ rest) = (stated front).or (stated rest) := by
  have mode : ∀ a b : Option Mode, a ≠ some .standard →
      (a.or b).getD .standard = if a.getD .standard = .standard then b.getD .standard
        else a.getD .standard := by
    intro a b h
    cases a with
    | none => simp
    | some m =>
      have : m ≠ .standard := fun hm => h (by rw [hm])
      simp [this]
  simp only [stated, Parameters.or, stated?_append, mode _ _ stated?_policy_ne_standard]
  rfl

theorem stated?_cons :
    stated? parse name (raw :: raws) =
      (if sameName raw.1 name.text then parse raw.2 else none).or (stated? parse name raws) := by
  rw [← List.singleton_append, stated?_append]
  simp only [stated?, List.findSome?_singleton]

theorem stated?_of_not_mentions (absent : ¬ Mentions raws name) :
    stated? parse name raws = none := by
  refine List.findSome?_eq_none_iff.2 fun raw hRaw => if_neg fun same => ?_
  exact absent ⟨raw, hRaw, same⟩

/-- A value given exactly once is the value of its parameter. -/
theorem stated?_eq_some_iff (once : raws.Pairwise fun a b => sameName a.1 b.1 = false) {x : α} :
    stated? parse name raws = some x ↔
      ∃ raw ∈ raws, sameName raw.1 name.text = true ∧ parse raw.2 = some x := by
  induction raws with
  | nil => simp [stated?]
  | cons raw raws ih =>
    obtain ⟨apart, once⟩ := List.pairwise_cons.1 once
    rw [stated?_cons, List.exists_mem_cons_iff, ← ih once]
    cases same : sameName raw.1 name.text with
    | false => simp
    | true =>
      simp [stated?_of_not_mentions (not_mentions_of_apart apart same)]

/-- Values that are each given once may be given in any order. -/
theorem stated_congr (once : raws.Pairwise fun a b => sameName a.1 b.1 = false)
    (perm : raws.Perm raws') : stated raws' = stated raws := by
  have once' : raws'.Pairwise fun a b => sameName a.1 b.1 = false :=
    once.perm perm fun h => by rw [sameName_comm, h]
  have same : ∀ {α : Type} (parse : String → Option α) (name : Name),
      stated? parse name raws' = stated? parse name raws := fun parse name =>
    Option.ext fun x => by
      rw [stated?_eq_some_iff once', stated?_eq_some_iff once]
      simp only [perm.mem_iff]
  simp only [stated, same]

end Stated

/-! ### Taking values in -/

theorem isSome_positiveInteger? {value : String} :
    (positiveInteger? value).isSome = true ↔
      ∃ n, Numeral.integer? value = some n ∧ 0 < n ∧ n < 0x8000000000000000 := by
  unfold positiveInteger?
  cases Numeral.integer? value with
  | none => simp
  | some n =>
    by_cases h : 0 < n ∧ n < 0x8000000000000000 <;> simp [h]

theorem isSome_positiveNumber? {value : String} :
    (positiveNumber? value).isSome = true ↔
      ∃ x, Numeral.double? value = some x ∧ x.isFinite = true ∧ Binary64.zero.lt x = true := by
  unfold positiveNumber?
  cases Numeral.double? value with
  | none => simp
  | some x =>
    by_cases h : x.isFinite = true ∧ Binary64.zero.lt x = true <;> simp [h]

theorem isSome_policy? {value : String} :
    (policy? value).isSome = true ↔
      sameName value "batches" = true ∨ sameName value "adhoc_bf" = true := by
  unfold policy?
  split <;> simp_all

theorem policy?_eq_adHoc_iff {value : String} :
    policy? value = some .adHoc ↔ sameName value "adhoc_bf" = true := by
  unfold policy?
  split
  case isTrue batches =>
    have : ¬ sameName value "adhoc_bf" = true := by
      rw [sameName_iff] at batches ⊢
      rw [batches]
      decide
    simp [this]
  case isFalse => simp

section Taking

variable {algorithm : Algorithm} {kind : Kind} {raw : String × String}
  {raws raws' front rest : List (String × String)} {name : Name} {p q : Parameters}
  {e : Refusal}

theorem sameName_text (same : sameName raw.1 name.text = true) (other : Name) :
    sameName raw.1 other.text = decide (other = name) := by
  rw [Bool.eq_iff_iff, decide_eq_true_iff]
  exact ⟨fun h => Name.eq_of_sameName h same, fun h => h ▸ same⟩

/-- A value that is read is well formed, and becomes the value of its parameter. -/
theorem read_eq_ok_iff (same : sameName raw.1 name.text = true) (unset : p.has name = false) :
    p.read name raw.2 = .ok q ↔ WellFormed name raw.2 ∧ p.or (stated [raw]) = q := by
  have only := sameName_text same
  have adds : stated [raw] =
      { efRuntime := if .efRuntime = name then positiveInteger? raw.2 else none
        epsilon := if .epsilon = name then positiveNumber? raw.2 else none
        batchSize := if .batchSize = name then positiveInteger? raw.2 else none
        mode := (if .hybridPolicy = name then policy? raw.2 else none).getD .standard } := by
    simp only [stated, stated?, List.findSome?_singleton, only, decide_eq_true_iff]
  rw [adds]
  cases name with
  | efRuntime =>
    simp only [Parameters.has, Option.isSome_eq_false_iff, Option.isNone_iff_eq_none] at unset
    rw [WellFormed, ← isSome_positiveInteger?]
    cases h : positiveInteger? raw.2 <;> simp [Parameters.read, Parameters.or, h, unset]
  | epsilon =>
    simp only [Parameters.has, Option.isSome_eq_false_iff, Option.isNone_iff_eq_none] at unset
    rw [WellFormed, ← isSome_positiveNumber?]
    cases h : positiveNumber? raw.2 <;> simp [Parameters.read, Parameters.or, h, unset]
  | batchSize =>
    simp only [Parameters.has, Option.isSome_eq_false_iff, Option.isNone_iff_eq_none] at unset
    rw [WellFormed, ← isSome_positiveInteger?]
    cases h : positiveInteger? raw.2 <;> simp [Parameters.read, Parameters.or, h, unset]
  | hybridPolicy =>
    simp only [Parameters.has, bne_eq_false_iff_eq] at unset
    rw [WellFormed, ← isSome_policy?]
    cases h : policy? raw.2 <;> simp [Parameters.read, Parameters.or, h, unset]

theorem barred?_eq_none_iff : barred? kind name = none ↔ Allowed kind name := by
  cases name <;> simp [barred?, Allowed]

/-- One value is taken in when it fits beside the parameters that are set. -/
theorem take_eq_ok_iff :
    p.take algorithm kind raw = .ok q ↔
      (∃ name : Name, name.appliesTo algorithm = true ∧ sameName raw.1 name.text = true ∧
        p.has name = false ∧ Allowed kind name ∧ WellFormed name raw.2) ∧
      p.or (stated [raw]) = q := by
  unfold Parameters.take
  cases found : name? algorithm raw.1 with
  | none =>
    have : ∀ name : Name, name.appliesTo algorithm = true → ¬ sameName raw.1 name.text = true :=
      fun name applies same => by simp [name?_eq_some_iff.2 ⟨applies, same⟩] at found
    simp only [reduceCtorEq, false_iff]
    rintro ⟨⟨name, applies, same, -⟩, -⟩
    exact this name applies same
  | some name =>
    obtain ⟨applies, same⟩ := name?_eq_some_iff.1 found
    have isName : ∀ other : Name, sameName raw.1 other.text = true → other = name :=
      fun other h => Name.eq_of_sameName h same
    simp only
    split
    case isTrue set =>
      simp only [reduceCtorEq, false_iff]
      rintro ⟨⟨other, -, sameOther, unset, -⟩, -⟩
      rw [isName other sameOther, set] at unset
      cases unset
    case isFalse unset =>
      rw [Bool.not_eq_true] at unset
      cases barred : barred? kind name with
      | some refusal =>
        simp only [reduceCtorEq, false_iff]
        rintro ⟨⟨other, -, sameOther, -, allowed, -⟩, -⟩
        rw [isName other sameOther, ← barred?_eq_none_iff, barred] at allowed
        cases allowed
      | none =>
        simp only [read_eq_ok_iff same unset]
        refine and_congr_left fun _ => ⟨fun wellFormed => ?_, ?_⟩
        · exact ⟨name, applies, same, unset, barred?_eq_none_iff.1 barred, wellFormed⟩
        · rintro ⟨other, -, sameOther, -, -, wellFormed⟩
          rwa [isName other sameOther] at wellFormed

/-- A well-formed value sets its parameter and no other. -/
theorem has_stated_singleton (same : sameName raw.1 name.text = true)
    (wellFormed : WellFormed name raw.2) (other : Name) :
    (stated [raw]).has other = decide (other = name) := by
  have only := sameName_text same
  cases name with
  | efRuntime =>
    rw [WellFormed, ← isSome_positiveInteger?] at wellFormed
    cases other <;> simp [Parameters.has, stated, stated?, only, wellFormed]
  | epsilon =>
    rw [WellFormed, ← isSome_positiveNumber?] at wellFormed
    cases other <;> simp [Parameters.has, stated, stated?, only, wellFormed]
  | batchSize =>
    rw [WellFormed, ← isSome_positiveInteger?] at wellFormed
    cases other <;> simp [Parameters.has, stated, stated?, only, wellFormed]
  | hybridPolicy =>
    rw [WellFormed, ← isSome_policy?] at wellFormed
    obtain ⟨mode, read⟩ := Option.isSome_iff_exists.1 wellFormed
    have : mode ≠ .standard := fun h => policy?_ne_standard (h ▸ read)
    cases other <;> simp [Parameters.has, stated, stated?, only, read, this]

/-- Values are taken in when the list is proper and sets nothing that is set already; what has been
taken in then is what the list states. -/
theorem takeAll_eq_ok_iff :
    p.takeAll algorithm kind raws = .ok q ↔
      (Proper algorithm kind raws ∧ ∀ name, Mentions raws name → p.has name = false) ∧
      p.or (stated raws) = q := by
  induction raws generalizing p with
  | nil =>
    have proper : Proper algorithm kind [] :=
      ⟨by simp, List.Pairwise.nil, by simp, fun _ h => absurd h not_mentions_nil⟩
    have unit : p.or (stated []) = p := by
      cases p with
      | mk _ _ _ mode => cases mode <;> simp [Parameters.or, stated, stated?]
    simp [Parameters.takeAll, proper, unit]
  | cons raw raws ih =>
    have append : (p.or (stated [raw])).or (stated raws) = p.or (stated (raw :: raws)) := by
      rw [Parameters.or_assoc, ← stated_append, List.singleton_append]
    have step : p.takeAll algorithm kind (raw :: raws) = .ok q ↔
        ∃ next, p.take algorithm kind raw = .ok next ∧
          next.takeAll algorithm kind raws = .ok q := by
      rw [Parameters.takeAll]
      cases p.take algorithm kind raw <;> simp
    simp only [step, take_eq_ok_iff, ih, proper_cons]
    constructor
    · rintro ⟨_, ⟨⟨name, applies, same, unset, allowed, wellFormed⟩, rfl⟩, ⟨proper, fresh⟩, rfl⟩
      have has : ∀ other, Mentions raws other → p.has other = false ∧ other ≠ name := by
        intro other h
        have := fresh other h
        rw [Parameters.has_or, has_stated_singleton same wellFormed] at this
        simpa using this
      refine ⟨⟨⟨⟨name, applies, same, fun h => (has name h).2 rfl, allowed, wellFormed⟩, proper⟩,
        fun other h => ?_⟩, append.symm⟩
      rcases mentions_cons.1 h with h | h
      · rwa [Name.eq_of_sameName h same]
      · exact (has other h).1
    · rintro ⟨⟨⟨⟨name, applies, same, absent, allowed, wellFormed⟩, proper⟩, fresh⟩, rfl⟩
      refine ⟨_, ⟨⟨name, applies, same, fresh name (mentions_cons.2 (.inl same)), allowed,
        wellFormed⟩, rfl⟩, ⟨proper, fun other h => ?_⟩, append⟩
      have : other ≠ name := by
        rintro rfl
        exact absent h
      simp [Parameters.has_or, has_stated_singleton same wellFormed, this,
        fresh other (mentions_cons.2 (.inr h))]

/-- What a proper list mentions is what it sets. -/
theorem has_stated (proper : Proper algorithm kind raws) :
    (stated raws).has name = true ↔ Mentions raws name := by
  induction raws with
  | nil => cases name <;> simp [Parameters.has, stated, stated?]
  | cons raw raws ih =>
    obtain ⟨⟨own, -, same, -, -, wellFormed⟩, proper⟩ := proper_cons.1 proper
    rw [← List.singleton_append, stated_append, Parameters.has_or, Bool.or_eq_true, ih proper,
      has_stated_singleton same wellFormed, List.singleton_append, mentions_cons,
      sameName_text same]

theorem conflict?_eq_none_iff :
    p.conflict? = none ↔
      (p.mode = .adHoc → p.has .batchSize = false ∧ p.has .efRuntime = false) := by
  unfold Parameters.conflict?
  split
  case isTrue adHoc =>
    cases h : p.batchSize <;> cases h' : p.efRuntime <;> simp [Parameters.has, adHoc, h, h']
  case isFalse => simp_all

theorem mode_stated_eq_adHoc_iff (proper : Proper algorithm kind raws) :
    (stated raws).mode = .adHoc ↔ ∃ raw ∈ raws,
      sameName raw.1 Name.hybridPolicy.text = true ∧ sameName raw.2 "adhoc_bf" = true := by
  have set : (stated raws).mode = .adHoc ↔ stated? policy? .hybridPolicy raws = some .adHoc := by
    simp only [stated]
    cases stated? policy? .hybridPolicy raws <;> simp
  rw [set, stated?_eq_some_iff proper.once]
  simp only [policy?_eq_adHoc_iff]

/-- A list resolves exactly when it is acceptable, and then to what it states. -/
theorem resolve_eq_ok_iff :
    resolve algorithm kind raws = .ok p ↔ Acceptable algorithm kind raws ∧ p = stated raws := by
  have taken : resolve algorithm kind raws = .ok p ↔
      ({} : Parameters).takeAll algorithm kind raws = .ok p ∧ p.conflict? = none := by
    unfold resolve
    cases ({} : Parameters).takeAll algorithm kind raws with
    | error e => simp
    | ok q =>
      simp only [Except.ok.injEq]
      constructor
      · intro h
        split at h
        case h_1 => cases h
        case h_2 free => exact ⟨Except.ok.inj h, Except.ok.inj h ▸ free⟩
      · rintro ⟨rfl, free⟩
        rw [free]
  have fresh : ∀ name, Mentions raws name → ({} : Parameters).has name = false :=
    fun name _ => by cases name <;> rfl
  rw [taken, takeAll_eq_ok_iff, Parameters.empty_or, conflict?_eq_none_iff]
  constructor
  · rintro ⟨⟨⟨proper, -⟩, rfl⟩, compatible⟩
    refine ⟨⟨proper, fun raw hRaw policy adHoc => ?_⟩, rfl⟩
    have := compatible ((mode_stated_eq_adHoc_iff proper).2 ⟨raw, hRaw, policy, adHoc⟩)
    simpa only [← Bool.not_eq_true, has_stated proper] using this
  · rintro ⟨acceptable, rfl⟩
    refine ⟨⟨⟨acceptable.toProper, fresh⟩, rfl⟩, fun adHoc => ?_⟩
    obtain ⟨raw, hRaw, policy, adHoc⟩ := (mode_stated_eq_adHoc_iff acceptable.toProper).1 adHoc
    simpa only [← Bool.not_eq_true, has_stated acceptable.toProper] using
      acceptable.compatible raw hRaw policy adHoc

/-! ### Refusals -/

/-- The refusals of a whole list, which no single value of it can cause. -/
def Refusal.isConflict : Refusal → Bool
  | .adHocWithBatchSize | .adHocWithEfRuntime => true
  | _ => false

theorem isConflict_of_read (h : p.read name raw.2 = .error e) : e.isConflict = false := by
  cases name <;> simp only [Parameters.read] at h <;> split at h <;> cases h <;> rfl

theorem isConflict_of_barred? (h : barred? kind name = some e) : e.isConflict = false := by
  cases name <;> simp only [barred?] at h <;> split at h <;> cases h <;> rfl

theorem isConflict_of_take (h : p.take algorithm kind raw = .error e) : e.isConflict = false := by
  unfold Parameters.take at h
  split at h
  · cases h
    rfl
  · split at h
    · cases h
      rfl
    · split at h
      case h_1 barred =>
        cases h
        exact isConflict_of_barred? barred
      case h_2 => exact isConflict_of_read h

theorem takeAll_append :
    p.takeAll algorithm kind (front ++ rest) =
      match p.takeAll algorithm kind front with
      | .error e => .error e
      | .ok q => q.takeAll algorithm kind rest := by
  induction front generalizing p with
  | nil => rfl
  | cons raw front ih =>
    simp only [List.cons_append, Parameters.takeAll]
    cases p.take algorithm kind raw with
    | error e => rfl
    | ok next => exact ih

/-- A list that cannot be taken in has a first value that cannot. -/
theorem exists_refused (h : p.takeAll algorithm kind raws = .error e) :
    ∃ front raw back q, raws = front ++ raw :: back ∧ p.takeAll algorithm kind front = .ok q ∧
      q.take algorithm kind raw = .error e := by
  induction raws generalizing p with
  | nil => cases h
  | cons raw raws ih =>
    rw [Parameters.takeAll] at h
    cases taken : p.take algorithm kind raw with
    | error refusal =>
      rw [taken] at h
      cases h
      exact ⟨[], raw, raws, p, rfl, rfl, taken⟩
    | ok next =>
      rw [taken] at h
      obtain ⟨front, own, back, q, rfl, before, refused⟩ := ih h
      exact ⟨raw :: front, own, back, q, rfl, by simp [Parameters.takeAll, taken, before], refused⟩

/-- The refusals before the last check are those of the values. -/
theorem takeAll_eq_error_iff :
    ({} : Parameters).takeAll algorithm kind raws = .error e ↔
      resolve algorithm kind raws = .error e ∧ e.isConflict = false := by
  unfold resolve
  cases h : ({} : Parameters).takeAll algorithm kind raws with
  | error refusal =>
    obtain ⟨-, raw, -, q, -, -, refused⟩ := exists_refused h
    simp only [Except.error.injEq, iff_self_and]
    rintro rfl
    exact isConflict_of_take refused
  | ok q =>
    have conflict : ∀ refusal, q.conflict? = some refusal → refusal.isConflict = true := by
      intro refusal h
      unfold Parameters.conflict? at h
      split at h
      · split at h
        · cases h
          rfl
        · split at h <;> cases h
          rfl
      · cases h
    simp only [reduceCtorEq, false_iff, not_and]
    split
    case h_1 refusal found =>
      rintro ⟨⟩
      simp [conflict _ found]
    case h_2 => simp

/-- A list of named values resolves exactly when it is acceptable, to the parameters that it states;
any other order of it resolves to the same. When a list is refused before the last check, its
refusal is that of its shortest front that is refused before that check, whatever comes after the
front. Fronts shorter still may have a conflict, which comes out only where a list ends. -/
theorem resolve_decided (algorithm : Algorithm) (kind : Kind) (raws : List (String × String)) :
    (∀ p, resolve algorithm kind raws = .ok p ↔
      Acceptable algorithm kind raws ∧ p = stated raws) ∧
    (∀ p raws', raws.Perm raws' → resolve algorithm kind raws = .ok p →
      resolve algorithm kind raws' = .ok p) ∧
    ∀ e, resolve algorithm kind raws = .error e → e.isConflict = false →
      ∃ front, front <+: raws ∧
        (∀ shorter, shorter <+: front → shorter ≠ front →
          ∀ e', resolve algorithm kind shorter = .error e' → e'.isConflict = true) ∧
        ∀ rest, resolve algorithm kind (front ++ rest) = .error e := by
  refine ⟨fun p => resolve_eq_ok_iff, fun p raws' perm h => ?_, fun e h early => ?_⟩
  · obtain ⟨acceptable, rfl⟩ := resolve_eq_ok_iff.1 h
    exact resolve_eq_ok_iff.2
      ⟨acceptable.congr perm, (stated_congr acceptable.once perm).symm⟩
  · obtain ⟨front, raw, back, q, rfl, before, refused⟩ :=
      exists_refused (takeAll_eq_error_iff.2 ⟨h, early⟩)
    refine ⟨front ++ [raw], ⟨back, by simp⟩, fun shorter hShorter ne e' h' => ?_, fun rest => ?_⟩
    · -- a front that falls short of the refused value is a front of what was taken in
      have short : shorter <+: front := by
        rcases List.prefix_concat_iff.1 hShorter with h | h
        · exact absurd h ne
        · exact h
      obtain ⟨t, rfl⟩ := short
      cases conflict : e'.isConflict with
      | true => rfl
      | false =>
        rw [takeAll_append, takeAll_eq_error_iff.2 ⟨h', conflict⟩] at before
        cases before
    · refine (takeAll_eq_error_iff.1 ?_).1
      simp [takeAll_append, before, Parameters.takeAll, refused]

end Taking

example :
    resolve .hnsw .hybrid
        [("ef_runtime", "20"), ("Batch_Size", "+5"), ("HYBRID_POLICY", "Batches")] =
      .ok { efRuntime := some 20, batchSize := some 5, mode := .batches } := rfl

/-- The shortest front that is refused at all need not give the refusal of the list: here it has a
conflict, and the list names an unknown parameter after it. -/
theorem front_refused_otherwise :
    ¬ ∀ (algorithm : Algorithm) (kind : Kind) (raws : List (String × String)) (e : Refusal),
      ({} : Parameters).takeAll algorithm kind raws = .error e →
      ∃ front, front <+: raws ∧
        (∀ shorter, shorter <+: front → shorter ≠ front →
          ∃ p, resolve algorithm kind shorter = .ok p) ∧
        ∀ rest, resolve algorithm kind (front ++ rest) = .error e := by
  intro claim
  obtain ⟨front, isFront, fits, refused⟩ := claim .hnsw .hybrid
    [("HYBRID_POLICY", "ADHOC_BF"), ("BATCH_SIZE", "5"), ("UNHEARD_OF", "1")]
    (.unknown "UNHEARD_OF") rfl
  have conflict : resolve .hnsw .hybrid [("HYBRID_POLICY", "ADHOC_BF"), ("BATCH_SIZE", "5")] =
      .error .adHocWithBatchSize := rfl
  have policy : resolve .hnsw .hybrid [("HYBRID_POLICY", "ADHOC_BF")] =
      .ok { mode := .adHoc } := rfl
  have nothing : resolve .hnsw .hybrid [] = .ok {} := rfl
  have hold := refused []
  rw [List.append_nil] at hold
  rw [List.prefix_iff_eq_take] at isFront
  match h : front.length with
  | 0 =>
    rw [isFront, h] at hold
    exact nomatch nothing.symm.trans hold
  | 1 =>
    rw [isFront, h] at hold
    exact nomatch policy.symm.trans hold
  | 2 =>
    rw [isFront, h] at hold
    exact nomatch conflict.symm.trans hold
  | n + 3 =>
    have whole : front =
        [("HYBRID_POLICY", "ADHOC_BF"), ("BATCH_SIZE", "5"), ("UNHEARD_OF", "1")] := by
      rw [isFront, h]
      simp
    obtain ⟨p, fit⟩ := fits [("HYBRID_POLICY", "ADHOC_BF"), ("BATCH_SIZE", "5")]
      (by rw [whole]; exact ⟨[("UNHEARD_OF", "1")], rfl⟩) (by rw [whole]; decide)
    exact nomatch conflict.symm.trans fit

end Vicinity.Query
