import Vicinity.Proofs.BestHits
import Vicinity.Proofs.Sorting.Adaptive

/-!
Hits in whatever order they arrive.

A collector takes hits in one by one, what it keeps is listed in any order, and the list is sorted
(`Answers`). Every label hit then stands in the reply once, with what is kept for it. The replies to
one set of hits are `Alike` for all orders of arrival and listing (`Independent`) if the hits are
`Settled`: no label is hit both with a NaN and with a number, and no label hit with a NaN stands
between two whose best scores descend. The first condition is needed because a NaN that comes first
is never replaced. The second is needed, too, as long as the reply is sorted by insertion: a NaN is
compared by its label alone, so it holds a lower score behind it where it arrives between the two
and lets it pass where it does not (`Answers.arrival_order`). However long it is, a reply that lists
each label once is sorted by one procedure (`sortByScore_eq_adaptive`), and under an order that is
one this leaves no choice.
-/

namespace Vicinity

namespace Hit

/-- The same label with the same number, or with no number both times. -/
def Alike (a b : Hit) : Prop :=
  a.label = b.label ∧ (a.score.Equals b.score ∨ a.score.isNaN = true ∧ b.score.isNaN = true)

/-- The hit has the lowest number of its label, if the label has any. -/
def CarriesBest (hits : List Hit) (hit : Hit) : Prop :=
  ∀ other ∈ hits, other.label = hit.label → other.score.isNaN = false →
    hit.score.isNaN = false ∧ other.score.lt hit.score = false

end Hit

namespace Reply

/-- The same labels with the same scores, in the same order. -/
def Alike (a b : Reply) : Prop := List.Forall₂ Hit.Alike a b

/-- The reply is what the collector keeps of the hits, taken in some order and sorted. -/
def Answers (hits : List Hit) (reply : Reply) : Prop :=
  ∃ results : Reply, results.Perm (BestHits.ofHits hits).toReply ∧ reply = results.sortByScore

/-- The order in which the hits arrive makes no difference, nor does the one in which they are
taken. -/
def Independent (hits : List Hit) : Prop :=
  ∀ arrived : List Hit, arrived.Perm hits → ∀ reply other, Answers hits reply →
    Answers arrived other → Alike reply other

/-- No label is hit both with a NaN and with a number. -/
def Unmixed (hits : List Hit) : Prop :=
  ∀ a ∈ hits, ∀ b ∈ hits, a.label = b.label → a.score.isNaN = b.score.isNaN

/-- Besides, no label hit with a NaN stands between two others whose best scores descend. -/
structure Settled (hits : List Hit) : Prop where
  unmixed : Unmixed hits
  clear : ∀ a b nan : Hit, a.IsBest hits → b.IsBest hits → a.score.isNaN = false →
    b.score.isNaN = false → nan ∈ hits → nan.score.isNaN = true → a.label < nan.label →
    nan.label < b.label → a.score.le b.score = true

variable {hits arrived : List Hit} {reply other : Reply} {a b c hit : Hit}

/-! ### What a reply lists -/

theorem Answers.perm (answers : Answers hits reply) :
    reply.Perm (BestHits.ofHits hits).toReply := by
  obtain ⟨results, taken, rfl⟩ := answers
  exact (sortByScore_perm results).trans taken

theorem Answers.isKept (answers : Answers hits reply) (mem : hit ∈ reply) : hit.IsKept hits :=
  (BestHits.collects_ofHits hits).isKept hit (answers.perm.mem_iff.1 mem)

/-- Each label hit is listed once. -/
theorem Answers.perm_labels (answers : Answers hits reply) :
    reply.labels.Perm (labels hits).dedup :=
  (answers.perm.map _).trans (BestHits.collects_ofHits hits).perm_labels

theorem Answers.nodup_labels (answers : Answers hits reply) : reply.labels.Nodup :=
  answers.perm_labels.nodup_iff.2 (List.nodup_dedup _)

/-- A label that was hit is listed. -/
theorem Answers.exists_listed (answers : Answers hits reply) (mem : hit ∈ hits) :
    ∃ listed ∈ reply, listed.label = hit.label := by
  have label_hit : hit.label ∈ (labels hits).dedup := List.mem_dedup.2 (List.mem_map_of_mem mem)
  exact List.mem_map.1 (answers.perm_labels.mem_iff.2 label_hit)

/-! ### Hits that stand for their labels -/

/-- The score is a NaN, or no hit of the label has a lower one. -/
structure Stands (hits : List Hit) (hit : Hit) : Prop where
  mem : hit ∈ hits
  best : hit.score.isNaN = false → hit.IsBest hits

theorem Stands.perm (stands : Stands hits hit) (same : arrived.Perm hits) : Stands arrived hit :=
  ⟨same.mem_iff.2 stands.mem, fun number => (stands.best number).perm same⟩

theorem Unmixed.perm (unmixed : Unmixed hits) (same : arrived.Perm hits) : Unmixed arrived :=
  fun a a_mem b b_mem => unmixed a (same.mem_iff.1 a_mem) b (same.mem_iff.1 b_mem)

theorem Unmixed.stands (unmixed : Unmixed hits) (kept : hit.IsKept hits) : Stands hits hit := by
  refine ⟨kept.mem, fun number => kept.isBest fun other mem same => ?_⟩
  rw [unmixed other mem hit kept.mem same, number]

/-- The best hits of one label have one score. -/
theorem Stands.key_eq (stands_a : Stands hits a) (stands_b : Stands hits b)
    (same : a.label = b.label) (number_a : a.score.isNaN = false)
    (number_b : b.score.isNaN = false) : a.key = b.key := by
  apply Nat.le_antisymm
  · exact (stands_a.best number_a).2 b stands_b.mem same.symm
  · exact (stands_b.best number_b).2 a stands_a.mem same

/-- Two hits that stand for one label are alike. -/
theorem Stands.alike (unmixed : Unmixed hits) (stands_a : Stands hits a) (stands_b : Stands hits b)
    (same : a.label = b.label) : a.Alike b := by
  refine ⟨same, ?_⟩
  have kind := unmixed a stands_a.mem b stands_b.mem same
  cases number_b : b.score.isNaN with
  | true => exact .inr ⟨kind.trans number_b, rfl⟩
  | false =>
    have number_a := kind.trans number_b
    exact .inl ((Binary64.equals_iff number_a number_b).2
      (stands_a.key_eq stands_b same number_a number_b))

theorem Stands.carriesBest (unmixed : Unmixed hits) (stands : Stands hits hit) :
    hit.CarriesBest hits := by
  intro other mem same number
  have hit_number : hit.score.isNaN = false := by
    rw [← unmixed other mem hit stands.mem same, number]
  refine ⟨hit_number, Bool.eq_false_iff.2 fun lower => ?_⟩
  have below := (Binary64.lt_iff number hit_number).1 lower
  exact absurd ((stands.best hit_number).2 other mem same) (Nat.not_le.2 below)

/-! ### The order of settled hits -/

/-- Both hits stand for their labels, and the second does not precede the first. -/
structure Leads (hits : List Hit) (a b : Hit) : Prop where
  first : Stands hits a
  second : Stands hits b
  before : b.precedes a = false

/-- With a NaN among the scores the labels decide, otherwise the scores and then the labels. -/
theorem precedes_eq_false_iff :
    b.precedes a = false ↔
      if (a.score.isNaN || b.score.isNaN) = true then a.label.toNat ≤ b.label.toNat
      else a.key < b.key ∨ a.key = b.key ∧ a.label.toNat ≤ b.label.toNat := by
  rw [Bool.eq_false_iff, ne_eq]
  split
  case isTrue nan =>
    rw [Bool.or_comm] at nan
    rw [Hit.precedes_iff_of_nan nan, Nat.not_lt]
  case isFalse numbers =>
    rw [Bool.not_eq_true, Bool.or_eq_false_iff] at numbers
    rw [Hit.precedes_iff numbers.2 numbers.1, Hit.rank_lt_iff]
    omega

theorem asymm_precedes (before : a.precedes b = true) : b.precedes a = false := by
  have behind : ¬ a.precedes b = false := by
    rw [before]
    exact Bool.noConfusion
  rw [precedes_eq_false_iff, Bool.or_comm] at behind
  rw [precedes_eq_false_iff]
  split_ifs at behind ⊢ <;> omega

/-- A NaN has another label than a number. -/
theorem Unmixed.label_ne (unmixed : Unmixed hits) (stands_a : Stands hits a)
    (stands_b : Stands hits b) (kind : a.score.isNaN ≠ b.score.isNaN) :
    a.label.toNat ≠ b.label.toNat := fun same =>
  kind (unmixed a stands_a.mem b stands_b.mem (UInt64.toNat_inj.1 same))

/-- The best score of a label before a NaN is no higher than that of a label behind it. -/
theorem Settled.key_le (settled : Settled hits) {nan : Hit} (stands_a : Stands hits a)
    (stands_b : Stands hits b) (stands : Stands hits nan) (number_a : a.score.isNaN = false)
    (number_b : b.score.isNaN = false) (not_number : nan.score.isNaN = true)
    (before : a.label.toNat < nan.label.toNat) (behind : nan.label.toNat < b.label.toNat) :
    a.key ≤ b.key := by
  refine (Binary64.le_iff number_a number_b).1 ?_
  exact settled.clear a b nan (stands_a.best number_a) (stands_b.best number_b) number_a number_b
    stands.mem not_number (UInt64.lt_iff_toNat_lt.2 before) (UInt64.lt_iff_toNat_lt.2 behind)

/-- Only two numbers are compared by their scores. A NaN between or beside them puts their labels in
order, and their scores are in that order, too. -/
theorem Leads.trans (settled : Settled hits) (first : Leads hits a b) (second : Leads hits b c) :
    Leads hits a c := by
  refine ⟨first.first, second.second, ?_⟩
  obtain ⟨stands_a, stands_b, a_b⟩ := first
  obtain ⟨_, stands_c, b_c⟩ := second
  have apart_ab := settled.unmixed.label_ne stands_a stands_b
  have apart_bc := settled.unmixed.label_ne stands_b stands_c
  rw [precedes_eq_false_iff] at a_b b_c ⊢
  cases number_a : a.score.isNaN <;> cases number_b : b.score.isNaN <;>
    cases number_c : c.score.isNaN <;>
    simp only [number_a, number_b, number_c, Bool.or_self, Bool.or_true, Bool.true_or, ne_eq,
      if_true, if_false, Bool.false_eq_true, not_true_eq_false, not_false_eq_true,
      Bool.true_eq_false, forall_const] at a_b b_c apart_ab apart_bc ⊢
  · omega
  · have step := settled.key_le stands_b stands_a stands_c number_b number_a number_c
    omega
  · have step := settled.key_le stands_a stands_c stands_b number_a number_c number_b
    omega
  · omega
  · have step := settled.key_le stands_c stands_b stands_a number_c number_b number_a
    omega
  · omega
  · omega
  · omega

theorem Leads.label_eq (first : Leads hits a b) (second : Leads hits b a) : a.label = b.label := by
  have a_b := precedes_eq_false_iff.1 first.before
  have b_a := precedes_eq_false_iff.1 second.before
  rw [Bool.or_comm] at b_a
  refine UInt64.toNat_inj.1 ?_
  split_ifs at a_b b_a <;> omega

/-- Which of the hits stands for a label makes no difference. -/
theorem Stands.leads (stands_a : Stands hits a) (stands_b : Stands hits b)
    (same : a.label = b.label) : Leads hits a b := by
  refine ⟨stands_a, stands_b, precedes_eq_false_iff.2 ?_⟩
  have le := Nat.le_of_eq (congrArg UInt64.toNat same)
  split
  case isTrue => exact le
  case isFalse numbers =>
    rw [Bool.not_eq_true, Bool.or_eq_false_iff] at numbers
    exact .inr ⟨stands_a.key_eq stands_b same numbers.1 numbers.2, le⟩

theorem Settled.orders (settled : Settled hits) {whole : List Hit}
    (standing : ∀ hit ∈ whole, Stands hits hit) :
    Sorting.Orders Hit.precedes (Leads hits) whole := by
  refine ⟨Leads.trans settled, fun {a b} a_mem b_mem before => ?_,
    fun {a b} a_mem b_mem behind => ?_⟩
  · exact ⟨standing a a_mem, standing b b_mem, asymm_precedes before⟩
  · exact ⟨standing b b_mem, standing a a_mem, behind⟩

/-- Two settled hits of different labels have one order. -/
theorem pairwise_apart (nodup : (labels reply).Nodup) :
    reply.Pairwise fun a b => Leads hits a b → ¬Leads hits b a :=
  (List.pairwise_map.1 nodup).imp fun other first second => other (first.label_eq second)

/-- So a sort of them merges nothing of which both ends draw one hit: neither the halves of a block
nor those of a group of eight, which is all that it merges from both ends. -/
theorem Settled.endsMeet_sortBlock (settled : Settled hits) {block : Reply}
    (standing : ∀ hit ∈ block, Stands hits hit) (nodup : block.labels.Nodup) :
    Sorting.EndsMeet Hit.precedes
        (Sorting.sortHalf Hit.precedes (Sorting.groupSize block.length)
          (block.take (block.length / 2)))
        (Sorting.sortHalf Hit.precedes (Sorting.groupSize block.length)
          (block.drop (block.length / 2))) ∧
      ∀ a b c d e f g h, block = [a, b, c, d, e, f, g, h] →
        Sorting.EndsMeet Hit.precedes (Sorting.four Hit.precedes a b c d)
          (Sorting.four Hit.precedes e f g h) := by
  have orders := settled.orders standing
  have all := List.Subset.refl block
  refine ⟨orders.endsMeet_sortBlock all (pairwise_apart nodup), ?_⟩
  rintro a b c d e f g h rfl
  exact orders.endsMeet_four all (pairwise_apart nodup)

/-- Numbers are settled. -/
theorem settled_of_numeric (numeric : ∀ hit ∈ hits, hit.score.isNaN = false) : Settled hits where
  unmixed a a_mem b b_mem _ := (numeric a a_mem).trans (numeric b b_mem).symm
  clear _ _ nan _ _ _ _ mem not_number := by
    rw [numeric nan mem] at not_number
    cases not_number

/-- A reply that lists each label once is sorted in one way, be its scores numbers or not. -/
theorem sortByScore_eq_adaptive (nodup : reply.labels.Nodup) :
    reply.sortByScore = Sorting.adaptive Hit.precedes reply := by
  rw [sortByScore]
  split
  case isFalse => rfl
  case isTrue numeric =>
    have same {a b : Hit} (a_mem : a ∈ reply) (b_mem : b ∈ reply) (label_eq : a.label = b.label) :
        a = b := List.inj_on_of_nodup_map nodup a_mem b_mem label_eq
    have standing : ∀ hit ∈ reply, Stands reply hit := fun hit mem =>
      ⟨mem, fun _ => ⟨mem, fun other there label_eq => by rw [same there mem label_eq]⟩⟩
    have orders := (settled_of_numeric (isNumeric_iff.1 numeric)).orders standing
    refine (orders.adaptive_eq_sortBy fun a a_mem b b_mem first second => ?_).symm
    exact same a_mem b_mem (first.label_eq second)

theorem Settled.pairwise_sortByScore (settled : Settled hits) (nodup : reply.labels.Nodup)
    (standing : ∀ hit ∈ reply, Stands hits hit) : reply.sortByScore.Pairwise (Leads hits) := by
  rw [sortByScore_eq_adaptive nodup]
  exact (settled.orders standing).pairwise_adaptive (List.Subset.refl reply)

/-- A hit that stands for the first label leads one that stands for the second. -/
def Ahead (hits : List Hit) (l m : Label) : Prop :=
  ∃ a b : Hit, a.label = l ∧ b.label = m ∧ Leads hits a b

theorem Ahead.eq (settled : Settled hits) {l m : Label} (before : Ahead hits l m)
    (after : Ahead hits m l) : l = m := by
  obtain ⟨a, b, rfl, rfl, a_b⟩ := before
  obtain ⟨b', a', same_b, same_a, b_a⟩ := after
  have b_b' := a_b.second.leads b_a.first same_b.symm
  have a'_a := b_a.second.leads a_b.first same_a
  exact a_b.label_eq ((b_b'.trans settled b_a).trans settled a'_a)

theorem pairwise_ahead (sorted : reply.Pairwise (Leads hits)) :
    reply.labels.Pairwise (Ahead hits) :=
  List.pairwise_map.2 (sorted.imp fun leads => ⟨_, _, rfl, rfl, leads⟩)

/-- There is one order of the labels. -/
theorem Settled.labels_eq (settled : Settled hits) (first : reply.Pairwise (Leads hits))
    (second : other.Pairwise (Leads hits)) (same : reply.labels.Perm other.labels) :
    reply.labels = other.labels :=
  List.Perm.eq_of_pairwise (fun _ _ _ _ => Ahead.eq settled) (pairwise_ahead first)
    (pairwise_ahead second) same

/-- Hits that stand for the same labels, in the same order, are alike. -/
theorem Unmixed.alike (unmixed : Unmixed hits) (first : ∀ hit ∈ reply, Stands hits hit)
    (second : ∀ hit ∈ other, Stands hits hit) (same : reply.labels = other.labels) :
    Alike reply other := by
  have labels : List.Forall₂ (fun x y : Hit => x.label = y.label) reply other := by
    rwa [Reply.labels, Reply.labels, ← List.forall₂_eq_eq_eq, List.forall₂_map_left_iff,
      List.forall₂_map_right_iff] at same
  have in_reply := (List.forall₂_and_left reply other).2 ⟨fun _ here => here, labels⟩
  have in_both := (List.forall₂_and_left other reply).2 ⟨fun _ here => here, in_reply.flip⟩
  refine in_both.flip.imp fun x y both => ?_
  obtain ⟨from_other, from_reply, same⟩ := both
  exact (first x from_reply).alike unmixed (second y from_other) same

theorem Answers.stands (unmixed : Unmixed hits) (same : arrived.Perm hits)
    (answers : Answers arrived reply) : ∀ hit ∈ reply, Stands hits hit := fun _ mem =>
  ((unmixed.perm same).stands (answers.isKept mem)).perm same.symm

theorem Answers.pairwise (settled : Settled hits) (same : arrived.Perm hits)
    (answers : Answers arrived reply) : reply.Pairwise (Leads hits) := by
  have standing := answers.stands settled.unmixed same
  have nodup := answers.nodup_labels
  obtain ⟨results, _, rfl⟩ := answers
  have sorted := sortByScore_perm results
  refine settled.pairwise_sortByScore ((sorted.map _).nodup_iff.1 nodup) fun hit mem => ?_
  exact standing hit (sorted.mem_iff.2 mem)

/-- Settled hits may arrive in any order. -/
theorem Settled.independent (settled : Settled hits) : Independent hits := by
  intro arrived same reply other answers answers'
  have listed : reply.labels.Perm other.labels :=
    answers.perm_labels.trans ((same.symm.map _).dedup.trans answers'.perm_labels.symm)
  refine settled.unmixed.alike (answers.stands settled.unmixed (.refl hits))
    (answers'.stands settled.unmixed same) ?_
  exact settled.labels_eq (answers.pairwise settled (.refl hits)) (answers'.pairwise settled same)
    listed

/-! ### What independence needs -/

theorem answers_ofHits (hits : List Hit) :
    Answers hits (BestHits.ofHits hits).toReply.sortByScore :=
  ⟨_, .refl _, rfl⟩

/-- Alike replies list the same labels with numbers, and the same ones without. -/
theorem Alike.outline_eq (alike : Alike reply other) :
    reply.map (fun hit => (hit.label, hit.score.isNaN)) =
      other.map fun hit => (hit.label, hit.score.isNaN) := by
  induction alike with
  | nil => rfl
  | cons here _ ih =>
    refine List.cons_eq_cons.2 ⟨Prod.ext here.1 ?_, ih⟩
    rcases here.2 with equal | ⟨nan, nan'⟩
    · obtain ⟨number, number'⟩ := Binary64.numbers_of_le equal.1
      exact number.trans number'.symm
    · exact nan.trans nan'.symm

theorem Alike.labels_eq (alike : Alike reply other) : reply.labels = other.labels := by
  have same := congrArg (List.map Prod.fst) alike.outline_eq
  rwa [List.map_map, List.map_map] at same

/-- Each hit might arrive first, and whether a label has a number then depends on it. -/
theorem Independent.listed_as (independent : Independent hits) (mem : a ∈ hits) :
    ∃ listed ∈ (BestHits.ofHits hits).toReply.sortByScore,
      listed.label = a.label ∧ listed.score.isNaN = a.score.isNaN := by
  have first := answers_ofHits (a :: hits.erase a)
  have alike := independent _ (List.perm_cons_erase mem).symm _ _ (answers_ofHits hits) first
  obtain ⟨kept, here, same⟩ := first.exists_listed List.mem_cons_self
  have opens : Hit.opening (a :: hits.erase a) kept.label = some a := by
    rw [same, Hit.opening]
    exact List.find?_cons_of_pos (beq_self_eq_true a.label)
  have kind : kept.score.isNaN = a.score.isNaN := by
    cases nan : a.score.isNaN with
    | true => rw [(first.isKept here).of_nan a opens nan, nan]
    | false => exact ((first.isKept here).of_number a opens nan).1
  have among : (kept.label, kept.score.isNaN) ∈
      (BestHits.ofHits hits).toReply.sortByScore.map fun hit => (hit.label, hit.score.isNaN) := by
    rw [alike.outline_eq]
    exact List.mem_map_of_mem here
  obtain ⟨listed, there, both⟩ := List.mem_map.1 among
  obtain ⟨same', kind'⟩ := Prod.mk.inj both
  exact ⟨listed, there, same'.trans same, kind'.trans kind⟩

/-- So the hits of a label are of one kind. -/
theorem Independent.unmixed (independent : Independent hits) : Unmixed hits := by
  intro a a_mem b b_mem same
  obtain ⟨x, x_mem, x_label, x_kind⟩ := independent.listed_as a_mem
  obtain ⟨y, y_mem, y_label, y_kind⟩ := independent.listed_as b_mem
  have one : x = y := List.inj_on_of_nodup_map (answers_ofHits hits).nodup_labels x_mem y_mem
    (x_label.trans (same.trans y_label.symm))
  rw [← x_kind, one, y_kind]

/-- Two elements of a list without repetition stand in one order. -/
theorem not_both_sublist {ls : List Label} {l m : Label} (nodup : ls.Nodup)
    (forth : [l, m].Sublist ls) (back : [m, l].Sublist ls) : False := by
  induction ls with
  | nil => cases forth
  | cons first rest ih =>
    obtain ⟨new, nodup⟩ := List.nodup_cons.1 nodup
    cases forth with
    | cons _ forth =>
      cases back with
      | cons _ back => exact ih nodup forth back
      | cons_cons _ _ => exact new (forth.subset (by simp))
    | cons_cons _ forth =>
      cases back with
      | cons _ back => exact new (back.subset (by simp))
      | cons_cons _ _ => exact new (forth.subset (by simp))

/-- Three hits in a short list keep their order if none precedes the one before it, whatever comes
after them. -/
theorem sublist_sortByScore {rest : Reply} (nodup : (labels ([a, b, c] ++ rest)).Nodup)
    (b_a : b.precedes a = false) (c_b : c.precedes b = false)
    (few : ([a, b, c] ++ rest).length ≤ Sorting.maxInsertion) :
    [a, b, c].Sublist (sortByScore ([a, b, c] ++ rest)) := by
  have still : Sorting.sortBy Hit.precedes [a, b, c] = [a, b, c] := by
    simp [Sorting.sortBy, Sorting.insertBack, b_a, c_b]
  have kept := Sorting.sortBy_sublist_append Hit.precedes [a, b, c] rest
  rw [sortByScore_eq_adaptive nodup, Sorting.adaptive, if_pos few]
  rwa [still] at kept

/-- No three hits listed go round in a circle, none of them preceding the one before it: sorted by
insertion they would stay as they are, from whichever of them the list is taken. -/
theorem Independent.no_circle (independent : Independent hits)
    (few : (labels hits).dedup.length ≤ Sorting.maxInsertion)
    (mem : [a, b, c] ⊆ (BestHits.ofHits hits).toReply) (apart : (labels [a, b, c]).Nodup)
    (b_a : b.precedes a = false) (c_b : c.precedes b = false) (a_c : a.precedes c = false) :
    False := by
  let listed := (BestHits.ofHits hits).toReply
  let rest := listed.filter fun hit => hit ∉ [a, b, c]
  have nodup : listed.labels.Nodup := nodup_labels_toReply _
  have from_a : ([a, b, c] ++ rest).Perm listed :=
    Graph.perm_append_filter_not_mem (.of_map Hit.label apart) mem (.of_map Hit.label nodup)
  have from_b : ([b, c, a] ++ rest).Perm listed :=
    ((List.perm_append_singleton a [b, c]).append_right rest).trans from_a
  have short : listed.length ≤ Sorting.maxInsertion := by
    have once := (BestHits.collects_ofHits hits).perm_labels.length_eq
    rw [labels, List.length_map] at once
    exact once.trans_le few
  have first := sublist_sortByScore ((from_a.map _).nodup_iff.2 nodup) b_a c_b
    (from_a.length_eq.trans_le short)
  have last := sublist_sortByScore ((from_b.map _).nodup_iff.2 nodup) c_b a_c
    (from_b.length_eq.trans_le short)
  have answers : Answers hits (sortByScore ([a, b, c] ++ rest)) := ⟨_, from_a, rfl⟩
  have alike := independent hits (.refl hits) _ _ answers ⟨_, from_b, rfl⟩
  have forth : [a.label, c.label].Sublist (labels (sortByScore ([a, b, c] ++ rest))) :=
    (((List.sublist_cons_self b [c]).cons_cons a).trans first).map Hit.label
  have back : [c.label, a.label].Sublist (labels (sortByScore ([a, b, c] ++ rest))) := by
    rw [alike.labels_eq]
    exact ((List.sublist_cons_self b [c, a]).trans last).map Hit.label
  exact not_both_sublist answers.nodup_labels forth back

/-- What is listed for a label that was hit. -/
theorem Unmixed.exists_listed (unmixed : Unmixed hits) (mem : a ∈ hits) :
    ∃ listed ∈ (BestHits.ofHits hits).toReply, Stands hits listed ∧ listed.label = a.label ∧
      listed.score.isNaN = a.score.isNaN := by
  have answers := answers_ofHits hits
  obtain ⟨listed, here, same⟩ := answers.exists_listed mem
  have stands := answers.stands unmixed (.refl hits) listed here
  exact ⟨listed, answers.perm.subset here, stands, same, unmixed listed stands.mem a mem same⟩

/-- A lower score does not get past a NaN of a lower label. -/
theorem Independent.settled (independent : Independent hits)
    (few : (labels hits).dedup.length ≤ Sorting.maxInsertion) : Settled hits := by
  have unmixed := independent.unmixed
  refine ⟨unmixed, fun a b nan best_a best_b number_a number_b mem not_number before behind => ?_⟩
  obtain ⟨x, x_mem, x_stands, x_label, x_kind⟩ := unmixed.exists_listed best_a.1
  obtain ⟨y, y_mem, y_stands, y_label, y_kind⟩ := unmixed.exists_listed best_b.1
  obtain ⟨n, n_mem, _, n_label, n_kind⟩ := unmixed.exists_listed mem
  rw [number_a] at x_kind
  rw [number_b] at y_kind
  rw [not_number] at n_kind
  have x_key := x_stands.key_eq ⟨best_a.1, fun _ => best_a⟩ x_label x_kind number_a
  have y_key := y_stands.key_eq ⟨best_b.1, fun _ => best_b⟩ y_label y_kind number_b
  refine (Binary64.le_iff number_a number_b).2 (Nat.not_lt.1 fun lower => ?_)
  change b.key < a.key at lower
  rw [← x_label, ← n_label] at before
  rw [← y_label, ← n_label] at behind
  have apart : (labels [x, n, y]).Nodup := by
    simp [labels, UInt64.ne_of_lt before, UInt64.ne_of_lt behind,
      UInt64.ne_of_lt (UInt64.lt_trans before behind)]
  rw [UInt64.lt_iff_toNat_lt] at before behind
  refine independent.no_circle few (by simp [x_mem, n_mem, y_mem]) apart ?_ ?_ ?_
  · rw [precedes_eq_false_iff, n_kind, Bool.or_true, if_pos rfl]
    omega
  · rw [precedes_eq_false_iff, n_kind, Bool.true_or, if_pos rfl]
    omega
  · rw [precedes_eq_false_iff, x_kind, y_kind, Bool.or_self, if_neg Bool.noConfusion]
    omega

/-! ### Arrival -/

/-- Every label hit is listed once, with what is kept for it. The order of arrival makes no
difference if the hits are settled; each label then has its lowest number if it has any, and none
precedes an earlier one. The order of arrival makes a difference if a label is hit both with a NaN
and with a number, and, among as few labels as insertion sorts, in all other cases, too. -/
theorem Answers.arrival_order (answers : Answers hits reply) :
    reply.labels.Perm (labels hits).dedup ∧ (∀ hit ∈ reply, hit.IsKept hits) ∧
      (Settled hits → Independent hits ∧ (∀ hit ∈ reply, hit.CarriesBest hits) ∧
        reply.Pairwise fun a b => b.precedes a = false) ∧
      (Independent hits → Unmixed hits) ∧
      ((labels hits).dedup.length ≤ Sorting.maxInsertion → Independent hits → Settled hits) := by
  refine ⟨answers.perm_labels, fun _ mem => answers.isKept mem, fun settled => ?_,
    Independent.unmixed, fun few independent => independent.settled few⟩
  refine ⟨settled.independent, fun hit mem => ?_, ?_⟩
  · exact (answers.stands settled.unmixed (.refl hits) hit mem).carriesBest settled.unmixed
  · exact (answers.pairwise settled (.refl hits)).imp Leads.before

/-- The numbers 3 and 5. -/
def three : Binary64 := ⟨0x4008000000000000⟩

def five : Binary64 := ⟨0x4014000000000000⟩

/-- Scores that ascend with the labels, and a NaN between them. -/
def ascendingHits : List Hit := [⟨3, five⟩, ⟨1, three⟩, ⟨2, .nan⟩, ⟨1, .one⟩]

theorem settled_ascendingHits : Settled ascendingHits where
  unmixed := by
    unfold Unmixed
    decide
  clear := by
    have all : ∀ a ∈ ascendingHits, ∀ b ∈ ascendingHits, a.score.isNaN = false →
        b.score.isNaN = false → a.label < b.label → a.score.le b.score = true := by decide
    intro a b nan best_a best_b number_a number_b _ _ before behind
    exact all a best_a.1 b best_b.1 number_a number_b (UInt64.lt_trans before behind)

/-- Scores that ascend with their labels are listed in one way, with a NaN among them too. -/
theorem arrival_order_ascendingHits :
    Answers ascendingHits [⟨1, .one⟩, ⟨2, .nan⟩, ⟨3, five⟩] ∧ Independent ascendingHits := by
  have answers : Answers ascendingHits [⟨1, .one⟩, ⟨2, .nan⟩, ⟨3, five⟩] :=
    ⟨[⟨1, .one⟩, ⟨2, .nan⟩, ⟨3, five⟩], .of_eq (by decide), by decide⟩
  exact ⟨answers, (answers.arrival_order.2.2.1 settled_ascendingHits).1⟩

/-- A NaN and then a number for one label. -/
def nanFirst : List Hit := [⟨7, .nan⟩, ⟨7, .one⟩]

/-- Scores that descend, and a NaN between their labels. -/
def nanBetween : List Hit := [⟨1, five⟩, ⟨2, .nan⟩, ⟨3, .one⟩]

/-- The number is lost where the NaN arrives first, and the lower score comes first only if it is
not taken behind the NaN. -/
theorem order_matters : ¬ Independent nanFirst ∧ ¬ Independent nanBetween := by
  constructor
  · intro independent
    have kept : Answers nanFirst [⟨7, .nan⟩] := ⟨[⟨7, .nan⟩], .of_eq (by decide), by decide⟩
    have lowered : Answers nanFirst.reverse [⟨7, .one⟩] :=
      ⟨[⟨7, .one⟩], .of_eq (by decide), by decide⟩
    have same := (independent _ (List.reverse_perm nanFirst) _ _ kept lowered).outline_eq
    exact absurd same (by decide)
  · intro independent
    have still : Answers nanBetween nanBetween := ⟨nanBetween, .of_eq (by decide), by decide⟩
    have turned : Answers nanBetween [⟨2, .nan⟩, ⟨3, .one⟩, ⟨1, five⟩] :=
      ⟨[⟨2, .nan⟩, ⟨3, .one⟩, ⟨1, five⟩], by decide, by decide⟩
    have same := (independent nanBetween (.refl _) _ _ still turned).outline_eq
    exact absurd same (by decide)

end Reply

end Vicinity
