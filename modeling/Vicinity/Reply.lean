import Vicinity.Binary64
import Vicinity.LabelMap
import Vicinity.Sorting.Adaptive

/-!
Hits, replies and the collectors that gather hits before they become a reply.

A reply is ordered by score and then by label. `BestHits` keeps one hit per label, the one with the
lowest score; a list of hits keeps them all.
-/

namespace Vicinity

/-- A stored vector's label with its distance to the query. -/
structure Hit where
  label : Label
  score : Binary64
deriving DecidableEq, Repr, Inhabited

namespace Hit

/-- By score and then by label. A NaN score decides nothing, so such hits compare by label. -/
def compareByScore (a b : Hit) : Ordering :=
  ((a.score.partialCompare b.score).getD .eq).then (compare a.label b.label)

def precedes (a b : Hit) : Bool := a.compareByScore b == .lt

end Hit

/-- The hits of a query in reply order. -/
abbrev Reply := List Hit

namespace Reply

def labels (reply : Reply) : List Label := reply.map (·.label)

/-- Every score is a number. -/
def isNumeric (reply : Reply) : Bool := reply.all (!·.score.isNaN)

/-- By score and then by label, equal hits in the order given. Numeric scores leave one arrangement,
whatever the procedure; with a NaN among them it is what `Sorting.adaptive` makes of it. -/
def sortByScore (reply : Reply) : Reply :=
  if reply.isNumeric then Sorting.sortBy Hit.precedes reply
  else Sorting.adaptive Hit.precedes reply

theorem sortByScore_perm (reply : Reply) : (sortByScore reply).Perm reply := by
  unfold sortByScore
  split
  · exact Sorting.sortBy_perm ..
  · exact Sorting.adaptive_perm ..

def sortByLabel (reply : Reply) : Reply := Sorting.sortBy (fun a b => a.label < b.label) reply

end Reply

/-- One hit per label, listed by label. -/
structure BestHits where
  scores : LabelMap Binary64

namespace BestHits

def empty : BestHits := ⟨.empty⟩

instance : Inhabited BestHits := ⟨empty⟩

/-- The number of labels hit. -/
def size (best : BestHits) : Nat := best.scores.size

/-- Take a hit in: a label that is there already keeps its score unless the new one is lower. -/
def add (best : BestHits) (hit : Hit) : BestHits :=
  match best.scores.find? hit.label with
  | none => ⟨best.scores.insert hit.label hit.score⟩
  | some score => if hit.score.lt score then ⟨best.scores.insert hit.label hit.score⟩ else best

def ofHits (hits : List Hit) : BestHits := hits.foldl add empty

/-- The best hits, listed by label. Any other order would do as long as the scores are numbers: a
reply is sorted, and labels tell hits with equal scores apart. -/
def toReply (best : BestHits) : Reply := best.scores.entries.map fun e => ⟨e.1, e.2⟩

end BestHits

/-- Hits as they count for an index: with several vectors a label they are merged by label. -/
def Reply.gather (multi : Bool) (hits : List Hit) : Reply :=
  if multi then (BestHits.ofHits hits).toReply else hits

end Vicinity
