import Vicinity.Element

/-!
Distances between vectors; lower is closer.

* `l2`: the squared Euclidean distance.
* `innerProduct`: one less the inner product.
* `cosine`: the inner-product distance of vectors scaled to unit length.

Every distance is one sum from left to right in double precision.
-/

namespace Vicinity

inductive Metric where
  | l2
  | innerProduct
  | cosine
deriving DecidableEq, Repr, Inhabited

namespace Metric

def all : List Metric := [.l2, .innerProduct, .cosine]

def name : Metric → String
  | .l2 => "L2"
  | .innerProduct => "IP"
  | .cosine => "COSINE"

/-- The spelling in settings and reports. -/
def key : Metric → String
  | .l2 => "l2"
  | .innerProduct => "inner_product"
  | .cosine => "cosine"

/-- The number that stands for the metric in an image. -/
def tag : Metric → UInt32
  | .l2 => 0
  | .innerProduct => 1
  | .cosine => 2

def ofTag? (tag : UInt32) : Option Metric := all.find? (·.tag == tag)

/-- Vectors are scaled to unit length before use. -/
def normalizes : Metric → Bool
  | .cosine => true
  | _ => false

variable {α : Type} [Element α]

/-- The squared difference of two components. -/
def squaredGap (x y : α) : Binary64 :=
  let d := Element.toDouble x - Element.toDouble y
  d * d

/-- The distance of two vectors of one length. -/
def distance (metric : Metric) (a b : List α) : Binary64 :=
  match metric with
  | .l2 => .sum (a.zipWith squaredGap b)
  | .innerProduct | .cosine =>
    .one - .sum (a.zipWith (fun x y => Element.toDouble x * Element.toDouble y) b)

/-- The greatest magnitude of a component; a NaN does not count. -/
def maxMagnitude (v : List α) : Binary64 :=
  v.foldl (fun m x => m.max (Element.toDouble x).abs) .zero

/-- The Euclidean length. Components are divided by the greatest magnitude before they are squared,
so that no square overflows. -/
def lengthOver (m : Binary64) (v : List α) : Binary64 :=
  m * (Binary64.sum (v.map fun x => let s := Element.toDouble x / m; s * s)).sqrt

/-- A vector scaled to unit length. One without a finite nonzero magnitude stays as it is. -/
def normalize (v : List α) : List α :=
  let m := maxMagnitude v
  if m.isZero || !m.isFinite then v
  else
    let length := lengthOver m v
    v.map fun x => Element.ofDouble (Element.toDouble x / length)

/-- The form in which a vector is stored and asked for. -/
def prepare (metric : Metric) (v : List α) : List α :=
  if metric.normalizes then normalize v else v

theorem length_prepare (metric : Metric) (v : List α) :
    (metric.prepare v).length = v.length := by
  unfold prepare normalize
  split
  · dsimp only
    split <;> simp
  · rfl

end Metric

end Vicinity
