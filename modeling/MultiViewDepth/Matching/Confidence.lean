import MultiViewDepth.Sampling.Doubling
import MultiViewDepth.Tensor.Layout

/-!
How much of a pixel's probability lies around its mean hypothesis.
-/
namespace MultiViewDepth

open Arithmetic Scalar

variable {α : Type} [Scalar α]

/-- Number of hypotheses whose probabilities are added. -/
def windowWidth : Nat := 4

namespace Confidence

/-- Entry `i` of a column that has one zero in front and zeros behind. -/
def padded (score : Tensor α) (b y x i : Nat) : α :=
  if i = 0 then 0 else score.get [b, i - 1, y, x]

/-- Probability of the hypotheses from one before `k` to two after it, added from left to right. -/
def windowSum (count : Nat) (score : Tensor α) (b k y x : Nat) : α :=
  let entry (i : Nat) : α := if i ≤ count then padded score b y x i else 0
  (windowWidth - 1).fold (fun i _ sum => sum + entry (k + (i + 1))) (entry k)

/-- The mean hypothesis number of a pixel, rounded to a number below `count`. -/
def meanNumber (count : Nat) (score : Tensor α) (b y x : Nat) : Nat :=
  toNat (clamp 0 ((count - 1 : Nat) : α)
    (round (sumTo count fun k => score.get [b, k, y, x] * (k : α))))

end Confidence

/-- Confidence `(B, 2H, 2W)` in `[0, 1]` from probabilities `(B, D, H, W)`. -/
def confidence (score : Tensor α) : Result (Tensor α) := do
  let (batch, count, height, width) ← score.sizes4
  let shape := [batch, 1, height, width]
  if count = 0 ∧ volume shape ≠ 0 then throw .tensor
  let small ← score.compute shape fun
    | [b, _, y, x] =>
      Confidence.windowSum count score b (Confidence.meanNumber count score b y x) y x
    | _ => 0
  ((← Sampling.double small).map (clamp 0 1)).squeeze 1

end MultiViewDepth
