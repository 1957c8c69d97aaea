import MultiViewDepth.Tensor.Arithmetic

/-!
One depth from the probabilities of a pixel's hypotheses.
-/
namespace MultiViewDepth

open Arithmetic Scalar

variable {α : Type} [Scalar α]

inductive Readout where
  /-- The mean depth. -/
  | expectation
  /-- The mean hypothesis number, placed between the inverse depths of the first and the last. -/
  | inverseDepth
  deriving DecidableEq, Repr

namespace Readout

def meanDepth (depth score : Tensor α) : Result (Tensor α) := do
  (← Tensor.zipSame (· * ·) depth score).sum 1

/-- The numbers `0, 1, …` along axis 1. -/
def numbers (count : Nat) : Tensor α :=
  .ofFn [1, count, 1, 1] fun
    | [_, k, _, _] => (k : α)
    | _ => 0

/-- The mean hypothesis number, turned into a depth; a single hypothesis is kept. -/
def betweenEnds (depth score : Tensor α) : Result (Tensor α) := do
  let (_, count, _, _) ← depth.sizes4
  if count = 1 then return depth
  let number ← (← Tensor.zip (· * ·) score (numbers count)).sum 1
  let first := (← depth.narrow 1 0 1).map recip
  let last := (← depth.narrow 1 (count - 1) 1).map recip
  let share := number.affine (1 / ((count - 1 : Nat) : α)) 0
  let step ← Tensor.zipSame (· * ·) (← Tensor.zipSame (· - ·) last first) share
  return (← Tensor.zipSame (· + ·) first step).map recip

def depth (readout : Readout) (depth score : Tensor α) : Result (Tensor α) :=
  match readout with
  | expectation => meanDepth depth score
  | inverseDepth => betweenEnds depth score

end Readout

end MultiViewDepth
