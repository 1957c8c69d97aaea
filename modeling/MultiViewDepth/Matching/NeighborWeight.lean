import MultiViewDepth.Depth.Range
import MultiViewDepth.Layer.Voxelwise
import MultiViewDepth.Neighbors.NeighborGrid
import MultiViewDepth.Sampling.Bilinear
import MultiViewDepth.Tensor.Arithmetic

/-!
How much each neighbor counts in a pixel's matching cost: those at a similar depth and with similar
features count most.
-/
namespace MultiViewDepth

open Arithmetic Scalar

variable {α δ : Type} [Scalar α] [Scalar δ] [Precision α δ]

/-- Weights are divided by their sum, or by this number where the sum is smaller. As a whole number
it is zero. -/
def weightFloor {β : Type} [Arithmetic β] : β := 1 / ((100000 : Nat) : β)

namespace NeighborWeight

/-- Inverse depth, from 0 at the far to 1 at the near end of the range. -/
def normalizedInverse (range : DepthRange δ) (d : α) : α :=
  affine (Precision.narrow (1 / range.inverseSpan))
    (Precision.narrow (-range.inverseFar / range.inverseSpan)) (recip d)

/-- The weight of a neighbor whose normalized inverse depth differs by `gap` from the pixel's. -/
def proximity (interval : δ) (gap : α) : α :=
  let distance := clamp 0 4.0 (affine (Precision.narrow (1 / interval)) 0 (abs gap))
  sigmoid (affine (-2.0) 4.0 distance)

/-- How near every neighbor's hypothesis is to the pixel's own, `(B, D, N, H, W)`. Depths that are
whole numbers have no such weight. -/
def ofDepth (depth : Tensor α) (grid : NeighborGrid α) (range : DepthRange δ) (interval : δ) :
    Result (Tensor α) := do
  let (batch, hypotheses, height, width) ← depth.sizes4
  let inverse := depth.map (normalizedInverse range)
  let neighbors ← (← Sampling.sample inverse grid.points .border).reshape
    [batch, hypotheses, grid.neighbors, height, width]
  let gap ← Tensor.zip (· - ·) neighbors (← inverse.unsqueeze 2)
  if gap.kind = .word ∨ gap.kind = .long then throw .tensor
  return gap.map (proximity interval)

def ofFeatures (head : Layer α) (groups : Nat) (features : Tensor α) (grid : NeighborGrid α) :
    Result (Tensor α) := do
  let (batch, channels, height, width) ← features.sizes4
  if groups = 0 then throw .zeroGroups
  unless channels % groups = 0 do
    throw (.shapeMismatch .referenceFeatures
      [batch, channels - channels % groups, height, width] features.shape)
  let share := channels / groups
  let neighbors ← (← Sampling.sample features grid.points .border).reshape
    [batch, groups, share, grid.neighbors, height, width]
  let center ← features.reshape [batch, groups, share, 1, height, width]
  let similarity ← (← (← Tensor.zip (· * ·) neighbors center).mean 2).squeeze 2
  (← head similarity).squeeze 1

/-- Both weights multiplied and divided by their sum over the neighbors, `(B, D, N, H, W)`. -/
def combine (ofDepth ofFeatures : Tensor α) : Result (Tensor α) := do
  let weight ← Tensor.zip (· * ·) ofDepth (← ofFeatures.unsqueeze 1)
  Tensor.zip (· / ·) weight ((← weight.sum 2).atLeast weightFloor)

end NeighborWeight

end MultiViewDepth
