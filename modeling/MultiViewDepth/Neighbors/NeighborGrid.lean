import MultiViewDepth.Neighbors.Pattern
import MultiViewDepth.Tensor.Basic

/-!
The points at which every pixel reads its neighbors.

Points are normalized so that the centers of the first and the last pixel of an axis are -1 and 1.
-/
namespace MultiViewDepth

open Arithmetic

variable {α : Type} [Scalar α]

def normalize (size : Nat) (p : α) : α := affine ((2 : Nat) / ((size : α) - 1)) (-1) p

/-- Points `(B, N·H, W, 2)`, column coordinate first; block `n` of rows holds neighbor `n` of every
pixel. -/
structure NeighborGrid (α : Type) where
  points : Tensor α
  neighbors : Nat
  height : Nat
  width : Nat

namespace NeighborGrid

def target (pixel : Nat) (step : Int32) (learned : α) : α :=
  learned + (step.toInt : α) + (pixel : α)

/-- The grid of a pattern with learned offsets `(B, 2N, H, W)`: channel `2n` moves neighbor `n`
along its row, channel `2n + 1` along its column. -/
def build (learned : Tensor α) (pattern : Pattern) : Result (NeighborGrid α) := do
  let (batch, channels, height, width) ← learned.sizes4
  let neighbors := pattern.length
  if neighbors = 0 ∨ channels ≠ 2 * neighbors then
    throw (.shapeMismatch .learnedOffsets [batch, 2 * neighbors, height, width] learned.shape)
  let steps := pattern.toArray
  let points ← learned.compute [batch, neighbors * height, width, 2] fun
    | [b, r, x, coordinate] =>
      let n := r / height
      let y := r % height
      let step := steps.getD n Offset.center
      if coordinate = 0 then
        normalize width (target x step.dx (learned.get [b, 2 * n, y, x]))
      else
        normalize height (target y step.dy (learned.get [b, 2 * n + 1, y, x]))
    | _ => 0
  return ⟨points, neighbors, height, width⟩

end NeighborGrid

end MultiViewDepth
