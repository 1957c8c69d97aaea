import MultiViewDepth.Neighbors.NeighborGrid
import MultiViewDepth.Sampling.Bilinear
import MultiViewDepth.Tensor.Layout
import MultiViewDepth.View.Relative

/-!
Source features seen from the reference view, for every hypothesis of its depth.
-/
namespace MultiViewDepth

variable {α δ : Type} [Scalar α] [Scalar δ] [Precision α δ]

/-- Points at or below this depth lie behind a camera. -/
def frontDepth : α := 1e-3

namespace Reprojection

/-- The normalized column and row of a projected point; a point behind the camera gets one outside
the image. -/
def land (height width : Nat) (u v w : α) : α × α :=
  if w ≤ frontDepth then
    (normalize width ((width : α) / 1), normalize height ((height : α) / 1))
  else (normalize width (u / w), normalize height (v / w))

/-- Source points `(B, D·H, W, 2)` of every hypothesis of a depth volume `(B, D, H, W)`. -/
def points (source reference depth : Tensor α) : Result (Tensor α) := do
  let (batch, hypotheses, height, width) ← depth.sizes4
  let pose ← RelativePose.between source reference
  unless pose.rotation.size 0 = batch do
    throw (.shapeMismatch .projectionBatch [batch, 4, 4] source.shape)
  depth.requireSingleEntries
  return .ofFn [batch, hypotheses * height, width, 2] fun
    | [b, r, x, coordinate] =>
      let y := r % height
      let d := depth.get [b, r / height, y, x]
      let (gx, gy) := land height width (pose.apply b 0 x y d) (pose.apply b 1 x y d)
        (pose.apply b 2 x y d)
      if coordinate = 0 then gx else gy
    | _ => 0

/-- Resamples source features `(B, C, H, W)` at every hypothesis: `(B, C, D, H, W)`. -/
def features (source : Tensor α) (sourceProjection referenceProjection depth : Tensor α) :
    Result (Tensor α) := do
  let (batch, channels, height, width) ← source.sizes4
  let (depthBatch, hypotheses, depthHeight, depthWidth) ← depth.sizes4
  unless depthBatch = batch ∧ depthHeight = height ∧ depthWidth = width do
    throw (.shapeMismatch .depthHypotheses [batch, hypotheses, height, width] depth.shape)
  let points ← points sourceProjection referenceProjection depth
  (← Sampling.sample source points .zeros).reshape [batch, channels, hypotheses, height, width]

end Reprojection

end MultiViewDepth
