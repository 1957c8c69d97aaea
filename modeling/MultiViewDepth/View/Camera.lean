import MultiViewDepth.View.Transform

/-!
Pinhole cameras and their projections at the resolutions of the stages.
-/
namespace MultiViewDepth

def stageCount : Nat := 3

/-- Intrinsics at full resolution, and the pose that takes world to camera coordinates. -/
structure Camera (δ : Type) where
  intrinsics : Fin 3 → Fin 3 → δ
  extrinsics : Transform δ

namespace Camera

variable {δ : Type} [Scalar δ]

/-- Intrinsics of an image resized by `scale`, bordered to a 4 × 4 matrix. -/
def calibration (camera : Camera δ) (scale : δ) : Transform δ := fun r c =>
  if h : r.val < 3 ∧ c.val < 3 then
    camera.intrinsics ⟨r, h.1⟩ ⟨c, h.2⟩ * (if r.val < 2 then scale else 1)
  else Transform.identity r c

def projection (camera : Camera δ) (scale : δ) : Transform δ :=
  (camera.calibration scale).mul camera.extrinsics

end Camera

/-- Resolution of a stage relative to the images: 1/8, 1/4 and 1/2. -/
def stageResolution {δ : Type} [Scalar δ] (stage : Nat) : δ :=
  1 / ((1 <<< (stageCount - stage) : Nat) : δ)

end MultiViewDepth
