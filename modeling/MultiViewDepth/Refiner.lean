import MultiViewDepth.Depth.Range
import MultiViewDepth.Layer.Convolution
import MultiViewDepth.Sampling.Doubling
import MultiViewDepth.Tensor.Arithmetic

/-!
The last doubling of the resolution: bilinear enlargement and a learned correction, guided by the
image.
-/
namespace MultiViewDepth

variable {α δ : Type} [Scalar α] [Scalar δ] [Precision α δ]

structure Refiner (α : Type) where
  /-- Features of the image. -/
  image : Layer α
  /-- Features of the depth map, at twice its resolution. -/
  depth : Layer α
  /-- The correction of normalized depth from both. -/
  correction : Layer α

namespace Refiner

def guideChannels : Nat := 8

/-- Features of a depth map, enlarged by a transposed convolution. -/
def depthBranch (scope : String) : Blueprint α (Layer α) :=
  let c := guideChannels
  (fun kernels first second norm map => do
      let guided ← Convolution.spread kernels (← second (← first map))
      return rectify (← norm.apply guided))
    <$> .parameter (dotted scope "2.weight") [c, c, 3, 3]
    <*> sameSizeBlock (dotted scope "0") 1 c
    <*> sameSizeBlock (dotted scope "1") c c
    <*> Normalization.blueprint (dotted scope "3") c

def correctionBranch (scope : String) : Blueprint α (Layer α) :=
  (fun last first both => do last (← first both))
    <$> Convolution.blueprint (dotted scope "1") guideChannels 1 3 ⟨1, 1, 1⟩
    <*> sameSizeBlock (dotted scope "0") (2 * guideChannels) guideChannels

def blueprint (scope : String) : Blueprint α (Refiner α) :=
  Refiner.mk
    <$> sameSizeBlock (dotted scope "conv") 3 guideChannels
    <*> depthBranch (dotted scope "deconv")
    <*> correctionBranch (dotted scope "residual")

/-- Depth from 0 at the near to 1 at the far end of the range. -/
def normalized (range : DepthRange δ) (depth : Tensor α) : Tensor α :=
  depth.affine (Precision.narrow (1 / range.span)) (Precision.narrow (-range.near / range.span))

def residual (refiner : Refiner α) (image normalized : Tensor α) : Result (Tensor α) := do
  let features ← refiner.image image
  let guided ← refiner.depth normalized
  refiner.correction (← Tensor.concat 1 [guided, features])

/-- Refines depth `(B, 1, H/2, W/2)` with an image `(B, 3, H, W)` to `(B, H, W)`. -/
def refine (refiner : Refiner α) (image depth : Tensor α) (range : DepthRange δ) :
    Result (Tensor α) := do
  let (batch, _, height, width) ← image.sizes4
  let (depthBatch, channels, depthHeight, depthWidth) ← depth.sizes4
  unless depthBatch = batch ∧ channels = 1 ∧ 2 * depthHeight = height ∧ 2 * depthWidth = width do
    throw (.shapeMismatch .refinementDepth [batch, 1, height / 2, width / 2] depth.shape)
  let normalized := normalized range depth
  let residual ← refiner.residual image normalized
  let refined ← Tensor.zipSame (· + ·) (← Sampling.double normalized) residual
  (refined.affine (Precision.narrow range.span) (Precision.narrow range.near)).squeeze 1

end Refiner

end MultiViewDepth
