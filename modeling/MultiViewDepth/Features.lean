import MultiViewDepth.Layer.Convolution
import MultiViewDepth.Sampling.Doubling
import MultiViewDepth.Tensor.Arithmetic

/-!
Learned features of an image at the resolutions of the three stages.
-/
namespace MultiViewDepth

variable {α : Type} [Scalar α]

/-- Features `(B, C, h, w)` at 1/8, 1/4 and 1/2 of the resolution. -/
structure Pyramid (α : Type) where
  coarse : Tensor α
  middle : Tensor α
  fine : Tensor α

def Pyramid.level? (pyramid : Pyramid α) (stage : Nat) : Option (Tensor α) :=
  [pyramid.coarse, pyramid.middle, pyramid.fine][stage]?

def chain (layers : List (Layer α)) : Layer α := fun t => layers.foldlM (fun t layer => layer t) t

/-- The learned parts of feature extraction. Each of the three trunks halves the resolution; the
features of a stage are read off the trunk and, enlarged, off all coarser ones. -/
structure FeatureExtractor (α : Type) where
  half : Layer α
  quarter : Layer α
  eighth : Layer α
  coarseOutput : Layer α
  middleOutput : Layer α
  fineOutput : Layer α
  /-- Brings the half-resolution trunk to the width of the coarsest one. -/
  halfBridge : Layer α
  quarterBridge : Layer α

namespace FeatureExtractor

/-- A 3 × 3 block that keeps, or a 5 × 5 block that halves, the resolution. -/
def same : Nat × Stride := (3, ⟨1, 1, 1⟩)
def halve : Nat × Stride := (5, ⟨2, 2, 1⟩)

/-- Blocks with the given inputs, outputs and kernels, numbered from `start`. -/
def blocks (scope : String) : Nat → List (Nat × Nat × Nat × Stride) →
    List (Blueprint α (Layer α))
  | _, [] => []
  | start, (inputs, outputs, kernel, stride) :: rest =>
    convolutionBlock (dotted scope start.repr) inputs outputs kernel stride ::
      blocks scope (start + 1) rest

def trunk (scope : String) (specs : List (Nat × Nat × Nat × Stride)) : Blueprint α (Layer α) :=
  chain <$> .list (blocks scope 0 specs)

/-- An extractor with the given numbers of feature channels, coarsest first. -/
def blueprint (scope : String) (coarse middle fine : Nat) : Blueprint α (FeatureExtractor α) :=
  FeatureExtractor.mk
    <$> trunk (dotted scope "stage1")
      [(3, 8, same), (8, 8, same), (8, 16, halve), (16, 16, same), (16, 16, same)]
    <*> trunk (dotted scope "stage2") [(16, 32, halve), (32, 32, same), (32, 32, same)]
    <*> trunk (dotted scope "stage3") [(32, 64, halve), (64, 64, same), (64, 64, same)]
    <*> Convolution.blueprint (dotted scope "output3") 64 coarse 1 ⟨1, 0, 1⟩
    <*> Convolution.blueprint (dotted scope "output2") 64 middle 1 ⟨1, 0, 1⟩
    <*> Convolution.blueprint (dotted scope "output1") 64 fine 1 ⟨1, 0, 1⟩
    <*> Convolution.blueprintWithBias (dotted scope "inner1") 16 64 1 ⟨1, 0, 1⟩
    <*> Convolution.blueprintWithBias (dotted scope "inner2") 32 64 1 ⟨1, 0, 1⟩

def extract (extractor : FeatureExtractor α) (image : Tensor α) : Result (Pyramid α) := do
  let (_, channels, height, width) ← image.sizes4
  unless channels = 3 ∧ height % 8 = 0 ∧ width % 8 = 0 do
    throw (.invalidInput .featureImage)
  let half ← extractor.half image
  let quarter ← extractor.quarter half
  let eighth ← extractor.eighth quarter
  let coarse ← extractor.coarseOutput eighth
  let wider ← Tensor.zipSame (· + ·) (← Sampling.double eighth) (← extractor.quarterBridge quarter)
  let middle ← extractor.middleOutput wider
  let widest ← Tensor.zipSame (· + ·) (← Sampling.double wider) (← extractor.halfBridge half)
  let fine ← extractor.fineOutput widest
  return ⟨coarse, middle, fine⟩

end FeatureExtractor

end MultiViewDepth
