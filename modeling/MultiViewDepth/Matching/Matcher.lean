import MultiViewDepth.Depth.Readout
import MultiViewDepth.Matching.Similarity
import MultiViewDepth.Matching.NeighborWeight
import MultiViewDepth.Tasks
import MultiViewDepth.View.Reprojection

/-!
Scores hypotheses of depth by comparing the source views with the reference view.
-/
namespace MultiViewDepth

open Arithmetic Scalar

variable {α δ : Type} [Scalar α] [Scalar δ] [Precision α δ]

/-- Features `(B, C, H, W)` and projections `(B, 4, 4)` of the reference and the source views. -/
structure ViewFeatures (α : Type) where
  reference : Tensor α
  sources : List (Tensor α)
  referenceProjection : Tensor α
  sourceProjections : List (Tensor α)

def ViewFeatures.sourceCount (views : ViewFeatures α) : Result Nat :=
  if views.sources.length ≠ views.sourceProjections.length then
    .error (.shapeMismatch .sourceProjections [views.sources.length]
      [views.sourceProjections.length])
  else if views.sources.isEmpty then .error (.invalidInput .noSource)
  else .ok views.sources.length

structure Verdict (α : Type) where
  /-- Depth `(B, 1, H, W)`. -/
  depth : Tensor α
  /-- Probabilities of the hypotheses, `(B, D, H, W)`. -/
  score : Tensor α
  /-- Weights of the source views, `(B, V - 1, H, W)`. -/
  viewWeights : Tensor α

structure Matcher (α : Type) where
  groups : Nat
  /-- Rates a source view at every voxel; only the coarsest stage has it. -/
  viewHead : Option (Layer α)
  /-- Takes group similarities to a cost. -/
  similarityHead : Layer α
  parallel : Bool

namespace Matcher

def blueprint (scope : String) (groups : Nat) (ratesViews parallel : Bool) :
    Blueprint α (Matcher α) :=
  (fun viewHead similarityHead => ⟨groups, viewHead, similarityHead, parallel⟩)
    <$> .onlyIf ratesViews (costNetwork (dotted scope "pixelwise_net.conv") groups .sigmoid)
    <*> costNetwork (dotted scope "similarity_net.conv") groups .identity

/-- The best rating `(B, 1, H, W)` that one source view gets over all hypotheses. -/
def viewWeight (matcher : Matcher α) (similarity : Tensor α) : Result (Tensor α) :=
  match matcher.viewHead with
  | none => .error (.invalidInput .viewWeightsMissing)
  | some head => do (← (← head similarity).squeeze 1).maximum 1

def compare (matcher : Matcher α) (views : ViewFeatures α) (depth : Tensor α)
    (carried : Option (Tensor α)) (i : Nat) : Result (Tensor α × Tensor α) :=
  match views.sources[i]?, views.sourceProjections[i]? with
  | some source, some projection => do
    let warped ← Reprojection.features source projection views.referenceProjection depth
    let similarity ← groupSimilarity warped views.reference matcher.groups
    let weight ← match carried with
      | some weights => weights.narrow 1 i 1
      | none => matcher.viewWeight similarity
    return (similarity, weight)
  | _, _ => .error (.invalidInput .noSource)

/-- Sum of arrays of one shape, added from left to right. -/
def total : List (Tensor α) → Result (Tensor α)
  | [] => .error (.invalidInput .noSource)
  | t :: ts => ts.foldlM (Tensor.zipSame (· + ·)) t

def fuse (compared : List (Tensor α × Tensor α)) : Result (Tensor α) := do
  let weighted ← compared.mapM fun (similarity, weight) => do
    Tensor.zip (· * ·) similarity (← weight.unsqueeze 1)
  let similarity ← total weighted
  let weight ← total (compared.map Prod.snd)
  Tensor.zip (· / ·) similarity (← (weight.atLeast weightFloor).unsqueeze 1)

/-- Probabilities of the hypotheses from the fused similarity: the cost of a hypothesis is gathered
from the neighbors of its pixel. -/
def score (matcher : Matcher α) (similarity : Tensor α) (grid : NeighborGrid α)
    (weight : Tensor α) (batch hypotheses height width : Nat) : Result (Tensor α) := do
  let cost ← (← matcher.similarityHead similarity).squeeze 1
  let gathered ← (← Sampling.sample cost grid.points .border).reshape
    [batch, hypotheses, grid.neighbors, height, width]
  let weighted ← (← (← Tensor.zip (· * ·) gathered weight).sum 2).squeeze 2
  weighted.softmax 1

def checkCarried (carried : Option (Tensor α)) (batch sources height width : Nat) : Result Unit :=
  match carried with
  | none => .ok ()
  | some weights => do
    let sizes ← weights.sizes4
    unless sizes = (batch, sources, height, width) do
      throw (.shapeMismatch .viewWeights [batch, sources, height, width] weights.shape)

/-- Scores a depth volume `(B, D, H, W)` with neighbor weights `(B, D, N, H, W)`. View weights are
taken over when they are carried and computed otherwise. -/
def evaluate [WorkerPool] (matcher : Matcher α) (views : ViewFeatures α) (depth : Tensor α)
    (grid : NeighborGrid α) (weight : Tensor α) (carried : Option (Tensor α))
    (readout : Readout) : Result (Verdict α) := do
  let sources ← views.sourceCount
  let (batch, hypotheses, height, width) ← depth.sizes4
  checkCarried carried batch sources height width
  let compared ← Tasks.run matcher.parallel sources (matcher.compare views depth carried)
  let score ← matcher.score (← fuse compared) grid weight batch hypotheses height width
  let regressed ← readout.depth depth score
  let viewWeights ← match carried with
    | some weights => pure weights
    | none => Tensor.concat 1 (compared.map Prod.snd)
  return ⟨regressed, score, viewWeights⟩

end Matcher

end MultiViewDepth
