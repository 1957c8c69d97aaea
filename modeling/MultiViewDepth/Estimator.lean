import MultiViewDepth.Matching.Confidence
import MultiViewDepth.Features
import MultiViewDepth.Refiner
import MultiViewDepth.Scene
import MultiViewDepth.Stage

/-!
The depth of a scene, from coarse to fine.

Each stage starts from the enlarged depth and view weights of the one before; the last depth is
refined, and the probabilities that it came from give its confidence.
-/
namespace MultiViewDepth

variable {α δ σ : Type} [Scalar α] [Scalar δ] [Precision α δ] [RandomSource σ α]

/-- The learned parts of an estimator, with its stages coarsest first. -/
structure Estimator (α δ : Type) where
  settings : Settings δ
  extractor : FeatureExtractor α
  stages : List (Stage α δ)
  refiner : Refiner α

structure StageRecord (α : Type) where
  rounds : List (Round α)
  verdict : Verdict α

structure Reconstruction (α : Type) where
  /-- Refined depth `(B, H, W)`. -/
  depth : Tensor α
  /-- Confidence `(B, H, W)` in `[0, 1]`. -/
  confidence : Tensor α
  /-- Depth `(B, 1, h, w)` of every stage, coarsest first. -/
  stageDepths : List (Tensor α)
  /-- Weights of the source views, `(B, V - 1, H/2, W/2)`. -/
  viewWeights : Tensor α

namespace Estimator

/-- The estimator with the given settings; its stages are numbered down to 1. -/
def blueprint (settings : Settings δ) : Result (Blueprint α (Estimator α δ)) := do
  settings.validate
  let parallel := settings.parallel
  let coarse ← Stage.blueprint settings.coarse 0 false parallel "patch_match_3"
  let middle ← Stage.blueprint settings.middle 1 false parallel "patch_match_2"
  let fine ← Stage.blueprint settings.fine 2 true parallel "patch_match_1"
  return (fun extractor stages refiner => ⟨settings, extractor, stages, refiner⟩)
    <$> FeatureExtractor.blueprint "feature" settings.coarse.features settings.middle.features
      settings.fine.features
    <*> .list [coarse, middle, fine]
    <*> Refiner.blueprint "refinement"

def build (settings : Settings δ) (source : ParameterSource α) : Result (Estimator α δ) := do
  (← blueprint settings).build source

def pyramids [WorkerPool] (estimator : Estimator α δ) (scene : Scene α δ) :
    Result (List (Pyramid α)) :=
  Tasks.run estimator.settings.parallel scene.views fun v => do
    estimator.extractor.extract (← scene.view v)

def level (stage : Nat) (pyramid : Pyramid α) : Result (Tensor α) :=
  match pyramid.level? stage with
  | some features => .ok features
  | none => .error (.invalidInput .pyramidShallow)

def stageViews (scene : Scene α δ) (pyramids : List (Pyramid α)) (stage : Nat) :
    Result (ViewFeatures α) :=
  match pyramids with
  | [] => .error (.invalidInput .noSource)
  | first :: rest => do
    let reference ← level stage first
    let sources ← rest.mapM (level stage)
    let referenceProjection ← scene.projections.view stage 0
    let sourceProjections ← (List.range (scene.views - 1)).mapM fun v =>
      scene.projections.view stage (v + 1)
    return ⟨reference, sources, referenceProjection, sourceProjections⟩

/-- Runs stages one after another, each from the enlarged result of the one before. -/
def runStages [WorkerPool] (scene : Scene α δ) (pyramids : List (Pyramid α)) :
    List (Stage α δ) → (estimate carried : Option (Tensor α)) → σ →
      Result (List (StageRecord α) × σ)
  | [], _, _, rng => .ok ([], rng)
  | stage :: later, estimate, carried, rng => do
    let views ← stageViews scene pyramids stage.index
    let (rounds, rng) ← stage.run views scene.range estimate carried rng
    let verdict ← stage.verdict rounds
    let (estimate, carried) ← match later with
      | [] => pure (verdict.depth, verdict.viewWeights)
      | _ => do pure (← Sampling.double verdict.depth, ← Sampling.double verdict.viewWeights)
    let (records, rng) ← runStages scene pyramids later (some estimate) (some carried) rng
    return (⟨rounds, verdict⟩ :: records, rng)

/-- The search for depth in all stages, before refinement. -/
def search [WorkerPool] (estimator : Estimator α δ) (scene : Scene α δ) (rng : σ) :
    Result (List (StageRecord α) × σ) := do
  let pyramids ← estimator.pyramids scene
  runStages scene pyramids estimator.stages none none rng

def finish (estimator : Estimator α δ) (scene : Scene α δ) (records : List (StageRecord α)) :
    Result (Reconstruction α) :=
  match records.getLast? with
  | none => .error (.invalidInput .noStage)
  | some last => do
    let depth ← estimator.refiner.refine (← scene.view 0) last.verdict.depth scene.range
    let confidence ← confidence last.verdict.score
    return ⟨depth, confidence, records.map (·.verdict.depth), last.verdict.viewWeights⟩

/-- The depth of the reference view, and the generator after it. -/
def estimate [WorkerPool] (estimator : Estimator α δ) (scene : Scene α δ) (rng : σ) :
    Result (Reconstruction α × σ) := do
  let (records, rng) ← estimator.search scene rng
  return (← estimator.finish scene records, rng)

end Estimator

end MultiViewDepth
