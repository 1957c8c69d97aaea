import MultiViewDepth.Depth.Hypotheses
import MultiViewDepth.Depth.Lending
import MultiViewDepth.Matching.Matcher
import MultiViewDepth.Settings.Basic

/-!
One stage of the search for depth: rounds of choosing hypotheses and scoring them.

A run keeps a record of every round. The rounds share one pair of sampling grids, and each starts
from the depth and the view weights of the one before.
-/
namespace MultiViewDepth

variable {α δ σ : Type} [Scalar α] [Scalar δ] [Precision α δ] [RandomSource σ α]

structure Stage (α δ : Type) where
  settings : StageSettings δ
  /-- Number of the stage, counted from the coarsest. -/
  index : Nat
  final : Bool
  lendingPattern : Pattern
  supportPattern : Pattern
  /-- Predicts the offsets of the neighbors that lend their depth; missing where none ever do. -/
  lendingOffsets : Option (Layer α)
  /-- Predicts the offsets of the neighbors that support the matching cost. -/
  supportOffsets : Layer α
  sampler : Sampler δ
  matcher : Matcher α
  /-- Weighs supporting neighbors by their features. -/
  featureHead : Layer α

/-- What the reference features alone decide. -/
structure Surroundings (α : Type) where
  lending : Option (NeighborGrid α)
  support : NeighborGrid α
  /-- Weights of the supporting neighbors by their features, `(B, N, H, W)`. -/
  featureWeight : Tensor α

structure Round (α : Type) where
  hypotheses : Tensor α
  readout : Readout
  verdict : Verdict α

namespace Stage

/-- Offsets of `neighbors` neighbors from features, with taps `range` pixels apart. -/
def offsetPredictor (scope : String) (features neighbors range : Nat) : Blueprint α (Layer α) :=
  Convolution.blueprintWithBias scope features (2 * neighbors) 3 ⟨1, range, range⟩

/-- The stage with the given number; only the coarsest rates the source views. -/
def blueprint (settings : StageSettings δ) (index : Nat) (final parallel : Bool) (scope : String) :
    Result (Blueprint α (Stage α δ)) := do
  settings.validate index
  let lendingPattern ← settings.lendingPattern
  let supportPattern ← settings.supportPattern
  let sampler ← Sampler.of settings.samples settings.interval
  let assemble (lendingOffsets : Option (Layer α)) (supportOffsets : Layer α)
      (matcher : Matcher α) (featureHead : Layer α) : Stage α δ :=
    { settings, index, final, lendingPattern, supportPattern, lendingOffsets, supportOffsets,
      sampler, matcher, featureHead }
  return assemble
    <$> .onlyIf (settings.lends final)
      (offsetPredictor (dotted scope "propagation_conv") settings.features settings.lenders
        settings.range)
    <*> offsetPredictor (dotted scope "evaluation_conv") settings.features settings.supporters
      settings.range
    <*> Matcher.blueprint (dotted scope "evaluation") settings.groups (index == 0) parallel
    <*> costNetwork (dotted scope "feature_weight_net.feature_weight") settings.groups .sigmoid

def build (settings : StageSettings δ) (index : Nat) (final parallel : Bool) (scope : String)
    (source : ParameterSource α) : Result (Stage α δ) := do
  (← blueprint settings index final parallel scope).build source

/-- The sampling grids and feature weights of reference features `(B, C, H, W)`. -/
def survey (stage : Stage α δ) (reference : Tensor α) : Result (Surroundings α) := do
  let lending ← match stage.lendingOffsets with
    | none => pure none
    | some predict => do
      pure (some (← NeighborGrid.build (← predict reference) stage.lendingPattern))
  let support ← NeighborGrid.build (← stage.supportOffsets reference) stage.supportPattern
  let featureWeight ← NeighborWeight.ofFeatures stage.featureHead stage.settings.groups reference
    support
  return ⟨lending, support, featureWeight⟩

def readout (stage : Stage α δ) (iteration : Nat) : Readout :=
  if stage.final ∧ iteration + 1 = stage.settings.iterations then .inverseDepth else .expectation

/-- The hypotheses of a round, with those that neighbors lend. -/
def hypotheses (stage : Stage α δ) (range : DepthRange δ) (surroundings : Surroundings α)
    (batch height width iteration : Nat) (estimate : Option (Tensor α)) (rng : σ) :
    Result (Tensor α × σ) := do
  let (own, rng) ← stage.sampler.hypotheses estimate range batch height width rng
  match stage.settings.lendsIn iteration stage.final, surroundings.lending with
  | true, some grid => return (← lend own grid, rng)
  | _, _ => return (own, rng)

/-- One round of choosing and scoring hypotheses. -/
def round [WorkerPool] (stage : Stage α δ) (views : ViewFeatures α) (range : DepthRange δ)
    (surroundings : Surroundings α) (batch height width iteration : Nat)
    (estimate carried : Option (Tensor α)) (rng : σ) : Result (Round α × σ) := do
  let (hypotheses, rng) ← stage.hypotheses range surroundings batch height width iteration estimate
    rng
  let weight ← NeighborWeight.combine
    (← NeighborWeight.ofDepth hypotheses surroundings.support range stage.settings.interval)
    surroundings.featureWeight
  let readout := stage.readout iteration
  let verdict ← stage.matcher.evaluate views hypotheses surroundings.support weight carried
    readout
  return (⟨hypotheses, readout, verdict⟩, rng)

/-- The next `count` rounds, beginning with the given number. -/
def rounds [WorkerPool] (stage : Stage α δ) (views : ViewFeatures α) (range : DepthRange δ)
    (surroundings : Surroundings α) (batch height width : Nat) :
    (count iteration : Nat) → (estimate carried : Option (Tensor α)) → σ →
      Result (List (Round α) × σ)
  | 0, _, _, _, rng => .ok ([], rng)
  | count + 1, iteration, estimate, carried, rng => do
    let (round, rng) ← stage.round views range surroundings batch height width iteration estimate
      carried rng
    let (later, rng) ← stage.rounds views range surroundings batch height width count
      (iteration + 1) (some round.verdict.depth) (some round.verdict.viewWeights) rng
    return (round :: later, rng)

/-- All rounds, from an estimate `(B, 1, H, W)` and view weights `(B, V - 1, H, W)` where there
are any. -/
def run [WorkerPool] (stage : Stage α δ) (views : ViewFeatures α) (range : DepthRange δ)
    (estimate carried : Option (Tensor α)) (rng : σ) : Result (List (Round α) × σ) := do
  let (batch, channels, height, width) ← views.reference.sizes4
  unless channels = stage.settings.features do
    throw (.shapeMismatch .stageFeatures [batch, stage.settings.features, height, width]
      views.reference.shape)
  let surroundings ← stage.survey views.reference
  stage.rounds views range surroundings batch height width stage.settings.iterations 0 estimate
    carried rng

def verdict (stage : Stage α δ) (rounds : List (Round α)) : Result (Verdict α) :=
  match rounds.getLast? with
  | some round => .ok round.verdict
  | none => .error (.invalidStage stage.index .noIteration)

/-- Runs the stage and keeps what its last round finds. -/
def estimate [WorkerPool] (stage : Stage α δ) (views : ViewFeatures α) (range : DepthRange δ)
    (estimate carried : Option (Tensor α)) (rng : σ) : Result (Verdict α × σ) := do
  let (rounds, rng) ← stage.run views range estimate carried rng
  return (← stage.verdict rounds, rng)

end Stage

end MultiViewDepth
