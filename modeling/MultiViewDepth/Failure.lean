/-!
Everything that can go wrong while an estimator is built or run, and its wording.

A `Failure` is a cause. All texts are in the functions named `text`, put together by
`Failure.message`.
-/
namespace MultiViewDepth

/-- What the neighbors of a pixel are used for: they lend it their depth, or they support its
matching cost. -/
inductive NeighborUse where
  | propagation | evaluation
  deriving DecidableEq, Repr

namespace NeighborUse

def text : NeighborUse → String
  | propagation => "propagation"
  | evaluation => "evaluation"

def ofText? : String → Option NeighborUse
  | "propagation" => some propagation
  | "evaluation" => some evaluation
  | _ => none

@[simp] theorem ofText?_text (r : NeighborUse) : ofText? r.text = some r := by cases r <;> rfl

end NeighborUse

inductive StageFault where
  | noIteration | noSample | badInterval | noRange | unevenGroups
  deriving DecidableEq, Repr

def StageFault.text : StageFault → String
  | noIteration => "iterations must be at least 1"
  | noSample => "num_samples must be at least 1"
  | badInterval => "interval_scale must be positive"
  | noRange => "propagation_range must be at least 1"
  | unevenGroups => "num_features must be a multiple of group_correlations"

inductive InputFault where
  | depthBounds | stageCount | cameraTable | stageIndex | imageKind | noSource | imageMultiple
  | imageSmall | featureImage | noHypothesis | viewWeightsMissing | pyramidShallow | noStage
  deriving DecidableEq, Repr

def InputFault.text : InputFault → String
  | depthBounds => "depth range must satisfy 0 < min < max"
  | stageCount => "expected one projection tensor per stage"
  | cameraTable => "cameras must form a non-empty batch × view table"
  | stageIndex => "stage index out of range"
  | imageKind => "images must be f32"
  | noSource => "at least one source view is required"
  | imageMultiple => "image height and width must be multiples of 8"
  | imageSmall => "image is too small"
  | featureImage => "feature extraction expects 3-channel images with sides divisible by 8"
  | noHypothesis => "hypothesis count must be at least 1"
  | viewWeightsMissing => "view weights must be carried from a stage that computes them"
  | pyramidShallow => "feature pyramid is too shallow"
  | noStage => "no stages configured"

/-- The array whose shape is wrong. -/
inductive Subject where
  | learnedOffsets | stageProjections | images | samplingGrid | projectionMatrix
  | sourceProjectionBatch | projectionBatch | depthHypotheses | sourceProjections
  | referenceFeatures | viewWeights | priorDepth | propagationGrid | stageFeatures
  | refinementDepth
  deriving DecidableEq, Repr

def Subject.text : Subject → String
  | learnedOffsets => "learned offsets"
  | stageProjections => "stage projections"
  | images => "images"
  | samplingGrid => "sampling grid"
  | projectionMatrix => "projection matrix"
  | sourceProjectionBatch => "source projection batch"
  | projectionBatch => "projection batch"
  | depthHypotheses => "depth hypotheses"
  | sourceProjections => "source projections"
  | referenceFeatures => "reference features"
  | viewWeights => "view weights"
  | priorDepth => "prior depth"
  | propagationGrid => "propagation grid"
  | stageFeatures => "stage features"
  | refinementDepth => "refinement depth"

/-- Sizes in brackets, separated by a comma and a blank. -/
def shapeText (shape : List Nat) : String :=
  "[" ++ ", ".intercalate (shape.map Nat.repr) ++ "]"

/-- Why parameters could not be exchanged with a file. -/
inductive CheckpointFault where
  | unreadable | unwritable
  | wrongShape (name : String) (expected found : List Nat)
  deriving DecidableEq, Repr

def CheckpointFault.text : CheckpointFault → String
  | unreadable => "failed to read"
  | unwritable => "failed to write"
  | wrongShape name expected found =>
    "parameter " ++ name ++ ": expected shape " ++ shapeText expected ++ ", checkpoint has "
      ++ shapeText found

inductive Failure where
  | unsupportedNeighbors (role : NeighborUse) (count : Nat)
  | invalidStage (stage : Nat) (fault : StageFault)
  | invalidInput (fault : InputFault)
  | shapeMismatch (what : Subject) (expected got : List Nat)
  | singularProjection (batch : Nat)
  | checkpoint (fault : CheckpointFault)
  /-- Arrays whose ranks, sizes or element kinds do not fit an operation. -/
  | tensor
  /-- A convolution kernel that is larger than its padded input. -/
  | kernelTooLarge
  /-- Channels cannot be split into no groups. -/
  | zeroGroups
  deriving DecidableEq, Repr

abbrev Result := Except Failure

namespace Failure

/-- The text of a failure; the last three kinds have none. -/
def message? : Failure → Option String
  | unsupportedNeighbors role count =>
    some ("unsupported " ++ role.text ++ " neighbor count: " ++ count.repr)
  | invalidStage stage fault =>
    some ("invalid config for stage " ++ stage.repr ++ ": " ++ fault.text)
  | invalidInput fault => some ("invalid input: " ++ fault.text)
  | shapeMismatch what expected got =>
    some ("shape mismatch for " ++ what.text ++ ": expected " ++ shapeText expected ++ ", got "
      ++ shapeText got)
  | singularProjection batch =>
    some ("reference projection matrix is singular (batch " ++ batch.repr ++ ")")
  | checkpoint fault => some ("checkpoint error: " ++ fault.text)
  | tensor | kernelTooLarge | zeroGroups => none

end Failure

end MultiViewDepth
