import MultiViewDepth.Neighbors.Pattern
import MultiViewDepth.Scalar
import MultiViewDepth.View.Camera

/-!
Settings of the three stages of an estimator, and which of them make sense.
-/
namespace MultiViewDepth

variable {δ : Type} [Scalar δ]

structure StageSettings (δ : Type) where
  /-- Rounds of choosing and scoring hypotheses. -/
  iterations : Nat
  /-- Hypotheses around an estimate. -/
  samples : Nat
  /-- Step between hypotheses as a share of the inverse depth range. -/
  interval : δ
  /-- Distance of the neighbors that lend their depth, and of the taps that predict offsets. -/
  range : Nat
  /-- Neighbors that lend their depth. -/
  lenders : Nat
  /-- Neighbors that support the matching cost, the pixel itself included. -/
  supporters : Nat
  /-- Channels of the features. -/
  features : Nat
  /-- Groups that the channels are split into. -/
  groups : Nat
  deriving Repr

namespace StageSettings

def coarse : StageSettings δ := ⟨2, 16, 0.025, 2, 16, 9, 64, 8⟩
def middle : StageSettings δ := ⟨2, 8, 0.0125, 4, 8, 9, 32, 8⟩
def fine : StageSettings δ := ⟨1, 8, 0.005, 6, 0, 9, 16, 4⟩

def supportDistance (settings : StageSettings δ) : Nat := settings.range - 1

def lendingPattern (settings : StageSettings δ) : Result Pattern :=
  Pattern.build .propagation settings.lenders settings.range

def supportPattern (settings : StageSettings δ) : Result Pattern :=
  Pattern.build .evaluation settings.supporters settings.supportDistance

def fault? (settings : StageSettings δ) : Option StageFault :=
  if settings.iterations = 0 then some .noIteration
  else if settings.samples = 0 then some .noSample
  else if ¬ ((0 : δ) < settings.interval ∧ Scalar.isFinite settings.interval = true) then
    some .badInterval
  else if settings.range = 0 then some .noRange
  else if settings.groups = 0 ∨ settings.features % settings.groups ≠ 0 then some .unevenGroups
  else none

def validate (settings : StageSettings δ) (stage : Nat) : Result Unit := do
  let _ ← settings.lendingPattern
  let _ ← settings.supportPattern
  match settings.fault? with
  | some fault => throw (.invalidStage stage fault)
  | none => return ()

/-- Whether neighbors lend their depth in an iteration; never in the last of the final stage. -/
def lendsIn (settings : StageSettings δ) (iteration : Nat) (final : Bool) : Bool :=
  settings.lenders > 0 && !(final && iteration + 1 == settings.iterations)

def lends (settings : StageSettings δ) (final : Bool) : Bool :=
  (List.range settings.iterations).any fun iteration => settings.lendsIn iteration final

end StageSettings

structure Settings (δ : Type) where
  coarse : StageSettings δ
  middle : StageSettings δ
  fine : StageSettings δ
  /-- Work on several views at a time. -/
  parallel : Bool
  deriving Repr

namespace Settings

def default : Settings δ := ⟨.coarse, .middle, .fine, false⟩

def stages (settings : Settings δ) : List (StageSettings δ) :=
  [settings.coarse, settings.middle, settings.fine]

def validate (settings : Settings δ) : Result Unit := do
  settings.coarse.validate 0
  settings.middle.validate 1
  settings.fine.validate 2

/-- Number of hypotheses in the last iteration of the final stage. -/
def lastHypotheses (settings : Settings δ) : Nat :=
  if settings.fine.lendsIn (settings.fine.iterations - 1) true then
    settings.fine.samples + settings.fine.lenders
  else settings.fine.samples

end Settings

end MultiViewDepth
