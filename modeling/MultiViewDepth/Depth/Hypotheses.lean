import MultiViewDepth.Depth.Range
import MultiViewDepth.Random
import MultiViewDepth.Tensor.Arithmetic

/-!
Depths to try at every pixel.

Without an estimate, one depth is drawn in each of `scatterCount` equal bins of inverse depth.
Around an estimate, depths are placed on a ladder with equal steps in inverse depth; an estimate
that gets a single depth is kept.
-/
namespace MultiViewDepth

open Arithmetic Scalar

variable {α δ : Type} [Scalar α] [Scalar δ] [Precision α δ]

def scatterCount : Nat := 48

namespace Hypotheses

/-- The depth drawn in bin `k` of the inverse range, at the fraction `u` of the bin. -/
def scattered (range : DepthRange δ) (k : Nat) (u : α) : α :=
  let width : α := Precision.narrow (range.inverseSpan / (scatterCount : δ))
  recip (affine width (Precision.narrow range.inverseFar) (u + (k : α)))

/-- One depth per bin and pixel, `(B, 48, H, W)`, drawn in row-major order. -/
def scatter {σ : Type} [RandomSource σ α] (batch height width : Nat) (range : DepthRange δ)
    (rng : σ) : Tensor α × σ :=
  let shape := [batch, scatterCount, height, width]
  let (draws, rng) := RandomSource.take (volume shape) rng
  let draws := draws.toArray
  (.ofFn shape fun
    | [b, k, y, x] => scattered range k (draws.getD (place 0 shape [b, k, y, x]) 0)
    | _ => 0, rng)

/-- Position of rung `k` of a ladder with `count` rungs, counted from its middle. -/
def rungNumber (count k : Nat) : α := (k : α) - ((count / 2 : Nat) : α)

/-- Rung `k` of the ladder around depth `d`, kept within the range. -/
def rung (range : DepthRange δ) (count : Nat) (interval : δ) (k : Nat) (d : α) : α :=
  let step : α := Precision.narrow (range.inverseSpan * interval)
  recip (clamp (Precision.narrow range.inverseFar) (Precision.narrow range.inverseNear)
    (recip d + affine step 0 (rungNumber count k)))

/-- Ladders of `count` depths around an estimate `(B, 1, H, W)`. -/
def ladder (estimate : Tensor α) (range : DepthRange δ) (count : Nat) (interval : δ) :
    Result (Tensor α) := do
  let (batch, channels, height, width) ← estimate.sizes4
  unless channels = 1 do
    throw (.shapeMismatch .priorDepth [batch, 1, height, width] estimate.shape)
  estimate.compute [batch, count, height, width] fun
    | [b, k, y, x] => rung range count interval k (estimate.get [b, 0, y, x])
    | _ => 0

end Hypotheses

structure Sampler (δ : Type) where
  count : Nat
  interval : δ

namespace Sampler

def of (count : Nat) (interval : δ) : Result (Sampler δ) :=
  if count = 0 then .error (.invalidInput .noHypothesis) else .ok ⟨count, interval⟩

/-- The depths `(B, D, H, W)` to try next; only a start without estimate draws random numbers. -/
def hypotheses {σ : Type} [RandomSource σ α] (sampler : Sampler δ) (estimate : Option (Tensor α))
    (range : DepthRange δ) (batch height width : Nat) (rng : σ) : Result (Tensor α × σ) :=
  match estimate with
  | none => .ok (Hypotheses.scatter batch height width range rng)
  | some estimate =>
    if sampler.count = 1 then .ok (estimate, rng)
    else do
      return (← Hypotheses.ladder estimate range sampler.count sampler.interval, rng)

end Sampler

end MultiViewDepth
