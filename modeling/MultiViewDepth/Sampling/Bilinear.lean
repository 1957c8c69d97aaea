import MultiViewDepth.Tensor.Basic

/-!
Bilinear reading of maps at normalized positions.

A normalized coordinate runs from -1 at the outer edge of the first texel to 1 at the outer edge of
the last. The four texels around a position are weighted by their nearness to it.
-/
namespace MultiViewDepth

/-- What is read outside a map: nothing, or its nearest edge texel. -/
inductive Border where
  | zeros | border
  deriving DecidableEq, Repr

def Border.ofText? : String → Option Border
  | "zeros" => some zeros
  | "border" => some border
  | _ => none

namespace Sampling

open Arithmetic Scalar

section Addressing

variable {α : Type} [Arithmetic α]

/-- The nearest position between the first and the last texel of an axis. -/
def clampAxis (size : Nat) (p : α) : α := clamp 0 ((size - 1 : Nat) : α) p

def texel (height width : Nat) (cy cx : α) : Nat :=
  toNat (clampAxis height cy * (width : α) + clampAxis width cx)

end Addressing

variable {α : Type} [Scalar α]

/-- Position in texels of a normalized coordinate along an axis. -/
def position (size : Nat) (g : α) : α :=
  affine ((size : α) / (2 : Nat)) (((size : α) - 1) / (2 : Nat)) g

def inside (size : Nat) (p : α) : α :=
  (if 0 ≤ p then 1 else 0) * (if p ≤ ((size - 1 : Nat) : α) then 1 else 0)

/-- Share of a corner of weight `w`, which counts only inside the map. -/
def corner (plane : Nat → α) (height width : Nat) (cy cx w : α) : α :=
  plane (texel height width cy cx) * (w * (inside width cx * inside height cy))

/-- Weighted sum of the four texels around row `py` and column `px`. -/
def blend (plane : Nat → α) (height width : Nat) (py px : α) : α :=
  let x0 := floor px
  let y0 := floor py
  let x1 := x0 + 1
  let y1 := y0 + 1
  let wx1 := px - x0
  let wy1 := py - y0
  let wx0 := 1 - wx1
  let wy0 := 1 - wy1
  corner plane height width y0 x0 (wx0 * wy0) + corner plane height width y0 x1 (wx1 * wy0) +
    corner plane height width y1 x0 (wx0 * wy1) + corner plane height width y1 x1 (wx1 * wy1)

/-- Numbers of the texels that `blend` looks up. -/
def surrounding (height width : Nat) (py px : α) : List Nat :=
  let x0 := floor px
  let y0 := floor py
  let x1 := x0 + 1
  let y1 := y0 + 1
  [texel height width y0 x0, texel height width y0 x1, texel height width y1 x0,
    texel height width y1 x1]

def read (plane : Nat → α) (height width : Nat) (padding : Border) (gy gx : α) : α :=
  match padding with
  | .zeros => blend plane height width (position height gy) (position width gx)
  | .border =>
    blend plane height width (clampAxis height (position height gy))
      (clampAxis width (position width gx))

/-- Numbers of the texels that `read` looks up. -/
def lookups (height width : Nat) (padding : Border) (gy gx : α) : List Nat :=
  match padding with
  | .zeros => surrounding height width (position height gy) (position width gx)
  | .border =>
    surrounding height width (clampAxis height (position height gy))
      (clampAxis width (position width gx))

/-- Plane `c` of batch element `b`, by row-major texel number. -/
def plane (t : Tensor α) (channels height width b c : Nat) : Nat → α := fun k =>
  Elements.entry t.elements.singles ((b * channels + c) * (height * width) + k)

/-- Reads every channel of a `(B, C, H, W)` map at the points of a `(B, P, Q, 2)` array, column
coordinate first. A map cannot be read where a number is looked up that none of its texels has. -/
def sample (map points : Tensor α) (padding : Border) : Result (Tensor α) := do
  let (batch, channels, height, width) ← map.sizes4
  let (pointBatch, rows, columns, coordinates) ← points.sizes4
  unless pointBatch = batch ∧ coordinates = 2 do
    throw (.shapeMismatch .samplingGrid [batch, rows, columns, 2] points.shape)
  points.requireSingleEntries
  let shape := [batch, channels, rows, columns]
  unless volume shape = 0 ∨ ∀ b < batch, ∀ p < rows, ∀ q < columns,
      ∀ k ∈ lookups height width padding (points.get [b, p, q, 1]) (points.get [b, p, q, 0]),
        k < height * width do
    throw .tensor
  map.compute shape fun
    | [b, c, p, q] =>
      read (plane map channels height width b c) height width padding
        (points.get [b, p, q, 1]) (points.get [b, p, q, 0])
    | _ => 0

end Sampling

end MultiViewDepth
