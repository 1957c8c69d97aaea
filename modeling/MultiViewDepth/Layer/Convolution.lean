import MultiViewDepth.Layer.Normalization

/-!
Convolutions of maps with zeros around them, and the transposed convolution that enlarges maps.
-/
namespace MultiViewDepth

open Arithmetic Scalar

variable {α : Type} [Scalar α]

/-- How a kernel is moved over a map. -/
structure Stride where
  step : Nat
  /-- Zeros on every side of the map. -/
  margin : Nat
  /-- Distance of neighboring taps. -/
  dilation : Nat

namespace Convolution

/-- Outputs along an axis, `none` when the kernel is larger than the padded axis. -/
def outputSize (stride : Stride) (size kernel : Nat) : Option Nat :=
  let reach := stride.dilation * (kernel - 1) + 1
  let padded := size + 2 * stride.margin
  if padded < reach then none else some ((padded - reach) / stride.step + 1)

/-- Where tap `k` of output `p` reads along an axis, `none` in the margin. -/
@[inline] def tap (stride : Stride) (size p k : Nat) : Option Nat :=
  let q := p * stride.step + k * stride.dilation
  if stride.margin ≤ q ∧ q - stride.margin < size then some (q - stride.margin) else none

/-- Correlates a `(B, C, H, W)` map with kernels `(O, C, h, w)`. Zeros in the margin are multiplied
too, so that a weight that is not finite shows there. -/
@[specialize] def apply (stride : Stride) (kernels : Tensor α) : Layer α := fun map => do
  let (batch, channels, height, width) ← map.sizes4
  let (outputs, inputs, kernelHeight, kernelWidth) ← kernels.sizes4
  unless channels = inputs do throw .tensor
  map.requireSingle
  match outputSize stride height kernelHeight, outputSize stride width kernelWidth with
  | some rows, some columns =>
    return .ofFn [batch, outputs, rows, columns] fun
      | [b, o, p, q] =>
        sumTo channels fun c => sumTo kernelHeight fun i =>
          let row := tap stride height p i
          sumTo kernelWidth fun j =>
            let entry := match row, tap stride width q j with
              | some y, some x => map.get4 b c y x
              | _, _ => 0
            entry * kernels.get4 o c i j
      | _ => 0
  | _, _ => throw .kernelTooLarge

def addBias (bias : Tensor α) : Layer α := fun t => do
  t.requireSingle
  match t.shape with
  | _ :: channels :: _ =>
    unless bias.shape = [channels] do throw .tensor
    return .ofFn t.shape fun
      | b :: c :: rest => t.get (b :: c :: rest) + bias.get [c]
      | _ => 0
  | _ => throw .tensor

def blueprint (scope : String) (inputs outputs kernel : Nat) (stride : Stride) :
    Blueprint α (Layer α) :=
  apply stride <$> .parameter (dotted scope "weight") [outputs, inputs, kernel, kernel]

def blueprintWithBias (scope : String) (inputs outputs kernel : Nat) (stride : Stride) :
    Blueprint α (Layer α) :=
  (fun kernels bias map => do addBias bias (← apply stride kernels map))
    <$> .parameter (dotted scope "weight") [outputs, inputs, kernel, kernel]
    <*> .parameter (dotted scope "bias") [outputs]

/-- Taps `(i, y)` with `2 y + i = p + 1`: input rows that reach output row `p` when a kernel of
size 3 is laid over every second output, one row early. -/
@[inline] def spreadTap (size p i : Nat) : Option Nat :=
  if i ≤ p + 1 ∧ (p + 1 - i) % 2 = 0 ∧ (p + 1 - i) / 2 < size then some ((p + 1 - i) / 2) else none

/-- Enlarges a `(B, C, H, W)` map to `(B, O, 2H, 2W)`: every input adds a 3 × 3 kernel of
`(C, O, 3, 3)` around its place. -/
@[specialize] def spread (kernels : Tensor α) : Layer α := fun map => do
  let (batch, channels, height, width) ← map.sizes4
  let (inputs, outputs, _, _) ← kernels.sizes4
  unless channels = inputs do throw .tensor
  map.requireSingle
  return .ofFn [batch, outputs, 2 * height, 2 * width] fun
    | [b, o, p, q] =>
      sumTo channels fun c => sumTo 3 fun i =>
        match spreadTap height p i with
        | none => 0
        | some y => sumTo 3 fun j =>
          match spreadTap width q j with
          | none => 0
          | some x => map.get4 b c y x * kernels.get4 c o i j
    | _ => 0

end Convolution

def rectify (t : Tensor α) : Tensor α := t.map relu

/-- A convolution without bias, normalized and rectified. -/
def convolutionBlock (scope : String) (inputs outputs kernel : Nat) (stride : Stride) :
    Blueprint α (Layer α) :=
  (fun convolve norm map => do return rectify (← norm.apply (← convolve map)))
    <$> Convolution.blueprint (dotted scope "conv") inputs outputs kernel stride
    <*> Normalization.blueprint (dotted scope "bn") outputs

def sameSizeBlock (scope : String) (inputs outputs : Nat) : Blueprint α (Layer α) :=
  convolutionBlock scope inputs outputs 3 ⟨1, 1, 1⟩

end MultiViewDepth
