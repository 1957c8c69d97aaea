import MultiViewDepth.Tensor.Basic

/-!
Bilinear enlargement of maps to twice their height and width.

Along an axis, every output is a sum over all inputs with the weights of one column of `weights`,
of which at most two are not zero.
-/
namespace MultiViewDepth.Sampling

open Arithmetic Scalar

variable {α : Type} [Scalar α]

/-- Position of output `o` among the inputs, not before the first one. -/
def sourcePosition (o : Nat) : α :=
  let p := ((o : α) + 1 / (2 : Nat)) * (1 / (2 : Nat)) - 1 / (2 : Nat)
  if p < 0 then 0 else p

/-- The two inputs next to output `o`, and the weight of the second. -/
def taps (size o : Nat) : Nat × Nat × α :=
  let p : α := sourcePosition o
  let first := min (toNat (floor p)) (size - 1)
  let second := if first + 1 < size then first + 1 else first
  (first, second, p - (first : α))

def weight (size i o : Nat) : α :=
  let (first, second, w) := taps size o
  let near : α := if i = first then 0 + (1 - w) else 0
  if i = second then near + w else near

def weights (size : Nat) : Tensor α :=
  .ofFn [size, 2 * size] fun
    | [i, o] => weight size i o
    | _ => 0

/-- Enlarges a `(B, C, H, W)` map to `(B, C, 2H, 2W)`: first along rows, then along columns. -/
def double (map : Tensor α) : Result (Tensor α) := do
  let (batch, channels, height, width) ← map.sizes4
  let across : Tensor α := weights width
  let down : Tensor α := weights height
  let wide : Tensor α := .ofFn [batch, channels, height, 2 * width] fun
    | [b, c, y, q] => sumTo width fun x => map.get4 b c y x * across.get [x, q]
    | _ => 0
  map.compute [batch, channels, 2 * height, 2 * width] fun
    | [b, c, p, q] => sumTo height fun y => wide.get4 b c y q * down.get [y, p]
    | _ => 0

end MultiViewDepth.Sampling
