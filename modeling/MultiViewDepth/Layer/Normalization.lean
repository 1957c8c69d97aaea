import MultiViewDepth.Layer.Blueprint
import MultiViewDepth.Tensor.Layout

/-!
Channel statistics learned in training, applied to single entries.
-/
namespace MultiViewDepth

open Scalar

variable {α : Type} [Scalar α]

/-- Added to variances before they are divided by. -/
def varianceFloor : α := 1e-5

structure Normalization (α : Type) where
  mean : Tensor α
  variance : Tensor α
  scale : Tensor α
  shift : Tensor α

namespace Normalization

def blueprint (scope : String) (channels : Nat) : Blueprint α (Normalization α) :=
  Normalization.mk
    <$> .parameter (dotted scope "running_mean") [channels]
    <*> .parameter (dotted scope "running_var") [channels]
    <*> .parameter (dotted scope "weight") [channels]
    <*> .parameter (dotted scope "bias") [channels]

def entry (norm : Normalization α) (c : Nat) (x : α) : α :=
  (x - norm.mean.get [c]) / sqrt (norm.variance.get [c] + varianceFloor) * norm.scale.get [c] +
    norm.shift.get [c]

/-- Normalizes every entry by its channel, the second axis; there has to be a channel. -/
def apply (norm : Normalization α) : Layer α := fun t => do
  t.requireSingle
  match t.shape with
  | batch :: channels :: _ =>
    if batch = 0 ∨ channels = 0 then throw .tensor
    unless norm.mean.shape = [channels] do throw .tensor
    return .ofFn t.shape fun
      | b :: c :: rest => norm.entry c (t.get (b :: c :: rest))
      | _ => 0
  | _ => throw .tensor

end Normalization

end MultiViewDepth
