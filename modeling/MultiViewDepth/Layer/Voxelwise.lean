import MultiViewDepth.Layer.Convolution

/-!
Learned functions of the channels at single voxels.
-/
namespace MultiViewDepth

open Arithmetic Scalar

variable {α : Type} [Scalar α]

namespace Voxelwise

/-- Mixes the channels of every voxel of a `(B, C, …)` array with weights `(O, C, 1, 1, 1)`. -/
def apply (weight : Tensor α) : Layer α := fun t => do
  match t.shape with
  | batch :: channels :: rest =>
    if batch = 0 ∨ channels = 0 then throw .tensor
    unless weight.size 1 = channels do throw .tensor
    t.requireSingle
    return .ofFn (batch :: weight.size 0 :: rest) fun
      | b :: o :: voxel =>
        sumTo channels fun c => t.get (b :: c :: voxel) * weight.get [o, c, 0, 0, 0]
      | _ => 0
  | _ => throw .tensor

def blueprint (scope : String) (inputs outputs : Nat) : Blueprint α (Layer α) :=
  apply <$> .parameter (dotted scope "weight") [outputs, inputs, 1, 1, 1]

def blueprintWithBias (scope : String) (inputs outputs : Nat) : Blueprint α (Layer α) :=
  (fun weight bias t => do Convolution.addBias bias (← apply weight t))
    <$> .parameter (dotted scope "weight") [outputs, inputs, 1, 1, 1]
    <*> .parameter (dotted scope "bias") [outputs]

def block (scope : String) (inputs outputs : Nat) : Blueprint α (Layer α) :=
  (fun mix norm t => do return rectify (← norm.apply (← mix t)))
    <$> blueprint (dotted scope "conv") inputs outputs
    <*> Normalization.blueprint (dotted scope "bn") outputs

end Voxelwise

/-- What is done to the single channel that a cost head ends in. -/
inductive Activation where
  | identity | sigmoid
  deriving DecidableEq, Repr

def Activation.apply (activation : Activation) (t : Tensor α) : Tensor α :=
  match activation with
  | identity => t
  | sigmoid => t.map Scalar.sigmoid

/-- Takes the group similarities of every voxel to one number, over 16 and 8 channels. -/
def costNetwork (scope : String) (groups : Nat) (activation : Activation) : Blueprint α (Layer α) :=
  (fun first second last t => do return activation.apply (← last (← second (← first t))))
    <$> Voxelwise.block (dotted scope "0") groups 16
    <*> Voxelwise.block (dotted scope "1") 16 8
    <*> Voxelwise.blueprintWithBias (dotted scope "2") 8 1

end MultiViewDepth
