import MultiViewDepth.Tensor.Basic

/-!
Similarity of features, averaged over groups of neighboring channels.
-/
namespace MultiViewDepth

open Arithmetic

variable {α : Type} [Scalar α]

/-- The mean product of warped features `(B, C, D, H, W)` and reference features `(B, C, H, W)` in
each of `groups` blocks of channels: `(B, G, D, H, W)`. Both have one kind, unless there is nothing
to multiply. -/
def groupSimilarity (warped reference : Tensor α) (groups : Nat) : Result (Tensor α) := do
  let (batch, channels, hypotheses, height, width) ← warped.sizes5
  let mismatch := Failure.shapeMismatch .referenceFeatures [batch, channels, height, width]
    reference.shape
  if groups = 0 ∨ channels % groups ≠ 0 then throw mismatch
  let sizes ← reference.sizes4
  unless sizes = (batch, channels, height, width) do throw mismatch
  unless warped.kind = reference.kind ∨ volume warped.shape = 0 do throw .tensor
  let share := channels / groups
  return warped.derive₂ reference [batch, groups, hypotheses, height, width]
    fun feature center index => match index with
      | [b, g, k, y, x] => meanTo share fun c =>
          feature [b, g * share + c, k, y, x] * center [b, g * share + c, y, x]
      | _ => 0

end MultiViewDepth
