import MultiViewDepth.Tensor.Conversion
import MultiViewDepth.View.Transform

/-!
How pixels of the reference view move to a source view.
-/
namespace MultiViewDepth

variable {α δ : Type} [Scalar α] [Scalar δ] [Precision α δ]

/-- Reads `(B, 4, 4)` projections, or `(B, 3, 4)` ones that lack the row `(0, 0, 0, 1)`. Their
entries may be of any kind. -/
def transforms (projections : Tensor α) : Result (List (Transform δ)) := do
  let (batch, rows, columns) ← projections.sizes3
  unless columns = 4 ∧ (rows = 3 ∨ rows = 4) do
    throw (.shapeMismatch .projectionMatrix [batch, 4, 4] projections.shape)
  return (List.range batch).map fun b r c =>
    if r.val < rows then projections.getWide [b, r, c]
    else if c.val = 3 then 1 else 0

/-- Rotation `(B, 3, 3)` and displacement `(B, 3, 1)` from reference to source pixels, both scaled
by depth. -/
structure RelativePose (α : Type) where
  rotation : Tensor α
  displacement : Tensor α

namespace RelativePose

/-- `source · reference⁻¹` for every pair, failing at the first reference without inverse. -/
def compose : Nat → List (Transform δ) → List (Transform δ) → Result (List (Transform δ))
  | b, source :: sources, reference :: references => do
    match reference.inverse? with
    | none => throw (.singularProjection b)
    | some inverse => return source.mul inverse :: (← compose (b + 1) sources references)
  | _, _, _ => .ok []

def ofTransforms (poses : List (Transform δ)) : RelativePose α :=
  let table := poses.toArray
  let entry (b r c : Nat) : α :=
    Precision.narrow ((table.getD b Transform.identity).entry r c)
  { rotation := .ofFn [poses.length, 3, 3] fun
      | [b, r, c] => entry b r c
      | _ => 0
    displacement := .ofFn [poses.length, 3, 1] fun
      | [b, r, _] => entry b r 3
      | _ => 0 }

/-- The pose of a source view relative to the reference view, for every batch element. -/
def between (source reference : Tensor α) : Result (RelativePose α) := do
  let sources : List (Transform δ) ← transforms source
  let references : List (Transform δ) ← transforms reference
  unless sources.length = references.length do
    throw (.shapeMismatch .sourceProjectionBatch [references.length, 4, 4] [sources.length, 4, 4])
  return ofTransforms (← compose 0 sources references)

/-- Where pixel `(x, y)` at depth `d` goes: row `r` of its source coordinates. -/
def apply (pose : RelativePose α) (b r x y : Nat) (d : α) : α :=
  (pose.rotation.get [b, r, 0] * (x : α) + pose.rotation.get [b, r, 1] * (y : α) +
    pose.rotation.get [b, r, 2]) * d + pose.displacement.get [b, r, 0]

end RelativePose

end MultiViewDepth
