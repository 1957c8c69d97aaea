import MultiViewDepth.Depth.Range
import MultiViewDepth.View.Projections

/-!
What an estimate is made from: images of one scene, the projections of their cameras and the range
of depths.
-/
namespace MultiViewDepth

variable {α δ : Type} [Scalar α] [Scalar δ]

/-- The smallest side of an image; the coarsest stage then has two pixels. -/
def smallestSide : Nat := 16

structure Scene (α δ : Type) [Scalar δ] where
  batch : Nat
  views : Nat
  height : Nat
  width : Nat
  /-- Images `(B, V, 3, H, W)`; view 0 is the reference view. -/
  images : Tensor α
  projections : ProjectionTable α
  range : DepthRange δ
  shape_images : images.shape = [batch, views, 3, height, width]
  kind_images : images.kind = .single
  two_le_views : 2 ≤ views
  height_mod : height % 8 = 0
  width_mod : width % 8 = 0
  smallestSide_le_height : smallestSide ≤ height
  smallestSide_le_width : smallestSide ≤ width
  batch_projections : projections.batch = batch
  views_projections : projections.views = views

namespace Scene

def of (images : Tensor α) (projections : ProjectionTable α) (range : DepthRange δ) :
    Result (Scene α δ) :=
  match hs : images.shape with
  | [batch, views, channels, height, width] =>
    if hk : images.kind ≠ .single then .error (.invalidInput .imageKind)
    else if hc : channels ≠ 3 then
      .error (.shapeMismatch .images [batch, views, 3, height, width] images.shape)
    else if hv : views < 2 then .error (.invalidInput .noSource)
    else if hm : height % 8 ≠ 0 ∨ width % 8 ≠ 0 then .error (.invalidInput .imageMultiple)
    else if hl : height < smallestSide ∨ width < smallestSide then
      .error (.invalidInput .imageSmall)
    else if hp : projections.batch ≠ batch ∨ projections.views ≠ views then
      .error (.shapeMismatch .stageProjections [batch, views, 4, 4]
        [projections.batch, projections.views, 4, 4])
    else
      .ok { batch, views, height, width, images, projections, range
            shape_images := (Decidable.of_not_not hc : channels = 3) ▸ hs
            kind_images := Decidable.of_not_not hk
            two_le_views := Nat.le_of_not_lt hv
            height_mod := Decidable.of_not_not (not_or.1 hm).1
            width_mod := Decidable.of_not_not (not_or.1 hm).2
            smallestSide_le_height := Nat.le_of_not_lt (not_or.1 hl).1
            smallestSide_le_width := Nat.le_of_not_lt (not_or.1 hl).2
            batch_projections := Decidable.of_not_not (not_or.1 hp).1
            views_projections := Decidable.of_not_not (not_or.1 hp).2 }
  | _ => .error .tensor

def view (scene : Scene α δ) (view : Nat) : Result (Tensor α) := do
  (← scene.images.narrow 1 view 1).squeeze 1

end Scene

end MultiViewDepth
