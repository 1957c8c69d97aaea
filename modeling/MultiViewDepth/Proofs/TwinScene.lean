import MultiViewDepth.Estimator
import MultiViewDepth.Proofs.TwinPoses
import MultiViewDepth.Proofs.TwinStage

/-!
Scenes that hold one element each of two batches, with source views in either order.

Images of twins have the same features, and their cameras the same poses, at every stage.
-/
namespace MultiViewDepth

open Tensor

structure FeatureExtractor.Sound {α : Type} [Scalar α] (extractor : FeatureExtractor α)
    (coarse middle fine : Nat) : Prop where
  half : ∀ height width, 0 < height → 0 < width →
    Batchwise extractor.half [3, 2 * height, 2 * width] [16, height, width]
  /-- A batch without elements has no statistics. -/
  half_empty : ∀ height width, 0 < height → 0 < width → ∀ t : Tensor α,
    t.shape = [0, 3, 2 * height, 2 * width] → t.kind = .single → extractor.half t = .error .tensor
  quarter : ∀ height width, 0 < height → 0 < width →
    Batchwise extractor.quarter [16, 2 * height, 2 * width] [32, height, width]
  eighth : ∀ height width, 0 < height → 0 < width →
    Batchwise extractor.eighth [32, 2 * height, 2 * width] [64, height, width]
  coarseOutput : ∀ height width, 0 < height → 0 < width →
    Batchwise extractor.coarseOutput [64, height, width] [coarse, height, width]
  middleOutput : ∀ height width, 0 < height → 0 < width →
    Batchwise extractor.middleOutput [64, height, width] [middle, height, width]
  fineOutput : ∀ height width, 0 < height → 0 < width →
    Batchwise extractor.fineOutput [64, height, width] [fine, height, width]
  halfBridge : ∀ height width, 0 < height → 0 < width →
    Batchwise extractor.halfBridge [16, height, width] [64, height, width]
  quarterBridge : ∀ height width, 0 < height → 0 < width →
    Batchwise extractor.quarterBridge [32, height, width] [64, height, width]

noncomputable def Scene.referenceMatrix (scene : Scene ℝ ℝ) (stage b : Nat) :
    Matrix (Fin 4) (Fin 4) ℝ := Matrix.of fun r c =>
  match scene.projections.stage? stage with
  | some t => t.getWide [b, 0, r.val, c.val]
  | none => 0

noncomputable def Scene.projectionMatrix (scene : Scene ℝ ℝ) (stage v b : Nat) :
    Matrix (Fin 4) (Fin 4) ℝ := Matrix.of fun r c =>
  match scene.projections.stage? stage with
  | some t => t.getWide [b, v, r.val, c.val]
  | none => 0

theorem Scene.referenceMatrix_eq (scene : Scene ℝ ℝ) (stage b : Nat) :
    scene.referenceMatrix stage b = scene.projectionMatrix stage 0 b := rfl

/-- Every element has a reference matrix with an inverse. -/
def Scene.RegularAt (scene : Scene ℝ ℝ) (stage : Nat) : Prop :=
  ∀ b < scene.batch, (scene.referenceMatrix stage b).det ≠ 0

theorem Scene.exists_stage (scene : Scene ℝ ℝ) {stage : Nat} (h : stage < stageCount) :
    ∃ t, scene.projections.stage? stage = some t :=
  ⟨_, List.getElem?_eq_getElem (by rwa [scene.projections.length_stages])⟩

namespace Twins

variable {p : Twins} {n : Nat} {σ : Equiv.Perm (Fin n)}

section Features

variable {α : Type} [Scalar α] {coarse middle fine height width : Nat}

structure PyramidAlike (p : Twins) (coarse middle fine height width : Nat)
    (pyramid pyramid' : Pyramid α) : Prop where
  coarse : p.Alike [coarse, height, width] pyramid.coarse pyramid'.coarse
  middle : p.Alike [middle, 2 * height, 2 * width] pyramid.middle pyramid'.middle
  fine : p.Alike [fine, 2 * (2 * height), 2 * (2 * width)] pyramid.fine pyramid'.fine

/-- The features of one element come from its own image. -/
theorem extract_alike {extractor : FeatureExtractor α} (hs : extractor.Sound coarse middle fine)
    {image image' : Tensor α}
    (h : p.Alike [3, 2 * (2 * (2 * height)), 2 * (2 * (2 * width))] image image')
    (hheight : 0 < height) (hwidth : 0 < width) :
    Both (p.PyramidAlike coarse middle fine height width) (extractor.extract image)
      (extractor.extract image') := by
  have hsides : 3 = 3 ∧ 2 * (2 * (2 * height)) % 8 = 0 ∧ 2 * (2 * (2 * width)) % 8 = 0 := by omega
  simp only [FeatureExtractor.extract, h.sizes4.1, h.sizes4.2, ok_bind, hsides, and_self, if_true]
  refine (hs.half _ _ (by omega) (by omega) p _ _ h).bind fun half half' hhalf => ?_
  refine (hs.quarter _ _ (by omega) (by omega) p _ _ hhalf).bind fun quarter quarter' hquarter => ?_
  refine (hs.eighth _ _ hheight hwidth p _ _ hquarter).bind fun eighth eighth' height' => ?_
  refine (hs.coarseOutput _ _ hheight hwidth p _ _ height').bind fun coarse coarse' hcoarse => ?_
  refine (Sampling.double_alike height').bind fun large large' hlarge => ?_
  refine (hs.quarterBridge _ _ (by omega) (by omega) p _ _ hquarter).bind
    fun bridge bridge' hb => ?_
  refine (hlarge.zipSame hb (· + ·)).bind fun wider wider' hwider => ?_
  refine (hs.middleOutput _ _ (by omega) (by omega) p _ _ hwider).bind
    fun middle middle' hmiddle => ?_
  refine (Sampling.double_alike hwider).bind fun larger larger' hlarger => ?_
  refine (hs.halfBridge _ _ (by omega) (by omega) p _ _ hhalf).bind fun bridge bridge' hb => ?_
  refine (hlarger.zipSame hb (· + ·)).bind fun widest widest' hwidest => ?_
  refine (hs.fineOutput _ _ (by omega) (by omega) p _ _ hwidest).bind fun fine fine' hfine => ?_
  exact .ok ⟨hcoarse, hmiddle, hfine⟩

end Features

/-- Views of two scenes that show the same: the reference views, and the source views in the order
of either scene. -/
inductive Paired (σ : Equiv.Perm (Fin n)) : Nat → Nat → Prop
  | reference : Paired σ 0 0
  | source (i : Fin n) : Paired σ ((σ i).val + 1) (i.val + 1)

theorem Paired.lt {v v' : Nat} (h : Paired σ v v') : v < n + 1 ∧ v' < n + 1 := by
  cases h with
  | reference => exact ⟨by omega, by omega⟩
  | source i => exact ⟨by omega, by omega⟩

/-- Scenes with the same images, projections and range of twins; the lowest sides are those of the
coarsest stage. -/
structure SceneAlike (p : Twins) (σ : Equiv.Perm (Fin n)) (height width : Nat)
    (scene scene' : Scene ℝ ℝ) : Prop where
  batch_left : scene.batch = p.size
  batch_right : scene'.batch = p.size'
  views_left : scene.views = n + 1
  views_right : scene'.views = n + 1
  height_left : scene.height = 2 * (2 * (2 * height))
  height_right : scene'.height = 2 * (2 * (2 * height))
  width_left : scene.width = 2 * (2 * (2 * width))
  width_right : scene'.width = 2 * (2 * (2 * width))
  range_eq : scene.range = scene'.range
  image_eq : ∀ v v' index, Paired σ v v' →
    Within index [3, 2 * (2 * (2 * height)), 2 * (2 * (2 * width))] →
    scene.images.get (p.element :: v :: index) = scene'.images.get (p.element' :: v' :: index)
  matrix_eq : ∀ stage v v' t t', Paired σ v v' → scene.projections.stage? stage = some t →
    scene'.projections.stage? stage = some t' → ∀ r c, r < 4 → c < 4 →
      (t.getWide [p.element, v, r, c] : ℝ) = t'.getWide [p.element', v', r, c]

variable {scene scene' : Scene ℝ ℝ} {height width : Nat}

section Views

/-- The images of a view, element by element. -/
theorem view_ok (scene : Scene ℝ ℝ) {v : Nat} (hv : v < scene.views) :
    ∃ image, scene.view v = .ok image ∧ image.shape = [scene.batch, 3, scene.height, scene.width] ∧
      image.kind = .single ∧ ∀ b index, b < scene.batch →
        Within index [3, scene.height, scene.width] →
          image.get (b :: index) = scene.images.get (b :: v :: index) := by
  obtain ⟨image, himage, hs, hk, hget⟩ := slice_ok (δ := ℝ) scene.shape_images hv
  refine ⟨image, himage, hs, hk.trans scene.kind_images, fun b index hb hw => ?_⟩
  have h := hget b index hb hw
  rwa [getWide_of_single (hk.trans scene.kind_images), getWide_of_single scene.kind_images] at h

theorem view_alike (h : p.SceneAlike σ height width scene scene') {v v' : Nat}
    (hv : Paired σ v v') :
    Both (p.Alike [3, 2 * (2 * (2 * height)), 2 * (2 * (2 * width))]) (scene.view v)
      (scene'.view v') := by
  obtain ⟨image, himage, hs, hk, hget⟩ := view_ok scene (h.views_left ▸ hv.lt.1)
  obtain ⟨image', himage', hs', hk', hget'⟩ := view_ok scene' (h.views_right ▸ hv.lt.2)
  rw [h.batch_left, h.height_left, h.width_left] at hs hget
  rw [h.batch_right, h.height_right, h.width_right] at hs' hget'
  refine ⟨image, image', himage, himage', hs, hs', hk, hk', fun index hw => ?_⟩
  rw [hget _ index p.lt hw, hget' _ index p.lt' hw, h.image_eq v v' index hv hw]

/-- The matrices of a view, element by element. -/
theorem projection_ok {stage v : Nat} {t : Tensor ℝ}
    (ht : scene.projections.stage? stage = some t) (hv : v < scene.views) :
    ∃ u, scene.projections.view stage v = .ok u ∧ u.shape = [scene.batch, 4, 4] ∧
      ∀ b r c, b < scene.batch → r < 4 → c < 4 →
        (u.getWide [b, r, c] : ℝ) = t.getWide [b, v, r, c] := by
  have hshape := scene.projections.shape_stage t (List.mem_of_getElem? ht)
  rw [scene.batch_projections, scene.views_projections] at hshape
  obtain ⟨u, hu, hs, -, hget⟩ := slice_ok (δ := ℝ) hshape hv
  refine ⟨u, by simp only [ProjectionTable.view, ht]; exact hu, hs, fun b r c hb hr hc => ?_⟩
  exact hget b [r, c] hb (within_two hr hc)

end Views

section Stages

variable {stage : Nat} {views views' : ViewFeatures ℝ}

/-- Projections of twins are the same, and those of all elements are the scenes' own. -/
structure CamerasAlike (p : Twins) (σ : Equiv.Perm (Fin n)) (stage : Nat)
    (scene scene' : Scene ℝ ℝ) (views views' : ViewFeatures ℝ) : Prop where
  shape_left : views.referenceProjection.shape = [p.size, 4, 4]
  shape_right : views'.referenceProjection.shape = [p.size', 4, 4]
  matrix_left : ∀ b < p.size,
    Matrix.of (projectionAt views.referenceProjection b) = scene.referenceMatrix stage b
  matrix_right : ∀ b < p.size',
    Matrix.of (projectionAt views'.referenceProjection b) = scene'.referenceMatrix stage b
  reference_eq : projectionAt views.referenceProjection p.element =
    projectionAt views'.referenceProjection p.element'
  sources : Reordered σ (fun t t' => t.shape = [p.size, 4, 4] ∧ t'.shape = [p.size', 4, 4] ∧
    projectionAt t p.element = projectionAt t' p.element')
    views.sourceProjections views'.sourceProjections

/-- Regular cameras that agree have relative poses that agree. -/
theorem CamerasAlike.posesAlike (h : p.CamerasAlike σ stage scene scene' views views')
    (hbatch : scene.batch = p.size) (hbatch' : scene'.batch = p.size')
    (hregular : scene.RegularAt stage) (hregular' : scene'.RegularAt stage) :
    p.PosesAlike σ views views' := by
  obtain ⟨f, f', hf, hf', hr⟩ := h.sources
  refine ⟨f, f', hf, hf', fun i => ?_⟩
  obtain ⟨hs, hs', heq⟩ := hr i
  refine pose_alike hs hs' h.shape_left h.shape_right (fun b hb => ?_) (fun b hb => ?_) heq
    h.reference_eq
  · rw [Transform.det_eq, h.matrix_left b hb]
    exact hregular b (hbatch ▸ hb)
  · rw [Transform.det_eq, h.matrix_right b hb]
    exact hregular' b (hbatch' ▸ hb)

theorem projection_alike (h : p.SceneAlike σ height width scene scene')
    (hstage : stage < stageCount)
    {v v' : Nat} (hv : Paired σ v v') :
    Both (fun t t' => t.shape = [p.size, 4, 4] ∧ t'.shape = [p.size', 4, 4] ∧
        projectionAt t p.element = projectionAt t' p.element')
      (scene.projections.view stage v) (scene'.projections.view stage v') := by
  obtain ⟨t, ht⟩ := scene.exists_stage hstage
  obtain ⟨t', ht'⟩ := scene'.exists_stage hstage
  obtain ⟨u, hu, hs, hget⟩ := projection_ok ht (h.views_left ▸ hv.lt.1)
  obtain ⟨u', hu', hs', hget'⟩ := projection_ok ht' (h.views_right ▸ hv.lt.2)
  rw [h.batch_left] at hs hget
  rw [h.batch_right] at hs' hget'
  refine ⟨u, u', hu, hu', hs, hs', funext fun r => funext fun c => ?_⟩
  rw [projectionAt, projectionAt, hget _ r c p.lt r.isLt c.isLt, hget' _ r c p.lt' r.isLt c.isLt]
  exact h.matrix_eq stage v v' t t' hv ht ht' r c r.isLt c.isLt

/-- The table holds a projection of every view at every stage. -/
theorem projectionMatrix_ok (scene : Scene ℝ ℝ) (hstage : stage < stageCount) {v : Nat}
    (hv : v < scene.views) :
    ∃ u, scene.projections.view stage v = .ok u ∧ u.shape = [scene.batch, 4, 4] ∧
      ∀ b < scene.batch, Matrix.of (projectionAt u b) = scene.projectionMatrix stage v b := by
  obtain ⟨t, ht⟩ := scene.exists_stage hstage
  obtain ⟨u, hu, hs, hget⟩ := projection_ok ht hv
  refine ⟨u, hu, hs, fun b hb => ?_⟩
  ext r c
  simp only [Matrix.of_apply, projectionAt, Scene.projectionMatrix, ht,
    hget b r c hb r.isLt c.isLt]

theorem reference_ok (scene : Scene ℝ ℝ) (hstage : stage < stageCount) :
    ∃ u, scene.projections.view stage 0 = .ok u ∧ u.shape = [scene.batch, 4, 4] ∧
      ∀ b < scene.batch, Matrix.of (projectionAt u b) = scene.referenceMatrix stage b :=
  projectionMatrix_ok scene hstage (by have := scene.two_le_views; omega)

def PyramidsAlike (p : Twins) (σ : Equiv.Perm (Fin n)) (coarse middle fine height width : Nat)
    (pyramids pyramids' : List (Pyramid ℝ)) : Prop :=
  ∃ first first' rest rest', pyramids = first :: rest ∧ pyramids' = first' :: rest' ∧
    p.PyramidAlike coarse middle fine height width first first' ∧
    Reordered σ (p.PyramidAlike coarse middle fine height width) rest rest'

/-- Feature extraction pairs the views as the scenes do. -/
theorem pyramids_alike [WorkerPool] {estimator : Estimator ℝ ℝ} {coarse middle fine : Nat}
    (hs : estimator.extractor.Sound coarse middle fine)
    (h : p.SceneAlike σ height width scene scene') (hheight : 0 < height) (hwidth : 0 < width) :
    Both (p.PyramidsAlike σ coarse middle fine height width) (estimator.pyramids scene)
      (estimator.pyramids scene') := by
  have hview {v v' : Nat} (hv : Paired σ v v') :
      Both (p.PyramidAlike coarse middle fine height width)
        (do estimator.extractor.extract (← scene.view v))
        (do estimator.extractor.extract (← scene'.view v')) :=
    (view_alike h hv).bind fun _ _ himage => extract_alike hs himage hheight hwidth
  simp only [Estimator.pyramids, h.views_left, h.views_right]
  exact Reordered.run_succ _ _ (hview .reference) fun i => hview (.source i)

/-- Features and projections of all views at a stage whose level of the pyramids is alike. -/
theorem stageViews_alike {coarse middle fine channels rows columns : Nat}
    {pyramids pyramids' : List (Pyramid ℝ)} (h : p.SceneAlike σ height width scene scene')
    (hpyramids : p.PyramidsAlike σ coarse middle fine height width pyramids pyramids')
    (hstage : stage < stageCount)
    (hlevel : ∀ q q' : Pyramid ℝ, p.PyramidAlike coarse middle fine height width q q' →
      Both (p.Alike [channels, rows, columns]) (Estimator.level stage q)
        (Estimator.level stage q')) :
    Both (fun views views' => p.ViewsAlike σ channels rows columns views views' ∧
        p.CamerasAlike σ stage scene scene' views views')
      (Estimator.stageViews scene pyramids stage)
      (Estimator.stageViews scene' pyramids' stage) := by
  obtain ⟨first, first', rest, rest', rfl, rfl, hfirst, hrest⟩ := hpyramids
  obtain ⟨u, hu, hs, hmatrix⟩ := reference_ok scene hstage
  obtain ⟨u', hu', hs', hmatrix'⟩ := reference_ok scene' hstage
  rw [h.batch_left] at hs hmatrix
  rw [h.batch_right] at hs' hmatrix'
  have hreference := projection_alike h hstage .reference
  rw [hu, hu'] at hreference
  obtain ⟨-, -, heq⟩ := hreference.of_ok
  simp only [Estimator.stageViews, h.views_left, h.views_right, Nat.add_sub_cancel, hu, hu',
    ok_bind]
  refine (hlevel _ _ hfirst).bind fun reference reference' hreference => ?_
  refine (hrest.mapM hlevel).bind fun sources sources' hsources => ?_
  refine (Reordered.mapM_range (fun v => scene.projections.view stage (v + 1))
    (fun v => scene'.projections.view stage (v + 1))
    fun i => projection_alike h hstage (.source i)).bind
      fun projections projections' hprojections => ?_
  exact .ok ⟨⟨hreference, hsources, hprojections.length_left, hprojections.length_right⟩,
    ⟨hs, hs', hmatrix, hmatrix', heq, hprojections⟩⟩

end Stages

end Twins

end MultiViewDepth
