import MultiViewDepth.Proofs.Scenes
import MultiViewDepth.Proofs.Totality
import Mathlib.GroupTheory.Perm.Fin

/-!
The order of the source views does not matter.

Putting them in another order puts the weights of the source views in that order, and changes
nothing else, failures included.
-/
namespace MultiViewDepth

open Tensor Twins RandomSource

section Reordering

variable {α δ : Type} [Scalar α] [Scalar δ]

/-- The slices along an axis in another order: slice `i` is slice `f i` of the array. -/
def Tensor.reorder (t : Tensor α) (axis : Nat) (f : Nat → Nat) : Tensor α :=
  t.derive t.shape fun entry index => entry (index.modify axis f)

@[simp] theorem shape_reorder (t : Tensor α) (axis : Nat) (f : Nat → Nat) :
    (t.reorder axis f).shape = t.shape := rfl
@[simp] theorem kind_reorder (t : Tensor α) (axis : Nat) (f : Nat → Nat) :
    (t.reorder axis f).kind = t.kind := kind_derive₂ _

def viewAt {views : Nat} (s : Equiv.Perm (Fin views)) (v : Nat) : Nat :=
  if h : v < views then (s ⟨v, h⟩).val else v

/-- The same scene with its views in another order: view `v` is view `s v` of the scene. -/
def Scene.reorder (scene : Scene α δ) (s : Equiv.Perm (Fin scene.views)) : Scene α δ :=
  { scene with
    images := scene.images.reorder 1 (viewAt s)
    projections :=
      { scene.projections with
        stages := scene.projections.stages.map fun t => t.reorder 1 (viewAt s)
        length_stages := (List.length_map _).trans scene.projections.length_stages
        shape_stage := fun t ht => by
          obtain ⟨u, hu, rfl⟩ := List.mem_map.1 ht
          exact scene.projections.shape_stage u hu }
    kind_images := (kind_reorder _ _ _).trans scene.kind_images }

/-- The same results with the weights of the source views in another order; the weights of view
`v` are in channel `v - 1`. -/
def Reconstruction.reorder {views : Nat} (r : Reconstruction α) (s : Equiv.Perm (Fin views)) :
    Reconstruction α :=
  { r with viewWeights := r.viewWeights.reorder 1 fun i => viewAt s (i + 1) - 1 }

end Reordering

section Scenes

variable {scene : Scene ℝ ℝ} {s : Equiv.Perm (Fin scene.views)} {n : Nat}

theorem viewAt_zero {views : Nat} {s : Equiv.Perm (Fin views)} (hs : ∀ v, v.val = 0 → s v = v) :
    viewAt s 0 = 0 := by
  unfold viewAt
  split
  next h => rw [hs ⟨0, h⟩ rfl]
  next => rfl

/-- An order of the views that keeps the first one is an order of the others. -/
theorem exists_sourceOrder {views : Nat} {s : Equiv.Perm (Fin views)}
    (hs : ∀ v, v.val = 0 → s v = v) (hviews : views = n + 1) :
    ∃ σ : Equiv.Perm (Fin n), ∀ i : Fin n, viewAt s (i.val + 1) = (σ i).val + 1 := by
  subst hviews
  obtain ⟨⟨first, σ⟩, rfl⟩ := Equiv.Perm.decomposeFin.symm.surjective s
  have hfirst : first = 0 := by
    rw [← hs 0 rfl, Equiv.Perm.decomposeFin_symm_apply_zero]
  subst hfirst
  refine ⟨σ, fun i => ?_⟩
  have hsucc : Equiv.Perm.decomposeFin.symm (0, σ) i.succ = (σ i).succ := by
    rw [Equiv.Perm.decomposeFin_symm_apply_succ, Equiv.swap_self, Equiv.refl_apply]
  rw [viewAt, dif_pos (show i.val + 1 < n + 1 by omega)]
  exact congrArg Fin.val hsucc

theorem getWide_reorder {t : Tensor ℝ} {batch views : Nat} {rest : List Nat}
    (hshape : t.shape = batch :: views :: rest) {b v : Nat} {index : List Nat} (hb : b < batch)
    (hv : v < views) (hw : Within index rest) (f : Nat → Nat) :
    ((t.reorder 1 f).getWide (b :: v :: index) : ℝ) = t.getWide (b :: f v :: index) :=
  getWide_derive t (hshape ▸ ⟨hb, hv, hw⟩) _

theorem Scene.stage?_reorder (stage : Nat) :
    (scene.reorder s).projections.stage? stage =
      (scene.projections.stage? stage).map fun t => t.reorder 1 (viewAt s) :=
  List.getElem?_map

/-- Corresponding views hold the same in a scene and in the scene in another order. -/
theorem Twins.Paired.viewAt_eq {σ : Equiv.Perm (Fin n)} {v v' : Nat} (h : Paired σ v v')
    (hs : ∀ v, v.val = 0 → s v = v)
    (hσ : ∀ i : Fin n, viewAt s (i.val + 1) = (σ i).val + 1) : viewAt s v' = v := by
  cases h with
  | reference => exact viewAt_zero hs
  | source i => exact hσ i

/-- A permutation that keeps view zero keeps the references. -/
theorem Scene.referenceMatrix_reorder (hs : ∀ v, v.val = 0 → s v = v) {stage b : Nat}
    (hb : b < scene.batch) :
    (scene.reorder s).referenceMatrix stage b = scene.referenceMatrix stage b := by
  have hviews := scene.two_le_views
  ext r c
  simp only [Scene.referenceMatrix, Matrix.of_apply, Scene.stage?_reorder]
  cases ht : scene.projections.stage? stage with
  | none => rfl
  | some t =>
    have hshape := scene.projections.shape_stage t (List.mem_of_getElem? ht)
    rw [scene.batch_projections, scene.views_projections] at hshape
    have hget := getWide_reorder hshape hb (show 0 < scene.views by omega)
      (within_two r.isLt c.isLt) (viewAt s)
    rwa [viewAt_zero hs] at hget

theorem Scene.regularAt_reorder (hs : ∀ v, v.val = 0 → s v = v) {stage : Nat} :
    (scene.reorder s).RegularAt stage ↔ scene.RegularAt stage := by
  refine forall₂_congr fun b hb => ?_
  rw [Scene.referenceMatrix_reorder hs hb]

theorem Scene.FirstSingular.reorder {stage b : Nat} (h : scene.FirstSingular stage b)
    (hs : ∀ v, v.val = 0 → s v = v) : (scene.reorder s).FirstSingular stage b where
  stage_lt := h.stage_lt
  lt_batch := h.lt_batch
  det_eq_zero := by
    rw [Scene.referenceMatrix_reorder hs h.lt_batch]
    exact h.det_eq_zero
  before i hi := by
    rw [Scene.referenceMatrix_reorder hs (hi.trans h.lt_batch)]
    exact h.before i hi
  coarser k hk := (Scene.regularAt_reorder hs).2 (h.coarser k hk)

/-- A scene is alike to its reordering, with the source views paired by the permutation. -/
theorem sceneAlike_reorder {σ : Equiv.Perm (Fin n)} (hs : ∀ v, v.val = 0 → s v = v)
    (hσ : ∀ i : Fin n, viewAt s (i.val + 1) = (σ i).val + 1) {b height width : Nat}
    (hb : b < scene.batch) (hviews : scene.views = n + 1)
    (hheight : scene.height = 2 * (2 * (2 * height)))
    (hwidth : scene.width = 2 * (2 * (2 * width))) :
    (Twins.self hb).SceneAlike σ height width scene (scene.reorder s) where
  batch_left := rfl
  batch_right := rfl
  views_left := hviews
  views_right := hviews
  height_left := hheight
  height_right := hheight
  width_left := hwidth
  width_right := hwidth
  range_eq := rfl
  image_eq v v' index hv hw := by
    rw [← hheight, ← hwidth] at hw
    have hkind : (scene.images.reorder 1 (viewAt s)).kind = .single :=
      (scene.reorder s).kind_images
    have hget := getWide_reorder scene.shape_images hb (hviews ▸ hv.lt.2) hw (viewAt s)
    rw [hv.viewAt_eq hs hσ, getWide_of_single scene.kind_images, getWide_of_single hkind] at hget
    exact hget.symm
  matrix_eq stage v v' t t' hv ht ht' r c hr hc := by
    rw [Scene.stage?_reorder, ht] at ht'
    obtain rfl := Option.some.inj ht'
    have hshape := scene.projections.shape_stage t (List.mem_of_getElem? ht)
    rw [scene.batch_projections, scene.views_projections] at hshape
    have hget := getWide_reorder hshape hb (hviews ▸ hv.lt.2) (within_two hr hc) (viewAt s)
    rw [hv.viewAt_eq hs hσ] at hget
    exact hget.symm

end Scenes

section Results

variable {size n : Nat} {shape : List Nat} {t t' : Tensor ℝ}

/-- Arrays that agree at every element of a batch are the same. -/
theorem eq_of_alike (hsize : 0 < size)
    (h : ∀ (b : Nat) (hb : b < size), (Twins.self hb).Alike shape t t') : t' = t := by
  have hfirst := h 0 hsize
  refine ext_get hfirst.kind_right hfirst.kind_left
    (hfirst.shape_right.trans hfirst.shape_left.symm) fun index hw => ?_
  rw [hfirst.shape_right] at hw
  obtain ⟨b, rest, rfl, hb, hrest⟩ := hw.exists_cons
  exact ((h b hb).get_eq rest hrest).symm

/-- A map that agrees with another at permuted channels, on every element, is its reordering. -/
theorem eq_reorder_of_alike {σ : Equiv.Perm (Fin n)} {f : Nat → Nat} (hsize : 0 < size)
    (hf : ∀ i : Fin n, f i = σ i)
    (h : ∀ (b : Nat) (hb : b < size), (Twins.self hb).ChannelsAlike σ shape t t') :
    t' = t.reorder 1 f := by
  have hfirst := h 0 hsize
  have hkind : (t.reorder 1 f).kind = .single := (kind_reorder t 1 f).trans hfirst.kind_left
  refine ext_get hfirst.kind_right hkind
    (hfirst.shape_right.trans hfirst.shape_left.symm) fun index hw => ?_
  rw [hfirst.shape_right] at hw
  obtain ⟨b, rest, rfl, hb, hrest⟩ := hw.exists_cons
  obtain ⟨i, index, rfl, hi, hindex⟩ := hrest.exists_cons
  have hget := getWide_reorder hfirst.shape_left hb hi hindex f
  rw [getWide_of_single hkind, getWide_of_single hfirst.kind_left, hf ⟨i, hi⟩] at hget
  exact ((h b hb).get_eq ⟨i, hi⟩ index hindex).symm.trans hget.symm

theorem eq_reorder (height width : Nat) {views : Nat} {s : Equiv.Perm (Fin views)}
    {σ : Equiv.Perm (Fin n)} {r r' : Reconstruction ℝ} (hsize : 0 < size)
    (hσ : ∀ i : Fin n, viewAt s (i.val + 1) = (σ i).val + 1)
    (h : ∀ (b : Nat) (hb : b < size), (Twins.self hb).ReconstructionAlike σ height width r r') :
    r' = r.reorder s := by
  have hdepth := eq_of_alike hsize fun b hb => (h b hb).depth
  have hconfidence := eq_of_alike hsize fun b hb => (h b hb).confidence
  have hweights : r'.viewWeights = r.viewWeights.reorder 1 fun i => viewAt s (i + 1) - 1 :=
    eq_reorder_of_alike hsize (fun i => by rw [hσ i, Nat.add_sub_cancel])
      fun b hb => (h b hb).viewWeights
  have hstages : r'.stageDepths = r.stageDepths := by
    obtain ⟨x, y, z, x', y', z', hdepths, hdepths', -⟩ := (h 0 hsize).stageDepths
    have hall (b : Nat) (hb : b < size) : (Twins.self hb).Alike [1, height, width] x x' ∧
        (Twins.self hb).Alike [1, 2 * height, 2 * width] y y' ∧
        (Twins.self hb).Alike [1, 2 * (2 * height), 2 * (2 * width)] z z' := by
      obtain ⟨_, _, _, _, _, _, heq, heq', halike⟩ := (h b hb).stageDepths
      rw [hdepths] at heq
      rw [hdepths'] at heq'
      cases heq
      cases heq'
      exact halike
    rw [hdepths, hdepths', eq_of_alike hsize fun b hb => (hall b hb).1,
      eq_of_alike hsize fun b hb => (hall b hb).2.1, eq_of_alike hsize fun b hb => (hall b hb).2.2]
  obtain ⟨depth, confidence, stageDepths, viewWeights⟩ := r'
  simp only at hdepth hconfidence hweights hstages
  rw [hdepth, hconfidence, hweights, hstages]
  rfl

end Results

section Estimates

variable {ρ : Type} [RandomSource ρ ℝ] {estimator : Estimator ℝ ℝ} {coarse middle fine : Stage ℝ ℝ}
  {scene : Scene ℝ ℝ} {rng : ρ}

/-- Another order of the source views leads to the same results, with their weights in that order,
or to the same failure. -/
theorem estimate_reorder [WorkerPool] {settings : Settings ℝ} {source : ParameterSource ℝ}
    (hbuild : Estimator.build settings source = .ok estimator)
    {s : Equiv.Perm (Fin scene.views)} (hs : ∀ v, v.val = 0 → s v = v) (rng : ρ) :
    Prod.fst <$> estimator.estimate (scene.reorder s) rng =
      (fun r => r.1.reorder s) <$> estimator.estimate scene rng := by
  obtain ⟨coarse, middle, fine, hsound⟩ := Estimator.sound_of_build hbuild
  obtain ⟨height, width, hheight, hwidth, hh, hw⟩ := scene.exists_sides
  obtain ⟨n, hpos, hn⟩ := scene.exists_sources
  obtain ⟨σ, hσ⟩ := exists_sourceOrder hs hn
  rcases Nat.eq_zero_or_pos scene.batch with hempty | hbatch
  · have hempty' : (scene.reorder s).batch = 0 := hempty
    rw [estimate_empty hsound hempty, estimate_empty hsound hempty']
    rfl
  rcases scene.regular_or_firstSingular with hregular | ⟨stage, b, hsingular⟩
  · have hregular' (stage : Nat) (hstage : stage < stageCount) :
        (scene.reorder s).RegularAt stage := (Scene.regularAt_reorder hs).2 (hregular stage hstage)
    have hbatch' : 0 < (scene.reorder s).batch := hbatch
    obtain ⟨r, hr, -⟩ := estimate_of_regular hsound hbatch hregular rng
    obtain ⟨r', hr', -⟩ := estimate_of_regular hsound hbatch' hregular' rng
    rw [hr, hr']
    refine congrArg Except.ok (eq_reorder height width hbatch hσ fun b hb => ?_)
    have hdraws : (Twins.self hb).DrawsAlike (α := ℝ) height width rng rng :=
      fun _ _ _ _ _ _ => rfl
    have halike := estimate_alike hsound (sceneAlike_reorder hs hσ hb hn hh hw) hpos hheight
      hwidth hregular hregular' hdraws
    rw [hr, hr'] at halike
    exact halike.of_ok
  · rw [estimate_of_singular hsound hsingular, estimate_of_singular hsound (hsingular.reorder hs)]
    rfl

attribute [local instance] WorkerPool.inTurn

theorem estimate_reorder_varied :
    ∃ (estimator : Estimator ℝ ℝ) (r : Reconstruction ℝ × Tape) (s : Equiv.Perm (Fin 3)),
      Estimator.build .default variedSource = .ok estimator ∧ s 1 = 2 ∧
        (∀ v : Fin 3, v.val = 0 → s v = v) ∧
        estimator.estimate (Scene.varied 1 1 0 0) Tape.varied = .ok r ∧
        Prod.fst <$> estimator.estimate ((Scene.varied 1 1 0 0).reorder s) Tape.varied =
          .ok (r.1.reorder s) := by
  obtain ⟨estimator, r, hbuild, hr⟩ :=
    estimate_varied Settings.validate_default (variedSource_answers _) Nat.one_pos 1 0 0
      Tape.varied
  have hs : ∀ v : Fin (Scene.varied 1 1 0 0 : Scene ℝ ℝ).views,
      v.val = 0 → Equiv.swap (1 : Fin 3) 2 v = v :=
    show ∀ v : Fin 3, v.val = 0 → Equiv.swap (1 : Fin 3) 2 v = v by decide
  have hreorder := estimate_reorder hbuild hs Tape.varied
  rw [hr] at hreorder
  exact ⟨estimator, r, Equiv.swap 1 2, hbuild, by decide, hs, hr, hreorder⟩

end Estimates

end MultiViewDepth
