import MultiViewDepth.Proofs.Scenes
import MultiViewDepth.Proofs.Totality

/-!
A batch is estimated as its elements one by one.

The scene of an element holds its images and its projections at every stage. Its random numbers are
those that the batch draws for it.
-/
namespace MultiViewDepth

open Tensor Twins RandomSource

section Elements

variable {α δ : Type} [Scalar α] [Scalar δ]

def Scene.element (scene : Scene α δ) (b : Nat) : Result (Scene α δ) := do
  let images ← scene.images.narrow 0 b 1
  let stages ← scene.projections.stages.mapM fun t => t.narrow 0 b 1
  Scene.of images (← ProjectionTable.ofTensors stages) scene.range

def Reconstruction.element (r : Reconstruction α) (b : Nat) : Result (Reconstruction α) := do
  let depth ← r.depth.narrow 0 b 1
  let confidence ← r.confidence.narrow 0 b 1
  let stageDepths ← r.stageDepths.mapM fun t => t.narrow 0 b 1
  let viewWeights ← r.viewWeights.narrow 0 b 1
  return ⟨depth, confidence, stageDepths, viewWeights⟩

/-- Random numbers that a scene draws for each of its elements. -/
def Scene.drawsPerElement (scene : Scene α δ) : Nat :=
  scatterCount * (scene.height / 8) * (scene.width / 8)

end Elements

section Scenes

variable {scene alone : Scene ℝ ℝ} {b : Nat}

/-- A scene that holds element `b` of another one and nothing else. -/
structure Scene.Holds (alone scene : Scene ℝ ℝ) (b : Nat) : Prop where
  batch_eq : alone.batch = 1
  views_eq : alone.views = scene.views
  height_eq : alone.height = scene.height
  width_eq : alone.width = scene.width
  range_eq : alone.range = scene.range
  image_eq : ∀ index, Within index [scene.views, 3, scene.height, scene.width] →
    alone.images.get (0 :: index) = scene.images.get (b :: index)
  matrix_eq : ∀ stage t t', scene.projections.stage? stage = some t →
    alone.projections.stage? stage = some t' → ∀ index, Within index [scene.views, 4, 4] →
      (t'.getWide (0 :: index) : ℝ) = t.getWide (b :: index)

/-- One element of an array, as a batch of its own. -/
theorem element_slice {t : Tensor ℝ} {n : Nat} {rest : List Nat} (hshape : t.shape = n :: rest)
    (hb : b < n) :
    ∃ u, t.narrow 0 b 1 = .ok u ∧ u.shape = 1 :: rest ∧ u.kind = t.kind ∧
      ∀ index, Within index rest → (u.getWide (0 :: index) : ℝ) = t.getWide (b :: index) := by
  obtain ⟨u, hu, hs, hk, hget⟩ := narrow_ok (δ := ℝ) t 0 b 1 (by simp [hshape]) hb
  rw [hshape] at hs hget
  exact ⟨u, hu, hs, hk, fun index hw => hget (0 :: index) ⟨Nat.one_pos, hw⟩⟩

/-- The tables of projections of a single element. -/
theorem Scene.element_stages (scene : Scene ℝ ℝ) (hb : b < scene.batch) :
    ∃ stages, scene.projections.stages.mapM (fun t => t.narrow 0 b 1) = .ok stages ∧
      (∀ u ∈ stages, u.shape = [1, scene.views, 4, 4]) ∧
      ∀ (stage : Nat) (t u : Tensor ℝ), scene.projections.stages[stage]? = some t →
        stages[stage]? = some u → ∀ index, Within index [scene.views, 4, 4] →
          (u.getWide (0 :: index) : ℝ) = t.getWide (b :: index) := by
  have hslice (t : Tensor ℝ) (ht : t ∈ scene.projections.stages) :=
    element_slice ((scene.projections.shape_stage t ht).trans (by
      rw [scene.batch_projections, scene.views_projections])) hb
  obtain ⟨stages, hstages⟩ := exists_mapM_ok (f := fun t : Tensor ℝ => t.narrow 0 b 1)
    fun t ht => by
      obtain ⟨u, hu, -⟩ := hslice t ht
      exact ⟨u, hu⟩
  refine ⟨stages, hstages, fun u hu => ?_, fun stage t u ht hu => ?_⟩
  · obtain ⟨stage, hstage⟩ := List.mem_iff_getElem?.1 hu
    obtain ⟨t, ht, htu⟩ := getElem?_of_mapM hstages hstage
    obtain ⟨u', hu', hs, -⟩ := hslice t (List.mem_of_getElem? ht)
    obtain rfl : u = u' := Except.ok.inj (htu.symm.trans hu')
    exact hs
  · obtain ⟨t', ht', htu⟩ := getElem?_of_mapM hstages hu
    obtain rfl : t = t' := Option.some.inj (ht.symm.trans ht')
    obtain ⟨u', hu', -, -, hget⟩ := hslice t (List.mem_of_getElem? ht)
    obtain rfl : u = u' := Except.ok.inj (htu.symm.trans hu')
    exact hget

theorem Scene.element_ok (scene : Scene ℝ ℝ) (hb : b < scene.batch) :
    ∃ alone, scene.element b = .ok alone ∧ alone.Holds scene b := by
  obtain ⟨images, himages, hs, hk, hget⟩ := element_slice scene.shape_images hb
  obtain ⟨stages, hstages, hshapes, hentries⟩ := scene.element_stages hb
  have hlength : stages.length = stageCount :=
    (mapM_eq_ok hstages).length_eq.symm.trans scene.projections.length_stages
  let alone : Scene ℝ ℝ :=
    { scene with
      batch := 1
      images := images
      projections := ⟨1, scene.views, stages, hlength, hshapes⟩
      shape_images := hs
      kind_images := hk.trans scene.kind_images
      batch_projections := rfl
      views_projections := rfl }
  refine ⟨alone, ?_, rfl, rfl, rfl, rfl, rfl, fun index hw => ?_, hentries⟩
  · simp only [Scene.element, himages, hstages, ProjectionTable.ofTensors_ok hlength hshapes,
      ok_bind]
    exact Scene.of_parts alone
  · have h := hget index hw
    rwa [getWide_of_single (hk.trans scene.kind_images), getWide_of_single scene.kind_images] at h

theorem Scene.Holds.regularAt (h : alone.Holds scene b) (hb : b < scene.batch) {stage : Nat}
    (hstage : stage < stageCount) (hregular : scene.RegularAt stage) : alone.RegularAt stage := by
  intro i hi
  obtain rfl : i = 0 := by
    have := h.batch_eq
    omega
  suffices heq : alone.referenceMatrix stage 0 = scene.referenceMatrix stage b by
    rw [heq]
    exact hregular b hb
  obtain ⟨t, ht⟩ := scene.exists_stage hstage
  obtain ⟨t', ht'⟩ := alone.exists_stage hstage
  have hviews := scene.two_le_views
  ext r c
  simp only [Scene.referenceMatrix, Matrix.of_apply, ht, ht']
  exact h.matrix_eq stage t t' ht ht' [0, r, c] (within_three (by omega) r.isLt c.isLt)

def Twins.single {batch : Nat} (hb : b < batch) : Twins := ⟨batch, 1, b, 0, hb, Nat.one_pos⟩

theorem Scene.Holds.alike (h : alone.Holds scene b) (hb : b < scene.batch) {n height width : Nat}
    (hviews : scene.views = n + 1) (hheight : scene.height = 2 * (2 * (2 * height)))
    (hwidth : scene.width = 2 * (2 * (2 * width))) :
    (Twins.single hb).SceneAlike (Equiv.refl (Fin n)) height width scene alone where
  batch_left := rfl
  batch_right := h.batch_eq
  views_left := hviews
  views_right := h.views_eq.trans hviews
  height_left := hheight
  height_right := h.height_eq.trans hheight
  width_left := hwidth
  width_right := h.width_eq.trans hwidth
  range_eq := h.range_eq.symm
  image_eq v v' index hv hw := by
    obtain rfl := hv.eq
    refine (h.image_eq (v :: index) ⟨hviews ▸ hv.lt.1, ?_⟩).symm
    rwa [hheight, hwidth]
  matrix_eq stage v v' t t' hv ht ht' r c hr hc := by
    obtain rfl := hv.eq
    exact (h.matrix_eq stage t t' ht ht' [v, r, c] (within_three (hviews ▸ hv.lt.1) hr hc)).symm

end Scenes

section Slices

variable {batch b : Nat} {hb : b < batch} {shape : List Nat} {t t' : Tensor ℝ}

theorem Twins.Alike.element (h : (Twins.single hb).Alike shape t t') : t.narrow 0 b 1 = .ok t' := by
  rw [narrow_of_single h.kind_left (by rw [h.shape_left]; rfl) (show b + 1 ≤ batch from hb)]
  congr 1
  refine ext_get rfl h.kind_right (by rw [h.shape_left, h.shape_right]; rfl) fun index hw => ?_
  rw [shape_ofFn] at hw
  rw [get_ofFn hw]
  rw [h.shape_left] at hw
  obtain ⟨i, rest, rfl, hi, hrest⟩ := hw.exists_cons
  obtain rfl : i = 0 := by omega
  exact h.get_eq rest hrest

theorem Twins.ChannelsAlike.alike {p : Twins} {n : Nat}
    (h : p.ChannelsAlike (Equiv.refl (Fin n)) shape t t') : p.Alike (n :: shape) t t' where
  shape_left := h.shape_left
  shape_right := h.shape_right
  kind_left := h.kind_left
  kind_right := h.kind_right
  get_eq index hw := by
    obtain ⟨i, rest, rfl, hi, hrest⟩ := hw.exists_cons
    exact h.get_eq ⟨i, hi⟩ rest hrest

theorem Twins.ReconstructionAlike.element {n height width : Nat} {r r' : Reconstruction ℝ}
    (h : (Twins.single hb).ReconstructionAlike (Equiv.refl (Fin n)) height width r r') :
    r.element b = .ok r' := by
  obtain ⟨x, y, z, x', y', z', hdepths, hdepths', hx, hy, hz⟩ := h.stageDepths
  have hstages : r.stageDepths.mapM (fun t => t.narrow 0 b 1) = .ok r'.stageDepths := by
    rw [hdepths, hdepths']
    simp [hx.element, hy.element, hz.element]
  simp only [Reconstruction.element, h.depth.element, h.confidence.element, hstages,
    h.viewWeights.alike.element, ok_bind, pure_eq_ok]

end Slices

section Estimates

variable {ρ : Type} [RandomSource ρ ℝ] {estimator : Estimator ℝ ℝ} {coarse middle fine : Stage ℝ ℝ}
  {scene : Scene ℝ ℝ} {b : Nat} {rng : ρ}

/-- The draws for an element are those of a generator that skips the elements before. -/
theorem drawsAlike_single {batch height width : Nat} (hb : b < batch) (rng : ρ) :
    (Twins.single hb).DrawsAlike (α := ℝ) height width rng
      (after (b * (scatterCount * height * width)) rng) := by
  intro k y x _ _ _
  rw [draw_after]
  congr 1
  change ((b * scatterCount + k) * height + y) * width + x =
    b * (scatterCount * height * width) + (((0 * scatterCount + k) * height + y) * width + x)
  ring

theorem Scene.Holds.drawsPerElement_eq {alone : Scene ℝ ℝ} (h : alone.Holds scene b) :
    alone.drawsPerElement = scene.drawsPerElement := by
  rw [Scene.drawsPerElement, Scene.drawsPerElement, h.height_eq, h.width_eq]

theorem Scene.Holds.estimate [WorkerPool] {alone : Scene ℝ ℝ} (hholds : alone.Holds scene b)
    (hs : estimator.Sound coarse middle fine) {r : Reconstruction ℝ × ρ}
    (h : estimator.estimate scene rng = .ok r) (hb : b < scene.batch) :
    ∃ r', estimator.estimate alone (after (b * alone.drawsPerElement) rng) = .ok r' ∧
      r.1.element b = .ok r'.1 := by
  obtain ⟨height, width, hheight, hwidth, hh, hw⟩ := scene.exists_sides
  obtain ⟨n, hpos, hn⟩ := scene.exists_sources
  have hregular := regular_of_estimate hs h
  have hdraws : alone.drawsPerElement = scatterCount * height * width := by
    rw [hholds.drawsPerElement_eq, Scene.drawsPerElement, hh, hw]
    congr <;> omega
  obtain ⟨_, r', hr, hr', halike⟩ := estimate_alike hs (hholds.alike hb hn hh hw) hpos
    hheight hwidth hregular (fun stage hstage => hholds.regularAt hb hstage (hregular stage hstage))
    (drawsAlike_single hb rng)
  rw [h] at hr
  cases hr
  exact ⟨r', hdraws ▸ hr', halike.element⟩

/-- What is found for an element of a batch is what is found for it alone, by a generator that has
skipped the draws of the elements before. Other elements have no part in it. -/
theorem estimate_element [WorkerPool] {settings : Settings ℝ} {source : ParameterSource ℝ}
    (hbuild : Estimator.build settings source = .ok estimator) {r : Reconstruction ℝ × ρ}
    (h : estimator.estimate scene rng = .ok r) (hb : b < scene.batch) :
    (∃ alone r', scene.element b = .ok alone ∧
      estimator.estimate alone (after (b * scene.drawsPerElement) rng) = .ok r' ∧
      r.1.element b = .ok r'.1) ∧
    ∀ (other : Scene ℝ ℝ) (s : Reconstruction ℝ × ρ), b < other.batch →
      other.element b = scene.element b → estimator.estimate other rng = .ok s →
        s.1.element b = r.1.element b := by
  obtain ⟨coarse, middle, fine, hs⟩ := Estimator.sound_of_build hbuild
  obtain ⟨alone, halone, hholds⟩ := scene.element_ok hb
  obtain ⟨r', hr', helement⟩ := hholds.estimate hs h hb
  constructor
  · exact ⟨alone, r', halone, hholds.drawsPerElement_eq ▸ hr', helement⟩
  · intro other s hother hsame hrun
    obtain ⟨alone', halone', hholds'⟩ := other.element_ok hother
    obtain rfl : alone' = alone := by
      rw [hsame, halone] at halone'
      exact (Except.ok.inj halone').symm
    obtain ⟨s', hs', helement'⟩ := hholds'.estimate hs hrun hother
    obtain rfl : r' = s' := Except.ok.inj (hr'.symm.trans hs')
    rw [helement, helement']

attribute [local instance] WorkerPool.inTurn

theorem estimate_element_varied :
    ∃ (estimator : Estimator ℝ ℝ) (r r' : Reconstruction ℝ × Tape) (alone : Scene ℝ ℝ),
      Estimator.build .default variedSource = .ok estimator ∧
        estimator.estimate (Scene.varied 2 0 0 0) Tape.varied = .ok r ∧
        1 < (Scene.varied 2 0 0 0).batch ∧ (Scene.varied 2 0 0 0).element 1 = .ok alone ∧
        estimator.estimate alone
          (after (1 * (Scene.varied 2 0 0 0).drawsPerElement) Tape.varied) = .ok r' ∧
        r.1.element 1 = .ok r'.1 := by
  obtain ⟨estimator, r, hbuild, hr⟩ :=
    estimate_varied Settings.validate_default (variedSource_answers _) Nat.two_pos 0 0 0
      Tape.varied
  have hb : 1 < (Scene.varied 2 0 0 0).batch := Nat.one_lt_two
  obtain ⟨⟨alone, r', halone, hr', helement⟩, -⟩ := estimate_element hbuild hr hb
  exact ⟨estimator, r, r', alone, hbuild, hr, hb, halone, hr', helement⟩

end Estimates

end MultiViewDepth
