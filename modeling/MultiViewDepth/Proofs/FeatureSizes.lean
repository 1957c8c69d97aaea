import MultiViewDepth.Proofs.SingleArrays
import MultiViewDepth.Proofs.Soundness

/-!
Sizes of the features that stages see.

The sides of a scene are multiples of eight, so that each stage has twice the sides of the one
before it. All of this holds in any arithmetic: an extraction that succeeds has met its sizes.
-/
namespace MultiViewDepth

open Tensor

variable {α δ : Type} [Scalar δ]

section Sides

/-- The sides of an image are eight times those of the coarsest stage. -/
theorem Scene.exists_sides (scene : Scene α δ) :
    ∃ height width, 0 < height ∧ 0 < width ∧ scene.height = 2 * (2 * (2 * height)) ∧
      scene.width = 2 * (2 * (2 * width)) := by
  have := scene.height_mod
  have := scene.width_mod
  have := scene.smallestSide_le_height
  have := scene.smallestSide_le_width
  simp only [smallestSide] at *
  exact ⟨scene.height / 8, scene.width / 8, by omega, by omega, by omega, by omega⟩

theorem Scene.exists_sources (scene : Scene α δ) : ∃ n, 0 < n ∧ scene.views = n + 1 := by
  have := scene.two_le_views
  exact ⟨scene.views - 1, by omega, by omega⟩

/-- There are source views, and the coarsest stage has pixels. -/
theorem Scene.coarsest_pos (scene : Scene α δ) :
    0 < scene.views - 1 ∧ 0 < scene.height / 8 ∧ 0 < scene.width / 8 := by
  obtain ⟨n, hn, hviews⟩ := scene.exists_sources
  obtain ⟨height, width, hheight, hwidth, hh, hw⟩ := scene.exists_sides
  omega

/-- Each stage has twice the sides of the one before. -/
theorem Scene.sides_eq (scene : Scene α δ) :
    scene.height / 4 = 2 * (scene.height / 8) ∧ scene.width / 4 = 2 * (scene.width / 8) ∧
      scene.height / 2 = 2 * (2 * (scene.height / 8)) ∧
      scene.width / 2 = 2 * (2 * (scene.width / 8)) := by
  obtain ⟨height, width, -, -, hh, hw⟩ := scene.exists_sides
  omega

end Sides

variable [Scalar α] [Precision α δ] {scene : Scene α δ}

theorem Scene.exists_view (scene : Scene α δ) {v : Nat} (hv : v < scene.views) :
    ∃ image, scene.view v = .ok image ∧ image.kind = .single ∧
      image.shape = [scene.batch, 3, scene.height, scene.width] := by
  obtain ⟨image, himage, hshape, hkind, -⟩ := slice_ok (δ := δ) scene.shape_images hv
  exact ⟨image, himage, hkind.trans scene.kind_images, hshape⟩

section Pyramids

variable {estimator : Estimator α δ} {coarse middle fine : Nat} {pyramids : List (Pyramid α)}
  {views : ViewFeatures α}

/-- A batch without elements has no features. -/
theorem Estimator.pyramids_empty [WorkerPool] (hs : estimator.extractor.Sound coarse middle fine)
    (hbatch : scene.batch = 0) : estimator.pyramids scene = .error .tensor := by
  obtain ⟨height, width, hheight, hwidth, hh, hw⟩ := scene.exists_sides
  have hviews := scene.two_le_views
  refine Tasks.run_error _ (by omega) fun v hv => ?_
  obtain ⟨image, himage, hkind, hshape⟩ := scene.exists_view hv
  rw [hbatch, hh, hw] at hshape
  have hsides : 3 = 3 ∧ 2 * (2 * (2 * height)) % 8 = 0 ∧ 2 * (2 * (2 * width)) % 8 = 0 := by
    omega
  rw [himage, ok_bind, FeatureExtractor.extract]
  simp only [sizes4_eq_ok.2 hshape, ok_bind, hsides, and_self, if_true,
    hs.half_empty _ _ (by omega) (by omega) image hshape hkind, error_bind]

/-- Feature extraction needs a batch with an element. -/
theorem Estimator.batch_pos_of_pyramids [WorkerPool]
    (hs : estimator.extractor.Sound coarse middle fine)
    (h : estimator.pyramids scene = .ok pyramids) : 0 < scene.batch := by
  by_contra hzero
  rw [Estimator.pyramids_empty hs (by omega)] at h
  cases h

/-- The pyramid of the reference view. -/
theorem Estimator.pyramids_eq_ok [WorkerPool] (hs : estimator.extractor.Sound coarse middle fine)
    (h : estimator.pyramids scene = .ok pyramids) {first : Pyramid α} {rest : List (Pyramid α)}
    (hpyramids : pyramids = first :: rest) {height width : Nat} (hheight : 0 < height)
    (hwidth : 0 < width) (hh : scene.height = 2 * (2 * (2 * height)))
    (hw : scene.width = 2 * (2 * (2 * width))) :
    first.coarse.IsSingle [scene.batch, coarse, height, width] ∧
      first.middle.IsSingle [scene.batch, middle, 2 * height, 2 * width] ∧
      first.fine.IsSingle [scene.batch, fine, 2 * (2 * height), 2 * (2 * width)] := by
  subst hpyramids
  have hbatch := Estimator.batch_pos_of_pyramids hs h
  obtain ⟨-, hfirst⟩ := Tasks.run_eq_ok h (i := 0) rfl
  obtain ⟨image, himage, hextract⟩ := bind_eq_ok.1 hfirst
  obtain ⟨image', himage', hkind, hshape⟩ :=
    scene.exists_view (Nat.zero_lt_of_lt scene.two_le_views)
  obtain rfl : image = image' := Except.ok.inj (himage.symm.trans himage')
  rw [hh, hw] at hshape
  have halike := (Twins.extract_alike hs (p := Twins.self hbatch)
    ⟨hshape, hshape, hkind, hkind, fun _ _ => rfl⟩ hheight hwidth).of_self hextract
  exact ⟨⟨halike.coarse.shape_left, halike.coarse.kind_left⟩,
    ⟨halike.middle.shape_left, halike.middle.kind_left⟩,
    ⟨halike.fine.shape_left, halike.fine.kind_left⟩⟩

omit [Precision α δ] in
/-- The reference features of a stage are a level of the first pyramid. -/
theorem reference_of_stageViews {stage : Nat}
    (h : Estimator.stageViews scene pyramids stage = .ok views) :
    ∃ first rest, pyramids = first :: rest ∧
      Estimator.level stage first = .ok views.reference := by
  cases pyramids with
  | nil => cases h
  | cons first rest =>
    simp only [Estimator.stageViews, bind_eq_ok, pure_eq_ok] at h
    obtain ⟨reference, hreference, _, -, _, -, _, -, h⟩ := h
    cases h
    exact ⟨first, rest, rfl, hreference⟩

/-- What a stage sees of the reference view is as large as the stage. -/
theorem exists_reference_isSingle [WorkerPool]
    (hs : estimator.extractor.Sound coarse middle fine)
    (hpyramids : estimator.pyramids scene = .ok pyramids) {stage : Nat}
    (hviews : Estimator.stageViews scene pyramids stage = .ok views) :
    ∃ channels, views.reference.IsSingle [scene.batch, channels,
      2 ^ stage * (scene.height / 8), 2 ^ stage * (scene.width / 8)] := by
  obtain ⟨height, width, hheight, hwidth, hh, hw⟩ := scene.exists_sides
  obtain ⟨rfl, rfl⟩ : height = scene.height / 8 ∧ width = scene.width / 8 := by omega
  obtain ⟨first, rest, hfirst, hreference⟩ := reference_of_stageViews hviews
  obtain ⟨hcoarse, hmiddle, hfine⟩ :=
    Estimator.pyramids_eq_ok hs hpyramids hfirst hheight hwidth hh hw
  match stage with
  | 0 =>
    have hlevel : first.coarse = views.reference := Except.ok.inj hreference
    exact ⟨coarse, by simpa [← hlevel] using hcoarse⟩
  | 1 =>
    have hlevel : first.middle = views.reference := Except.ok.inj hreference
    exact ⟨middle, by simpa [← hlevel] using hmiddle⟩
  | 2 =>
    have hlevel : first.fine = views.reference := Except.ok.inj hreference
    exact ⟨fine, by simpa [← hlevel, ← Nat.mul_assoc] using hfine⟩
  | _ + 3 => cases hreference

end Pyramids

end MultiViewDepth
