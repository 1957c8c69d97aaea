import MultiViewDepth.Proofs.TwinRun

/-!
What a run fails with when a reference view has no inverse projection.

Everything up to the first stage with such a view succeeds. Its first comparison of a source view
with the reference view fails, and nothing that fails later can hide that.
-/
namespace MultiViewDepth

open Tensor

namespace Twins

variable {p : Twins} {n : Nat} {σ : Equiv.Perm (Fin n)} {ρ ρ' : Type} [RandomSource ρ ℝ]
  [RandomSource ρ' ℝ] {height width : Nat} {failure : Failure}

section Stage

variable {stage : Stage ℝ ℝ} {views views' : ViewFeatures ℝ}
  {surroundings surroundings' : Surroundings ℝ}
  {estimate estimate' carried carried' : Option (Tensor ℝ)} {rng : ρ} {rng' : ρ'}

def Poseless (failure : Failure) (views : ViewFeatures ℝ) : Prop :=
  ∀ t ∈ views.sourceProjections,
    RelativePose.between t views.referenceProjection = .error failure

theorem features_error {features features' source reference depth depth' : Tensor ℝ}
    {channels hypotheses : Nat} (hfeatures : p.Alike [channels, height, width] features features')
    (hdepth : p.Alike [hypotheses, height, width] depth depth')
    (hpose : RelativePose.between source reference = .error failure) :
    Reprojection.features features source reference depth = .error failure := by
  simp only [Reprojection.features, Reprojection.points, hfeatures.sizes4.1, hdepth.sizes4.1,
    ok_bind, and_self, if_true, hpose, error_bind]

/-- Without a relative pose an evaluation fails, and with that failure. -/
theorem evaluate_error [WorkerPool] {matcher : Matcher ℝ} {channels hypotheses : Nat}
    {depth depth' weight : Tensor ℝ} {grid : NeighborGrid ℝ}
    (hviews : p.ViewsAlike σ channels height width views views')
    (hposeless : Poseless failure views) (hn : 0 < n)
    (hdepth : p.Alike [hypotheses, height, width] depth depth')
    (hcarried : Optionally (p.ChannelsAlike σ [height, width]) carried carried')
    (readout : Readout) :
    matcher.evaluate views depth grid weight carried readout = .error failure := by
  have hcompare (i : Nat) (hi : i < n) :
      matcher.compare views depth carried i = .error failure := by
    obtain ⟨source, source', hs, -, hsource⟩ := hviews.sources.getElem? (σ.symm ⟨i, hi⟩)
    rw [Equiv.apply_symm_apply] at hs
    have hlt : i < views.sourceProjections.length := hviews.length_left ▸ hi
    simp only [Matcher.compare, hs, List.getElem?_eq_getElem hlt,
      features_error hsource hdepth (hposeless _ (List.getElem_mem hlt)), error_bind]
  simp only [Matcher.evaluate, (hviews.sourceCount hn).1, ok_bind, hdepth.sizes4.1,
    (checkCarried_alike hcarried).1, Tasks.run_error matcher.parallel hn hcompare, error_bind]

theorem round_error [WorkerPool] (range : DepthRange ℝ) (hs : stage.Sound)
    (hviews : p.ViewsAlike σ stage.settings.features height width views views')
    (hposeless : Poseless failure views) (hn : 0 < n)
    (hsurroundings : p.SurroundingsAlike stage.settings height width surroundings surroundings')
    (hheight : 0 < height) (hwidth : 0 < width) (iteration : Nat)
    (hstart : p.StartAlike σ stage height width estimate estimate' carried carried' rng rng') :
    stage.round views range surroundings p.size height width iteration estimate carried rng =
      .error failure := by
  obtain ⟨tried, tried', htried, -, hypotheses, -, halike⟩ :=
    hypotheses_alike hs range hsurroundings hheight hwidth iteration hstart.depth hstart.draws
  obtain ⟨near, near', hnear, -, hnearAlike⟩ :=
    ofDepth_alike halike hsurroundings.support hheight hwidth range stage.settings.interval
  obtain ⟨weight, weight', hweight, -, -⟩ := combine_alike hnearAlike hsurroundings.featureWeight
  simp only [Stage.round, htried, hnear, hweight, ok_bind, error_bind,
    evaluate_error hviews hposeless hn halike hstart.viewWeights]

/-- A stage that meets a singular reference fails in its first round. -/
theorem run_error [WorkerPool] (range : DepthRange ℝ) (hs : stage.Sound)
    (hviews : p.ViewsAlike σ stage.settings.features height width views views')
    (hposeless : Poseless failure views) (hn : 0 < n) (hheight : 0 < height) (hwidth : 0 < width)
    (hstart : p.StartAlike σ stage height width estimate estimate' carried carried' rng rng') :
    stage.run views range estimate carried rng = .error failure := by
  obtain ⟨s, s', hsurvey, -, hsurroundings⟩ := survey_alike hs hviews.reference hheight hwidth
  obtain ⟨count, hcount⟩ := Nat.exists_eq_add_one.2 hs.iterations_pos
  simp only [Stage.run, hviews.reference.sizes4.1, ok_bind, if_true, hsurvey, hcount, Stage.rounds,
    round_error range hs hviews hposeless hn hsurroundings hheight hwidth 0 hstart, error_bind]

end Stage

section Stages

variable {scene scene' : Scene ℝ ℝ} {pyramids pyramids' : List (Pyramid ℝ)}
  {stages : List (Stage ℝ ℝ)} {estimate estimate' carried carried' : Option (Tensor ℝ)} {rng : ρ}
  {rng' : ρ'}

/-- Stages of which the first that has no poses comes after stages that succeed. -/
inductive StagesFail (p : Twins) (σ : Equiv.Perm (Fin n)) (scene scene' : Scene ℝ ℝ)
    (pyramids pyramids' : List (Pyramid ℝ)) (failure : Failure) :
    List (Stage ℝ ℝ) → Nat → Nat → Prop
  | here {stage : Stage ℝ ℝ} {later : List (Stage ℝ ℝ)} {height width : Nat} (sound : stage.Sound)
      (views : Both (fun views views' =>
          p.ViewsAlike σ stage.settings.features height width views views' ∧
            Poseless failure views)
        (Estimator.stageViews scene pyramids stage.index)
        (Estimator.stageViews scene' pyramids' stage.index)) :
      StagesFail p σ scene scene' pyramids pyramids' failure (stage :: later) height width
  | later {stage : Stage ℝ ℝ} {later : List (Stage ℝ ℝ)} {height width : Nat} (sound : stage.Sound)
      (views : Both (fun views views' =>
          p.ViewsAlike σ stage.settings.features height width views views' ∧
            p.PosesAlike σ views views')
        (Estimator.stageViews scene pyramids stage.index)
        (Estimator.stageViews scene' pyramids' stage.index))
      (rest : StagesFail p σ scene scene' pyramids pyramids' failure later (2 * height)
        (2 * width)) :
      StagesFail p σ scene scene' pyramids pyramids' failure (stage :: later) height width

/-- A run fails at the first stage with a singular reference. -/
theorem runStages_error [WorkerPool] (hn : 0 < n) (hheight : 0 < height) (hwidth : 0 < width)
    (hstages : p.StagesFail σ scene scene' pyramids pyramids' failure stages height width)
    (hstart : ∀ stage ∈ stages.head?,
      p.StartAlike σ stage height width estimate estimate' carried carried' rng rng') :
    Estimator.runStages scene pyramids stages estimate carried rng = .error failure := by
  induction hstages generalizing estimate estimate' carried carried' rng rng' with
  | @here stage later height width sound views =>
    obtain ⟨views, views', hviews, -, halike, hposeless⟩ := views
    simp only [Estimator.runStages, hviews, ok_bind, error_bind,
      run_error scene.range sound halike hposeless hn hheight hwidth (hstart stage rfl)]
  | @later stage later height width sound views rest ih =>
    obtain ⟨views, views', hviews, -, halike, hposes⟩ := views
    obtain ⟨r, r', hr, -, hrounds, hne⟩ := run_alike scene.range sound halike hposes hn hheight
      hwidth (hstart stage rfl)
    obtain ⟨v, v', hv, -, hypotheses, -, hverdict⟩ : Both _ (stage.verdict r.1) _ :=
      verdict_alike hrounds hne
    obtain ⟨d, d', hd, -, hdepth⟩ := Sampling.double_alike hverdict.depth
    obtain ⟨w, w', hw, -, hweights⟩ := hverdict.viewWeights.double
    have hnext (stage : Stage ℝ ℝ) : p.StartAlike σ stage (2 * height) (2 * width) (some d)
        (some d') (some w) (some w') r.2 r'.2 := .resume hdepth hweights
    have hlater := ih (by omega) (by omega) fun stage _ => hnext stage
    cases later with
    | nil => cases rest
    | cons next later =>
      rw [Estimator.runStages]
      simp only [hviews, ok_bind, hr, hv, hd, hw, pure_eq_ok, hlater, error_bind]

end Stages

end Twins

/-- The first element without inverse reference matrix, at the coarsest stage that has one. -/
structure Scene.FirstSingular (scene : Scene ℝ ℝ) (stage b : Nat) : Prop where
  stage_lt : stage < stageCount
  lt_batch : b < scene.batch
  det_eq_zero : (scene.referenceMatrix stage b).det = 0
  before : ∀ i < b, (scene.referenceMatrix stage i).det ≠ 0
  coarser : ∀ k < stage, scene.RegularAt k

/-- Either all references are regular or there is a first that is not. -/
theorem Scene.regular_or_firstSingular (scene : Scene ℝ ℝ) :
    (∀ stage < stageCount, scene.RegularAt stage) ∨ ∃ stage b, scene.FirstSingular stage b := by
  classical
  by_cases h : ∃ stage, stage < stageCount ∧ ¬ scene.RegularAt stage
  · obtain ⟨hstage, hsingular⟩ := Nat.find_spec h
    have hcoarser (k : Nat) (hk : k < Nat.find h) : scene.RegularAt k := by
      by_contra hnot
      exact Nat.find_min h hk ⟨hk.trans hstage, hnot⟩
    have hb : ∃ b, b < scene.batch ∧ (scene.referenceMatrix (Nat.find h) b).det = 0 := by
      simpa [RegularAt] using hsingular
    obtain ⟨hlt, hdet⟩ := Nat.find_spec hb
    refine .inr ⟨Nat.find h, Nat.find hb, hstage, hlt, hdet, fun i hi hzero => ?_, hcoarser⟩
    exact Nat.find_min hb hi ⟨hi.trans hlt, hzero⟩
  · left
    intro stage hstage
    by_contra hnot
    exact h ⟨stage, hstage, hnot⟩

namespace Twins

variable {p : Twins} {n : Nat} {σ : Equiv.Perm (Fin n)} {height width : Nat}

section Estimates

variable {scene scene' : Scene ℝ ℝ}

theorem CamerasAlike.poseless {stage : Nat} {views views' : ViewFeatures ℝ}
    (h : p.CamerasAlike σ stage scene scene' views views') {b : Nat} (hb : b < p.size)
    (hsingular : (scene.referenceMatrix stage b).det = 0)
    (hfirst : ∀ i < b, (scene.referenceMatrix stage i).det ≠ 0) :
    Poseless (.singularProjection b) views := by
  intro t ht
  obtain ⟨f, f', hf, -, hr⟩ := h.sources
  obtain ⟨i, rfl⟩ := List.mem_ofFn.1 (hf ▸ ht)
  obtain ⟨hshape, -, -⟩ := hr (σ.symm i)
  rw [Equiv.apply_symm_apply] at hshape
  refine RelativePose.between_error hshape h.shape_left hb ?_ fun j hj => ?_
  · rw [Transform.det_eq, h.matrix_left b hb, hsingular]
  · rw [Transform.det_eq, h.matrix_left j (by omega)]
    exact hfirst j hj

/-- A whole run fails with the first element that has no inverse reference matrix. -/
theorem estimate_error [WorkerPool] {ρ : Type} [RandomSource ρ ℝ] {estimator : Estimator ℝ ℝ}
    {coarse middle fine : Stage ℝ ℝ} (hs : estimator.Sound coarse middle fine)
    (h : p.SceneAlike σ height width scene scene) (hn : 0 < n) (hheight : 0 < height)
    (hwidth : 0 < width) {stage b : Nat} (hsingular : scene.FirstSingular stage b) {rng : ρ}
    (hdraws : p.DrawsAlike (α := ℝ) height width rng rng) :
    estimator.estimate scene rng = .error (.singularProjection b) := by
  obtain ⟨pyramids, pyramids', hp, -, hpyramids⟩ : Both _ (estimator.pyramids scene) _ :=
    pyramids_alike hs.extractor h hheight hwidth
  obtain ⟨hcoarse, hmiddle, hfine⟩ := allViews_alike hs h hpyramids
  have hlt : b < p.size := h.batch_left ▸ hsingular.lt_batch
  have hposeless {views views' : ViewFeatures ℝ}
      (hv : p.CamerasAlike σ stage scene scene views views') :
      Poseless (.singularProjection b) views :=
    hv.poseless hlt hsingular.det_eq_zero hsingular.before
  have hposes {k : Nat} (hk : k < stage) {views views' : ViewFeatures ℝ}
      (hv : p.CamerasAlike σ k scene scene views views') : p.PosesAlike σ views views' :=
    hv.posesAlike h.batch_left h.batch_right (hsingular.coarser k hk) (hsingular.coarser k hk)
  have hstages : p.StagesFail σ scene scene pyramids pyramids' (.singularProjection b)
      [coarse, middle, fine] height width := by
    have hstage : stage = 0 ∨ stage = 1 ∨ stage = 2 := by
      have := hsingular.stage_lt
      simp only [stageCount] at this
      omega
    rcases hstage with rfl | rfl | rfl
    · exact .here hs.sound_coarse (hcoarse.mono fun _ _ hv => ⟨hv.1, hposeless hv.2⟩)
    · refine .later hs.sound_coarse ?_ (.here hs.sound_middle ?_)
      · exact hcoarse.mono fun _ _ hv => ⟨hv.1, hposes (by decide) hv.2⟩
      · exact hmiddle.mono fun _ _ hv => ⟨hv.1, hposeless hv.2⟩
    · refine .later hs.sound_coarse ?_ (.later hs.sound_middle ?_ (.here hs.sound_fine ?_))
      · exact hcoarse.mono fun _ _ hv => ⟨hv.1, hposes (by decide) hv.2⟩
      · exact hmiddle.mono fun _ _ hv => ⟨hv.1, hposes (by decide) hv.2⟩
      · exact hfine.mono fun _ _ hv => ⟨hv.1, hposeless hv.2⟩
  have hstart : p.StartAlike σ coarse height width none none none none rng rng :=
    ⟨trivial, trivial, fun _ => hdraws, fun _ => hs.rates⟩
  have hrun := runStages_error hn hheight hwidth hstages fun stage hstage => by
    cases hstage
    exact hstart
  simp only [Estimator.estimate, Estimator.search, hp, hs.stages_eq, ok_bind, hrun, error_bind]

end Estimates

end Twins

end MultiViewDepth
