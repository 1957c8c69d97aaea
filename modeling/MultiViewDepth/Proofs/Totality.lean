import MultiViewDepth.Proofs.VariedScenes
import MultiViewDepth.Proofs.FeatureSizes
import MultiViewDepth.Proofs.NeighborSteps
import MultiViewDepth.Proofs.Rounds
import MultiViewDepth.Proofs.SingularViews

/-!
What an estimator makes of a scene, for every scene with an element.

A run succeeds unless a reference view has no inverse projection, and then it names the first such
element. The comparison of an element with itself gives both.
-/
namespace MultiViewDepth

open Tensor Twins RandomSource

variable {ρ : Type} [RandomSource ρ ℝ] {scene : Scene ℝ ℝ}

section Scenes

theorem Twins.Paired.eq {n v v' : Nat} (h : Paired (Equiv.refl (Fin n)) v v') : v = v' := by
  cases h with
  | reference => rfl
  | source i => rfl

/-- Every element of a scene is its own twin. -/
theorem Twins.SceneAlike.refl {b n height width : Nat} (hb : b < scene.batch)
    (hviews : scene.views = n + 1) (hheight : scene.height = 2 * (2 * (2 * height)))
    (hwidth : scene.width = 2 * (2 * (2 * width))) :
    (Twins.self hb).SceneAlike (Equiv.refl (Fin n)) height width scene scene where
  batch_left := rfl
  batch_right := rfl
  views_left := hviews
  views_right := hviews
  height_left := hheight
  height_right := hheight
  width_left := hwidth
  width_right := hwidth
  range_eq := rfl
  image_eq v v' index hv _ := by rw [hv.eq]; rfl
  matrix_eq stage v v' t t' hv ht ht' r c _ _ := by
    obtain rfl : t = t' := Option.some.inj (ht.symm.trans ht')
    rw [hv.eq]
    rfl

end Scenes

/-- The arrays of a reconstruction have the sizes that the scene asks for. -/
structure Reconstruction.Fits (r : Reconstruction ℝ) (scene : Scene ℝ ℝ) : Prop where
  depth : r.depth.shape = [scene.batch, scene.height, scene.width]
  confidence : r.confidence.shape = [scene.batch, scene.height, scene.width]
  stageDepths : r.stageDepths.map (·.shape) =
    [[scene.batch, 1, scene.height / 8, scene.width / 8],
      [scene.batch, 1, scene.height / 4, scene.width / 4],
      [scene.batch, 1, scene.height / 2, scene.width / 2]]
  viewWeights : r.viewWeights.shape =
    [scene.batch, scene.views - 1, scene.height / 2, scene.width / 2]

section Runs

variable {estimator : Estimator ℝ ℝ} {coarse middle fine : Stage ℝ ℝ}

/-- A batch without elements ends in an error of the tensor library. -/
theorem estimate_empty [WorkerPool] (hs : estimator.Sound coarse middle fine)
    (hbatch : scene.batch = 0) (rng : ρ) : estimator.estimate scene rng = .error .tensor := by
  simp only [Estimator.estimate, Estimator.search, Estimator.pyramids_empty hs.extractor hbatch,
    error_bind]

theorem batch_pos_of_estimate [WorkerPool] (hs : estimator.Sound coarse middle fine) {rng : ρ}
    {r : Reconstruction ℝ × ρ} (h : estimator.estimate scene rng = .ok r) : 0 < scene.batch := by
  by_contra hempty
  rw [estimate_empty hs (by omega)] at h
  cases h

/-- Every element is its own twin at all stages. -/
theorem stagesAlike_refl [WorkerPool] (hs : estimator.Sound coarse middle fine)
    {b n height width : Nat} (hb : b < scene.batch) (hviews : scene.views = n + 1)
    (hh : scene.height = 2 * (2 * (2 * height))) (hw : scene.width = 2 * (2 * (2 * width)))
    (hheight : 0 < height) (hwidth : 0 < width)
    (hregular : ∀ stage < stageCount, scene.RegularAt stage) {pyramids : List (Pyramid ℝ)}
    (hpyramids : estimator.pyramids scene = .ok pyramids) :
    (Twins.self hb).StagesAlike (Equiv.refl (Fin n)) scene scene pyramids pyramids
      [coarse, middle, fine] height width := by
  have halike := SceneAlike.refl hb hviews hh hw
  have hsame := (pyramids_alike hs.extractor halike hheight hwidth).of_self hpyramids
  exact stages_alike hs halike hregular hregular hsame

/-- The stages that a search goes through, and what the first of them starts from. -/
theorem search_eq_ok [WorkerPool] (hs : estimator.Sound coarse middle fine)
    (hbatch : 0 < scene.batch) (hregular : ∀ stage < stageCount, scene.RegularAt stage) {rng : ρ}
    {r : List (StageRecord ℝ) × ρ} (h : estimator.search scene rng = .ok r) :
    ∃ pyramids, estimator.pyramids scene = .ok pyramids ∧
      (Twins.self hbatch).StagesAlike (Equiv.refl (Fin (scene.views - 1))) scene scene pyramids
        pyramids [coarse, middle, fine] (scene.height / 8) (scene.width / 8) ∧
      (∀ stage ∈ [coarse, middle, fine].head?,
        (Twins.self hbatch).StartAlike (Equiv.refl (Fin (scene.views - 1))) stage
          (scene.height / 8) (scene.width / 8) none none none none rng rng) ∧
      Estimator.runStages scene pyramids [coarse, middle, fine] none none rng = .ok r := by
  obtain ⟨height, width, hheight, hwidth, hh, hw⟩ := scene.exists_sides
  obtain ⟨n, hpos, hn⟩ := scene.exists_sources
  obtain ⟨rfl, rfl⟩ : height = scene.height / 8 ∧ width = scene.width / 8 := by omega
  obtain rfl : n = scene.views - 1 := by omega
  obtain ⟨pyramids, hpyramids, hrun⟩ := bind_eq_ok.1 h
  rw [hs.stages_eq] at hrun
  refine ⟨pyramids, hpyramids,
    stagesAlike_refl hs hbatch hn hh hw hheight hwidth hregular hpyramids, ?_, hrun⟩
  rintro _ ⟨⟩
  exact ⟨trivial, trivial, fun _ _ _ _ _ _ _ => rfl, fun _ => hs.rates⟩

/-- One stage of a search: what it sees, the rounds that it runs, and what it hands on. -/
theorem runStages_step [WorkerPool] {b n height width : Nat} {σ : Equiv.Perm (Fin n)}
    {pyramids : List (Pyramid ℝ)} {estimate carried : Option (Tensor ℝ)} {rng : ρ}
    (hb : b < scene.batch) (hn : 0 < n) (hheight : 0 < height) (hwidth : 0 < width)
    {stage : Stage ℝ ℝ} {later : List (Stage ℝ ℝ)} (hs : stage.Sound)
    (hseen : Both (fun views views' =>
        (Twins.self hb).ViewsAlike σ stage.settings.features height width views views' ∧
          (Twins.self hb).PosesAlike σ views views')
      (Estimator.stageViews scene pyramids stage.index)
      (Estimator.stageViews scene pyramids stage.index))
    (hstart : (Twins.self hb).StartAlike σ stage height width estimate estimate carried carried rng
      rng) {r : List (StageRecord ℝ) × ρ}
    (hr : Estimator.runStages scene pyramids (stage :: later) estimate carried rng = .ok r) :
    ∃ views rounds rng' verdict depth weights records,
      Estimator.stageViews scene pyramids stage.index = .ok views ∧
      (Twins.self hb).ViewsAlike σ stage.settings.features height width views views ∧
      (Twins.self hb).PosesAlike σ views views ∧
      stage.run views scene.range estimate carried rng = .ok (rounds, rng') ∧
      stage.verdict rounds = .ok verdict ∧
      Estimator.handOver verdict later = .ok (depth, weights) ∧
      (∀ next ∈ later.head?, (Twins.self hb).StartAlike σ next (2 * height) (2 * width)
        (some depth) (some depth) (some weights) (some weights) rng' rng') ∧
      Estimator.runStages scene pyramids later (some depth) (some weights) rng' =
        .ok (records, r.2) ∧
      r.1 = ⟨rounds, verdict⟩ :: records := by
  obtain ⟨views, rounds, rng', verdict, depth, weights, records, hviews, hrun, hverdict, hnext,
    hrecords, heq⟩ := Estimator.runStages_eq_ok hr
  obtain ⟨hsame, hposes⟩ := hseen.of_self hviews
  refine ⟨views, rounds, rng', verdict, depth, weights, records, hviews, hsame, hposes, hrun,
    hverdict, hnext, fun next hhead => ?_, hrecords, heq⟩
  obtain ⟨hrounds, hne⟩ :=
    (Twins.run_alike scene.range hs hsame hposes hn hheight hwidth hstart).of_self hrun
  obtain ⟨_, -, halike⟩ := (Twins.verdict_alike hrounds hne).of_self hverdict
  cases later with
  | nil => cases hhead
  | cons next later =>
    obtain ⟨hd, hw⟩ := Estimator.handOver_cons.1 hnext
    exact .resume ((Sampling.double_alike halike.depth).of_self hd)
      (halike.viewWeights.double.of_self hw)

/-- Regular references are all that a run needs. -/
theorem estimate_of_regular [WorkerPool] (hs : estimator.Sound coarse middle fine)
    (hbatch : 0 < scene.batch) (hregular : ∀ stage < stageCount, scene.RegularAt stage) (rng : ρ) :
    ∃ r, estimator.estimate scene rng = .ok r ∧ r.1.Fits scene := by
  obtain ⟨height, width, hheight, hwidth, hh, hw⟩ := scene.exists_sides
  obtain ⟨n, hpos, hn⟩ := scene.exists_sources
  have hdraws : (Twins.self hbatch).DrawsAlike (α := ℝ) height width rng rng :=
    fun _ _ _ _ _ _ => rfl
  obtain ⟨r, r', hr, -, halike⟩ := estimate_alike hs (SceneAlike.refl hbatch hn hh hw) hpos
    hheight hwidth hregular hregular hdraws
  obtain ⟨a, b, c, a', b', c', hdepths, -, ha, hb, hc⟩ := halike.stageDepths
  refine ⟨r, hr, ?_, ?_, ?_, ?_⟩
  · rw [halike.depth.shape_left, hh, hw]
    rfl
  · rw [halike.confidence.shape_left, hh, hw]
    rfl
  · rw [hdepths, List.map_cons, List.map_cons, List.map_cons, ha.shape_left, hb.shape_left,
      hc.shape_left, hh, hw]
    simp only [List.map_nil, List.cons.injEq, and_true, true_and]
    refine ⟨⟨rfl, ?_⟩, ⟨rfl, ?_⟩, rfl, ?_⟩ <;> omega
  · rw [halike.viewWeights.shape_left, hh, hw, hn]
    simp only [List.cons.injEq, and_true]
    refine ⟨rfl, ?_⟩
    omega

/-- The error names the first singular element of the coarsest stage that has one. -/
theorem estimate_of_singular [WorkerPool] (hs : estimator.Sound coarse middle fine) {stage b : Nat}
    (h : scene.FirstSingular stage b) (rng : ρ) :
    estimator.estimate scene rng = .error (.singularProjection b) := by
  obtain ⟨height, width, hheight, hwidth, hh, hw⟩ := scene.exists_sides
  obtain ⟨n, hpos, hn⟩ := scene.exists_sources
  exact estimate_error hs (SceneAlike.refl h.lt_batch hn hh hw) hpos hheight hwidth h
    fun _ _ _ _ _ _ => rfl

/-- A run that succeeds has met inverses of all reference projections. -/
theorem regular_of_estimate [WorkerPool] (hs : estimator.Sound coarse middle fine) {rng : ρ}
    {r : Reconstruction ℝ × ρ} (h : estimator.estimate scene rng = .ok r) :
    ∀ stage < stageCount, scene.RegularAt stage := by
  rcases scene.regular_or_firstSingular with hregular | ⟨stage, b, hsingular⟩
  · exact hregular
  · rw [estimate_of_singular hs hsingular] at h
    cases h

theorem estimate_ok_iff [WorkerPool] (hs : estimator.Sound coarse middle fine)
    (hbatch : 0 < scene.batch) (rng : ρ) :
    (∃ r, estimator.estimate scene rng = .ok r) ↔ ∀ stage < stageCount, scene.RegularAt stage := by
  constructor
  · rintro ⟨r, hr⟩
    exact regular_of_estimate hs hr
  · intro hregular
    obtain ⟨r, hr, -⟩ := estimate_of_regular hs hbatch hregular rng
    exact ⟨r, hr⟩

theorem estimate_error_iff [WorkerPool] (hs : estimator.Sound coarse middle fine)
    (hbatch : 0 < scene.batch) (rng : ρ) (failure : Failure) :
    estimator.estimate scene rng = .error failure ↔
      ∃ stage b, scene.FirstSingular stage b ∧ failure = .singularProjection b := by
  constructor
  · intro h
    rcases scene.regular_or_firstSingular with hregular | ⟨stage, b, hsingular⟩
    · obtain ⟨r, hr, -⟩ := estimate_of_regular hs hbatch hregular rng
      rw [hr] at h
      cases h
    · rw [estimate_of_singular hs hsingular] at h
      cases h
      exact ⟨stage, b, hsingular, rfl⟩
  · rintro ⟨stage, b, hsingular, rfl⟩
    exact estimate_of_singular hs hsingular rng

/-- Whatever a run returns has the shapes that the scene asks for. -/
theorem fits_of_estimate [WorkerPool] (hs : estimator.Sound coarse middle fine)
    (hbatch : 0 < scene.batch)
    {rng : ρ} {r : Reconstruction ℝ × ρ} (h : estimator.estimate scene rng = .ok r) :
    r.1.Fits scene := by
  obtain ⟨r', hr', hfits⟩ := estimate_of_regular hs hbatch (regular_of_estimate hs h) rng
  rw [h] at hr'
  cases hr'
  exact hfits

/-- Estimators of any settings and parameters estimate varied scenes of any size. -/
theorem estimate_varied [WorkerPool] {settings : Settings ℝ} {source : ParameterSource ℝ}
    (hvalid : settings.validate = .ok ()) (hsource : source.Answers settings) {batch : Nat}
    (hbatch : 0 < batch) (sources rows columns : Nat) (rng : ρ) :
    ∃ (estimator : Estimator ℝ ℝ) (r : Reconstruction ℝ × ρ),
      Estimator.build settings source = .ok estimator ∧
        estimator.estimate (Scene.varied batch sources rows columns) rng = .ok r := by
  obtain ⟨estimator, hbuild⟩ := Estimator.exists_build hvalid hsource
  obtain ⟨coarse, middle, fine, hs⟩ := Estimator.sound_of_build hbuild
  have hregular (stage : Nat) (hstage : stage < stageCount) :=
    Scene.varied_regular batch sources rows columns hstage
  obtain ⟨r, hr, -⟩ := estimate_of_regular hs
    (show 0 < (Scene.varied batch sources rows columns).batch from hbatch) hregular rng
  exact ⟨estimator, r, hbuild, hr⟩

/-- The neighbors that a stage reads lie where its settings put them. -/
theorem Stage.Follows.enlarged {stage : Stage ℝ ℝ} {settings : StageSettings ℝ} {index : Nat}
    {final : Bool} (h : stage.Follows settings index final) (hrange : settings.range < 2 ^ 30) :
    stage.lendingPattern.Enlarged .propagation settings.lenders settings.range ∧
      stage.supportPattern.Enlarged .evaluation settings.supporters settings.supportDistance := by
  have hdistance : settings.supportDistance < 2 ^ 30 := by
    rw [StageSettings.supportDistance]
    omega
  exact ⟨Pattern.enlarged_of_build h.lending_eq hrange,
    Pattern.enlarged_of_build h.support_eq hdistance⟩

/-- Valid settings and parameters of the right shapes make an estimator. On a scene with an element
it succeeds, with arrays of the scene's sizes, unless a reference projection has no inverse; then
it names the first such element at the coarsest such stage. No step of its patterns wraps around. -/
theorem estimate_total [WorkerPool] {settings : Settings ℝ} {source : ParameterSource ℝ}
    (hvalid : settings.validate = .ok ())
    (hrange : ∀ stage ∈ settings.stages, stage.range < 2 ^ 30) (hsource : source.Answers settings)
    (hbatch : 0 < scene.batch) (rng : ρ) :
    ∃ estimator : Estimator ℝ ℝ, Estimator.build settings source = .ok estimator ∧
      (∀ stage ∈ estimator.stages,
        stage.lendingPattern.Enlarged .propagation stage.settings.lenders stage.settings.range ∧
          stage.supportPattern.Enlarged .evaluation stage.settings.supporters
            stage.settings.supportDistance) ∧
      ((∃ r, estimator.estimate scene rng = .ok r) ↔
        ∀ stage < stageCount, scene.RegularAt stage) ∧
      (∀ failure, estimator.estimate scene rng = .error failure ↔
        ∃ stage b, scene.FirstSingular stage b ∧ failure = .singularProjection b) ∧
      ∀ r, estimator.estimate scene rng = .ok r → r.1.Fits scene := by
  obtain ⟨estimator, hbuild⟩ := Estimator.exists_build hvalid hsource
  obtain ⟨coarse, middle, fine, hs⟩ := Estimator.sound_of_build hbuild
  refine ⟨estimator, hbuild, ?_, estimate_ok_iff hs hbatch rng, estimate_error_iff hs hbatch rng,
    fun r => fits_of_estimate hs hbatch⟩
  obtain ⟨c, m, f, hstages, hc, hm, hf⟩ := Estimator.follows_of_build hbuild
  rw [hstages]
  intro stage hstage
  simp only [Settings.stages, List.forall_mem_cons] at hrange
  obtain rfl | rfl | rfl := by simpa using hstage
  · rw [hc.settings_eq]
    exact hc.enlarged hrange.1
  · rw [hm.settings_eq]
    exact hm.enlarged hrange.2.1
  · rw [hf.settings_eq]
    exact hf.enlarged hrange.2.2.1

attribute [local instance] WorkerPool.inTurn

theorem estimate_total_varied :
    (Settings.default : Settings ℝ).validate = .ok () ∧
      (∀ stage ∈ (Settings.default : Settings ℝ).stages, stage.range < 2 ^ 30) ∧
      variedSource.Answers (Settings.default : Settings ℝ) ∧ 0 < (Scene.varied 1 0 0 0).batch ∧
      ∃ estimator r, Estimator.build Settings.default variedSource = .ok estimator ∧
        estimator.estimate (Scene.varied 1 0 0 0) Tape.varied = .ok r ∧
        r.1.Fits (Scene.varied 1 0 0 0) := by
  have hrange : ∀ stage ∈ (Settings.default : Settings ℝ).stages, stage.range < 2 ^ 30 := by
    simp [Settings.stages, Settings.default, StageSettings.coarse, StageSettings.middle,
      StageSettings.fine]
  have hbatch : 0 < (Scene.varied 1 0 0 0).batch := Nat.one_pos
  have hanswers := variedSource_answers (Settings.default : Settings ℝ)
  obtain ⟨estimator, hbuild, -, hok, -, hfits⟩ :=
    estimate_total Settings.validate_default hrange hanswers hbatch Tape.varied
  obtain ⟨r, hr⟩ := hok.2 fun stage hstage => Scene.varied_regular 1 0 0 0 hstage
  exact ⟨Settings.validate_default, hrange, hanswers, hbatch, estimator, r, hbuild, hr,
    hfits r hr⟩

end Runs

end MultiViewDepth
