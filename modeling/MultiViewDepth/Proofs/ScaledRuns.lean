import MultiViewDepth.Estimator
import MultiViewDepth.Proofs.FrameChanges
import MultiViewDepth.Proofs.Rounds
import MultiViewDepth.Proofs.Totality

/-!
A run in another unit.

A run that succeeds is followed step by step: every round tries the same hypotheses in the new unit,
and its weights, scores and confidences are the old ones.
-/
namespace MultiViewDepth

open Tensor RandomSource

noncomputable def Round.scaled (c : ℝ) (round : Round ℝ) : Round ℝ :=
  ⟨round.hypotheses.scaled c, round.readout, round.verdict.scaled c⟩

noncomputable def StageRecord.scaled (c : ℝ) (record : StageRecord ℝ) : StageRecord ℝ :=
  ⟨record.rounds.map (Round.scaled c), record.verdict.scaled c⟩

noncomputable def Reconstruction.scaled (c : ℝ) (r : Reconstruction ℝ) : Reconstruction ℝ :=
  ⟨r.depth.scaled c, r.confidence, r.stageDepths.map (Tensor.scaled c), r.viewWeights⟩

variable {c : ℝ} (hc : 0 < c) {ρ : Type} [RandomSource ρ ℝ]

section Stages

variable (stage : Stage ℝ ℝ) {views views' : ViewFeatures ℝ} {range : DepthRange ℝ}
  {surroundings : Surroundings ℝ} {batch height width : Nat}

theorem hypotheses_scaled (iteration : Nat) (estimate : Option (Tensor ℝ)) (rng : ρ) :
    stage.hypotheses (range.scaled hc) surroundings batch height width iteration
        (estimate.map (Tensor.scaled c)) rng =
      Prod.map (Tensor.scaled c) id <$>
        stage.hypotheses range surroundings batch height width iteration estimate rng := by
  refine bind_map_congr (stage.sampler.hypotheses_scaled hc range estimate _ _ _ rng)
    fun (own, rng) => ?_
  dsimp only [Prod.map]
  cases stage.settings.lendsIn iteration stage.final with
  | false => rfl
  | true =>
    cases surroundings.lending with
    | none => rfl
    | some grid => exact bind_map_congr (lend_scaled hc own grid) fun _ => rfl

variable {stage} {estimate carried : Option (Tensor ℝ)} {rng rng' : ρ}

/-- One round over a rescaled scene gives the rescaled round and leaves the same generator. -/
theorem round_scaled [WorkerPool] (hviews : views.Rescaled c views') {iteration : Nat}
    {round : Round ℝ} (hsides : views.KeepsSides c round.hypotheses)
    (hround : stage.round views range surroundings batch height width iteration estimate carried
      rng = .ok (round, rng')) :
    stage.round views' (range.scaled hc) surroundings batch height width iteration
      (estimate.map (Tensor.scaled c)) carried rng = .ok (round.scaled c, rng') := by
  obtain ⟨⟨tried, after⟩, htried, hround⟩ := bind_eq_ok.1 hround
  obtain ⟨near, hnear, hround⟩ := bind_eq_ok.1 hround
  obtain ⟨weight, hweight, hround⟩ := bind_eq_ok.1 hround
  obtain ⟨verdict, hverdict, hround⟩ := bind_eq_ok.1 hround
  cases hround
  simp only [Stage.round, hypotheses_scaled hc stage, htried, ofDepth_scaled hc, hnear, hweight,
    evaluate_scaled hc hviews hsides, hverdict, map_ok, Prod.map, ok_bind]
  rfl

theorem rounds_scaled [WorkerPool] (hviews : views.Rescaled c views') {count iteration : Nat}
    {rounds : List (Round ℝ)} (hsides : ∀ round ∈ rounds, views.KeepsSides c round.hypotheses)
    (hrounds : stage.rounds views range surroundings batch height width count iteration estimate
      carried rng = .ok (rounds, rng')) :
    stage.rounds views' (range.scaled hc) surroundings batch height width count iteration
      (estimate.map (Tensor.scaled c)) carried rng = .ok (rounds.map (Round.scaled c), rng') := by
  induction count generalizing iteration estimate carried rng rounds with
  | zero =>
    cases hrounds
    rfl
  | succ count ih =>
    obtain ⟨⟨round, after⟩, hround, hrounds⟩ := bind_eq_ok.1 hrounds
    obtain ⟨⟨later, last⟩, hlater, hrounds⟩ := bind_eq_ok.1 hrounds
    cases hrounds
    obtain ⟨hfirst, hsides⟩ := List.forall_mem_cons.1 hsides
    -- the next round starts from this one's depth in the other unit, and from its view weights
    have hnext := ih hsides hlater
    simp only [Stage.rounds, round_scaled hc hviews hfirst hround, ok_bind]
    rw [show (some (round.scaled c).verdict.depth : Option (Tensor ℝ)) =
      (some round.verdict.depth).map (Tensor.scaled c) from rfl,
      show (round.scaled c).verdict.viewWeights = round.verdict.viewWeights from rfl, hnext]
    rfl

/-- The rounds of a stage rescale with the scene. -/
theorem run_scaled [WorkerPool] (hviews : views.Rescaled c views') {rounds : List (Round ℝ)}
    (hsides : ∀ round ∈ rounds, views.KeepsSides c round.hypotheses)
    (hrun : stage.run views range estimate carried rng = .ok (rounds, rng')) :
    stage.run views' (range.scaled hc) (estimate.map (Tensor.scaled c)) carried rng =
      .ok (rounds.map (Round.scaled c), rng') := by
  simp only [Stage.run, bind_eq_ok, throw_eq_error, error_bind, ite_error_eq_ok] at hrun
  obtain ⟨⟨batch, channels, height, width⟩, hsizes, hchannels, surroundings, hsurvey,
    hrounds⟩ := hrun
  simp only [Stage.run, hviews.reference_eq, hsizes, ok_bind, if_pos hchannels, hsurvey]
  exact rounds_scaled hc hviews hsides hrounds

omit [RandomSource ρ ℝ] in
theorem verdict_scaled {rounds : List (Round ℝ)} {verdict : Verdict ℝ}
    (hverdict : stage.verdict rounds = .ok verdict) :
    stage.verdict (rounds.map (Round.scaled c)) = .ok (verdict.scaled c) := by
  obtain ⟨last, hlast, rfl⟩ := Stage.verdict_eq_ok.1 hverdict
  refine Stage.verdict_eq_ok.2 ⟨last.scaled c, ?_, rfl⟩
  rw [List.getLast?_map, hlast, Option.map_some]

end Stages

/-- The same images, before cameras and with a range that are described in another unit and in
another world frame. -/
structure Scene.Rescaled (frame : Matrix (Fin 4) (Fin 4) ℝ) (scene scene' : Scene ℝ ℝ) : Prop where
  det_frame : frame.det ≠ 0
  images_eq : scene'.images = scene.images
  range_eq : scene'.range = scene.range.scaled hc
  matrix_eq : ∀ stage v b, stage < stageCount → v < scene.views → b < scene.batch →
    scene'.projectionMatrix stage v b =
      unitChange c * scene.projectionMatrix stage v b * frame

section Search

variable {frame : Matrix (Fin 4) (Fin 4) ℝ} {scene scene' : Scene ℝ ℝ}
  {pyramids : List (Pyramid ℝ)} {rng rng' : ρ}

theorem Scene.Rescaled.sizes_eq (h : scene.Rescaled hc frame scene') :
    scene'.batch = scene.batch ∧ scene'.views = scene.views := by
  have hshape := scene'.shape_images
  rw [h.images_eq, scene.shape_images] at hshape
  simp only [List.cons.injEq] at hshape
  exact ⟨hshape.1.symm, hshape.2.1.symm⟩

theorem Scene.Rescaled.view_eq (h : scene.Rescaled hc frame scene') (v : Nat) :
    scene'.view v = scene.view v := by
  simp only [Scene.view, h.images_eq]

/-- Features come from the images, which a change of unit leaves alone. -/
theorem pyramids_rescaled [WorkerPool] (estimator : Estimator ℝ ℝ)
    (h : scene.Rescaled hc frame scene') :
    estimator.pyramids scene' = estimator.pyramids scene := by
  simp only [Estimator.pyramids, h.sizes_eq.2, h.view_eq]

include hc in
/-- A change of frame cancels in a relative pose, and a change of unit scales its translation. -/
theorem Scene.Rescaled.pose_eq (h : scene.Rescaled hc frame scene') {stage v : Nat}
    (hstage : stage < stageCount) (hv : v < scene.views)
    {reference reference' source source' : Tensor ℝ}
    (hreference : scene.projections.view stage 0 = .ok reference)
    (hreference' : scene'.projections.view stage 0 = .ok reference')
    (hsource : scene.projections.view stage v = .ok source)
    (hsource' : scene'.projections.view stage v = .ok source') :
    source'.shape = source.shape ∧ RelativePose.between source' reference' =
      RelativePose.scaled c <$> RelativePose.between source reference := by
  have hfirst : 0 < scene.views := by omega
  obtain ⟨hbatch, hviews⟩ := h.sizes_eq
  obtain ⟨_, hr, hrs, hrm⟩ := Twins.projectionMatrix_ok scene hstage hfirst
  obtain ⟨_, hr', hrs', hrm'⟩ := Twins.projectionMatrix_ok scene' hstage (hviews ▸ hfirst)
  obtain ⟨_, ht, hts, htm⟩ := Twins.projectionMatrix_ok scene hstage hv
  obtain ⟨_, ht', hts', htm'⟩ := Twins.projectionMatrix_ok scene' hstage (hviews ▸ hv)
  cases Except.ok.inj (hreference.symm.trans hr)
  cases Except.ok.inj (hreference'.symm.trans hr')
  cases Except.ok.inj (hsource.symm.trans ht)
  cases Except.ok.inj (hsource'.symm.trans ht')
  rw [hbatch] at hrs' hrm' hts' htm'
  refine ⟨hts'.trans hts.symm, RelativePose.between_frames hc.ne' hts hts' hrs hrs'
    (fun _ => h.det_frame) (fun b => ?_) fun b => ?_⟩
  · rw [htm' b b.isLt, htm b b.isLt, h.matrix_eq stage v b hstage hv b.isLt]
  · rw [hrm' b b.isLt, hrm b b.isLt, h.matrix_eq stage 0 b hstage hfirst b.isLt]

/-- The projections of all source views, each with its pose in the other unit. -/
theorem sourceProjections_rescaled (h : scene.Rescaled hc frame scene') {stage : Nat}
    (hstage : stage < stageCount) {reference reference' : Tensor ℝ}
    (hreference : scene.projections.view stage 0 = .ok reference)
    (hreference' : scene'.projections.view stage 0 = .ok reference')
    {sources : List (Tensor ℝ)} (hsources : ((List.range (scene.views - 1)).mapM fun v =>
      scene.projections.view stage (v + 1)) = .ok sources) :
    ∃ sources', ((List.range (scene.views - 1)).mapM fun v =>
        scene'.projections.view stage (v + 1)) = .ok sources' ∧
      sources'.length = sources.length ∧
      ∀ i : Nat, Optionally (fun t t' : Tensor ℝ => t'.shape = t.shape ∧
        RelativePose.between t' reference' =
          RelativePose.scaled c <$> RelativePose.between t reference) sources[i]? sources'[i]? := by
  obtain ⟨sources', hsources'⟩ : ∃ sources', ((List.range (scene.views - 1)).mapM fun v =>
      scene'.projections.view stage (v + 1)) = .ok sources' := by
    refine exists_mapM_ok fun v hv => ?_
    have hlt : v + 1 < scene'.views := by
      have := List.mem_range.1 hv
      rw [h.sizes_eq.2]
      omega
    obtain ⟨u, hu, -⟩ := Twins.projectionMatrix_ok scene' hstage hlt
    exact ⟨u, hu⟩
  have hlength : sources.length = scene.views - 1 := by
    simpa using (mapM_eq_ok hsources).length_eq.symm
  have hlength' : sources'.length = scene.views - 1 := by
    simpa using (mapM_eq_ok hsources').length_eq.symm
  refine ⟨sources', hsources', hlength'.trans hlength.symm, fun i => ?_⟩
  by_cases hi : i < scene.views - 1
  · have hat : sources[i]? = some _ := List.getElem?_eq_getElem (hlength ▸ hi)
    have hat' : sources'[i]? = some _ := List.getElem?_eq_getElem (hlength' ▸ hi)
    obtain ⟨v, hv, hsource⟩ := getElem?_of_mapM hsources hat
    obtain ⟨v', hv', hsource'⟩ := getElem?_of_mapM hsources' hat'
    rw [List.getElem?_range hi] at hv hv'
    cases hv
    cases hv'
    rw [hat, hat']
    exact h.pose_eq hc hstage (by omega) hreference hreference' hsource hsource'
  · have hbehind : sources[i]? = none := List.getElem?_eq_none (by omega)
    have hbehind' : sources'[i]? = none := List.getElem?_eq_none (by omega)
    rw [hbehind, hbehind']
    trivial

theorem stageViews_rescaled (h : scene.Rescaled hc frame scene') {stage : Nat}
    (hstage : stage < stageCount) {views : ViewFeatures ℝ}
    (hviews : Estimator.stageViews scene pyramids stage = .ok views) :
    ∃ views', Estimator.stageViews scene' pyramids stage = .ok views' ∧
      views.Rescaled c views' := by
  have hfirst : 0 < scene'.views := by
    have := scene'.two_le_views
    omega
  cases pyramids with
  | nil => cases hviews
  | cons first rest =>
    simp only [Estimator.stageViews, bind_eq_ok, pure_eq_ok] at hviews
    obtain ⟨features, hfeatures, sources, hsources, reference, hreference, projections,
      hprojections, hviews⟩ := hviews
    cases hviews
    obtain ⟨reference', hreference', -⟩ := Twins.projectionMatrix_ok scene' hstage hfirst
    obtain ⟨projections', hprojections', hlength, hposes⟩ :=
      sourceProjections_rescaled hc h hstage hreference hreference' hprojections
    refine ⟨⟨features, sources, reference', projections'⟩, ?_, rfl, rfl, hlength, hposes⟩
    simp only [Estimator.stageViews, hfeatures, hsources, hreference', h.sizes_eq.2, hprojections',
      ok_bind, pure_eq_ok]

/-- No hypothesis of a stage changes its side of the plane near any source camera. -/
def StageRecord.KeepsSides (c : ℝ) (scene : Scene ℝ ℝ) (pyramids : List (Pyramid ℝ))
    (stage : Stage ℝ ℝ) (record : StageRecord ℝ) : Prop :=
  ∀ views, Estimator.stageViews scene pyramids stage.index = .ok views →
    ∀ round ∈ record.rounds, views.KeepsSides c round.hypotheses

/-- The records of all stages rescale with the scene, as long as no point changes side. -/
theorem runStages_scaled [WorkerPool] (hscene : scene.Rescaled hc frame scene')
    {stages : List (Stage ℝ ℝ)} (hstages : ∀ stage ∈ stages, stage.index < stageCount)
    {estimate carried : Option (Tensor ℝ)} {records : List (StageRecord ℝ)}
    (hsides : ∀ (i : Nat) (stage : Stage ℝ ℝ) (record : StageRecord ℝ), stages[i]? = some stage →
      records[i]? = some record → record.KeepsSides c scene pyramids stage)
    (hrun : Estimator.runStages scene pyramids stages estimate carried rng = .ok (records, rng')) :
    Estimator.runStages scene' pyramids stages (estimate.map (Tensor.scaled c)) carried rng =
      .ok (records.map (StageRecord.scaled c), rng') := by
  induction stages generalizing estimate carried rng records with
  | nil =>
    cases hrun
    rfl
  | cons stage later ih =>
    obtain ⟨hstage, hlater⟩ := List.forall_mem_cons.1 hstages
    obtain ⟨views, hviews, hrun⟩ := bind_eq_ok.1 hrun
    obtain ⟨⟨rounds, after⟩, hrounds, hrun⟩ := bind_eq_ok.1 hrun
    obtain ⟨verdict, hverdict, hrun⟩ := bind_eq_ok.1 hrun
    obtain ⟨views', hviews', hrescaled⟩ := stageViews_rescaled hc hscene hstage hviews
    cases later with
    | nil =>
      cases hrun
      have hrun' := run_scaled hc hrescaled
        (hsides 0 stage ⟨rounds, verdict⟩ rfl rfl views hviews) hrounds
      simp only [Estimator.runStages, hviews', hscene.range_eq, hrun', ok_bind,
        verdict_scaled hverdict]
      rfl
    | cons following later =>
      simp only [bind_eq_ok, pure_eq_ok, ok_bind] at hrun
      obtain ⟨depth, hdepth, weights, hweights, ⟨records, last⟩, hrecords, hrun⟩ := hrun
      cases hrun
      have hrun' := run_scaled hc hrescaled
        (hsides 0 stage ⟨rounds, verdict⟩ rfl rfl views hviews) hrounds
      have hrest := ih hlater (fun i => hsides (i + 1)) hrecords
      have hdepth' : Sampling.double (verdict.scaled c).depth = .ok (depth.scaled c) := by
        rw [Verdict.scaled, Sampling.double_scaled, hdepth, map_ok]
      have hweights' : Sampling.double (verdict.scaled c).viewWeights = .ok weights := hweights
      rw [Option.map_some] at hrest
      rw [Estimator.runStages]
      simp only [hviews', hscene.range_eq, hrun', ok_bind, verdict_scaled hverdict, hdepth',
        hweights', pure_eq_ok, hrest]
      rfl

/-- The refined depth rescales with the records, and the confidence stays. -/
theorem finish_scaled (estimator : Estimator ℝ ℝ) (h : scene.Rescaled hc frame scene')
    (records : List (StageRecord ℝ)) :
    estimator.finish scene' (records.map (StageRecord.scaled c)) =
      Reconstruction.scaled c <$> estimator.finish scene records := by
  simp only [Estimator.finish, List.getLast?_map, h.view_eq, h.range_eq]
  cases records.getLast? with
  | none => rfl
  | some last =>
    simp only [Option.map_some, StageRecord.scaled, Verdict.scaled]
    refine bind_congr_map fun image => ?_
    refine bind_map_congr (refine_scaled hc scene.range _ image _) fun depth => ?_
    refine bind_congr_map fun confidence => ?_
    simp [Reconstruction.scaled, Function.comp_def, StageRecord.scaled, Verdict.scaled]

end Search

section Estimates

variable {estimator : Estimator ℝ ℝ} {coarse middle fine : Stage ℝ ℝ}
  {frame : Matrix (Fin 4) (Fin 4) ℝ} {scene scene' : Scene ℝ ℝ}

theorem det_rescaled (h : scene.Rescaled hc frame scene') {stage b : Nat}
    (hstage : stage < stageCount) (hb : b < scene.batch) :
    (scene'.referenceMatrix stage b).det = 0 ↔ (scene.referenceMatrix stage b).det = 0 := by
  have hviews := scene.two_le_views
  rw [Scene.referenceMatrix_eq, Scene.referenceMatrix_eq, h.matrix_eq stage 0 b hstage (by omega)
    hb, Matrix.det_mul, Matrix.det_mul, det_unitChange]
  simp [h.det_frame, hc.ne']

/-- A change of frame or unit does not make a reference singular. -/
theorem firstSingular_rescaled (h : scene.Rescaled hc frame scene') {stage b : Nat}
    (hsingular : scene.FirstSingular stage b) : scene'.FirstSingular stage b where
  stage_lt := hsingular.stage_lt
  lt_batch := h.sizes_eq.1 ▸ hsingular.lt_batch
  det_eq_zero := (det_rescaled hc h hsingular.stage_lt hsingular.lt_batch).2 hsingular.det_eq_zero
  before i hi := mt (det_rescaled hc h hsingular.stage_lt (hi.trans hsingular.lt_batch)).1
    (hsingular.before i hi)
  coarser k hk b hb := by
    have hb' : b < scene.batch := h.sizes_eq.1 ▸ hb
    exact mt (det_rescaled hc h (hk.trans hsingular.stage_lt) hb').1 (hsingular.coarser k hk b hb')

def Estimator.KeepsSides [WorkerPool] (c : ℝ) (estimator : Estimator ℝ ℝ) (scene : Scene ℝ ℝ)
    (rng : ρ) : Prop :=
  ∀ pyramids records rng', estimator.pyramids scene = .ok pyramids →
    estimator.search scene rng = .ok (records, rng') →
    ∀ (i : Nat) (stage : Stage ℝ ℝ) (record : StageRecord ℝ), estimator.stages[i]? = some stage →
      records[i]? = some record → record.KeepsSides c scene pyramids stage

/-- A run in another unit gives the same result in this unit, or fails alike. -/
theorem estimate_rescaled [WorkerPool] (hs : estimator.Sound coarse middle fine)
    (hscene : scene.Rescaled hc frame scene') (hbatch : 0 < scene.batch) {rng : ρ}
    (hsides : estimator.KeepsSides c scene rng) :
    estimator.estimate scene' rng =
      Prod.map (Reconstruction.scaled c) id <$> estimator.estimate scene rng := by
  rcases scene.regular_or_firstSingular with hregular | ⟨stage, b, hsingular⟩
  · obtain ⟨r, hr, -⟩ := estimate_of_regular hs hbatch hregular rng
    obtain ⟨⟨records, rng'⟩, hsearch, h⟩ := bind_eq_ok.1 hr
    obtain ⟨pyramids, hpyramids, hrun⟩ := bind_eq_ok.1 hsearch
    have hstages : ∀ stage ∈ estimator.stages, stage.index < stageCount := by
      simp [hs.stages_eq, hs.index_coarse, hs.index_middle, hs.index_fine, stageCount]
    have hrun' := runStages_scaled hc hscene hstages (hsides _ _ _ hpyramids hsearch) hrun
    have hsearch' : estimator.search scene' rng =
        .ok (records.map (StageRecord.scaled c), rng') := by
      rw [Estimator.search, pyramids_rescaled hc estimator hscene, hpyramids]
      exact hrun'
    rw [Estimator.estimate, Estimator.estimate, hsearch, hsearch']
    rw [ok_bind, ok_bind]
    exact bind_map_congr (finish_scaled hc estimator hscene records) fun _ => rfl
  · -- neither a frame nor a unit gives a reference view an inverse that it lacks
    rw [estimate_of_singular hs hsingular,
      estimate_of_singular hs (firstSingular_rescaled hc hscene hsingular)]
    rfl

end Estimates

end MultiViewDepth
