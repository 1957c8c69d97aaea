import MultiViewDepth.Proofs.EvenScores
import MultiViewDepth.Proofs.HypothesisVolumes

/-!
Runs of an estimator whose weights and biases are all zero, so that it has learned nothing.

No hypothesis is ever preferred and no source view counts more than another one, so a run depends
on the sizes, the range and the generator alone. Two runs that share these are followed round by
round: they try the same depths, and what their images and cameras show makes no difference.
-/
namespace MultiViewDepth

open Tensor Twins RandomSource

def Round.Even (round : Round ℝ) : Prop :=
  ∃ batch count height width : Nat, round.hypotheses.shape = [batch, count, height, width] ∧
    round.verdict.score = constant [batch, count, height, width] (1 / (count : ℝ))

section Surveys

variable {batch b height width : Nat} {hb : b < batch} {stage : Stage ℝ ℝ}

theorem Constantly.apply {v : ℝ} {layer : Layer ℝ} {s s' : List Nat} {t : Tensor ℝ}
    (hv : Constantly v layer) (hl : Batchwise layer s s') (ht : (Twins.self hb).Alike s t t) :
    layer t = .ok (constant (batch :: s') v) := by
  obtain ⟨u, hu, halike⟩ := (hl _ _ _ ht).self
  rw [hu, (hv t u hu).eq_constant, halike.shape_left]
  rfl

/-- A constant head gives every neighbor the same feature weight. -/
theorem ofFeatures_constant {groups channels neighbors : Nat} {v : ℝ} {head : Layer ℝ}
    {features : Tensor ℝ} {grid : NeighborGrid ℝ} (hhead : Constantly v head)
    (hfeatures : (Twins.self hb).Alike [channels, height, width] features features)
    (hgrid : (Twins.self hb).GridAlike neighbors height width grid grid) (hheight : 0 < height)
    (hwidth : 0 < width) (hgroups : groups ≠ 0) (hmod : channels % groups = 0)
    (hl : ∀ s, Batchwise head (groups :: s) (1 :: s)) :
    NeighborWeight.ofFeatures head groups features grid =
      .ok (constant [batch, neighbors, height, width] v) := by
  obtain ⟨w, hw, halike⟩ :=
    (ofFeatures_alike hfeatures hgrid hheight hwidth hgroups hmod (hl _)).self
  have hbetween : w.Between v v := by
    have hrun := hw
    simp only [NeighborWeight.ofFeatures, hfeatures.sizes4.1, ok_bind, hgroups, hmod, if_true,
      if_false, bind_eq_ok] at hrun
    obtain ⟨_, -, _, -, _, -, _, -, _, -, similarity, -, rated, hrated, hsqueeze⟩ := hrun
    exact (hhead _ _ hrated).squeeze hsqueeze
  rw [hw, hbetween.eq_constant, halike.shape_left]
  rfl

/-- What a survey finds does not depend on the features surveyed. -/
theorem survey_determined (hs : stage.Sound) (hsilent : stage.Silent)
    {reference reference' : Tensor ℝ}
    (h : (Twins.self hb).Alike [stage.settings.features, height, width] reference reference)
    (h' : (Twins.self hb).Alike [stage.settings.features, height, width] reference' reference')
    (hheight : 0 < height) (hwidth : 0 < width) :
    stage.survey reference = stage.survey reference' := by
  have hgroups := hs.matcher.groups_ne_zero
  have hmod := hs.matcher.channels_mod
  rw [hs.groups_eq] at hgroups hmod
  have hlending : stage.lendingGrid reference = stage.lendingGrid reference' := by
    unfold Stage.lendingGrid
    cases hpredict : stage.lendingOffsets with
    | none => rfl
    | some predict =>
      have hl := hs.lendingOffsets predict hpredict height width hheight hwidth
      have hzero := hsilent.lendingOffsets predict hpredict
      simp only [hzero.apply hl h, hzero.apply hl h']
  have hsupport : stage.supportSurvey reference = stage.supportSurvey reference' := by
    have hl := hs.supportOffsets height width hheight hwidth
    have hzero : (Twins.self hb).Alike [2 * stage.settings.supporters, height, width]
        (constant [batch, 2 * stage.settings.supporters, height, width] 0)
        (constant [batch, 2 * stage.settings.supporters, height, width] 0) :=
      ⟨rfl, rfl, rfl, rfl, fun _ _ => rfl⟩
    obtain ⟨grid, hbuild, hgrid⟩ :=
      (build_alike hzero hs.length_support hs.supporters_pos).self
    simp only [Stage.supportSurvey, hsilent.supportOffsets.apply hl h,
      hsilent.supportOffsets.apply hl h', ok_bind, hbuild,
      ofFeatures_constant hsilent.featureHead h hgrid hheight hwidth hgroups hmod hs.featureHead,
      ofFeatures_constant hsilent.featureHead h' hgrid hheight hwidth hgroups hmod hs.featureHead]
  rw [Stage.survey_eq, Stage.survey_eq, hlending, hsupport]

end Surveys

section Rounds

variable {ρ : Type} [RandomSource ρ ℝ] {range : DepthRange ℝ} {stage : Stage ℝ ℝ}
  {views views' : ViewFeatures ℝ} {surroundings : Surroundings ℝ}
  {estimate carried carried' : Option (Tensor ℝ)} {rng : ρ} {batch height width : Nat}

/-- Silent heads score all hypotheses of a round alike. -/
theorem round_even [WorkerPool] {round : Round ℝ} {iteration count : Nat} {rng' : ρ}
    (hsilent : stage.Silent) (hhypotheses : round.hypotheses.shape = [batch, count, height, width])
    (hscore : round.verdict.score.shape = [batch, count, height, width]) {b h w : Nat}
    (hr : stage.round views range surroundings b h w iteration estimate carried rng =
      .ok (round, rng')) : round.Even := by
  obtain ⟨_, _, -, -, -, -, hevaluate⟩ := Stage.round_eq_ok hr
  obtain ⟨_, _, _, _, _, -, hverdict, -⟩ := Stage.evaluate_eq_ok hevaluate
  exact ⟨batch, count, height, width, hhypotheses,
    score_even hsilent.similarityHead hverdict hscore⟩

/-- All rounds of a stage without learned numbers are even. -/
theorem run_even [WorkerPool] {b n : Nat} {σ : Equiv.Perm (Fin n)} (hb : b < batch)
    (hs : stage.Sound) (hsilent : stage.Silent)
    (hviews : (Twins.self hb).ViewsAlike σ stage.settings.features height width views views)
    (hposes : (Twins.self hb).PosesAlike σ views views) (hn : 0 < n) (hheight : 0 < height)
    (hwidth : 0 < width)
    (hstart : (Twins.self hb).StartAlike σ stage height width estimate estimate carried carried rng
      rng) {r : List (Round ℝ) × ρ} (hr : stage.run views range estimate carried rng = .ok r) :
    ∀ round ∈ r.1, round.Even := by
  obtain ⟨halike, -⟩ :=
    (run_alike range hs hviews hposes hn hheight hwidth hstart).of_self hr
  obtain ⟨_, _, _, surroundings, -, -, hrounds⟩ := Stage.run_eq_ok hr
  intro round hmem
  obtain ⟨count, -, hhypotheses, hverdict⟩ := List.forall₂_same.1 halike round hmem
  obtain ⟨_, _, _, _, _, hround⟩ := Stage.exists_round_of_mem hrounds hmem
  exact round_even hsilent hhypotheses.shape_left hverdict.score.shape_left hround

/-- Even rounds with the same start and the same view weights find the same. -/
theorem round_determined [WorkerPool] {iteration : Nat} {r r' : Round ℝ × ρ}
    (hr : stage.round views range surroundings batch height width iteration estimate carried rng =
      .ok r)
    (hr' : stage.round views' range surroundings batch height width iteration estimate
      carried' rng = .ok r') (heven : r.1.Even) (heven' : r'.1.Even)
    (hweights : r.1.verdict.viewWeights = r'.1.verdict.viewWeights) : r = r' := by
  obtain ⟨_, _, htried, -, -, hreadout, hevaluate⟩ := Stage.round_eq_ok hr
  obtain ⟨_, _, htried', -, -, hreadout', hevaluate'⟩ := Stage.round_eq_ok hr'
  obtain ⟨_, _, _, _, _, -, -, hdepth⟩ := Stage.evaluate_eq_ok hevaluate
  obtain ⟨_, _, _, _, _, -, -, hdepth'⟩ := Stage.evaluate_eq_ok hevaluate'
  obtain ⟨hsame, hstate⟩ := Prod.mk.inj (Except.ok.inj (htried.symm.trans htried'))
  obtain ⟨b, count, h, w, hshape, hscore⟩ := heven
  obtain ⟨b', count', h', w', hshape', hscore'⟩ := heven'
  rw [hsame, hshape'] at hshape
  cases hshape
  rw [hscore, hsame, hreadout] at hdepth
  rw [hscore', hreadout'] at hdepth'
  have hfound : r.1.verdict.depth = r'.1.verdict.depth :=
    Except.ok.inj (hdepth.symm.trans hdepth')
  obtain ⟨⟨hypotheses, readout, depth, score, weights⟩, rng₁⟩ := r
  obtain ⟨⟨hypotheses', readout', depth', score', weights'⟩, rng₂⟩ := r'
  dsimp only at *
  rw [hsame, hstate, hreadout, hreadout', hfound, hscore, hscore', hweights]

/-- Even rounds with the same weights do not depend on the views. -/
theorem rounds_determined [WorkerPool] {weights : Tensor ℝ} {count iteration : Nat}
    {r r' : List (Round ℝ) × ρ}
    (hr : stage.rounds views range surroundings batch height width count iteration estimate carried
      rng = .ok r)
    (hr' : stage.rounds views' range surroundings batch height width count iteration estimate
      carried' rng = .ok r')
    (h : ∀ round ∈ r.1, round.Even ∧ round.verdict.viewWeights = weights)
    (h' : ∀ round ∈ r'.1, round.Even ∧ round.verdict.viewWeights = weights) : r = r' := by
  induction count generalizing iteration estimate carried carried' rng r r' with
  | zero =>
    cases hr
    cases hr'
    rfl
  | succ count ih =>
    obtain ⟨⟨first, rng₁⟩, hfirst, hr⟩ := bind_eq_ok.1 hr
    obtain ⟨⟨later, rng₂⟩, hlater, hr⟩ := bind_eq_ok.1 hr
    obtain ⟨⟨first', rng₁'⟩, hfirst', hr'⟩ := bind_eq_ok.1 hr'
    obtain ⟨⟨later', rng₂'⟩, hlater', hr'⟩ := bind_eq_ok.1 hr'
    cases hr
    cases hr'
    obtain ⟨⟨heven, hweights⟩, hrest⟩ := List.forall_mem_cons.1 h
    obtain ⟨⟨heven', hweights'⟩, hrest'⟩ := List.forall_mem_cons.1 h'
    cases round_determined hfirst hfirst' heven heven' (hweights.trans hweights'.symm)
    cases ih hlater hlater' hrest hrest'
    rfl

/-- A stage without learned numbers finds the same in all views of the same sizes. -/
theorem run_determined [WorkerPool] {b : Nat} (hb : b < batch) (hs : stage.Sound)
    (hsilent : stage.Silent)
    (hreference : (Twins.self hb).Alike [stage.settings.features, height, width] views.reference
      views.reference)
    (hreference' : (Twins.self hb).Alike [stage.settings.features, height, width] views'.reference
      views'.reference) (hheight : 0 < height) (hwidth : 0 < width) {weights : Tensor ℝ}
    {r r' : List (Round ℝ) × ρ} (hr : stage.run views range estimate carried rng = .ok r)
    (hr' : stage.run views' range estimate carried' rng = .ok r')
    (h : ∀ round ∈ r.1, round.Even ∧ round.verdict.viewWeights = weights)
    (h' : ∀ round ∈ r'.1, round.Even ∧ round.verdict.viewWeights = weights) : r = r' := by
  obtain ⟨_, _, _, surroundings, hshape, hsurvey, hrounds⟩ := Stage.run_eq_ok hr
  obtain ⟨_, _, _, surroundings', hshape', hsurvey', hrounds'⟩ := Stage.run_eq_ok hr'
  have hsame : surroundings = surroundings' := by
    rw [survey_determined hs hsilent hreference hreference' hheight hwidth, hsurvey'] at hsurvey
    exact (Except.ok.inj hsurvey).symm
  rw [hreference.shape_left] at hshape
  rw [hreference'.shape_left] at hshape'
  cases hshape
  cases hshape'
  subst hsame
  exact rounds_determined hrounds hrounds' h h'

end Rounds

section Stages

variable {ρ : Type} [RandomSource ρ ℝ] {scene scene' : Scene ℝ ℝ}
  {pyramids pyramids' : List (Pyramid ℝ)} {stages : List (Stage ℝ ℝ)}
  {estimate carried : Option (Tensor ℝ)} {rng : ρ} {n b height width : Nat}

/-- All stages of a silent run score their hypotheses alike. -/
theorem runStages_even [WorkerPool] {σ : Equiv.Perm (Fin n)} (hb : b < scene.batch) (hn : 0 < n)
    (hheight : 0 < height) (hwidth : 0 < width)
    (hstages : (Twins.self hb).StagesAlike σ scene scene pyramids pyramids stages height width)
    (hsilent : ∀ stage ∈ stages, stage.Silent)
    (hstart : ∀ stage ∈ stages.head?, (Twins.self hb).StartAlike σ stage height width estimate
      estimate carried carried rng rng) {r : List (StageRecord ℝ) × ρ}
    (hr : Estimator.runStages scene pyramids stages estimate carried rng = .ok r) :
    ∀ record ∈ r.1, ∀ round ∈ record.rounds, round.Even := by
  induction hstages generalizing estimate carried rng r with
  | nil =>
    cases hr
    simp
  | @cons stage later height width sound seen _ ih =>
    obtain ⟨hstage, hlater⟩ := List.forall_mem_cons.1 hsilent
    obtain ⟨views, rounds, rng', verdict, depth, weights, records, -, hviews, hposes, hrounds,
      -, -, hresume, hrecords, heq⟩ :=
      runStages_step hb hn hheight hwidth sound seen (hstart stage rfl) hr
    rw [heq]
    exact List.forall_mem_cons.2 ⟨run_even hb sound hstage hviews hposes hn hheight hwidth
      (hstart stage rfl) hrounds, ih (by omega) (by omega) hlater hresume hrecords⟩

/-- Stages without learned numbers find the same in all scenes of the same sizes and range. -/
theorem runStages_determined [WorkerPool] {n' : Nat} {σ : Equiv.Perm (Fin n)}
    {σ' : Equiv.Perm (Fin n')}
    (hrange : scene'.range = scene.range) {batch : Nat} (hb : b < batch) (hheight : 0 < height)
    (hwidth : 0 < width)
    (hstages : (Twins.self hb).StagesAlike σ scene scene pyramids pyramids stages height width)
    (hstages' : (Twins.self hb).StagesAlike σ' scene' scene' pyramids' pyramids'
      stages height width)
    (hsilent : ∀ stage ∈ stages, stage.Silent) {r r' : List (StageRecord ℝ) × ρ}
    (hr : Estimator.runStages scene pyramids stages estimate carried rng = .ok r)
    (hr' : Estimator.runStages scene' pyramids' stages estimate carried rng = .ok r')
    (heven : ∀ record ∈ r.1, ∀ round ∈ record.rounds, round.Even)
    (heven' : ∀ record ∈ r'.1, ∀ round ∈ record.rounds, round.Even)
    (hweights : List.Forall₂ (fun record record' => ∃ weights, record.Keeps weights ∧
      record'.Keeps weights) r.1 r'.1) : r = r' := by
  induction hstages generalizing estimate carried rng r r' with
  | nil =>
    cases hr
    cases hr'
    rfl
  | @cons stage later height width sound seen _ ih =>
    cases hstages' with
    | cons sound seen' hstages' =>
    obtain ⟨hstage, hlater⟩ := List.forall_mem_cons.1 hsilent
    obtain ⟨_, final⟩ := r
    obtain ⟨_, final'⟩ := r'
    obtain ⟨views, rounds, rng₁, verdict, depth, weights, records, hviews, hrun, hverdict, hnext,
      hrecords, rfl⟩ := Estimator.runStages_eq_ok hr
    obtain ⟨views', rounds', rng₁', verdict', depth', weights', records', hviews', hrun', hverdict',
      hnext', hrecords', rfl⟩ := Estimator.runStages_eq_ok hr'
    obtain ⟨hhere, hrest⟩ := List.forall_mem_cons.1 heven
    obtain ⟨hhere', hrest'⟩ := List.forall_mem_cons.1 heven'
    obtain ⟨⟨kept, hkeeps, hkeeps'⟩, hkept⟩ := List.forall₂_cons.1 hweights
    rw [hrange] at hrun'
    cases run_determined hb sound hstage (seen.of_self hviews).1.reference
      (seen'.of_self hviews').1.reference hheight hwidth hrun hrun'
      (fun round hmem => ⟨hhere round hmem, hkeeps.rounds round hmem⟩)
      (fun round hmem => ⟨hhere' round hmem, hkeeps'.rounds round hmem⟩)
    cases Except.ok.inj (hverdict.symm.trans hverdict')
    cases Except.ok.inj (hnext.symm.trans hnext')
    cases ih (by omega) (by omega) hstages' hlater hrecords hrecords' hrest hrest' hkept
    rfl

end Stages

section Refinement

variable {refiner : Refiner ℝ} {range : DepthRange ℝ} {image image' depth u u' : Tensor ℝ}

theorem refine_determined (hsilent : refiner.Silent) (hkind : depth.kind = .single)
    (hu : refiner.refine image depth range = .ok u)
    (hu' : refiner.refine image' depth range = .ok u') : u = u' := by
  obtain ⟨large, hlarge, hu⟩ := refine_silent hsilent hkind hu
  obtain ⟨large', hlarge', hu'⟩ := refine_silent hsilent hkind hu'
  obtain rfl : large = large' := Except.ok.inj (hlarge.symm.trans hlarge')
  exact Except.ok.inj (hu.symm.trans hu')

/-- Without a correction the image has no part in a reconstruction. -/
theorem finish_determined {estimator : Estimator ℝ ℝ} {scene scene' : Scene ℝ ℝ}
    {records : List (StageRecord ℝ)} {last : StageRecord ℝ} {found found' : Reconstruction ℝ}
    (hsilent : estimator.refiner.Silent) (hrange : scene'.range = scene.range)
    (hlast : records.getLast? = some last) (hkind : last.verdict.depth.kind = .single)
    (h : estimator.finish scene records = .ok found)
    (h' : estimator.finish scene' records = .ok found') : found = found' := by
  obtain ⟨_, _, hl, -, hdepth, hconfidence, hdepths, hweights⟩ := Estimator.finish_eq_ok h
  obtain ⟨_, _, hl', -, hdepth', hconfidence', hdepths', hweights'⟩ := Estimator.finish_eq_ok h'
  cases hlast.symm.trans hl
  cases hlast.symm.trans hl'
  rw [hrange] at hdepth'
  have hd := refine_determined hsilent hkind hdepth hdepth'
  have hc := Except.ok.inj (hconfidence.symm.trans hconfidence')
  obtain ⟨depth, confidence, depths, weights⟩ := found
  obtain ⟨depth', confidence', depths', weights'⟩ := found'
  dsimp only at *
  rw [hd, hc, hdepths, hdepths', hweights, hweights']

end Refinement

section Estimates

variable {ρ : Type} [RandomSource ρ ℝ] {settings : Settings ℝ} {source : ParameterSource ℝ}
  {estimator : Estimator ℝ ℝ} {scene : Scene ℝ ℝ} {rng rng' : ρ}

/-- The best of ratings that are all the same. -/
theorem weights_constant {views : ViewFeatures ℝ} {groups : Nat} {head : Layer ℝ} {v : ℝ}
    {depth weights : Tensor ℝ} {batch n count height width : Nat} (hhead : Constantly v head)
    (hshape : weights.shape = [batch, n, height, width]) (hkind : weights.kind = .single)
    (h : ∀ i < n, views.BestRated groups head depth weights batch count height width i) :
    weights = constant [batch, n, height, width] v := by
  rw [← hshape]
  refine Between.eq_constant ⟨hkind, fun index hw => ?_⟩
  rw [hshape] at hw
  obtain ⟨b, i, y, x, rfl, hb, hi, hy, hx⟩ := hw.exists_four
  obtain ⟨_, _, _, similarity, rated, -, -, -, -, hrated, hs, -, hbest⟩ := h i hi
  obtain ⟨k, hk, heq⟩ := (hbest b y x hb hy hx).1
  rw [heq]
  exact (hhead _ _ hrated).mem _ (hs ▸ ⟨hb, Nat.one_pos, hk, hy, hx, trivial⟩)

/-- Source views of an estimator without learned numbers all get half the weight. -/
theorem search_weights [WorkerPool] (hzero : source.Zero settings)
    (hbuild : Estimator.build settings source = .ok estimator) (hbatch : 0 < scene.batch)
    (hregular : ∀ stage < stageCount, scene.RegularAt stage) {records : List (StageRecord ℝ)}
    (h : estimator.search scene rng = .ok (records, rng')) :
    ∃ coarse middle fine, records = [coarse, middle, fine] ∧
      coarse.Keeps (constant [scene.batch, scene.views - 1, scene.height / 8, scene.width / 8]
        (1 / 2)) ∧
      middle.Keeps (constant [scene.batch, scene.views - 1, scene.height / 4, scene.width / 4]
        (1 / 2)) ∧
      fine.Keeps (constant [scene.batch, scene.views - 1, scene.height / 2, scene.width / 2]
        (1 / 2)) := by
  obtain ⟨_, views, answers, coarse, middle, fine, first, count, -, -, hanswers, rfl, -, hcarried,
    -, hshape, hkind, hrated⟩ := search_rates hbuild hbatch hregular h
  have hhead : Constantly (1 / 2) (settings.viewHead.assemble answers) := by
    obtain ⟨b, hb, -⟩ := bind_eq_ok.1 hbuild
    have hall := hzero.getWide_eq b hb
    obtain ⟨-, c, m, f, rfl⟩ := Estimator.blueprint_eq_ok hb
    exact sigmoidNetwork_constantly (zeroed_of_answeredBy hanswers fun request hrequest =>
      hall request (viewHead_requests c m f hrequest))
  rw [weights_constant hhead hshape hkind hrated] at hcarried
  obtain ⟨hh4, hw4, hh2, hw2⟩ := scene.sides_eq
  rw [hh4, hw4, hh2, hw2]
  obtain _ | ⟨hcoarse, hlarger, _ | ⟨hmiddle, hlargest, hfine | ⟨-, -, hnone⟩⟩⟩ := hcarried
  · rw [Sampling.double_constant] at hlarger
    cases hlarger
    rw [Sampling.double_constant] at hlargest
    cases hlargest
    exact ⟨coarse, middle, fine, rfl, hcoarse, hmiddle, hfine⟩
  · cases hnone

/-- No round of a search without learned numbers prefers a hypothesis. -/
theorem search_even [WorkerPool] (hzero : source.Zero settings)
    (hbuild : Estimator.build settings source = .ok estimator) (hbatch : 0 < scene.batch)
    (hregular : ∀ stage < stageCount, scene.RegularAt stage) {r : List (StageRecord ℝ) × ρ}
    (h : estimator.search scene rng = .ok r) :
    ∀ record ∈ r.1, ∀ round ∈ record.rounds, round.Even := by
  obtain ⟨coarse, middle, fine, hs⟩ := Estimator.sound_of_build hbuild
  obtain ⟨hsources, hheight, hwidth⟩ := scene.coarsest_pos
  obtain ⟨pyramids, -, hstages, hstart, hrun⟩ := search_eq_ok hs hbatch hregular h
  have hsilent := (Estimator.silent_of_zero hzero hbuild).stages
  rw [hs.stages_eq] at hsilent
  exact runStages_even hbatch hsources hheight hwidth hstages hsilent hstart hrun

/-- The last stage finds depths in single precision. -/
theorem search_kind [WorkerPool] (hbuild : Estimator.build settings source = .ok estimator)
    (hbatch : 0 < scene.batch) (hregular : ∀ stage < stageCount, scene.RegularAt stage)
    {r : List (StageRecord ℝ) × ρ} (h : estimator.search scene rng = .ok r)
    {last : StageRecord ℝ} (hlast : r.1.getLast? = some last) :
    last.verdict.depth.kind = .single := by
  obtain ⟨coarse, middle, fine, hs⟩ := Estimator.sound_of_build hbuild
  obtain ⟨hsources, hheight, hwidth⟩ := scene.coarsest_pos
  obtain ⟨pyramids, -, hstages, hstart, hrun⟩ := search_eq_ok hs hbatch hregular h
  obtain ⟨halike, hlength⟩ :=
    (Twins.runStages_alike rfl hsources hheight hwidth hstages hstart).of_self hrun
  obtain ⟨records, rng'⟩ := r
  obtain _ | ⟨-, -, _ | ⟨-, -, _ | ⟨-, hfine, _ | _⟩⟩⟩ := halike <;> simp at hlength
  cases hlast
  exact hfine.depth.kind_left

/-- The confidence of an estimator without learned numbers counts the middle hypotheses. -/
theorem confidence_of_zero [WorkerPool] (hzero : source.Zero settings)
    (hbuild : Estimator.build settings source = .ok estimator) (hbatch : 0 < scene.batch)
    (hregular : ∀ stage < stageCount, scene.RegularAt stage) {r : List (StageRecord ℝ) × ρ}
    (h : estimator.search scene rng = .ok r) {found : Reconstruction ℝ}
    (hfinish : estimator.finish scene r.1 = .ok found) :
    found.confidence = constant [scene.batch, scene.height, scene.width]
      (((middleNumbers settings.fine.samples).card : ℝ) / settings.fine.samples) := by
  obtain ⟨last, _, hlast, -, -, hconfidence, -, -⟩ := Estimator.finish_eq_ok hfinish
  obtain ⟨_, _, fine, heq, -, -, hplanned⟩ := search_planned hbuild h
  obtain rfl : fine = last := by
    rw [heq] at hlast
    exact Option.some.inj hlast
  obtain ⟨-, -, hvalid⟩ := Estimator.valid_of_build hbuild
  obtain ⟨round, hround, hverdict, hshape⟩ := hplanned.exists_last
  obtain ⟨_, _, _, _, heven, hscore⟩ := search_even hzero hbuild hbatch hregular h fine
    (List.mem_of_getLast? hlast) round (List.mem_of_getLast? hround)
  rw [hshape.hypotheses_shape, Bool.false_and,
    StageSettings.hypothesisCount_last hvalid.iterations_pos] at heven
  cases heven
  rw [← hverdict, hscore, confidence_even hvalid.samples_pos] at hconfidence
  obtain ⟨height, width, -, -, hh, hw⟩ := scene.exists_sides
  have hsides : 2 * (scene.height / 2) = scene.height ∧ 2 * (scene.width / 2) = scene.width := by
    omega
  rw [← Except.ok.inj hconfidence, hsides.1, hsides.2]

/-- Scenes of the same sizes and range, whatever their images and cameras show. -/
structure Scene.SizedAlike (scene scene' : Scene ℝ ℝ) : Prop where
  batch_eq : scene'.batch = scene.batch
  views_eq : scene'.views = scene.views
  height_eq : scene'.height = scene.height
  width_eq : scene'.width = scene.width
  range_eq : scene'.range = scene.range

theorem Twins.self_congr {batch batch' b : Nat} (h : batch' = batch) (hb : b < batch)
    (hb' : b < batch') : Twins.self hb' = Twins.self hb := by
  subst h
  rfl

/-- Scenes of the same sizes and range are searched alike without learned numbers. -/
theorem search_determined [WorkerPool] {scene' : Scene ℝ ℝ} (hzero : source.Zero settings)
    (hbuild : Estimator.build settings source = .ok estimator) (hsame : scene.SizedAlike scene')
    (hbatch : 0 < scene.batch) (hregular : ∀ stage < stageCount, scene.RegularAt stage)
    (hregular' : ∀ stage < stageCount, scene'.RegularAt stage) {r r' : List (StageRecord ℝ) × ρ}
    (h : estimator.search scene rng = .ok r) (h' : estimator.search scene' rng = .ok r') :
    r = r' := by
  obtain ⟨coarse, middle, fine, hs⟩ := Estimator.sound_of_build hbuild
  have hbatch' : 0 < scene'.batch := hsame.batch_eq ▸ hbatch
  obtain ⟨-, hheight, hwidth⟩ := scene.coarsest_pos
  obtain ⟨pyramids, -, hstages, -, hrun⟩ := search_eq_ok hs hbatch hregular h
  obtain ⟨pyramids', -, hstages', -, hrun'⟩ := search_eq_ok hs hbatch' hregular' h'
  rw [Twins.self_congr hsame.batch_eq hbatch hbatch', hsame.height_eq, hsame.width_eq] at hstages'
  have hsilent := (Estimator.silent_of_zero hzero hbuild).stages
  rw [hs.stages_eq] at hsilent
  have hweights : List.Forall₂ (fun record record' => ∃ weights, record.Keeps weights ∧
      record'.Keeps weights) r.1 r'.1 := by
    obtain ⟨coarse, middle, fine, hr, hc, hm, hf⟩ :=
      search_weights hzero hbuild hbatch hregular h
    obtain ⟨coarse', middle', fine', hr', hc', hm', hf'⟩ :=
      search_weights hzero hbuild hbatch' hregular' h'
    rw [hsame.batch_eq, hsame.views_eq, hsame.height_eq, hsame.width_eq] at hc' hm' hf'
    rw [hr, hr']
    exact .cons ⟨_, hc, hc'⟩ (.cons ⟨_, hm, hm'⟩ (.cons ⟨_, hf, hf'⟩ .nil))
  exact runStages_determined hsame.range_eq hbatch hheight hwidth hstages hstages' hsilent hrun
    hrun' (search_even hzero hbuild hbatch hregular h)
    (search_even hzero hbuild hbatch' hregular' h') hweights

/-- Nor do their reconstructions differ. -/
theorem estimate_determined [WorkerPool] {scene' : Scene ℝ ℝ} (hzero : source.Zero settings)
    (hbuild : Estimator.build settings source = .ok estimator) (hsame : scene.SizedAlike scene')
    (hbatch : 0 < scene.batch) (hregular : ∀ stage < stageCount, scene.RegularAt stage)
    (hregular' : ∀ stage < stageCount, scene'.RegularAt stage) {r r' : Reconstruction ℝ × ρ}
    (h : estimator.estimate scene rng = .ok r) (h' : estimator.estimate scene' rng = .ok r') :
    r = r' := by
  obtain ⟨⟨records, rng₁⟩, hsearch, h⟩ := bind_eq_ok.1 h
  obtain ⟨found, hfinish, h⟩ := bind_eq_ok.1 h
  obtain ⟨⟨records', rng₂⟩, hsearch', h'⟩ := bind_eq_ok.1 h'
  obtain ⟨found', hfinish', h'⟩ := bind_eq_ok.1 h'
  cases h
  cases h'
  cases search_determined hzero hbuild hsame hbatch hregular hregular' hsearch hsearch'
  obtain ⟨last, _, hlast, -⟩ := Estimator.finish_eq_ok hfinish
  have hkind := search_kind hbuild hbatch hregular hsearch hlast
  rw [finish_determined (Estimator.silent_of_zero hzero hbuild).refiner hsame.range_eq hlast hkind
    hfinish hfinish']

/-- Without learned numbers no round prefers a hypothesis and all source views get half the weight.
Depths stay in the range, the confidence counts the middle hypotheses of the last round, and nothing
depends on what the images and cameras show. -/
theorem estimate_zero [WorkerPool] (hvalid : settings.validate = .ok ())
    (hzero : source.Zero settings) :
    ∃ estimator : Estimator ℝ ℝ, Estimator.build settings source = .ok estimator ∧
      ∀ (scene : Scene ℝ ℝ) {ρ : Type} [RandomSource ρ ℝ] (rng : ρ), 0 < scene.batch →
        (∀ stage < stageCount, scene.RegularAt stage) →
        ∃ (r : Reconstruction ℝ × ρ) (coarse middle fine : StageRecord ℝ),
          estimator.estimate scene rng = .ok r ∧
          estimator.search scene rng = .ok ([coarse, middle, fine], r.2) ∧
          (∀ record ∈ [coarse, middle, fine], ∀ round ∈ record.rounds, round.Even) ∧
          coarse.Keeps (constant [scene.batch, scene.views - 1, scene.height / 8, scene.width / 8]
            (1 / 2)) ∧
          middle.Keeps (constant [scene.batch, scene.views - 1, scene.height / 4, scene.width / 4]
            (1 / 2)) ∧
          fine.Keeps r.1.viewWeights ∧
          r.1.viewWeights =
            constant [scene.batch, scene.views - 1, scene.height / 2, scene.width / 2] (1 / 2) ∧
          ((∀ n, draw n rng ∈ Set.Ico (0 : ℝ) 1) →
            (∀ t ∈ r.1.stageDepths, t.Between scene.range.near scene.range.far) ∧
              r.1.depth.Between scene.range.near scene.range.far) ∧
          r.1.confidence = constant [scene.batch, scene.height, scene.width]
            (((middleNumbers settings.fine.samples).card : ℝ) / settings.fine.samples) ∧
          ∀ scene', scene.SizedAlike scene' → (∀ stage < stageCount, scene'.RegularAt stage) →
            ∀ {ρ' : Type} [RandomSource ρ' ℝ] (rng' : ρ'),
              (∀ n, (draw n rng' : ℝ) = draw n rng) →
              ∃ state, estimator.estimate scene' rng' = .ok (r.1, state) := by
  obtain ⟨estimator, hbuild⟩ := Estimator.exists_build hvalid hzero.answers
  obtain ⟨_, _, _, hs⟩ := Estimator.sound_of_build hbuild
  refine ⟨estimator, hbuild, fun scene ρ _ rng hbatch hregular => ?_⟩
  obtain ⟨r, hr, -⟩ := estimate_of_regular hs hbatch hregular rng
  obtain ⟨⟨records, rng'⟩, hsearch, hrest⟩ := bind_eq_ok.1 hr
  obtain ⟨found, hfinish, hrest⟩ := bind_eq_ok.1 hrest
  cases hrest
  have heven := search_even hzero hbuild hbatch hregular hsearch
  have hconfidence := confidence_of_zero hzero hbuild hbatch hregular hsearch hfinish
  have hdepths (hdraws : ∀ n, draw n rng ∈ Set.Ico (0 : ℝ) 1) :
      (∀ t ∈ found.stageDepths, t.Between scene.range.near scene.range.far) ∧
        found.depth.Between scene.range.near scene.range.far := by
    obtain ⟨_, -, hrun⟩ := bind_eq_ok.1 hsearch
    have hstart : Admissible scene.range none rng := ⟨nofun, fun _ => hdraws⟩
    obtain ⟨-, hrecords, -⟩ := runStages_inRange hstart hrun
    obtain ⟨heq, hdepth⟩ := finish_between hrecords hfinish
    rw [heq, List.forall_mem_map]
    exact ⟨fun record hmem => (hrecords record hmem).depth,
      hdepth (Estimator.silent_of_zero hzero hbuild).refiner⟩
  obtain ⟨coarse, middle, fine, rfl, hcoarse, hmiddle, hfine⟩ :=
    search_weights hzero hbuild hbatch hregular hsearch
  obtain ⟨last, _, hlast, -, -, -, -, hweights⟩ := Estimator.finish_eq_ok hfinish
  obtain rfl : fine = last := by simpa using hlast
  have hfound := hweights.trans hfine.verdict
  refine ⟨(found, rng'), coarse, middle, fine, hr, hsearch, heven, hcoarse, hmiddle, ?_, hfound,
    hdepths, hconfidence, fun scene' hsame hregular' ρ' _ state hdraws => ?_⟩
  · rwa [hfound]
  · obtain ⟨r', hr', -⟩ := estimate_of_regular hs (hsame.batch_eq ▸ hbatch) hregular' rng
    rw [estimate_determined hzero hbuild hsame hbatch hregular hregular' hr hr']
    exact ⟨_, (estimate_sameDraws hbuild fun i _ => hdraws i).eq_ok hr'⟩

noncomputable def Scene.withImages (scene : Scene ℝ ℝ) (images : Tensor ℝ)
    (hshape : images.shape = scene.images.shape) (hkind : images.kind = .single) : Scene ℝ ℝ :=
  { scene with
    images
    shape_images := hshape.trans scene.shape_images
    kind_images := hkind }

variable {images : Tensor ℝ} {hshape : images.shape = scene.images.shape}
  {hkind : images.kind = .single}

theorem Scene.withImages_sizedAlike :
    scene.SizedAlike (scene.withImages images hshape hkind) :=
  ⟨rfl, rfl, rfl, rfl, rfl⟩

theorem Scene.withImages_regular {stage : Nat} (h : scene.RegularAt stage) :
    (scene.withImages images hshape hkind).RegularAt stage :=
  h

attribute [local instance] WorkerPool.inTurn

/-- The default settings with weights and biases that are all zero: four of eight hypotheses count,
and other images make no difference. -/
theorem estimate_zero_varied :
    ∃ (estimator : Estimator ℝ ℝ) (r : Reconstruction ℝ × Tape),
      Estimator.build Settings.default (variedSource.silenced ParameterRequest.Learned) =
          .ok estimator ∧
        estimator.estimate (Scene.varied 1 0 0 0) Tape.varied = .ok r ∧
        r.1.viewWeights = constant [1, 1, 8, 8] (1 / 2) ∧ r.1.depth.Between 1 2 ∧
        r.1.confidence = constant [1, 16, 16] (1 / 2) ∧
        ∃ state, estimator.estimate
          ((Scene.varied 1 0 0 0).withImages (constant [1, 2, 3, 16, 16] 1) rfl rfl) Tape.varied =
            .ok (r.1, state) := by
  have hzero : (variedSource.silenced ParameterRequest.Learned).Zero Settings.default :=
    ⟨ParameterSource.silenced_answers (variedSource_answers _) _,
      fun b _ request _ hlearned t ht index hw => ParameterSource.getWide_silenced hlearned ht hw⟩
  have hregular (stage : Nat) (hstage : stage < stageCount) :=
    Scene.varied_regular 1 0 0 0 hstage
  obtain ⟨estimator, hbuild, hall⟩ := estimate_zero Settings.validate_default hzero
  obtain ⟨r, coarse, middle, fine, hr, -, -, -, -, -, hweights, hdepths, hconfidence, hsame⟩ :=
    hall (Scene.varied 1 0 0 0) Tape.varied Nat.one_pos hregular
  have hfar : (Scene.varied 1 0 0 0).range.far = 2 := one_add_one_eq_two
  have hdepth := (hdepths Tape.draw_varied).2
  rw [hfar] at hdepth
  have hcard : (((middleNumbers (Settings.default : Settings ℝ).fine.samples).card : ℝ) /
      (Settings.default : Settings ℝ).fine.samples) = 1 / 2 := by
    have hsamples : (Settings.default : Settings ℝ).fine.samples = 8 := rfl
    have hnumbers : (middleNumbers 8).card = 4 := by decide
    rw [hsamples, hnumbers]
    norm_num
  rw [hcard] at hconfidence
  exact ⟨estimator, r, hbuild, hr, hweights, hdepth, hconfidence,
    hsame _ Scene.withImages_sizedAlike
      (fun stage hstage => Scene.withImages_regular (hregular stage hstage)) Tape.varied
      fun _ => rfl⟩

end Estimates

end MultiViewDepth
