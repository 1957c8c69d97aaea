import MultiViewDepth.Proofs.DoubledMaps
import MultiViewDepth.Proofs.HypothesisBounds
import MultiViewDepth.Proofs.ReadoutBounds
import MultiViewDepth.Proofs.Rounds
import MultiViewDepth.Proofs.Totality

/-!
No depth of a run leaves the range of its scene.

Learned parts may be any functions: they choose where neighbors lie and how likely hypotheses are,
and both only take means of depths in the range. The one exception is the correction of the
refinement, which stays in the range when its last kernels are zero.
-/
namespace MultiViewDepth

open Tensor Arithmetic RandomSource

section Stages

variable {ρ : Type} [RandomSource ρ ℝ] {range : DepthRange ℝ} {stage : Stage ℝ ℝ}
  {views : ViewFeatures ℝ} {surroundings : Surroundings ℝ} {estimate carried : Option (Tensor ℝ)}
  {rng : ρ}

structure Round.InRange (round : Round ℝ) (range : DepthRange ℝ) : Prop where
  hypotheses : round.hypotheses.Between range.near range.far
  depth : round.verdict.depth.Between range.near range.far

/-- What a round starts from: depths in the range, or random numbers between 0 and 1. -/
structure Admissible (range : DepthRange ℝ) (estimate : Option (Tensor ℝ)) (rng : ρ) : Prop where
  estimate_between : ∀ t ∈ estimate, t.Between range.near range.far
  draws : estimate = none → ∀ n, draw n rng ∈ Set.Ico (0 : ℝ) 1

theorem admissible_some {t : Tensor ℝ} (h : t.Between range.near range.far) (rng : ρ) :
    Admissible range (some t) rng where
  estimate_between u hu := by
    cases hu
    exact h
  draws := nofun

/-- The depth of a verdict is between the hypotheses that it weighs. -/
theorem evaluate_between [WorkerPool] {matcher : Matcher ℝ} {depth weight : Tensor ℝ}
    {grid : NeighborGrid ℝ}
    {readout : Readout} {verdict : Verdict ℝ} (h : depth.Between range.near range.far)
    (hv : matcher.evaluate views depth grid weight carried readout = .ok verdict) :
    verdict.depth.Between range.near range.far := by
  obtain ⟨_, _, _, _, _, hshape, hscore, hdepth⟩ := Stage.evaluate_eq_ok hv
  exact readout_between h hshape hscore hdepth

/-- Every hypothesis of a round is in the range, if the estimate that it starts from is. -/
theorem hypotheses_between {batch height width iteration : Nat} {r : Tensor ℝ × ρ}
    (h : Admissible range estimate rng)
    (hr : stage.hypotheses range surroundings batch height width iteration estimate rng = .ok r) :
    r.1.Between range.near range.far := by
  obtain ⟨⟨own, rng'⟩, hown, hr⟩ := bind_eq_ok.1 hr
  have hbetween := Sampler.hypotheses_between h.estimate_between h.draws hown
  dsimp only at hr hbetween
  split at hr
  · obtain ⟨lent, hlent, hr⟩ := bind_eq_ok.1 hr
    cases hr
    exact lend_between hbetween hlent
  · cases hr
    exact hbetween

/-- One round keeps all depths in the range. -/
theorem round_inRange [WorkerPool] {batch height width iteration : Nat} {r : Round ℝ × ρ}
    (h : Admissible range estimate rng)
    (hr : stage.round views range surroundings batch height width iteration estimate carried rng =
      .ok r) : r.1.InRange range := by
  obtain ⟨_, _, htried, -, -, -, hverdict⟩ := Stage.round_eq_ok hr
  have hbetween := hypotheses_between h htried
  exact ⟨hbetween, evaluate_between hbetween hverdict⟩

/-- Rounds stay in range, by induction on those that are left. -/
theorem rounds_inRange [WorkerPool] {batch height width count iteration : Nat}
    {r : List (Round ℝ) × ρ} (h : Admissible range estimate rng)
    (hr : stage.rounds views range surroundings batch height width count iteration estimate carried
      rng = .ok r) : ∀ round ∈ r.1, round.InRange range := by
  induction count generalizing iteration estimate carried rng r with
  | zero =>
    cases hr
    simp
  | succ count ih =>
    obtain ⟨⟨round, rng'⟩, hround, hr⟩ := bind_eq_ok.1 hr
    obtain ⟨⟨later, rng''⟩, hlater, hr⟩ := bind_eq_ok.1 hr
    cases hr
    have hfirst := round_inRange h hround
    exact List.forall_mem_cons.2 ⟨hfirst, ih (admissible_some hfirst.depth rng') hlater⟩

theorem run_inRange [WorkerPool] {r : List (Round ℝ) × ρ} (h : Admissible range estimate rng)
    (hr : stage.run views range estimate carried rng = .ok r) :
    ∀ round ∈ r.1, round.InRange range := by
  obtain ⟨_, _, _, _, -, -, hrounds⟩ := Stage.run_eq_ok hr
  exact rounds_inRange h hrounds

theorem verdict_inRange {rounds : List (Round ℝ)} {verdict : Verdict ℝ}
    (h : ∀ round ∈ rounds, round.InRange range) (hv : stage.verdict rounds = .ok verdict) :
    verdict.depth.Between range.near range.far := by
  obtain ⟨last, hlast, rfl⟩ := Stage.verdict_eq_ok.1 hv
  exact (h last (List.mem_of_getLast? hlast)).depth

end Stages

section Search

variable {ρ : Type} [RandomSource ρ ℝ] {scene : Scene ℝ ℝ} {pyramids : List (Pyramid ℝ)}
  {stages : List (Stage ℝ ℝ)} {estimate carried : Option (Tensor ℝ)} {rng : ρ}

structure StageRecord.InRange (record : StageRecord ℝ) (range : DepthRange ℝ) : Prop where
  rounds : ∀ round ∈ record.rounds, round.InRange range
  depth : record.verdict.depth.Between range.near range.far

def StageRecord.HandsOn (record : StageRecord ℝ) (range : DepthRange ℝ) : Prop :=
  ∃ t, Sampling.double record.verdict.depth = .ok t ∧ t.Between range.near range.far

theorem runStages_inRange [WorkerPool] {r : List (StageRecord ℝ) × ρ}
    (h : Admissible scene.range estimate rng)
    (hr : Estimator.runStages scene pyramids stages estimate carried rng = .ok r) :
    r.1.length = stages.length ∧ (∀ record ∈ r.1, record.InRange scene.range) ∧
      ∀ record ∈ r.1.dropLast, record.HandsOn scene.range := by
  induction stages generalizing estimate carried rng r with
  | nil =>
    cases hr
    simp
  | cons stage later ih =>
    obtain ⟨_, last⟩ := r
    obtain ⟨_, rounds, rng', verdict, t, _, records, -, hrun, hverdict, hnext, hrecords, rfl⟩ :=
      Estimator.runStages_eq_ok hr
    have hall := run_inRange h hrun
    have hrecord : StageRecord.InRange ⟨rounds, verdict⟩ scene.range :=
      ⟨hall, verdict_inRange hall hverdict⟩
    cases later with
    | nil =>
      cases hrecords
      exact ⟨rfl, by simpa using hrecord, by simp⟩
    | cons following later =>
      obtain ⟨ht, -⟩ := Estimator.handOver_cons.1 hnext
      have hbetween := Sampling.double_between hrecord.depth ht
      obtain ⟨hlength, hrecords, hhanded⟩ := ih (admissible_some hbetween rng') hrecords
      dsimp only at hlength hrecords hhanded
      have hne : records ≠ [] := List.ne_nil_of_length_pos (by rw [hlength]; simp)
      refine ⟨by simp [hlength], List.forall_mem_cons.2 ⟨hrecord, hrecords⟩, ?_⟩
      rw [List.dropLast_cons_of_ne_nil hne]
      exact List.forall_mem_cons.2 ⟨⟨t, ht, hbetween⟩, hhanded⟩

end Search

section Refinement

variable {refiner : Refiner ℝ} {range : DepthRange ℝ}

/-- A refinement whose last kernels are zero, whatever comes before them. -/
def Refiner.Silent (refiner : Refiner ℝ) : Prop :=
  ∃ (first : Layer ℝ) (kernels : Tensor ℝ), kernels.Between 0 0 ∧
    refiner.correction = fun both => do Convolution.apply ⟨1, 1, 1⟩ kernels (← first both)

theorem convolution_zero {stride : Stride} {kernels t u : Tensor ℝ} (h : kernels.Between 0 0)
    (hu : Convolution.apply stride kernels t = .ok u) : u.Between 0 0 := by
  simp only [Convolution.apply, bind_eq_ok, throw_eq_error, error_bind, ite_error_eq_ok] at hu
  obtain ⟨⟨batch, channels, height, width⟩, -, ⟨outputs, inputs, rows, columns⟩, hsizes, hinputs,
    _, -, hu⟩ := hu
  dsimp only at hinputs hu
  split at hu
  next p q hp hq =>
    cases hu
    refine between_ofFn fun index hw => ?_
    obtain ⟨b, o, y, x, rfl, hb, ho, hy, hx⟩ := hw.exists_four
    have hzero (c i j : Nat) (hc : c < channels) (hi : i < rows) (hj : j < columns) :
        kernels.get4 o c i j = 0 := by
      have hshape := sizes4_eq_ok.1 hsizes
      obtain ⟨hle, hge⟩ := h.mem [o, c, i, j] (hshape ▸ within_four ho (hinputs ▸ hc) hi hj)
      rw [get4_eq hshape]
      exact le_antisymm hge hle
    rw [Set.Icc_self, Set.mem_singleton_iff]
    simp only [sumTo_real]
    refine Finset.sum_eq_zero fun c hc => Finset.sum_eq_zero fun i hi =>
      Finset.sum_eq_zero fun j hj => ?_
    rw [hzero c i j (Finset.mem_range.1 hc) (Finset.mem_range.1 hi) (Finset.mem_range.1 hj),
      mul_zero]
  next => cases hu

theorem Refiner.Silent.correction_between (h : refiner.Silent) {both fix : Tensor ℝ}
    (hfix : refiner.correction both = .ok fix) : fix.Between 0 0 := by
  obtain ⟨first, kernels, hkernels, hcorrection⟩ := h
  rw [hcorrection] at hfix
  obtain ⟨t, -, hfix⟩ := bind_eq_ok.1 hfix
  exact convolution_zero hkernels hfix

theorem span_pos (range : DepthRange ℝ) : 0 < range.span := sub_pos.2 range.near_lt_far

/-- What is added to a normalized depth is added to the depth in units of the range. -/
theorem denormalize_add (range : DepthRange ℝ) (x fix : ℝ) :
    affine range.span range.near (affine (1 / range.span) (-range.near / range.span) x + fix) =
      x + range.span * fix := by
  have hspan := (span_pos range).ne'
  simp only [affine_real]
  field_simp
  ring

/-- A refinement that succeeds enlarges the depth and adds its correction in units of the range. -/
theorem refine_parts {image depth u : Tensor ℝ} (hkind : depth.kind = .single)
    (hu : refiner.refine image depth range = .ok u) :
    ∃ large fix total : Tensor ℝ, Sampling.double depth = .ok large ∧
      refiner.residual image (Refiner.normalized range depth) = .ok fix ∧
      fix.shape = large.shape ∧ total.IsSingle large.shape ∧ total.squeeze 1 = .ok u ∧
      ∀ index, Within index large.shape → fix.kind = .single ∧
        total.get index = large.get index + range.span * fix.get index := by
  simp only [Refiner.refine, bind_eq_ok, throw_eq_error, error_bind, ite_error_eq_ok] at hu
  obtain ⟨_, -, ⟨batch, channels, height, width⟩, hsizes, -, fix, hfix, share, hshare, total,
    htotal, hu⟩ := hu
  have hdepth : depth.IsSingle [batch, channels, height, width] := ⟨sizes4_eq_ok.1 hsizes, hkind⟩
  obtain ⟨large, hlarge, hsingle, -⟩ := Sampling.double_stretched hdepth
  obtain rfl : share = large.affine (Precision.narrow (1 / range.span))
      (Precision.narrow (-range.near / range.span)) :=
    Except.ok.inj (hshare.symm.trans (Sampling.double_affine hdepth hlarge _ _))
  obtain ⟨hs, hfs, hk, hget⟩ := zipSame_eq_ok (hsingle.map _).kind_eq htotal
  refine ⟨large, fix, total.affine (Precision.narrow range.span) (Precision.narrow range.near),
    hlarge, hfix, hfs, ⟨hs, (kind_map _ total).trans hk⟩, hu, fun index hw => ?_⟩
  obtain ⟨hfixKind, hsum⟩ := hget index hw
  refine ⟨hfixKind, ?_⟩
  rw [Tensor.affine, get_map hk (hs ▸ hw), hsum, get_map hsingle.kind_eq hw]
  exact denormalize_add range _ _

/-- A correction of zero leaves the enlarged depth. -/
theorem refine_silent {image depth u : Tensor ℝ} (hsilent : refiner.Silent)
    (hkind : depth.kind = .single) (hu : refiner.refine image depth range = .ok u) :
    ∃ large, Sampling.double depth = .ok large ∧ large.squeeze 1 = .ok u := by
  obtain ⟨large, fix, total, hlarge, hfix, -, hsingle, hu, hget⟩ := refine_parts hkind hu
  simp only [Refiner.residual, bind_eq_ok] at hfix
  obtain ⟨_, -, _, -, both, -, hfix⟩ := hfix
  have hk : large.kind = .single :=
    (Sampling.double_mem convex_univ hkind (fun _ _ => trivial) hlarge).1
  obtain rfl : total = large := by
    refine ext_get hsingle.kind_eq hk hsingle.shape_eq fun index hw => ?_
    rw [(hget index (hsingle.shape_eq ▸ hw)).2, (hsilent.correction_between hfix).get_zero,
      mul_zero, add_zero]
  exact ⟨total, hlarge, hu⟩

/-- A refinement that corrects nothing stays in the range. -/
theorem refine_between {image depth u : Tensor ℝ} (h : depth.Between range.near range.far)
    (hsilent : refiner.Silent) (hu : refiner.refine image depth range = .ok u) :
    u.Between range.near range.far := by
  obtain ⟨large, hlarge, hu⟩ := refine_silent hsilent h.kind_single hu
  exact (Sampling.double_between h hlarge).squeeze hu

end Refinement

section Parameters

/-- Converting an array to single precision keeps what its entries stand for. -/
theorem get_toSingle {t : Tensor ℝ} {index : List Nat} (hw : Within index t.shape) :
    t.toSingle.get index = (t.getWide index : ℝ) := by
  unfold toSingle
  split
  next hkind => exact (getWide_of_single hkind index).symm
  next => exact get_ofFn hw _

def Refiner.lastKernels : ParameterRequest := ⟨"refinement.residual.1.weight", [1, 8, 3, 3]⟩

theorem Refiner.lastKernels_mem :
    Refiner.lastKernels ∈ (Refiner.blueprint "refinement" : Blueprint ℝ _).requests := by
  have hbranch : Refiner.lastKernels ∈
      (Refiner.correctionBranch "refinement.residual" : Blueprint ℝ _).requests :=
    List.mem_append_left _ (List.mem_singleton.2 rfl)
  exact List.mem_append_right _ hbranch

theorem lastKernels_mem {settings : Settings ℝ} (coarse : settings.coarse.Patterns)
    (middle : settings.middle.Patterns) (fine : settings.fine.Patterns) :
    Refiner.lastKernels ∈ (Estimator.parts coarse middle fine : Blueprint ℝ _).requests :=
  List.mem_append_right _ Refiner.lastKernels_mem

/-- A refinement whose last kernels are answered with zeros. -/
theorem refiner_silent {source : ParameterSource ℝ} {requests : List ParameterRequest}
    {answers : String → Tensor ℝ} (hanswers : AnsweredBy source requests answers)
    (hmem : Refiner.lastKernels ∈ requests)
    (hzero : ∀ t, source Refiner.lastKernels = some t →
      ∀ index, Within index t.shape → (t.getWide index : ℝ) = 0) :
    ((Refiner.blueprint "refinement" : Blueprint ℝ _).assemble answers).Silent := by
  obtain ⟨t, ht, -, heq⟩ := hanswers _ hmem
  refine ⟨_, answers Refiner.lastKernels.name, ⟨?_, fun index hw => ?_⟩, rfl⟩
  · rw [heq]
    exact kind_toSingle t
  · rw [heq, shape_toSingle] at hw
    rw [heq, get_toSingle hw, hzero t ht index hw]
    exact ⟨le_rfl, le_rfl⟩

theorem silent_of_build {settings : Settings ℝ} {source : ParameterSource ℝ}
    {estimator : Estimator ℝ ℝ} (h : Estimator.build settings source = .ok estimator)
    (hzero : ∀ t, source Refiner.lastKernels = some t →
      ∀ index, Within index t.shape → (t.getWide index : ℝ) = 0) :
    estimator.refiner.Silent := by
  obtain ⟨b, hb, hbuild⟩ := bind_eq_ok.1 h
  obtain ⟨answers, hanswers, rfl⟩ := Blueprint.exists_answers (Estimator.names_nodup hb) hbuild
  obtain ⟨-, coarse, middle, fine, rfl⟩ := Estimator.blueprint_eq_ok hb
  exact refiner_silent hanswers (lastKernels_mem coarse middle fine) hzero

end Parameters

section Estimates

variable {ρ : Type} [RandomSource ρ ℝ] {estimator : Estimator ℝ ℝ} {scene : Scene ℝ ℝ} {rng : ρ}

theorem finish_between {records : List (StageRecord ℝ)} {r : Reconstruction ℝ}
    (h : ∀ record ∈ records, record.InRange scene.range)
    (hr : estimator.finish scene records = .ok r) :
    r.stageDepths = records.map (·.verdict.depth) ∧
      (estimator.refiner.Silent → r.depth.Between scene.range.near scene.range.far) := by
  obtain ⟨last, _, hlast, -, hdepth, -, hdepths, -⟩ := Estimator.finish_eq_ok hr
  exact ⟨hdepths, fun hsilent =>
    refine_between (h last (List.mem_of_getLast? hlast)).depth hsilent hdepth⟩

/-- Whatever the settings and the learned parts are: a run with random numbers between 0 and 1
tries, finds and hands on depths in the range only. The refined depth is in the range when the last
kernels of the refinement are zero. -/
theorem estimate_between [WorkerPool] (hdraws : ∀ n, draw n rng ∈ Set.Ico (0 : ℝ) 1)
    {r : Reconstruction ℝ × ρ} (h : estimator.estimate scene rng = .ok r) :
    (∃ records, estimator.search scene rng = .ok (records, r.2) ∧
      estimator.finish scene records = .ok r.1 ∧
      (∀ record ∈ records, record.InRange scene.range) ∧
      ∀ record ∈ records.dropLast, record.HandsOn scene.range) ∧
    (∀ t ∈ r.1.stageDepths, t.Between scene.range.near scene.range.far) ∧
    (estimator.refiner.Silent → r.1.depth.Between scene.range.near scene.range.far) ∧
    ∀ (settings : Settings ℝ) (source : ParameterSource ℝ),
      Estimator.build settings source = .ok estimator →
      (∀ t, source Refiner.lastKernels = some t →
        ∀ index, Within index t.shape → (t.getWide index : ℝ) = 0) →
      r.1.depth.Between scene.range.near scene.range.far := by
  obtain ⟨⟨records, rng'⟩, hsearch, hr⟩ := bind_eq_ok.1 h
  obtain ⟨found, hfinish, hr⟩ := bind_eq_ok.1 hr
  cases hr
  obtain ⟨pyramids, -, hrun⟩ := bind_eq_ok.1 hsearch
  have hstart : Admissible scene.range none rng := ⟨nofun, fun _ => hdraws⟩
  obtain ⟨-, hrecords, hhanded⟩ := runStages_inRange hstart hrun
  obtain ⟨hdepths, hdepth⟩ := finish_between hrecords hfinish
  refine ⟨⟨records, hsearch, hfinish, hrecords, hhanded⟩, fun t ht => ?_, hdepth,
    fun settings source hbuild hzero => hdepth (silent_of_build hbuild hzero)⟩
  rw [hdepths] at ht
  obtain ⟨record, hrecord, rfl⟩ := List.mem_map.1 ht
  exact (hrecords record hrecord).depth

attribute [local instance] WorkerPool.inTurn

/-- No number of the last kernels of the refinement counts here, but all others do. -/
theorem estimate_between_varied :
    ∃ (estimator : Estimator ℝ ℝ) (r : Reconstruction ℝ × Tape),
      (∀ n, draw n Tape.varied ∈ Set.Ico (0 : ℝ) 1) ∧
        Estimator.build .default (variedSource.silenced (· = Refiner.lastKernels)) = .ok estimator ∧
        estimator.estimate (Scene.varied 1 0 0 0) Tape.varied = .ok r ∧
        (∀ t ∈ r.1.stageDepths, t.Between 1 2) ∧ r.1.depth.Between 1 2 := by
  obtain ⟨estimator, r, hbuild, hr⟩ :=
    estimate_varied Settings.validate_default
      (ParameterSource.silenced_answers (variedSource_answers _) (· = Refiner.lastKernels))
      Nat.one_pos 0 0 0 Tape.varied
  obtain ⟨-, hdepths, -, hdepth⟩ := estimate_between Tape.draw_varied hr
  have hfar : (Scene.varied 1 0 0 0).range.far = 2 := one_add_one_eq_two
  rw [hfar] at hdepths hdepth
  exact ⟨estimator, r, Tape.draw_varied, hbuild, hr, hdepths,
    hdepth _ _ hbuild fun t ht index hindex => ParameterSource.getWide_silenced rfl ht hindex⟩

end Estimates

end MultiViewDepth
