import MultiViewDepth.Proofs.HypothesisOrder
import MultiViewDepth.Proofs.PlannedRounds
import MultiViewDepth.Proofs.Totality

/-!
The volumes of hypotheses that a run tries.

How many hypotheses there are and how depth is read out of them is settled by the settings alone.
Their order is a matter of exact arithmetic: where a step of a ladder overflows, the middle rung,
which is zero steps from the estimate, is no number.
-/
namespace MultiViewDepth

open Tensor RandomSource

section Ordering

variable {ρ : Type} [RandomSource ρ ℝ] {range : DepthRange ℝ} {stage : Stage ℝ ℝ}
  {views : ViewFeatures ℝ} {surroundings : Surroundings ℝ} {estimate carried : Option (Tensor ℝ)}
  {rng : ρ} {batch height width iteration : Nat}

/-- Depth grows along the hypotheses where neighbors lend, and falls where they do not. -/
structure Round.Ordered (round : Round ℝ) (settings : StageSettings ℝ) (final : Bool)
    (iteration : Nat) : Prop where
  ascends : settings.lendsIn iteration final = true → round.hypotheses.Ascends
  descends : settings.lendsIn iteration final = false → round.hypotheses.Descends

def StageRecord.Ordered (record : StageRecord ℝ) (settings : StageSettings ℝ) (final : Bool) :
    Prop :=
  ∀ (k : Nat) (round : Round ℝ), record.rounds[k]? = some round → round.Ordered settings final k

/-- Hypotheses of the stage itself descend, whether they are scattered or a ladder. -/
theorem own_descends {sampler : Sampler ℝ} {r : Tensor ℝ × ρ} (hinterval : 0 ≤ sampler.interval)
    (hestimate : ∀ t ∈ estimate, t.shape = [batch, 1, height, width])
    (hdraws : estimate = none → ∀ n, draw n rng ∈ Set.Ico (0 : ℝ) 1)
    (hr : sampler.hypotheses estimate range batch height width rng = .ok r) : r.1.Descends := by
  cases estimate with
  | none =>
    cases hr
    exact scatter_descends batch height width (hdraws rfl)
  | some t =>
    simp only [Sampler.hypotheses] at hr
    by_cases hone : sampler.count = 1
    · rw [if_pos hone] at hr
      cases hr
      exact descends_single (hestimate t rfl)
    · rw [if_neg hone] at hr
      obtain ⟨u, hu, hr⟩ := bind_eq_ok.1 hr
      cases hr
      exact ladder_descends hinterval hu

theorem round_ordered [WorkerPool] {r : Round ℝ × ρ} (hs : stage.Equipped)
    (hsurroundings : surroundings.Equip stage batch height width)
    (hiteration : iteration < stage.settings.iterations)
    (hestimate : ∀ t ∈ estimate, t.shape = [batch, 1, height, width])
    (hdraws : estimate = none → ∀ n, draw n rng ∈ Set.Ico (0 : ℝ) 1)
    (hr : stage.round views range surroundings batch height width iteration estimate carried rng =
      .ok r) : r.1.Ordered stage.settings stage.final iteration := by
  obtain ⟨_, _, htried, -⟩ := Stage.round_eq_ok hr
  obtain ⟨⟨own, rng'⟩, hown, htried⟩ := bind_eq_ok.1 htried
  have hinterval : 0 ≤ stage.sampler.interval := by
    rw [hs.sampler_eq]
    exact hs.interval_pos.le
  dsimp only at htried
  cases hlends : stage.settings.lendsIn iteration stage.final with
  | false =>
    rw [hlends] at htried
    obtain rfl : own = r.1.hypotheses := congrArg Prod.fst (Except.ok.inj htried)
    exact ⟨fun h => absurd (hlends.symm.trans h) Bool.false_ne_true,
      fun _ => own_descends hinterval hestimate hdraws hown⟩
  | true =>
    have hneeded := hsurroundings.isSome (StageSettings.lends_of_lendsIn hiteration hlends)
    obtain ⟨grid, hgrid⟩ := Option.isSome_iff_exists.1 hneeded
    rw [hlends, hgrid] at htried
    obtain ⟨all, hall, htried⟩ := bind_eq_ok.1 htried
    obtain rfl : all = r.1.hypotheses := congrArg Prod.fst (Except.ok.inj htried)
    exact ⟨fun _ => lend_ascends (Sampler.shape_of_hypotheses hestimate hown) hall,
      fun h => absurd (hlends.symm.trans h).symm Bool.false_ne_true⟩

/-- Only a stage that starts without an estimate draws, and it starts with the first generator. -/
theorem StageRecord.Arises.ordered [WorkerPool] {record : StageRecord ℝ}
    {settings : StageSettings ℝ} {final : Bool} {k : Nat}
    (h : record.Arises settings final range estimate rng k batch height width)
    (hbatch : 0 < batch) (hdraws : ∀ n, draw n rng ∈ Set.Ico (0 : ℝ) 1) :
    record.Ordered settings final := by
  obtain ⟨stage, views, channels, estimate', carried', rng₁, rng₂, hs, rfl, rfl, hreference,
    hresumed, hrun, -⟩ := h
  obtain ⟨-, surroundings, -, hequip, hrounds⟩ :=
    run_rounds hs hbatch hreference hresumed.shape hrun
  intro i round hi
  obtain ⟨hiteration, estimate'', carried'', rng₃, _, hresumed', hround⟩ := hrounds i round hi
  refine round_ordered hs hequip hiteration hresumed'.shape (fun hnone => ?_) hround
  -- no estimate in a round means that there has been none in its stage
  have hnone' : estimate' = none := by
    have hisNone := hresumed'.isNone_eq
    rw [hnone, Option.isNone_none] at hisNone
    exact Option.isNone_iff_eq_none.1 (Bool.and_eq_true_iff.1 hisNone.symm).1
  rwa [hresumed'.rng_eq hnone, hresumed.rng_eq hnone']

end Ordering

section Estimates

/-- Every round of a run tries as many hypotheses as the settings say. One round alone, the last of
all, places the mean hypothesis number between inverse depths; no neighbors lend in it, and the
confidence comes from its probabilities, one per hypothesis. In exact arithmetic the hypotheses of
a pixel come in ascending order where neighbors lend theirs, and in descending order elsewhere. -/
theorem estimate_volumes {α δ ρ : Type} [Scalar α] [Scalar δ] [Precision α δ] [RandomSource ρ α]
    [WorkerPool] {settings : Settings δ} {source : ParameterSource α} {estimator : Estimator α δ}
    {scene : Scene α δ} {rng : ρ} {r : Reconstruction α × ρ}
    (hbuild : Estimator.build settings source = .ok estimator)
    (h : estimator.estimate scene rng = .ok r) :
    (∃ coarse middle fine last,
      estimator.search scene rng = .ok ([coarse, middle, fine], r.2) ∧
      estimator.finish scene [coarse, middle, fine] = .ok r.1 ∧
      coarse.Planned settings.coarse true false scene.batch (scene.height / 8) (scene.width / 8) ∧
      middle.Planned settings.middle false false scene.batch (scene.height / 4)
        (scene.width / 4) ∧
      fine.Planned settings.fine false true scene.batch (scene.height / 2) (scene.width / 2) ∧
      (∀ round ∈ coarse.rounds ++ middle.rounds ++ fine.rounds.dropLast,
        round.readout = .expectation) ∧
      fine.rounds.getLast? = some last ∧ last.readout = .inverseDepth ∧
      settings.fine.lendsIn (settings.fine.iterations - 1) true = false ∧
      last.hypotheses.size 1 = settings.lastHypotheses ∧
      last.verdict.score.size 1 = settings.lastHypotheses ∧
      confidence last.verdict.score = .ok r.1.confidence) ∧
    ∀ (σ : Type) [RandomSource σ ℝ] (settings : Settings ℝ) (source : ParameterSource ℝ)
        (estimator : Estimator ℝ ℝ) (scene : Scene ℝ ℝ) (rng rng' : σ)
        (coarse middle fine : StageRecord ℝ),
      Estimator.build settings source = .ok estimator →
      (∀ n, draw n rng ∈ Set.Ico (0 : ℝ) 1) →
      estimator.search scene rng = .ok ([coarse, middle, fine], rng') →
        coarse.Ordered settings.coarse false ∧ middle.Ordered settings.middle false ∧
          fine.Ordered settings.fine true := by
  constructor
  · obtain ⟨⟨records, rng'⟩, hsearch, h⟩ := bind_eq_ok.1 h
    obtain ⟨found, hfinish, h⟩ := bind_eq_ok.1 h
    cases h
    obtain ⟨coarse, middle, fine, rfl, hcoarse, hmiddle, hfine⟩ := search_planned hbuild hsearch
    obtain ⟨-, -, hvalid⟩ := Estimator.valid_of_build hbuild
    have hnever := StageSettings.lendsIn_last hvalid.iterations_pos
    obtain ⟨last, hlast, hverdict, hplanned⟩ := hfine.exists_last
    have hsize : last.hypotheses.size 1 = settings.lastHypotheses := by
      rw [size, hplanned.hypotheses_shape, Settings.lastHypotheses, if_neg (by simp [hnever])]
      exact StageSettings.hypothesisCount_last hvalid.iterations_pos
    obtain ⟨last', _, hlast', -, -, hconfidence, -⟩ := Estimator.finish_eq_ok hfinish
    obtain rfl : fine = last' := Option.some.inj hlast'
    refine ⟨coarse, middle, fine, last, hsearch, hfinish, hcoarse, hmiddle, hfine, ?_, hlast,
      hplanned.readout_iff.2 ⟨rfl, Nat.sub_add_cancel hvalid.iterations_pos⟩, hnever, hsize, ?_,
      hverdict ▸ hconfidence⟩
    · intro round hround
      simp only [List.mem_append, or_assoc] at hround
      rcases hround with hround | hround | hround
      · exact hcoarse.readouts round hround
      · exact hmiddle.readouts round hround
      · exact hfine.readouts_dropLast round hround
    · rw [← hsize, size, size, hplanned.score_shape]
  · intro σ _ settings source estimator scene rng rng' coarse middle fine hbuild hdraws hsearch
    obtain ⟨hbatch, _, _, _, heq, hcoarse, hmiddle, hfine⟩ := search_arises hbuild hsearch
    cases heq
    exact ⟨hcoarse.ordered hbatch hdraws, hmiddle.ordered hbatch hdraws,
      hfine.ordered hbatch hdraws⟩

attribute [local instance] WorkerPool.inTurn

/-- The default settings: 48 hypotheses and 16 that neighbors lend at the start, 8 at the end. -/
theorem estimate_volumes_varied :
    ∃ (estimator : Estimator ℝ ℝ) (r : Reconstruction ℝ × Tape)
      (coarse middle fine : StageRecord ℝ),
      Estimator.build Settings.default variedSource = .ok estimator ∧
        (∀ n, draw n Tape.varied ∈ Set.Ico (0 : ℝ) 1) ∧
        estimator.estimate (Scene.varied 1 0 0 0) Tape.varied = .ok r ∧
        estimator.search (Scene.varied 1 0 0 0) Tape.varied = .ok ([coarse, middle, fine], r.2) ∧
        coarse.rounds.map (·.hypotheses.shape) = [[1, 64, 2, 2], [1, 32, 2, 2]] ∧
        middle.rounds.map (·.hypotheses.shape) = [[1, 16, 4, 4], [1, 16, 4, 4]] ∧
        fine.rounds.map (·.hypotheses.shape) = [[1, 8, 8, 8]] ∧
        coarse.Ordered StageSettings.coarse false ∧ middle.Ordered StageSettings.middle false ∧
        fine.Ordered StageSettings.fine true := by
  obtain ⟨estimator, r, hbuild, hr⟩ :=
    estimate_varied Settings.validate_default (variedSource_answers _) Nat.one_pos 0 0 0
      Tape.varied
  obtain ⟨coarse, middle, fine, -, hsearch, -, hcoarse, hmiddle, hfine, -⟩ :=
    (estimate_volumes hbuild hr).1
  obtain ⟨hcoarseOrder, hmiddleOrder, hfineOrder⟩ :=
    (estimate_volumes hbuild hr).2 Tape _ _ _ _ _ _ _ _ _ hbuild Tape.draw_varied hsearch
  exact ⟨estimator, r, coarse, middle, fine, hbuild, Tape.draw_varied, hr, hsearch, hcoarse.shapes,
    hmiddle.shapes, hfine.shapes, hcoarseOrder, hmiddleOrder, hfineOrder⟩

end Estimates

end MultiViewDepth
