import MultiViewDepth.Proofs.TwinHypotheses
import MultiViewDepth.Proofs.TwinMatching
import MultiViewDepth.Stage

/-!
A stage run for twins.

One round keeps twins alike, whatever the stage's settings; by induction all rounds do.
-/
namespace MultiViewDepth

open Tensor

/-- The parts of a stage fit its settings. -/
structure Stage.Sound {α δ : Type} [Scalar α] (stage : Stage α δ) : Prop where
  iterations_pos : 0 < stage.settings.iterations
  sampler_pos : 0 < stage.sampler.count
  supporters_pos : 0 < stage.settings.supporters
  lenders_pos : stage.lendingOffsets.isSome → 0 < stage.settings.lenders
  length_support : stage.supportPattern.length = stage.settings.supporters
  length_lending : stage.lendingPattern.length = stage.settings.lenders
  groups_eq : stage.matcher.groups = stage.settings.groups
  matcher : stage.matcher.Sound stage.settings.features
  featureHead : ∀ s, Batchwise stage.featureHead (stage.settings.groups :: s) (1 :: s)
  supportOffsets : ∀ height width, 0 < height → 0 < width →
    Batchwise stage.supportOffsets [stage.settings.features, height, width]
      [2 * stage.settings.supporters, height, width]
  lendingOffsets : ∀ predict ∈ stage.lendingOffsets, ∀ height width, 0 < height → 0 < width →
    Batchwise predict [stage.settings.features, height, width]
      [2 * stage.settings.lenders, height, width]

namespace Twins

variable {p : Twins} {n height width : Nat} {σ : Equiv.Perm (Fin n)} {ρ ρ' : Type}
  [RandomSource ρ ℝ] [RandomSource ρ' ℝ]

structure SurroundingsAlike (p : Twins) (settings : StageSettings ℝ) (height width : Nat)
    (s s' : Surroundings ℝ) : Prop where
  lending : Optionally (p.GridAlike settings.lenders height width) s.lending s'.lending
  support : p.GridAlike settings.supporters height width s.support s'.support
  featureWeight : p.Alike [settings.supporters, height, width] s.featureWeight s'.featureWeight

def RoundAlike (p : Twins) (σ : Equiv.Perm (Fin n)) (height width : Nat) (r r' : Round ℝ) : Prop :=
  ∃ hypotheses, 0 < hypotheses ∧
    p.Alike [hypotheses, height, width] r.hypotheses r'.hypotheses ∧
    p.VerdictAlike σ hypotheses height width r.verdict r'.verdict

variable {stage : Stage ℝ ℝ} {surroundings surroundings' : Surroundings ℝ}
  {views views' : ViewFeatures ℝ} {estimate estimate' carried carried' : Option (Tensor ℝ)}
  {rng : ρ} {rng' : ρ'}

/-- What a stage prepares before its first round agrees on the pair of elements. -/
theorem survey_alike (hs : stage.Sound) {reference reference' : Tensor ℝ}
    (h : p.Alike [stage.settings.features, height, width] reference reference')
    (hheight : 0 < height) (hwidth : 0 < width) :
    Both (p.SurroundingsAlike stage.settings height width) (stage.survey reference)
      (stage.survey reference') := by
  have hgroups := hs.matcher.groups_ne_zero
  have hmod := hs.matcher.channels_mod
  rw [hs.groups_eq] at hgroups hmod
  -- all that comes after the lending grids, whether there are any or not
  have hrest (lending lending' : Option (NeighborGrid ℝ))
      (hlending : Optionally (p.GridAlike stage.settings.lenders height width) lending lending') :
      Both (p.SurroundingsAlike stage.settings height width)
        (do
          let support ← NeighborGrid.build (← stage.supportOffsets reference) stage.supportPattern
          let weight ← NeighborWeight.ofFeatures stage.featureHead stage.settings.groups reference
            support
          return ⟨lending, support, weight⟩)
        (do
          let support ← NeighborGrid.build (← stage.supportOffsets reference') stage.supportPattern
          let weight ← NeighborWeight.ofFeatures stage.featureHead stage.settings.groups reference'
            support
          return ⟨lending', support, weight⟩) := by
    refine (hs.supportOffsets _ _ hheight hwidth p _ _ h).bind fun learned learned' hlearned => ?_
    refine (build_alike hlearned hs.length_support hs.supporters_pos).bind
      fun support support' hsupport => ?_
    refine (ofFeatures_alike h hsupport hheight hwidth hgroups hmod (hs.featureHead _)).bind
      fun weight weight' hweight => ?_
    exact .ok ⟨hlending, hsupport, hweight⟩
  unfold Stage.survey
  cases hpredict : stage.lendingOffsets with
  | none => exact hrest none none trivial
  | some predict =>
    refine (hs.lendingOffsets predict hpredict _ _ hheight hwidth p _ _ h).bind
      fun learned learned' hlearned => ?_
    refine (build_alike hlearned hs.length_lending (hs.lenders_pos (by simp [hpredict]))).bind
      fun grid grid' hgrid => ?_
    exact hrest (some grid) (some grid') hgrid

/-- The hypotheses of one element use its own estimate and its own draws. -/
theorem hypotheses_alike (hs : stage.Sound) (range : DepthRange ℝ)
    (hsurroundings : p.SurroundingsAlike stage.settings height width surroundings surroundings')
    (hheight : 0 < height) (hwidth : 0 < width) (iteration : Nat)
    (hestimate : Optionally (p.Alike [1, height, width]) estimate estimate')
    (hdraws : estimate = none → p.DrawsAlike (α := ℝ) height width rng rng') :
    Both (fun r r' => ∃ hypotheses, 0 < hypotheses ∧ p.Alike [hypotheses, height, width] r.1 r'.1)
      (stage.hypotheses range surroundings p.size height width iteration estimate rng)
      (stage.hypotheses range surroundings' p.size' height width iteration estimate' rng') := by
  have hcount : 0 < stage.sampler.ownCount estimate := by
    unfold Sampler.ownCount
    split
    · exact hs.sampler_pos
    · decide
  unfold Stage.hypotheses
  refine (sampler_alike stage.sampler range hestimate hdraws).bind fun own own' hown => ?_
  cases hlends : stage.settings.lendsIn iteration stage.final with
  | false => exact .ok ⟨_, hcount, hown⟩
  | true =>
    match hl : surroundings.lending, hl' : surroundings'.lending, hsurroundings.lending with
    | none, none, _ => exact .ok ⟨_, hcount, hown⟩
    | some grid, some grid', hgrid =>
      exact (lend_alike hown hgrid hcount hheight hwidth).bind fun all all' hall =>
        .ok ⟨_, by omega, hall⟩

structure StartAlike (p : Twins) (σ : Equiv.Perm (Fin n)) (stage : Stage ℝ ℝ) (height width : Nat)
    (estimate estimate' carried carried' : Option (Tensor ℝ)) (rng : ρ) (rng' : ρ') : Prop where
  depth : Optionally (p.Alike [1, height, width]) estimate estimate'
  viewWeights : Optionally (p.ChannelsAlike σ [height, width]) carried carried'
  draws : estimate = none → p.DrawsAlike (α := ℝ) height width rng rng'
  rates : carried = none → stage.matcher.viewHead.isSome

/-- With an estimate and weights to go on from, neither draws nor a view head are asked for. -/
theorem StartAlike.resume {rng : ρ} {rng' : ρ'} {depth depth' weights weights' : Tensor ℝ}
    (hdepth : p.Alike [1, height, width] depth depth')
    (hweights : p.ChannelsAlike σ [height, width] weights weights') :
    p.StartAlike σ stage height width (some depth) (some depth') (some weights) (some weights') rng
      rng' where
  depth := hdepth
  viewWeights := hweights
  draws h := by cases h
  rates h := by cases h

section Rounds

variable (range : DepthRange ℝ)

/-- One round keeps two stages alike, with the generators it leaves. -/
theorem round_alike [WorkerPool] (hs : stage.Sound)
    (hviews : p.ViewsAlike σ stage.settings.features height width views views')
    (hposes : p.PosesAlike σ views views') (hn : 0 < n)
    (hsurroundings : p.SurroundingsAlike stage.settings height width surroundings surroundings')
    (hheight : 0 < height) (hwidth : 0 < width) (iteration : Nat)
    (hstart : p.StartAlike σ stage height width estimate estimate' carried carried' rng rng') :
    Both (fun r r' => p.RoundAlike σ height width r.1 r'.1)
      (stage.round views range surroundings p.size height width iteration estimate carried rng)
      (stage.round views' range surroundings' p.size' height width iteration estimate' carried'
        rng') := by
  unfold Stage.round
  refine (hypotheses_alike hs range hsurroundings hheight hwidth iteration hstart.depth
    hstart.draws).bind fun tried tried' htried => ?_
  obtain ⟨hypotheses, hpos, htried⟩ := htried
  refine (ofDepth_alike htried hsurroundings.support hheight hwidth range _).bind
    fun near near' hnear => ?_
  refine (combine_alike hnear hsurroundings.featureWeight).bind fun weight weight' hweight => ?_
  refine (evaluate_alike hs.matcher hviews hposes hn htried hsurroundings.support hweight
    hstart.viewWeights hstart.rates hpos hheight hwidth _).bind fun verdict verdict' hverdict => ?_
  exact .ok ⟨hypotheses, hpos, htried, hverdict⟩

/-- Every later round starts from a depth and view weights that twins share, and draws nothing. -/
theorem rounds_alike [WorkerPool] (hs : stage.Sound)
    (hviews : p.ViewsAlike σ stage.settings.features height width views views')
    (hposes : p.PosesAlike σ views views') (hn : 0 < n)
    (hsurroundings : p.SurroundingsAlike stage.settings height width surroundings surroundings')
    (hheight : 0 < height) (hwidth : 0 < width) (count iteration : Nat)
    (hstart : p.StartAlike σ stage height width estimate estimate' carried carried' rng rng') :
    Both (fun r r' => List.Forall₂ (p.RoundAlike σ height width) r.1 r'.1 ∧ r.1.length = count)
      (stage.rounds views range surroundings p.size height width count iteration estimate carried
        rng)
      (stage.rounds views' range surroundings' p.size' height width count iteration estimate'
        carried' rng') := by
  induction count generalizing iteration estimate estimate' carried carried' rng rng' with
  | zero => exact .ok ⟨.nil, rfl⟩
  | succ count ih =>
    unfold Stage.rounds
    refine (round_alike range hs hviews hposes hn hsurroundings hheight hwidth iteration
      hstart).bind fun r r' hr => ?_
    obtain ⟨hypotheses, -, -, hverdict⟩ := id hr
    refine (ih (iteration + 1) (.resume hverdict.depth hverdict.viewWeights)).bind
      fun later later' hlater => ?_
    exact .ok ⟨.cons hr hlater.1, by simp [hlater.2]⟩

/-- A run of rounds keeps two stages alike, by induction on the rounds that are left. -/
theorem run_alike [WorkerPool] (hs : stage.Sound)
    (hviews : p.ViewsAlike σ stage.settings.features height width views views')
    (hposes : p.PosesAlike σ views views') (hn : 0 < n) (hheight : 0 < height) (hwidth : 0 < width)
    (hstart : p.StartAlike σ stage height width estimate estimate' carried carried' rng rng') :
    Both (fun r r' => List.Forall₂ (p.RoundAlike σ height width) r.1 r'.1 ∧ r.1 ≠ [])
      (stage.run views range estimate carried rng)
      (stage.run views' range estimate' carried' rng') := by
  simp only [Stage.run, hviews.reference.sizes4.1, hviews.reference.sizes4.2, ok_bind, if_true]
  refine (survey_alike hs hviews.reference hheight hwidth).bind fun s s' hsurroundings => ?_
  refine (rounds_alike range hs hviews hposes hn hsurroundings hheight hwidth _ 0 hstart).mono
    fun r r' hr => ⟨hr.1, ?_⟩
  rw [← List.length_pos_iff_ne_nil, hr.2]
  exact hs.iterations_pos

end Rounds

/-- The verdicts of the last rounds. -/
theorem verdict_alike {rounds rounds' : List (Round ℝ)}
    (h : List.Forall₂ (p.RoundAlike σ height width) rounds rounds') (hne : rounds ≠ []) :
    Both (fun v v' => ∃ hypotheses, 0 < hypotheses ∧ p.VerdictAlike σ hypotheses height width v v')
      (stage.verdict rounds) (stage.verdict rounds') := by
  have hlast : Optionally (p.RoundAlike σ height width) rounds.getLast? rounds'.getLast? := by
    induction h with
    | nil => trivial
    | cons hr hrest ih =>
      cases hrest with
      | nil => exact hr
      | cons => simpa using ih (by simp)
  obtain ⟨last, hl⟩ := Option.isSome_iff_exists.1 (List.getLast?_isSome.2 hne)
  match hl' : rounds'.getLast? with
  | none => rw [hl, hl'] at hlast; exact hlast.elim
  | some last' =>
    rw [hl, hl'] at hlast
    obtain ⟨hypotheses, hpos, -, hverdict⟩ := hlast
    simp only [Stage.verdict, hl, hl']
    exact .ok ⟨hypotheses, hpos, hverdict⟩

end Twins

end MultiViewDepth
