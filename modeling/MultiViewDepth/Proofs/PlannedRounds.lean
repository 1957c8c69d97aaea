import MultiViewDepth.Proofs.FeatureSizes
import MultiViewDepth.Proofs.RoundSizes
import MultiViewDepth.Proofs.Rounds

/-!
Rounds that go as their settings plan them.

Settings say how many hypotheses every round has and how it turns scores into depth. A stage has a
predictor of lending neighbors exactly where its settings make neighbors lend, so no round goes
without them by accident. None of this depends on what numbers are computed.
-/
namespace MultiViewDepth

open Tensor

/-- Hypotheses of a round: those drawn at the very start or laid around an estimate, and those that
neighbors lend. -/
def StageSettings.hypothesisCount {δ : Type} (settings : StageSettings δ) (start final : Bool)
    (iteration : Nat) : Nat :=
  (if start then scatterCount else settings.samples) +
    (if settings.lendsIn iteration final then settings.lenders else 0)

/-- No neighbors lend in the last round of all. -/
theorem StageSettings.lendsIn_last {δ : Type} {settings : StageSettings δ}
    (hpos : 0 < settings.iterations) :
    settings.lendsIn (settings.iterations - 1) true = false := by
  simp [lendsIn, Nat.sub_add_cancel hpos]

theorem StageSettings.hypothesisCount_last {δ : Type} {settings : StageSettings δ}
    (hpos : 0 < settings.iterations) :
    settings.hypothesisCount false true (settings.iterations - 1) = settings.samples := by
  simp [hypothesisCount, lendsIn_last hpos]

variable {α δ ρ : Type} [Scalar α] [Scalar δ] [Precision α δ] [RandomSource ρ α]

structure Round.Planned (round : Round α) (settings : StageSettings δ) (start final : Bool)
    (iteration batch height width : Nat) : Prop where
  hypotheses_shape : round.hypotheses.shape =
    [batch, settings.hypothesisCount start final iteration, height, width]
  score_shape : round.verdict.score.shape = round.hypotheses.shape
  depth_shape : round.verdict.depth.shape = [batch, 1, height, width]
  readout_iff : round.readout = .inverseDepth ↔
    final = true ∧ iteration + 1 = settings.iterations
  depth_eq : round.readout.depth round.hypotheses round.verdict.score = .ok round.verdict.depth

structure Stage.Equipped (stage : Stage α δ) : Prop where
  sound : stage.Sound
  sampler_eq : stage.sampler = ⟨stage.settings.samples, stage.settings.interval⟩
  interval_pos : 0 < stage.settings.interval
  predicts : stage.settings.lends stage.final = true → stage.lendingOffsets.isSome

/-- The grid of lending neighbors is there when it is needed, and every pixel weighs as many
supporting neighbors as there are. -/
structure Surroundings.Equip (surroundings : Surroundings α) (stage : Stage α δ)
    (batch height width : Nat) : Prop where
  isSome : stage.settings.lends stage.final = true → surroundings.lending.isSome
  neighbors : ∀ grid ∈ surroundings.lending, grid.neighbors = stage.settings.lenders
  featureWeight : surroundings.featureWeight.shape =
    [batch, surroundings.support.neighbors, height, width]

/-- What round or stage number `k` starts from, where the first one starts from `estimate` and
`rng`: a depth map, or nothing at the very start. -/
structure Resumed (estimate : Option (Tensor α)) (rng : ρ) (k batch height width : Nat)
    (estimate' : Option (Tensor α)) (rng' : ρ) : Prop where
  shape : ∀ t ∈ estimate', t.shape = [batch, 1, height, width]
  isNone_eq : estimate'.isNone = (estimate.isNone && k == 0)
  rng_eq : estimate' = none → rng' = rng

omit [Scalar α] [RandomSource ρ α] in
theorem Resumed.zero {estimate : Option (Tensor α)} {rng : ρ} {batch height width : Nat}
    (h : ∀ t ∈ estimate, t.shape = [batch, 1, height, width]) :
    Resumed estimate rng 0 batch height width estimate rng :=
  ⟨h, by simp, fun _ => rfl⟩

omit [Scalar α] [RandomSource ρ α] in
/-- What starts from a depth map is never the very start, however late it comes. -/
theorem Resumed.succ {estimate estimate' : Option (Tensor α)} {t : Tensor α} {rng rng₁ rng' : ρ}
    {k batch height width : Nat} (h : Resumed (some t) rng₁ k batch height width estimate' rng') :
    Resumed estimate rng (k + 1) batch height width estimate' rng' := by
  have hsome : estimate'.isNone = false := h.isNone_eq.trans (by simp)
  refine ⟨h.shape, by simp [hsome], fun hnone => ?_⟩
  rw [hnone] at hsome
  cases hsome

section Rounds

variable {range : DepthRange δ} {stage : Stage α δ} {views : ViewFeatures α}
  {surroundings : Surroundings α} {estimate carried : Option (Tensor α)} {rng : ρ}
  {batch channels height width iteration : Nat}

omit [Precision α δ] in
theorem survey_equip {reference : Tensor α} (hs : stage.Equipped) (hbatch : 0 < batch)
    (hreference : reference.IsSingle [batch, channels, height, width])
    (h : stage.survey reference = .ok surroundings) :
    surroundings.Equip stage batch height width := by
  rw [Stage.survey_eq] at h
  obtain ⟨lending, hlending, h⟩ := bind_eq_ok.1 h
  obtain ⟨⟨support, weight⟩, hsupport, h⟩ := bind_eq_ok.1 h
  cases h
  unfold Stage.lendingGrid at hlending
  refine ⟨fun hlends => ?_, fun grid hgrid => ?_, ?_⟩
  · obtain ⟨predict, hpredict⟩ := Option.isSome_iff_exists.1 (hs.predicts hlends)
    rw [hpredict] at hlending
    obtain ⟨offsets, -, hlending⟩ := bind_eq_ok.1 hlending
    obtain ⟨grid, -, hlending⟩ := bind_eq_ok.1 hlending
    cases hlending
    rfl
  · split at hlending
    next => cases hlending; cases hgrid
    next predict _ =>
      obtain ⟨offsets, -, hlending⟩ := bind_eq_ok.1 hlending
      obtain ⟨grid', hbuild, hlending⟩ := bind_eq_ok.1 hlending
      cases hlending
      cases hgrid
      rw [neighbors_of_build hbuild, hs.sound.length_lending]
  · simp only [Stage.supportSurvey, bind_eq_ok, pure_eq_ok] at hsupport
    obtain ⟨_, -, _, -, _, hweight, hparts⟩ := hsupport
    cases hparts
    obtain ⟨similarity, rated, hshape, hkind, hrated, hweight⟩ :=
      NeighborWeight.ofFeatures_eq_ok hreference.shape_eq hweight
    have hsimilarity : similarity.IsSingle
        [batch, stage.settings.groups, support.neighbors, height, width] :=
      ⟨hshape, hkind.trans hreference.kind_eq⟩
    have hratedShape : rated.shape = [batch, 1, support.neighbors, height, width] :=
      ((hs.sound.featureHead _ (Twins.self hbatch) _ _ (hsimilarity.alike hbatch)).of_self
        hrated).shape_left
    rw [shape_of_squeeze (by rw [hratedShape]; rfl) hweight, hratedShape]
    rfl

/-- However large the numbers are that are drawn, there are as many hypotheses as planned. -/
theorem hypotheses_shape {r : Tensor α × ρ} (hs : stage.Equipped)
    (hsurroundings : surroundings.Equip stage batch height width)
    (hiteration : iteration < stage.settings.iterations)
    (hestimate : ∀ t ∈ estimate, t.shape = [batch, 1, height, width])
    (hr : stage.hypotheses range surroundings batch height width iteration estimate rng = .ok r) :
    r.1.shape = [batch, stage.settings.hypothesisCount estimate.isNone stage.final iteration,
      height, width] := by
  obtain ⟨⟨own, rng'⟩, hown, hr⟩ := bind_eq_ok.1 hr
  have hshape := Sampler.shape_of_hypotheses hestimate hown
  rw [hs.sampler_eq] at hshape
  dsimp only at hr
  cases hlends : stage.settings.lendsIn iteration stage.final with
  | false =>
    rw [hlends] at hr
    cases hr
    simpa [StageSettings.hypothesisCount, hlends] using hshape
  | true =>
    have hneeded := hsurroundings.isSome (StageSettings.lends_of_lendsIn hiteration hlends)
    obtain ⟨grid, hgrid⟩ := Option.isSome_iff_exists.1 hneeded
    rw [hlends, hgrid] at hr
    obtain ⟨all, hall, hr⟩ := bind_eq_ok.1 hr
    cases hr
    simp [StageSettings.hypothesisCount, hlends, shape_of_lend hshape hall,
      hsurroundings.neighbors grid hgrid]

/-- One round leaves arrays of the planned shapes. -/
theorem round_planned [WorkerPool] {r : Round α × ρ} (hs : stage.Equipped)
    (hsurroundings : surroundings.Equip stage batch height width)
    (hiteration : iteration < stage.settings.iterations)
    (hestimate : ∀ t ∈ estimate, t.shape = [batch, 1, height, width])
    (hr : stage.round views range surroundings batch height width iteration estimate carried rng =
      .ok r) :
    r.1.Planned stage.settings estimate.isNone stage.final iteration batch height width := by
  obtain ⟨near, weight, htried, hnear, hweight, hreadout, hevaluate⟩ := Stage.round_eq_ok hr
  have hshape := hypotheses_shape hs hsurroundings hiteration hestimate htried
  obtain ⟨_, _, _, _, similarity, hsizes, hscore, hread⟩ := Stage.evaluate_eq_ok hevaluate
  rw [hshape] at hsizes
  cases hsizes
  obtain ⟨_, costs, -, hsoftmax, -, hcosts⟩ := Matcher.score_parts hscore
  refine ⟨hshape, ?_, Readout.shape_of_depth hshape hread, by simp [hreadout, Stage.readout], hread⟩
  rw [(softmax_eq_ok hsoftmax).1, hshape]
  exact hcosts (NeighborWeight.shape_of_combine (NeighborWeight.shape_of_ofDepth hshape hnear)
    hsurroundings.featureWeight hweight)

/-- Every round of a list is one that starts from what the round before it has found. -/
theorem exists_round [WorkerPool] {count : Nat} {r : List (Round α) × ρ} (hs : stage.Equipped)
    (hsurroundings : surroundings.Equip stage batch height width)
    (hcount : iteration + count = stage.settings.iterations)
    (hestimate : ∀ t ∈ estimate, t.shape = [batch, 1, height, width])
    (hr : stage.rounds views range surroundings batch height width count iteration estimate carried
      rng = .ok r) {k : Nat} {round : Round α} (hk : r.1[k]? = some round) :
    ∃ (estimate' carried' : Option (Tensor α)) (rng₁ rng₂ : ρ),
      Resumed estimate rng k batch height width estimate' rng₁ ∧
      stage.round views range surroundings batch height width (iteration + k) estimate' carried'
        rng₁ = .ok (round, rng₂) := by
  induction count generalizing iteration estimate carried rng r k with
  | zero =>
    cases hr
    cases hk
  | succ count ih =>
    obtain ⟨⟨first, rng'⟩, hfirst, hr⟩ := bind_eq_ok.1 hr
    obtain ⟨⟨later, rng''⟩, hlater, hr⟩ := bind_eq_ok.1 hr
    cases hr
    cases k with
    | zero =>
      cases hk
      exact ⟨estimate, carried, rng, rng', .zero hestimate, hfirst⟩
    | succ k =>
      have hdepth := (round_planned hs hsurroundings (by omega) hestimate hfirst).depth_shape
      obtain ⟨estimate', carried', rng₁, rng₂, hresumed, hround⟩ :=
        ih (by omega) (by rintro _ ⟨⟩; exact hdepth) hlater hk
      rw [Nat.add_right_comm, Nat.add_assoc] at hround
      exact ⟨estimate', carried', rng₁, rng₂, hresumed.succ, hround⟩

/-- A run surveys the reference features and goes through as many rounds as its settings ask
for. -/
theorem run_rounds [WorkerPool] {r : List (Round α) × ρ} (hs : stage.Equipped) (hbatch : 0 < batch)
    (hreference : views.reference.IsSingle [batch, channels, height, width])
    (hestimate : ∀ t ∈ estimate, t.shape = [batch, 1, height, width])
    (hr : stage.run views range estimate carried rng = .ok r) :
    r.1.length = stage.settings.iterations ∧ ∃ surroundings,
      stage.survey views.reference = .ok surroundings ∧
      surroundings.Equip stage batch height width ∧
      ∀ (k : Nat) (round : Round α), r.1[k]? = some round → k < stage.settings.iterations ∧
        ∃ (estimate' carried' : Option (Tensor α)) (rng₁ rng₂ : ρ),
          Resumed estimate rng k batch height width estimate' rng₁ ∧
          stage.round views range surroundings batch height width k estimate' carried' rng₁ =
            .ok (round, rng₂) := by
  obtain ⟨_, _, _, surroundings, hshape, hsurvey, hrounds⟩ := Stage.run_eq_ok hr
  rw [hreference.shape_eq] at hshape
  cases hshape
  have hequip := survey_equip hs hbatch hreference hsurvey
  have hlength := Stage.length_of_rounds hrounds
  refine ⟨hlength, surroundings, hsurvey, hequip, fun k round hk => ?_⟩
  obtain ⟨estimate', carried', rng₁, rng₂, hresumed, hround⟩ :=
    exists_round hs hequip (Nat.zero_add _) hestimate hrounds hk
  rw [Nat.zero_add] at hround
  exact ⟨hlength ▸ (List.getElem?_eq_some_iff.1 hk).1, estimate', carried', rng₁, rng₂, hresumed,
    hround⟩

end Rounds

section Records

variable {record : StageRecord α} {settings : StageSettings δ} {start final : Bool}
  {batch height width : Nat}

structure StageRecord.Planned (record : StageRecord α) (settings : StageSettings δ)
    (start final : Bool) (batch height width : Nat) : Prop where
  length_eq : record.rounds.length = settings.iterations
  rounds : ∀ (k : Nat) (round : Round α), record.rounds[k]? = some round →
    round.Planned settings (start && k == 0) final k batch height width
  verdict_eq : record.rounds.getLast?.map (·.verdict) = some record.verdict

omit [Scalar δ] [Precision α δ] in
/-- The sizes of the volumes, round by round. -/
theorem StageRecord.Planned.shapes
    (h : record.Planned settings start final batch height width) :
    record.rounds.map (·.hypotheses.shape) = (List.range settings.iterations).map fun k =>
      [batch, settings.hypothesisCount (start && k == 0) final k, height, width] := by
  apply List.ext_getElem
  · simp [h.length_eq]
  · intro k hk _
    simp only [List.getElem_map, List.getElem_range]
    rw [List.length_map] at hk
    exact (h.rounds k _ (List.getElem?_eq_getElem hk)).hypotheses_shape

omit [Scalar δ] [Precision α δ] in
/-- Only the last round of a final stage places the mean hypothesis number between inverse
depths. -/
theorem StageRecord.Planned.readout_eq
    (h : record.Planned settings start final batch height width) {k : Nat} {round : Round α}
    (hk : record.rounds[k]? = some round)
    (hlate : final = true → k + 1 < settings.iterations) : round.readout = .expectation := by
  have hreadout := (h.rounds k round hk).readout_iff
  cases hr : round.readout with
  | expectation => rfl
  | inverseDepth =>
    obtain ⟨hfinal, hlast⟩ := hreadout.1 hr
    exact absurd (hlate hfinal) hlast.not_lt

omit [Scalar δ] [Precision α δ] in
/-- A stage that is not the final one averages over its hypotheses in every round. -/
theorem StageRecord.Planned.readouts
    (h : record.Planned settings start false batch height width) :
    ∀ round ∈ record.rounds, round.readout = .expectation := by
  intro round hround
  obtain ⟨k, hk⟩ := List.mem_iff_getElem?.1 hround
  exact h.readout_eq hk fun hfinal => absurd hfinal Bool.false_ne_true

omit [Scalar δ] [Precision α δ] in
/-- The final stage does so in every round but its last. -/
theorem StageRecord.Planned.readouts_dropLast
    (h : record.Planned settings start final batch height width) :
    ∀ round ∈ record.rounds.dropLast, round.readout = .expectation := by
  intro round hround
  obtain ⟨k, hk⟩ := List.mem_iff_getElem?.1 hround
  rw [List.getElem?_dropLast, h.length_eq] at hk
  split at hk
  next hearly => exact h.readout_eq hk fun _ => Nat.add_lt_of_lt_sub hearly
  next => cases hk

omit [Scalar δ] [Precision α δ] in
theorem StageRecord.Planned.exists_last
    (h : record.Planned settings start final batch height width) :
    ∃ last, record.rounds.getLast? = some last ∧ last.verdict = record.verdict ∧
      last.Planned settings (start && settings.iterations - 1 == 0) final
        (settings.iterations - 1) batch height width := by
  obtain ⟨last, hlast, hverdict⟩ := Option.map_eq_some_iff.1 h.verdict_eq
  refine ⟨last, hlast, hverdict, h.rounds _ _ ?_⟩
  rw [← h.length_eq, ← List.getLast?_eq_getElem?]
  exact hlast

end Records

section Stages

variable {scene : Scene α δ} {pyramids : List (Pyramid α)} {stages : List (Stage α δ)}
  {estimate carried : Option (Tensor α)} {rng : ρ} {batch height width : Nat}

/-- The record of a stage with the given settings, which is number `k` of those that start from
`estimate` and `rng`. -/
def StageRecord.Arises [WorkerPool] (record : StageRecord α) (settings : StageSettings δ)
    (final : Bool) (range : DepthRange δ) (estimate : Option (Tensor α)) (rng : ρ)
    (k batch height width : Nat) : Prop :=
  ∃ (stage : Stage α δ) (views : ViewFeatures α) (channels : Nat)
      (estimate' carried' : Option (Tensor α)) (rng₁ rng₂ : ρ),
    stage.Equipped ∧ stage.settings = settings ∧ stage.final = final ∧
    views.reference.IsSingle [batch, channels, height, width] ∧
    Resumed estimate rng k batch height width estimate' rng₁ ∧
    stage.run views range estimate' carried' rng₁ = .ok (record.rounds, rng₂) ∧
    stage.verdict record.rounds = .ok record.verdict

theorem StageRecord.Arises.planned [WorkerPool] {record : StageRecord α}
    {settings : StageSettings δ} {final : Bool} {range : DepthRange δ} {k : Nat}
    (h : record.Arises settings final range estimate rng k batch height width)
    (hbatch : 0 < batch) :
    record.Planned settings (estimate.isNone && k == 0) final batch height width := by
  obtain ⟨stage, views, channels, estimate', carried', rng₁, rng₂, hs, rfl, rfl, hreference,
    hresumed, hrun, hverdict⟩ := h
  obtain ⟨hlength, surroundings, -, hequip, hrounds⟩ :=
    run_rounds hs hbatch hreference hresumed.shape hrun
  obtain ⟨last, hlast, hlastVerdict⟩ := Stage.verdict_eq_ok.1 hverdict
  refine ⟨hlength, fun i round hi => ?_, by simp [hlast, hlastVerdict]⟩
  obtain ⟨hiteration, estimate'', carried'', _, _, hresumed', hround⟩ := hrounds i round hi
  rw [← hresumed.isNone_eq, ← hresumed'.isNone_eq]
  exact round_planned hs hequip hiteration hresumed'.shape hround

/-- Every stage of a search starts from what the stage before it hands on, enlarged. -/
theorem runStages_arises [WorkerPool] (hbatch : 0 < scene.batch)
    (hequipped : ∀ stage ∈ stages, stage.Equipped)
    (hseen : ∀ (k : Nat) (stage : Stage α δ), stages[k]? = some stage → ∀ views,
      Estimator.stageViews scene pyramids stage.index = .ok views → ∃ channels,
        views.reference.IsSingle [scene.batch, channels, 2 ^ k * height, 2 ^ k * width])
    (hestimate : stages ≠ [] → ∀ t ∈ estimate, t.shape = [scene.batch, 1, height, width])
    {r : List (StageRecord α) × ρ}
    (hr : Estimator.runStages scene pyramids stages estimate carried rng = .ok r) :
    r.1.length = stages.length ∧ ∀ (k : Nat) (stage : Stage α δ) (record : StageRecord α),
      stages[k]? = some stage → r.1[k]? = some record →
        record.Arises stage.settings stage.final scene.range estimate rng k scene.batch
          (2 ^ k * height) (2 ^ k * width) := by
  induction stages generalizing estimate carried rng r height width with
  | nil =>
    cases hr
    exact ⟨rfl, fun k stage record hk => by cases hk⟩
  | cons stage later ih =>
    obtain ⟨hstage, hlater⟩ := List.forall_mem_cons.1 hequipped
    obtain ⟨views, rounds, rng', verdict, depth, weights, records, hviews, hrun, hverdict, hnext,
      hrecords, heq⟩ := Estimator.runStages_eq_ok hr
    obtain ⟨channels, hreference⟩ := hseen 0 stage rfl views hviews
    rw [pow_zero, Nat.one_mul, Nat.one_mul] at hreference
    have hfirst : StageRecord.Arises ⟨rounds, verdict⟩ stage.settings stage.final scene.range
        estimate rng 0 scene.batch height width :=
      ⟨stage, views, channels, estimate, carried, rng, rng', hstage, rfl, rfl, hreference,
        .zero (hestimate (by simp)), hrun, hverdict⟩
    have hdepth (hne : later ≠ []) :
        ∀ t ∈ some depth, t.shape = [scene.batch, 1, 2 * height, 2 * width] := by
      rintro _ ⟨⟩
      obtain ⟨next, later, rfl⟩ := List.exists_cons_of_ne_nil hne
      obtain ⟨last, -, hlast, hplanned⟩ := (hfirst.planned hbatch).exists_last
      have hverdictShape := hplanned.depth_shape
      rw [hlast] at hverdictShape
      exact shape_of_double hverdictShape (Estimator.handOver_cons.1 hnext).1
    have hlaterSeen (k : Nat) (stage' : Stage α δ) (hk : later[k]? = some stage')
        (views' : ViewFeatures α)
        (hviews' : Estimator.stageViews scene pyramids stage'.index = .ok views') :
        ∃ channels, views'.reference.IsSingle
          [scene.batch, channels, 2 ^ k * (2 * height), 2 ^ k * (2 * width)] := by
      have hsides := hseen (k + 1) stage' hk views' hviews'
      simpa only [pow_succ, Nat.mul_assoc] using hsides
    obtain ⟨hcount, hrest⟩ := ih hlater hlaterSeen hdepth hrecords
    rw [heq]
    refine ⟨congrArg (· + 1) hcount, fun k stage' record hk hrecord => ?_⟩
    cases k with
    | zero =>
      cases hk
      cases hrecord
      simpa using hfirst
    | succ k =>
      obtain ⟨stage'', views', channels', estimate', carried', rng₁, rng₂, hs, hsettings, hfinal,
        hreference', hresumed, hrest⟩ := hrest k stage' record hk hrecord
      simp only [← Nat.mul_assoc, ← pow_succ] at hreference' hresumed
      exact ⟨stage'', views', channels', estimate', carried', rng₁, rng₂, hs, hsettings, hfinal,
        hreference', hresumed.succ, hrest⟩

end Stages

section Estimates

open Blueprint

variable {settings : Settings δ} {source : ParameterSource α} {estimator : Estimator α δ}

omit [Precision α δ] in
theorem stage_equipped {settings : StageSettings δ} (hvalid : settings.Valid)
    (patterns : settings.Patterns) (index : Nat) (final parallel : Bool) {scope : String}
    {answers : String → Tensor α}
    (h : ((Stage.parts patterns index final parallel scope).assemble answers).Sound) :
    ((Stage.parts patterns index final parallel scope).assemble answers).Equipped where
  sound := h
  sampler_eq := rfl
  interval_pos := hvalid.interval_pos
  predicts hlends := by
    simp only [Stage.parts, assemble_seq, assemble_map, onlyIf_assemble] at hlends ⊢
    rw [if_pos hlends]
    rfl

/-- An estimator is built of stages that can do what the settings ask for. -/
theorem Estimator.equipped_of_build (h : Estimator.build settings source = .ok estimator) :
    ∃ coarse middle fine, estimator.Sound coarse middle fine ∧
      (coarse.Equipped ∧ middle.Equipped ∧ fine.Equipped) ∧
      coarse.Follows settings.coarse 0 false ∧ middle.Follows settings.middle 1 false ∧
      fine.Follows settings.fine 2 true := by
  obtain ⟨b, hb, hbuild⟩ := bind_eq_ok.1 h
  obtain ⟨answers, hanswers, rfl⟩ := exists_answers (Estimator.names_nodup hb) hbuild
  obtain ⟨hvalid, coarse, middle, fine, rfl⟩ := Estimator.blueprint_eq_ok hb
  obtain ⟨hc, hm, hf⟩ := Settings.validate_eq_ok.1 hvalid
  have hsound := parts_sound hvalid coarse middle fine hanswers.answered
  exact ⟨_, _, _, hsound, ⟨stage_equipped hc coarse _ _ _ hsound.sound_coarse,
    stage_equipped hm middle _ _ _ hsound.sound_middle,
    stage_equipped hf fine _ _ _ hsound.sound_fine⟩, Stage.parts_follows coarse _ _ _ _ _,
    Stage.parts_follows middle _ _ _ _ _, Stage.parts_follows fine _ _ _ _ _⟩

variable {scene : Scene α δ} {rng rng' : ρ} {records : List (StageRecord α)}

/-- A search has three stages, and their records come about as the settings ask. -/
theorem search_arises [WorkerPool] (hbuild : Estimator.build settings source = .ok estimator)
    (hsearch : estimator.search scene rng = .ok (records, rng')) :
    0 < scene.batch ∧ ∃ coarse middle fine, records = [coarse, middle, fine] ∧
      coarse.Arises settings.coarse false scene.range none rng 0 scene.batch (scene.height / 8)
        (scene.width / 8) ∧
      middle.Arises settings.middle false scene.range none rng 1 scene.batch (scene.height / 4)
        (scene.width / 4) ∧
      fine.Arises settings.fine true scene.range none rng 2 scene.batch (scene.height / 2)
        (scene.width / 2) := by
  obtain ⟨coarse, middle, fine, hs, ⟨hec, hem, hef⟩, hc, hm, hf⟩ :=
    Estimator.equipped_of_build hbuild
  obtain ⟨pyramids, hpyramids, hrun⟩ := bind_eq_ok.1 hsearch
  rw [hs.stages_eq] at hrun
  have hbatch := Estimator.batch_pos_of_pyramids hs.extractor hpyramids
  have hseen (k : Nat) (stage : Stage α δ) (hk : [coarse, middle, fine][k]? = some stage)
      (views : ViewFeatures α)
      (hviews : Estimator.stageViews scene pyramids stage.index = .ok views) :
      ∃ channels, views.reference.IsSingle
        [scene.batch, channels, 2 ^ k * (scene.height / 8), 2 ^ k * (scene.width / 8)] := by
    have hindex : stage.index = k := by
      match k with
      | 0 => cases hk; exact hs.index_coarse
      | 1 => cases hk; exact hs.index_middle
      | 2 => cases hk; exact hs.index_fine
      | _ + 3 => cases hk
    rw [hindex] at hviews
    exact exists_reference_isSingle hs.extractor hpyramids hviews
  obtain ⟨hlength, harises⟩ := runStages_arises hbatch (by simp [hec, hem, hef]) hseen (by simp)
    hrun
  obtain ⟨a, b, c, rfl⟩ := List.length_eq_three.1 hlength
  obtain ⟨hh4, hw4, hh2, hw2⟩ := scene.sides_eq
  refine ⟨hbatch, a, b, c, rfl, ?_, ?_, ?_⟩
  · simpa [hc.settings_eq, hc.final_eq] using harises 0 coarse a rfl rfl
  · simpa [hm.settings_eq, hm.final_eq, hh4, hw4] using harises 1 middle b rfl rfl
  · simpa [hf.settings_eq, hf.final_eq, hh2, hw2, ← Nat.mul_assoc] using harises 2 fine c rfl rfl

/-- A search leaves one planned record for each of the three stages. -/
theorem search_planned [WorkerPool] (hbuild : Estimator.build settings source = .ok estimator)
    (hsearch : estimator.search scene rng = .ok (records, rng')) :
    ∃ coarse middle fine, records = [coarse, middle, fine] ∧
      coarse.Planned settings.coarse true false scene.batch (scene.height / 8) (scene.width / 8) ∧
      middle.Planned settings.middle false false scene.batch (scene.height / 4) (scene.width / 4) ∧
      fine.Planned settings.fine false true scene.batch (scene.height / 2) (scene.width / 2) := by
  obtain ⟨hbatch, coarse, middle, fine, heq, hcoarse, hmiddle, hfine⟩ :=
    search_arises hbuild hsearch
  exact ⟨coarse, middle, fine, heq, hcoarse.planned hbatch, hmiddle.planned hbatch,
    hfine.planned hbatch⟩

end Estimates

end MultiViewDepth
