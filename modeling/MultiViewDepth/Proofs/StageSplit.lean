import MultiViewDepth.Proofs.VariedScenes
import MultiViewDepth.Proofs.Rounds
import MultiViewDepth.Proofs.SharedParameters

/-!
The rounds of a stage in one call or in two.

A stage that runs the first rounds is not final, and one that runs the others may be. Built from
the same parameters, they do together what a stage with all the rounds does: only the number of a
round, the number of rounds and the flag decide whether neighbors lend and how depth is read out,
and these agree round by round.
-/
namespace MultiViewDepth

section Settings

variable {δ : Type} {settings : StageSettings δ} {m n : Nat}

namespace StageSettings

def withRounds (settings : StageSettings δ) (count : Nat) : StageSettings δ :=
  { settings with iterations := count }

@[simp] theorem iterations_withRounds (count : Nat) :
    (settings.withRounds count).iterations = count := rfl
@[simp] theorem features_withRounds (count : Nat) :
    (settings.withRounds count).features = settings.features := rfl

@[simp] theorem withRounds_withRounds (count count' : Nat) :
    (settings.withRounds count).withRounds count' = settings.withRounds count' := rfl

end StageSettings

end Settings

namespace Stage

variable {α δ σ : Type}

/-- The stage with other rounds; its predictor is dropped if neighbors lend in none of them. -/
def withRounds (stage : Stage α δ) (count : Nat) (final : Bool) : Stage α δ :=
  { stage with
    settings := stage.settings.withRounds count
    final := final
    lendingOffsets :=
      if (stage.settings.withRounds count).lends final then stage.lendingOffsets else none }

@[simp] theorem settings_withRounds (stage : Stage α δ) (count : Nat) (final : Bool) :
    (stage.withRounds count final).settings = stage.settings.withRounds count := rfl

variable [Scalar α] [Scalar δ] [Precision α δ] [RandomSource σ α]

section Rounds

variable {stage : Stage α δ} {views : ViewFeatures α} {range : DepthRange δ}
  {surroundings : Surroundings α} {batch height width count i j : Nat} {final : Bool}

/-- What the stage with other rounds finds in place of the given surroundings. -/
def surroundingsWithin (stage : Stage α δ) (surroundings : Surroundings α) (count : Nat)
    (final : Bool) : Surroundings α :=
  { surroundings with
    lending :=
      if (stage.settings.withRounds count).lends final then surroundings.lending else none }

omit [Scalar δ] [Precision α δ] in
/-- A survey that succeeds also does without the predictor. -/
theorem survey_withRounds {reference : Tensor α} (h : stage.survey reference = .ok surroundings)
    (count : Nat) (final : Bool) :
    (stage.withRounds count final).survey reference =
      .ok (stage.surroundingsWithin surroundings count final) := by
  rw [survey_eq] at h ⊢
  obtain ⟨lending, hlending, h⟩ := bind_eq_ok.1 h
  obtain ⟨⟨support, weight⟩, hsupport, h⟩ := bind_eq_ok.1 h
  cases h
  have hsame : (stage.withRounds count final).supportSurvey reference = .ok (support, weight) :=
    hsupport
  have hgrid : (stage.withRounds count final).lendingGrid reference =
      .ok (if (stage.settings.withRounds count).lends final then lending else none) := by
    by_cases hlends : (stage.settings.withRounds count).lends final = true
    · simpa [lendingGrid, withRounds, hlends] using hlending
    · simp [lendingGrid, withRounds, hlends]
  rw [hgrid, hsame]
  rfl

/-- A round of the stage with other rounds that has the same part to play. -/
theorem round_withRounds [WorkerPool] (hi : i < count)
    (hlends : (stage.settings.withRounds count).lendsIn i final =
      stage.settings.lendsIn j stage.final)
    (hreadout : (stage.withRounds count final).readout i = stage.readout j)
    (estimate carried : Option (Tensor α)) (rng : σ) :
    stage.round views range surroundings batch height width j estimate carried rng =
      (stage.withRounds count final).round views range
        (stage.surroundingsWithin surroundings count final) batch height width i estimate carried
        rng := by
  have hhypotheses : (stage.withRounds count final).hypotheses range
      (stage.surroundingsWithin surroundings count final) batch height width i estimate rng =
      stage.hypotheses range surroundings batch height width j estimate rng := by
    simp only [hypotheses, withRounds, surroundingsWithin, hlends]
    cases hj : stage.settings.lendsIn j stage.final with
    | false => rfl
    | true =>
      have hneeded : (stage.settings.withRounds count).lends final = true :=
        StageSettings.lends_of_lendsIn hi (hlends.trans hj)
      rw [if_pos hneeded]
  rw [round, round, hhypotheses, hreadout]
  rfl

end Rounds

section Split

variable {stage : Stage α δ} {views : ViewFeatures α} {range : DepthRange δ}
  {surroundings : Surroundings α} {batch height width m n : Nat}

def Economical (stage : Stage α δ) : Prop :=
  stage.settings.lends stage.final = false → stage.lendingOffsets = none

/-- The first part of the rounds does not see how many follow. -/
theorem rounds_first [WorkerPool] (hcount : stage.settings.iterations = m + n) (hn : 0 < n)
    (estimate carried : Option (Tensor α)) (rng : σ) :
    stage.rounds views range surroundings batch height width m 0 estimate carried rng =
      (stage.withRounds m false).rounds views range
        (stage.surroundingsWithin surroundings m false) batch height width m 0 estimate carried
        rng := by
  refine rounds_congr (fun k hk estimate carried rng => ?_) estimate carried rng
  rw [Nat.zero_add]
  have hearly : stage.final = true → k + 1 < stage.settings.iterations := by omega
  apply round_withRounds hk
  · rw [StageSettings.lendsIn_of_lt hearly, StageSettings.lendsIn_of_lt (by simp)]
    rfl
  · simp only [readout, withRounds, Bool.false_eq_true, false_and, if_false]
    rw [if_neg]
    omega

/-- The second part starts from what the first hands over. -/
theorem rounds_second [WorkerPool] (hcount : stage.settings.iterations = m + n)
    (estimate carried : Option (Tensor α)) (rng : σ) :
    stage.rounds views range surroundings batch height width n m estimate carried rng =
      (stage.withRounds n stage.final).rounds views range
        (stage.surroundingsWithin surroundings n stage.final) batch height width n 0 estimate
        carried rng := by
  refine rounds_congr (fun k hk estimate carried rng => ?_) estimate carried rng
  rw [Nat.zero_add]
  have hlast : k + 1 = n ↔ m + k + 1 = stage.settings.iterations := by omega
  apply round_withRounds hk
  · simp [StageSettings.lendsIn, StageSettings.withRounds, Bool.beq_eq_decide_eq, hlast]
  · simp [readout, withRounds, StageSettings.withRounds, hlast]

omit [Scalar α] [Scalar δ] [Precision α δ] in
/-- The stage with the first rounds has the predictor of the stage with all of them. -/
theorem lendingOffsets_first (hcount : stage.settings.iterations = m + n) (hm : 0 < m)
    (hn : 0 < n) (hpredictor : stage.Economical) :
    (stage.withRounds m false).lendingOffsets = stage.lendingOffsets := by
  have hwhole : stage.settings.lends stage.final = decide (0 < stage.settings.lenders) :=
    StageSettings.lends_of_lt (by omega) (by omega)
  have hfirst : (stage.settings.withRounds m).lends false = stage.settings.lends stage.final :=
    hwhole ▸ StageSettings.lends_of_lt hm (by simp)
  simp only [withRounds, hfirst]
  split
  · rfl
  · next hnever => exact (hpredictor (Bool.not_eq_true _ ▸ hnever)).symm

def start (stage : Stage α δ) (views : ViewFeatures α) :
    Result ((Nat × Nat × Nat) × Surroundings α) := do
  let (batch, channels, height, width) ← views.reference.sizes4
  unless channels = stage.settings.features do
    throw (.shapeMismatch .stageFeatures [batch, stage.settings.features, height, width]
      views.reference.shape)
  return ((batch, height, width), ← stage.survey views.reference)

theorem estimate_eq [WorkerPool] (views : ViewFeatures α) (range : DepthRange δ)
    (estimate carried : Option (Tensor α)) (rng : σ) :
    stage.estimate views range estimate carried rng = (do
      let ((batch, height, width), surroundings) ← stage.start views
      let (rounds, rng) ← stage.rounds views range surroundings batch height width
        stage.settings.iterations 0 estimate carried rng
      return (← stage.verdict rounds, rng)) := by
  simp only [Stage.estimate, run, start, bind_assoc]
  cases views.reference.sizes4 with
  | error failure => rfl
  | ok sizes =>
    obtain ⟨batch, channels, height, width⟩ := sizes
    by_cases hchannels : channels = stage.settings.features
    · simp [hchannels]
    · simp [hchannels]

omit [Scalar δ] [Precision α δ] in
theorem start_withRounds {sizes : Nat × Nat × Nat}
    (h : stage.start views = .ok (sizes, surroundings)) (count : Nat) (final : Bool) :
    (stage.withRounds count final).start views =
      .ok (sizes, stage.surroundingsWithin surroundings count final) := by
  obtain ⟨⟨batch, channels, height, width⟩, hsizes, h⟩ := bind_eq_ok.1 h
  by_cases hchannels : channels = stage.settings.features
  · simp only [hchannels, if_true, pure_eq_ok] at h
    obtain ⟨_, hsurvey, h⟩ := bind_eq_ok.1 h
    cases h
    simp [start, hsizes, hchannels, survey_withRounds hsurvey]
  · simp [hchannels] at h

/-- The first rounds and the others, one stage each, do what a stage with all of them does. -/
theorem estimate_withRounds [WorkerPool] (hcount : stage.settings.iterations = m + n) (hm : 0 < m)
    (hn : 0 < n) (hpredictor : stage.Economical) (views : ViewFeatures α) (range : DepthRange δ)
    (estimate carried : Option (Tensor α)) (rng : σ) :
    stage.estimate views range estimate carried rng = (do
      let (verdict, rng) ← (stage.withRounds m false).estimate views range estimate carried rng
      (stage.withRounds n stage.final).estimate views range (some verdict.depth)
        (some verdict.viewWeights) rng) := by
  have hfirst : (stage.withRounds m false).start views = stage.start views := by
    simp only [start, survey, lendingOffsets_first hcount hm hn hpredictor]
    rfl
  simp only [estimate_eq, bind_assoc]
  cases hstart : stage.start views with
  | error failure => simp [hfirst, hstart]
  | ok found =>
    obtain ⟨⟨batch, height, width⟩, surroundings⟩ := found
    have hpart := start_withRounds hstart
    simp only [hpart, ok_bind, hcount, rounds_add, rounds_first hcount hn, Nat.zero_add,
      rounds_second hcount, settings_withRounds, StageSettings.iterations_withRounds, bind_assoc]
    cases hfirsts : (stage.withRounds m false).rounds views range
        (stage.surroundingsWithin surroundings m false) batch height width m 0 estimate carried
        rng with
    | error failure => rfl
    | ok firsts =>
      obtain ⟨last, hlast⟩ := exists_last hm hfirsts
      simp only [ok_bind, verdict, resume_of_getLast? hlast, hlast]
      cases hseconds : (stage.withRounds n stage.final).rounds views range
          (stage.surroundingsWithin surroundings n stage.final) batch height width n 0
          (some last.verdict.depth) (some last.verdict.viewWeights) firsts.2 with
      | error failure => simp [hseconds]
      | ok seconds =>
        obtain ⟨last', hlast'⟩ := exists_last hn hseconds
        simp [hseconds, hlast']

end Split

section Build

variable {settings : StageSettings δ} {index m n : Nat} {final : Bool} {scope : String}

def patternsWithRounds (patterns : settings.Patterns) (count : Nat) :
    (settings.withRounds count).Patterns :=
  ⟨patterns.lending, patterns.support, patterns.lending_eq, patterns.support_eq⟩

omit [Scalar α] [Precision α δ] in
theorem validate_withRounds (index : Nat) {count count' : Nat} (h : 0 < count) (h' : 0 < count') :
    (settings.withRounds count').validate index = (settings.withRounds count).validate index := by
  have hfault : (settings.withRounds count').fault? = (settings.withRounds count).fault? := by
    rw [StageSettings.fault?, StageSettings.fault?, StageSettings.iterations_withRounds,
      StageSettings.iterations_withRounds, if_neg h.ne', if_neg h'.ne']
    rfl
  simp only [StageSettings.validate, hfault]
  rfl

omit [Precision α δ] in
/-- Stages with rounds from the same settings ask for learned parts, or fail alike. -/
theorem blueprint_withRounds (settings : StageSettings δ) (index : Nat) (parallel : Bool)
    (scope : String) :
    (∃ failure, ∀ count final, 0 < count →
      (blueprint (settings.withRounds count) index final parallel scope :
        Result (Blueprint α (Stage α δ))) = .error failure) ∨
    ∃ patterns : settings.Patterns, ∀ count final, 0 < count →
      (blueprint (settings.withRounds count) index final parallel scope :
        Result (Blueprint α (Stage α δ))) =
        .ok (parts (patternsWithRounds patterns count) index final parallel scope) := by
  cases hvalid : (settings.withRounds 1).validate index with
  | error failure =>
    left
    refine ⟨failure, fun count final hcount => ?_⟩
    simp only [blueprint, validate_withRounds index Nat.one_pos hcount, hvalid, error_bind]
  | ok _ =>
    right
    obtain ⟨patterns⟩ := (StageSettings.validate_eq_ok.1 hvalid).patterns
    refine ⟨⟨patterns.lending, patterns.support, patterns.lending_eq, patterns.support_eq⟩,
      fun count final hcount => ?_⟩
    exact blueprint_of_valid ((validate_withRounds index Nat.one_pos hcount).trans hvalid) _ _ _ _

omit [Scalar δ] [Precision α δ] in
/-- The stage with other rounds is put together from the same answers. -/
theorem parts_withRounds (patterns : settings.Patterns) (answers : String → Tensor α)
    (index : Nat) (parallel : Bool) (scope : String) {count count' : Nat} {final final' : Bool}
    (h : (settings.withRounds count').lends final' = true →
      (settings.withRounds count).lends final = true) :
    (parts (patternsWithRounds patterns count') index final' parallel scope).assemble answers =
      ((parts (patternsWithRounds patterns count) index final parallel scope).assemble
        answers).withRounds count' final' := by
  by_cases hlends : (settings.withRounds count').lends final' = true
  · simp only [parts, Blueprint.assemble_seq, Blueprint.assemble_map, Blueprint.onlyIf_assemble,
      withRounds, StageSettings.withRounds_withRounds, hlends, h hlends, if_true]
    rfl
  · simp only [parts, Blueprint.assemble_seq, Blueprint.assemble_map, Blueprint.onlyIf_assemble,
      withRounds, StageSettings.withRounds_withRounds, hlends]
    rfl

omit [Scalar δ] [Precision α δ] in
theorem parts_local (patterns : settings.Patterns) (index : Nat) (final parallel : Bool)
    (scope : String) : (parts patterns index final parallel scope : Blueprint α _).Local :=
  (((((convolutionWithBias_local _ _ _ _ _).onlyIf _).map _).seq
    (convolutionWithBias_local _ _ _ _ _)).seq (matcher_local _ _ _ _)).seq
    (costNetwork_local _ _ _)

omit [Scalar δ] [Precision α δ] in
/-- The stage with other rounds asks for no more. -/
theorem requests_withRounds (patterns : settings.Patterns) (index : Nat) (parallel : Bool)
    (scope : String) {count count' : Nat} {final final' : Bool}
    (h : (settings.withRounds count').lends final' = true →
      (settings.withRounds count).lends final = true) :
    (parts (patternsWithRounds patterns count') index final' parallel scope :
        Blueprint α _).requests ⊆
      (parts (patternsWithRounds patterns count) index final parallel scope :
        Blueprint α _).requests := by
  by_cases hlends : (settings.withRounds count').lends final' = true
  · simp only [parts, hlends, h hlends]
    exact List.Subset.refl _
  · intro request hrequest
    simp only [parts, Blueprint.requests_seq, Blueprint.requests_map, List.append_assoc, hlends]
      at hrequest ⊢
    exact List.mem_append_right _ hrequest

/-- Running the rounds of a stage in one call equals running the first of them with a stage that is
not final, and handing its depth, its view weights and the generator to a stage with the others. -/
theorem estimate_split [WorkerPool] (settings : StageSettings δ) (index : Nat)
    (final parallel : Bool) (scope : String) (source : ParameterSource α) (hm : 0 < m) (hn : 0 < n)
    (views : ViewFeatures α) (range : DepthRange δ) (estimate carried : Option (Tensor α))
    (rng : σ) :
    (do
      let whole ← build (settings.withRounds (m + n)) index final parallel scope source
      whole.estimate views range estimate carried rng) = (do
      let first ← build (settings.withRounds m) index false parallel scope source
      let second ← build (settings.withRounds n) index final parallel scope source
      let (verdict, rng) ← first.estimate views range estimate carried rng
      second.estimate views range (some verdict.depth) (some verdict.viewWeights) rng) := by
  rcases blueprint_withRounds (α := α) settings index parallel scope with
    ⟨failure, hfailure⟩ | ⟨patterns, hparts⟩
  · simp only [build, hfailure _ _ hm, hfailure _ _ (Nat.add_pos_left hm n), error_bind]
  · simp only [build, hparts _ _ hm, hparts _ _ hn, hparts _ _ (Nat.add_pos_left hm n), ok_bind]
    have hwhole : (settings.withRounds (m + n)).lends final = decide (0 < settings.lenders) :=
      StageSettings.lends_of_lt (Nat.add_pos_left hm n) fun _ => Nat.add_lt_add_of_lt_of_le hm hn
    have hfirst : (settings.withRounds m).lends false = (settings.withRounds (m + n)).lends final :=
      hwhole ▸ StageSettings.lends_of_lt hm (by simp)
    cases hbuild : (parts (patternsWithRounds patterns (m + n)) index final parallel scope).build
        source with
    | error failure =>
      have hrequests : (parts (patternsWithRounds patterns m) index false parallel scope :
          Blueprint α (Stage α δ)).requests =
          (parts (patternsWithRounds patterns (m + n)) index final parallel scope :
            Blueprint α (Stage α δ)).requests := by
        simp only [parts, Blueprint.requests_seq, Blueprint.requests_map, hfirst]
        rfl
      rw [Blueprint.build_error hrequests hbuild]
      rfl
    | ok whole =>
      obtain ⟨answers, hanswers, rfl⟩ := Blueprint.exists_answers
        (stage_names_nodup _ index final parallel scope) hbuild
      -- neither of the two stages needs a parameter that the whole one lacks
      have hneeds (count : Nat) (final' : Bool)
          (h : (settings.withRounds count).lends final' = true) :
          (settings.withRounds (m + n)).lends final = true := by
        have hlenders : 0 < (settings.withRounds count).lenders := StageSettings.lenders_pos h
        exact hwhole.trans (decide_eq_true hlenders)
      have hpart (count : Nat) (final' : Bool) :
          (parts (patternsWithRounds patterns count) index final' parallel scope).build source =
            .ok (((parts (patternsWithRounds patterns (m + n)) index final parallel
              scope).assemble answers).withRounds count final') := by
        rw [Blueprint.build_of_answered hanswers
          (requests_withRounds patterns index parallel scope (hneeds count final'))
          (parts_local _ _ _ _ _) (stage_names_nodup _ _ _ _ _),
          parts_withRounds patterns answers index parallel scope (hneeds count final')]
      rw [hpart m false, hpart n final]
      refine estimate_withRounds rfl hm hn ?_ views range estimate carried rng
      intro hnever
      simp only [parts, Blueprint.assemble_seq, Blueprint.assemble_map,
        Blueprint.onlyIf_assemble] at hnever ⊢
      rw [hnever]
      rfl

attribute [local instance] WorkerPool.inTurn

/-- The coarsest stage of the default settings, whose two rounds are run one by one. -/
theorem estimate_split_varied :
    0 < 1 ∧ (do
      let whole ← build (StageSettings.coarse.withRounds (1 + 1)) 0 false false "patch_match_3"
        variedSource
      whole.estimate (.varied 64 4 4) unitRange none none Tape.varied) = (do
      let first ← build (StageSettings.coarse.withRounds 1) 0 false false "patch_match_3"
        variedSource
      let second ← build (StageSettings.coarse.withRounds 1) 0 false false "patch_match_3"
        variedSource
      let (verdict, rng) ← first.estimate (.varied 64 4 4) unitRange none none Tape.varied
      second.estimate (.varied 64 4 4) unitRange (some verdict.depth) (some verdict.viewWeights)
        rng) :=
  ⟨Nat.one_pos, estimate_split .coarse 0 false false "patch_match_3" variedSource Nat.one_pos
    Nat.one_pos (.varied 64 4 4) unitRange none none Tape.varied⟩

end Build

end Stage

end MultiViewDepth
