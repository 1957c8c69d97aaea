import MultiViewDepth.Proofs.ParameterNames
import MultiViewDepth.Proofs.TwinRun

/-!
Estimators built from settings and parameters: when there is one, and that its parts fit each other.
-/
namespace MultiViewDepth

open Tensor

section Settings

variable {δ : Type} [Scalar δ] {settings : StageSettings δ}

structure StageSettings.Patterns (settings : StageSettings δ) where
  lending : Pattern
  support : Pattern
  lending_eq : settings.lendingPattern = .ok lending
  support_eq : settings.supportPattern = .ok support

structure StageSettings.Valid (settings : StageSettings δ) : Prop where
  iterations_pos : 0 < settings.iterations
  samples_pos : 0 < settings.samples
  interval_pos : 0 < settings.interval
  interval_finite : Scalar.isFinite settings.interval = true
  range_pos : 0 < settings.range
  groups_ne_zero : settings.groups ≠ 0
  features_mod : settings.features % settings.groups = 0
  patterns : Nonempty settings.Patterns

theorem StageSettings.validate_eq_ok {stage : Nat} {u : Unit} :
    settings.validate stage = .ok u ↔ settings.Valid := by
  constructor
  · intro h
    obtain ⟨lending, hl, h⟩ := bind_eq_ok.1 h
    obtain ⟨support, hs, h⟩ := bind_eq_ok.1 h
    have hfault : settings.fault? = none := by
      cases hfault : settings.fault? with
      | none => rfl
      | some fault => rw [hfault] at h; cases h
    unfold fault? at hfault
    split_ifs at hfault with h1 h2 h3 h4 h5
    rw [not_or, not_not] at h5
    exact ⟨Nat.pos_of_ne_zero h1, Nat.pos_of_ne_zero h2, h3.1, h3.2,
      Nat.pos_of_ne_zero h4, h5.1, h5.2, ⟨lending, support, hl, hs⟩⟩
  · intro h
    obtain ⟨patterns⟩ := h.patterns
    have hfault : settings.fault? = none := by
      simp [fault?, h.iterations_pos.ne', h.samples_pos.ne', h.interval_pos, h.interval_finite,
        h.range_pos.ne', h.groups_ne_zero, h.features_mod]
    simp [validate, patterns.lending_eq, patterns.support_eq, hfault]

omit [Scalar δ] in
/-- Only patterns of nine or seventeen neighbors support the matching cost. -/
theorem StageSettings.Patterns.supporters_pos (patterns : settings.Patterns) :
    0 < settings.supporters := by
  have hpattern := patterns.support_eq
  by_contra hzero
  rw [StageSettings.supportPattern, Nat.eq_zero_of_not_pos hzero] at hpattern
  cases hpattern

omit [Scalar δ] in
theorem StageSettings.lenders_pos {final : Bool} (h : settings.lends final = true) :
    0 < settings.lenders := by
  obtain ⟨iteration, -, hlends⟩ := List.any_eq_true.1 h
  simp only [lendsIn, Bool.and_eq_true, decide_eq_true_eq] at hlends
  exact hlends.1

theorem Settings.validate_eq_ok {settings : Settings δ} {u : Unit} :
    settings.validate = .ok u ↔
      settings.coarse.Valid ∧ settings.middle.Valid ∧ settings.fine.Valid := by
  constructor
  · intro h
    obtain ⟨_, hc, h⟩ := bind_eq_ok.1 h
    obtain ⟨_, hm, hf⟩ := bind_eq_ok.1 h
    exact ⟨StageSettings.validate_eq_ok.1 hc, StageSettings.validate_eq_ok.1 hm,
      StageSettings.validate_eq_ok.1 hf⟩
  · rintro ⟨hc, hm, hf⟩
    have hvalid {stage : StageSettings δ} (index : Nat) (h : stage.Valid) :
        stage.validate index = .ok () := StageSettings.validate_eq_ok.2 h
    simp only [Settings.validate, hvalid 0 hc, hvalid 1 hm, hvalid 2 hf, ok_bind]

end Settings

section Blueprints

variable {α δ : Type} [Scalar α] [Scalar δ]

/-- The learned parts of a stage whose patterns can be built. -/
def Stage.parts {settings : StageSettings δ} (patterns : settings.Patterns) (index : Nat)
    (final parallel : Bool) (scope : String) : Blueprint α (Stage α δ) :=
  (fun lendingOffsets supportOffsets matcher featureHead =>
    { settings, index, final, lendingOffsets, supportOffsets, matcher, featureHead,
      lendingPattern := patterns.lending, supportPattern := patterns.support,
      sampler := ⟨settings.samples, settings.interval⟩ })
    <$> .onlyIf (settings.lends final)
      (Stage.offsetPredictor (dotted scope "propagation_conv") settings.features settings.lenders
        settings.range)
    <*> Stage.offsetPredictor (dotted scope "evaluation_conv") settings.features
      settings.supporters settings.range
    <*> Matcher.blueprint (dotted scope "evaluation") settings.groups (index == 0) parallel
    <*> costNetwork (dotted scope "feature_weight_net.feature_weight") settings.groups .sigmoid

theorem Stage.blueprint_eq_ok {settings : StageSettings δ} {index : Nat} {final parallel : Bool}
    {scope : String} {b : Blueprint α (Stage α δ)}
    (h : Stage.blueprint settings index final parallel scope = .ok b) :
    ∃ patterns : settings.Patterns, b = Stage.parts patterns index final parallel scope := by
  obtain ⟨_, -, h⟩ := bind_eq_ok.1 h
  obtain ⟨lending, hl, h⟩ := bind_eq_ok.1 h
  obtain ⟨support, hs, h⟩ := bind_eq_ok.1 h
  obtain ⟨sampler, hsampler, h⟩ := bind_eq_ok.1 h
  unfold Sampler.of at hsampler
  split at hsampler
  · cases hsampler
  · cases hsampler
    cases h
    exact ⟨⟨lending, support, hl, hs⟩, rfl⟩

theorem Stage.blueprint_of_valid {settings : StageSettings δ} {index : Nat} {u : Unit}
    (h : settings.validate index = .ok u) (patterns : settings.Patterns) (final parallel : Bool)
    (scope : String) :
    Stage.blueprint settings index final parallel scope =
      .ok (Stage.parts patterns index final parallel scope : Blueprint α (Stage α δ)) := by
  have hvalid := StageSettings.validate_eq_ok.1 h
  have hsampler : Sampler.of settings.samples settings.interval =
      .ok ⟨settings.samples, settings.interval⟩ := if_neg hvalid.samples_pos.ne'
  simp only [Stage.blueprint, h, patterns.lending_eq, patterns.support_eq, hsampler, ok_bind]
  rfl

theorem Stage.exists_blueprint {settings : StageSettings δ} {index : Nat} {u : Unit}
    (h : settings.validate index = .ok u) (final parallel : Bool) (scope : String) :
    ∃ b : Blueprint α (Stage α δ), Stage.blueprint settings index final parallel scope = .ok b := by
  obtain ⟨patterns⟩ := (StageSettings.validate_eq_ok.1 h).patterns
  exact ⟨_, Stage.blueprint_of_valid h patterns final parallel scope⟩

omit [Scalar δ] in
/-- The requests of a stage, part by part. -/
theorem stage_join {settings : StageSettings δ} (patterns : settings.Patterns) (index : Nat)
    (final parallel : Bool) (scope : String) :
    ∃ parts : List (String × List ParameterRequest),
      (Stage.parts patterns index final parallel scope : Blueprint α _).requests =
        parts.flatMap Prod.snd ∧
      (∀ part ∈ parts, Tidy (dotted scope part.1) part.2) ∧
      (parts.map Prod.fst).Pairwise Apart := by
  have hne {name : String} (h : name ≠ "") : dotted scope name ≠ "" :=
    dotted_ne_empty_of_name scope h
  refine ⟨[("propagation_conv", (Blueprint.onlyIf (settings.lends final)
        (Stage.offsetPredictor (dotted scope "propagation_conv") settings.features
          settings.lenders settings.range) : Blueprint α _).requests),
      ("evaluation_conv", (Stage.offsetPredictor (dotted scope "evaluation_conv")
        settings.features settings.supporters settings.range : Blueprint α _).requests),
      ("evaluation", (Matcher.blueprint (dotted scope "evaluation") settings.groups (index == 0)
        parallel : Blueprint α _).requests),
      ("feature_weight_net.feature_weight",
        (costNetwork (dotted scope "feature_weight_net.feature_weight") settings.groups .sigmoid :
          Blueprint α _).requests)], ?_, ?_, ?_⟩
  · simp [Stage.parts]
  · have hlending : dotted scope "propagation_conv" ≠ "" := hne (by decide)
    simp [Stage.offsetPredictor, onlyIf_tidy, convolutionWithBias_tidy, matcher_tidy,
      costNetwork_tidy, hne, hlending]
  · simp only [List.map_cons, List.map_nil]
    decide

omit [Scalar δ] in
theorem stage_tidy {scope : String} (hscope : scope ≠ "") {settings : StageSettings δ}
    (patterns : settings.Patterns) (index : Nat) (final parallel : Bool) :
    Tidy scope (Stage.parts patterns index final parallel scope : Blueprint α _).requests := by
  obtain ⟨parts, hrequests, htidy, hapart⟩ := stage_join (α := α) patterns index final parallel
    scope
  rw [hrequests]
  exact Tidy.join parts hscope htidy hapart

omit [Scalar δ] in
/-- Every parameter of a stage has a name of its own, also where the scope is empty. -/
theorem stage_names_nodup {settings : StageSettings δ} (patterns : settings.Patterns)
    (index : Nat) (final parallel : Bool) (scope : String) :
    ((Stage.parts patterns index final parallel scope : Blueprint α _).requests.map
      (·.name)).Nodup := by
  obtain ⟨parts, hrequests, htidy, hapart⟩ := stage_join (α := α) patterns index final parallel
    scope
  rw [hrequests]
  exact Tidy.nodup_join parts htidy hapart

def Estimator.parts {settings : Settings δ} (coarse : settings.coarse.Patterns)
    (middle : settings.middle.Patterns) (fine : settings.fine.Patterns) :
    Blueprint α (Estimator α δ) :=
  (fun extractor stages refiner => ⟨settings, extractor, stages, refiner⟩)
    <$> FeatureExtractor.blueprint "feature" settings.coarse.features settings.middle.features
      settings.fine.features
    <*> .list [Stage.parts coarse 0 false settings.parallel "patch_match_3",
      Stage.parts middle 1 false settings.parallel "patch_match_2",
      Stage.parts fine 2 true settings.parallel "patch_match_1"]
    <*> Refiner.blueprint "refinement"

theorem Estimator.blueprint_eq_ok {settings : Settings δ} {b : Blueprint α (Estimator α δ)}
    (h : Estimator.blueprint settings = .ok b) :
    settings.validate = .ok () ∧
      ∃ (coarse : settings.coarse.Patterns) (middle : settings.middle.Patterns)
        (fine : settings.fine.Patterns), b = Estimator.parts coarse middle fine := by
  obtain ⟨_, hvalid, h⟩ := bind_eq_ok.1 h
  obtain ⟨coarse, hc, h⟩ := bind_eq_ok.1 h
  obtain ⟨middle, hm, h⟩ := bind_eq_ok.1 h
  obtain ⟨fine, hf, h⟩ := bind_eq_ok.1 h
  obtain ⟨coarse, rfl⟩ := Stage.blueprint_eq_ok hc
  obtain ⟨middle, rfl⟩ := Stage.blueprint_eq_ok hm
  obtain ⟨fine, rfl⟩ := Stage.blueprint_eq_ok hf
  cases h
  exact ⟨hvalid, coarse, middle, fine, rfl⟩

/-- Estimators are built from accepted settings only. -/
theorem Estimator.valid_of_build [Precision α δ] {settings : Settings δ}
    {source : ParameterSource α} {estimator : Estimator α δ}
    (h : Estimator.build settings source = .ok estimator) :
    settings.coarse.Valid ∧ settings.middle.Valid ∧ settings.fine.Valid := by
  obtain ⟨_, hblueprint, -⟩ := bind_eq_ok.1 h
  exact Settings.validate_eq_ok.1 (blueprint_eq_ok hblueprint).1

theorem Estimator.exists_blueprint {settings : Settings δ} {u : Unit}
    (h : settings.validate = .ok u) :
    ∃ b : Blueprint α (Estimator α δ), Estimator.blueprint settings = .ok b := by
  obtain ⟨_, hc, h'⟩ := bind_eq_ok.1 h
  obtain ⟨_, hm, hf⟩ := bind_eq_ok.1 h'
  obtain ⟨coarse, hcoarse⟩ := Stage.exists_blueprint (α := α) hc false settings.parallel
    "patch_match_3"
  obtain ⟨middle, hmiddle⟩ := Stage.exists_blueprint (α := α) hm false settings.parallel
    "patch_match_2"
  obtain ⟨fine, hfine⟩ := Stage.exists_blueprint (α := α) hf true settings.parallel
    "patch_match_1"
  simp only [Estimator.blueprint, h, hcoarse, hmiddle, hfine, ok_bind]
  exact ⟨_, rfl⟩

def Estimator.scopes : List String :=
  ["feature", "patch_match_3", "patch_match_2", "patch_match_1", "refinement"]

/-- The requests of an estimator, part by part. -/
theorem Estimator.join {settings : Settings δ} {b : Blueprint α (Estimator α δ)}
    (h : Estimator.blueprint settings = .ok b) :
    ∃ parts : List (String × List ParameterRequest), b.requests = parts.flatMap Prod.snd ∧
      (∀ part ∈ parts, Tidy part.1 part.2) ∧ parts.map Prod.fst = scopes := by
  obtain ⟨-, coarse, middle, fine, rfl⟩ := Estimator.blueprint_eq_ok h
  refine ⟨[("feature", (FeatureExtractor.blueprint "feature" settings.coarse.features
        settings.middle.features settings.fine.features : Blueprint α _).requests),
      ("patch_match_3", (Stage.parts coarse 0 false settings.parallel "patch_match_3" :
        Blueprint α _).requests),
      ("patch_match_2", (Stage.parts middle 1 false settings.parallel "patch_match_2" :
        Blueprint α _).requests),
      ("patch_match_1", (Stage.parts fine 2 true settings.parallel "patch_match_1" :
        Blueprint α _).requests),
      ("refinement", (Refiner.blueprint "refinement" : Blueprint α _).requests)], ?_, ?_, rfl⟩
  · simp [Estimator.parts]
  · simp [extractor_tidy, stage_tidy, refiner_tidy]

/-- Every parameter of an estimator has a name of its own. -/
theorem Estimator.names_nodup {settings : Settings δ} {b : Blueprint α (Estimator α δ)}
    (h : Estimator.blueprint settings = .ok b) : (b.requests.map (·.name)).Nodup := by
  obtain ⟨parts, hrequests, htidy, hscopes⟩ := Estimator.join h
  have hapart : scopes.Pairwise Apart := by decide
  rw [hrequests]
  exact Tidy.nodup_flatMap parts htidy (hscopes ▸ hapart)

/-- Every parameter of an estimator lies in the scope of one of its parts. -/
theorem Estimator.name_ne {settings : Settings δ} {b : Blueprint α (Estimator α δ)}
    (h : Estimator.blueprint settings = .ok b) {request : ParameterRequest}
    (hrequest : request ∈ b.requests) {name : String} (hname : ∀ scope ∈ scopes, Apart scope name) :
    request.name ≠ name := by
  obtain ⟨parts, hrequests, htidy, hscopes⟩ := Estimator.join h
  rw [hrequests] at hrequest
  obtain ⟨part, hpart, hrequest⟩ := List.mem_flatMap.1 hrequest
  have hscope : part.1 ∈ scopes := hscopes ▸ List.mem_map_of_mem hpart
  exact (hname part.1 hscope).ne ((htidy part hpart).below request hrequest)
    (List.prefix_refl _)

end Blueprints

section Answers

open Blueprint

variable {α β δ : Type} [Scalar α] [Scalar δ] [Precision α δ] {b : Blueprint α β}
  {source : ParameterSource α}

def AnsweredBy (source : ParameterSource α) (requests : List ParameterRequest)
    (answers : String → Tensor α) : Prop :=
  ∀ request ∈ requests, ∃ t, source request = some t ∧ t.shape = request.shape ∧
    answers request.name = t.toSingle

theorem AnsweredBy.answered {requests : List ParameterRequest} {answers : String → Tensor α}
    (h : AnsweredBy source requests answers) : Answered requests answers := by
  intro request hrequest
  obtain ⟨t, -, hshape, heq⟩ := h request hrequest
  rw [heq, shape_toSingle, hshape]

theorem answer_eq_ok {request : ParameterRequest} {entry : String × Tensor α}
    (h : answer source request = .ok entry) :
    ∃ t, source request = some t ∧ t.shape = request.shape ∧
      entry = (request.name, t.toSingle) := by
  unfold answer at h
  split at h
  next t ht =>
    split at h
    next hshape => cases h; exact ⟨t, ht, hshape, rfl⟩
    next => cases h
  next => cases h

omit [Scalar α] in
theorem lookup_of_mem {entries : List (String × Tensor α)} (h : (entries.map Prod.fst).Nodup)
    {name : String} {t : Tensor α} (hmem : (name, t) ∈ entries) : entries.lookup name = some t := by
  induction entries with
  | nil => cases hmem
  | cons entry entries ih =>
    obtain ⟨habsent, hrest⟩ := List.nodup_cons.1 h
    rcases List.mem_cons.1 hmem with rfl | hmem
    · simp
    · have hne : name ≠ entry.1 := by
        rintro rfl
        exact habsent (List.mem_map.2 ⟨_, hmem, rfl⟩)
      rw [List.lookup_cons, beq_false_of_ne hne]
      exact ih hrest hmem

theorem map_fst_of_answers {requests : List ParameterRequest} {entries : List (String × Tensor α)}
    (h : List.Forall₂ (fun request entry => answer source request = .ok entry) requests entries) :
    entries.map Prod.fst = requests.map (·.name) := by
  induction h with
  | nil => rfl
  | cons hanswer _ ih =>
    obtain ⟨t, -, -, rfl⟩ := answer_eq_ok hanswer
    simp [ih]

theorem mem_of_answers {requests : List ParameterRequest} {entries : List (String × Tensor α)}
    (h : List.Forall₂ (fun request entry => answer source request = .ok entry) requests entries)
    {request : ParameterRequest} (hmem : request ∈ requests) :
    ∃ t, source request = some t ∧ t.shape = request.shape ∧
      (request.name, t.toSingle) ∈ entries := by
  induction h with
  | nil => cases hmem
  | cons hanswer _ ih =>
    rcases List.mem_cons.1 hmem with rfl | hmem
    · obtain ⟨t, ht, hshape, rfl⟩ := answer_eq_ok hanswer
      exact ⟨t, ht, hshape, by simp⟩
    · obtain ⟨t, ht, hshape, hin⟩ := ih hmem
      exact ⟨t, ht, hshape, List.mem_cons_of_mem _ hin⟩

/-- A part that is built has answers to all its requests. -/
theorem Blueprint.exists_answers {part : β} (hnames : (b.requests.map (·.name)).Nodup)
    (h : b.build source = .ok part) :
    ∃ answers, AnsweredBy source b.requests answers ∧ b.assemble answers = part := by
  obtain ⟨entries, hentries, h⟩ := bind_eq_ok.1 h
  cases h
  have hall := mapM_eq_ok hentries
  have hkeys : (entries.map Prod.fst).Nodup := by
    rw [map_fst_of_answers hall]
    exact hnames
  refine ⟨_, fun request hrequest => ?_, rfl⟩
  obtain ⟨t, ht, hshape, hmem⟩ := mem_of_answers hall hrequest
  refine ⟨t, ht, hshape, ?_⟩
  rw [lookup_of_mem hkeys hmem]
  rfl

/-- A part can be built when all its requests are answered with arrays of their shapes. -/
theorem Blueprint.exists_build
    (h : ∀ request ∈ b.requests, ∃ t, source request = some t ∧ t.shape = request.shape) :
    ∃ part, b.build source = .ok part := by
  have hanswers : b.requests.mapM (answer source) =
      .ok (b.requests.map fun request => (request.name, ((source request).getD
        (Tensor.ofFn [] fun _ => 0)).toSingle)) := by
    refine mapM_ok fun request hrequest => ?_
    obtain ⟨t, ht, hshape⟩ := h request hrequest
    simp [answer, ht, hshape]
  simp only [Blueprint.build, hanswers, ok_bind]
  exact ⟨_, rfl⟩

/-- What the source answers to the requests of an estimator has the shapes asked for. -/
def ParameterSource.Answers (source : ParameterSource α) (settings : Settings δ) : Prop :=
  ∀ b : Blueprint α (Estimator α δ), Estimator.blueprint settings = .ok b →
    ∀ request ∈ b.requests, ∃ t, source request = some t ∧ t.shape = request.shape

theorem Estimator.exists_build {settings : Settings δ} {u : Unit}
    (hvalid : settings.validate = .ok u) (hsource : source.Answers settings) :
    ∃ estimator, Estimator.build settings source = .ok estimator := by
  obtain ⟨b, hb⟩ := Estimator.exists_blueprint (α := α) hvalid
  simp only [Estimator.build, hb, ok_bind]
  exact Blueprint.exists_build (hsource b hb)

end Answers

section Following

variable {α δ : Type} [Scalar α] [Scalar δ]

/-- All that the settings decide of a stage; what is left are its learned parts. -/
structure Stage.Follows (stage : Stage α δ) (settings : StageSettings δ) (index : Nat)
    (final : Bool) : Prop where
  settings_eq : stage.settings = settings
  index_eq : stage.index = index
  final_eq : stage.final = final
  lending_eq : settings.lendingPattern = .ok stage.lendingPattern
  support_eq : settings.supportPattern = .ok stage.supportPattern
  sampler_eq : stage.sampler = ⟨settings.samples, settings.interval⟩

def Estimator.Follows (estimator : Estimator α δ) (settings : Settings δ) : Prop :=
  ∃ coarse middle fine, estimator.stages = [coarse, middle, fine] ∧
    coarse.Follows settings.coarse 0 false ∧ middle.Follows settings.middle 1 false ∧
    fine.Follows settings.fine 2 true

omit [Scalar δ] in
theorem Stage.parts_follows {settings : StageSettings δ} (patterns : settings.Patterns)
    (index : Nat) (final parallel : Bool) (scope : String) (answers : String → Tensor α) :
    ((Stage.parts patterns index final parallel scope).assemble answers).Follows settings index
      final :=
  ⟨rfl, rfl, rfl, patterns.lending_eq, patterns.support_eq, rfl⟩

theorem Estimator.follows_of_build [Precision α δ] {settings : Settings δ}
    {source : ParameterSource α} {estimator : Estimator α δ}
    (h : Estimator.build settings source = .ok estimator) : estimator.Follows settings := by
  obtain ⟨b, hb, hbuild⟩ := bind_eq_ok.1 h
  obtain ⟨answers, -, rfl⟩ := Blueprint.exists_answers (Estimator.names_nodup hb) hbuild
  obtain ⟨-, coarse, middle, fine, rfl⟩ := Estimator.blueprint_eq_ok hb
  exact ⟨_, _, _, rfl, Stage.parts_follows coarse _ _ _ _ _, Stage.parts_follows middle _ _ _ _ _,
    Stage.parts_follows fine _ _ _ _ _⟩

end Following

end MultiViewDepth
