import MultiViewDepth.Proofs.Assembly

/-!
The parts of an estimator that is built from valid settings fit each other.
-/
namespace MultiViewDepth

open Tensor Blueprint MultiViewDepth.Convolution

variable {α : Type} [Scalar α] {answers : String → Tensor α} {scope : String}

omit [Scalar α] in
theorem answered_onlyIf {β : Type} {part : Blueprint α β} {condition : Bool}
    (h : Answered (onlyIf condition part).requests answers)
    (hcondition : condition = true) : Answered part.requests answers := by
  subst hcondition
  exact h

section Stages

variable {δ : Type} [Scalar δ]

/-- Heads with the parameters that they ask for take the groups of every voxel to one number. -/
theorem matcher_sound {groups features : Nat} {ratesViews parallel : Bool} (hgroups : groups ≠ 0)
    (hmod : features % groups = 0)
    (h : Answered (Matcher.blueprint scope groups ratesViews parallel : Blueprint α _).requests
      answers) :
    ((Matcher.blueprint scope groups ratesViews parallel).assemble answers).Sound features := by
  simp only [Matcher.blueprint, answered_seq, answered_map] at h
  refine ⟨hgroups, hmod, fun head hhead s => ?_, fun s => costNetwork_batchwise hgroups h.2⟩
  simp only [Matcher.blueprint, assemble_seq, assemble_map, onlyIf_assemble] at hhead
  split at hhead
  next hrates =>
    obtain rfl := Option.some.inj hhead
    exact costNetwork_batchwise hgroups (answered_onlyIf h.1 hrates)
  next => cases hhead

theorem offsetPredictor_batchwise {features neighbors range height width : Nat}
    (hheight : 0 < height) (hwidth : 0 < width)
    (h : Answered (Stage.offsetPredictor scope features neighbors range :
      Blueprint α _).requests answers) :
    Batchwise ((Stage.offsetPredictor scope features neighbors range).assemble answers)
      [features, height, width] [2 * neighbors, height, width] :=
  convolutionWithBias_batchwise h (outputSize_dilated range hheight)
    (outputSize_dilated range hwidth)

/-- A stage with the parameters that it asks for has parts that fit its settings. -/
theorem stage_sound {settings : StageSettings δ} (hvalid : settings.Valid)
    (patterns : settings.Patterns) (index : Nat) (final parallel : Bool)
    (h : Answered (Stage.parts patterns index final parallel scope : Blueprint α _).requests
      answers) :
    ((Stage.parts patterns index final parallel scope).assemble answers).Sound := by
  simp only [Stage.parts, answered_seq, answered_map] at h
  obtain ⟨⟨⟨hlending, hsupport⟩, hmatcher⟩, hfeatures⟩ := h
  have hlends {predict : Layer α}
      (hpredict : predict ∈ ((Stage.parts patterns index final parallel scope :
        Blueprint α _).assemble answers).lendingOffsets) :
      settings.lends final = true ∧ predict = (Stage.offsetPredictor
        (dotted scope "propagation_conv") settings.features settings.lenders
        settings.range).assemble answers := by
    simp only [Stage.parts, assemble_seq, assemble_map, onlyIf_assemble] at hpredict
    split at hpredict
    next hl => exact ⟨hl, (Option.some.inj hpredict).symm⟩
    next => cases hpredict
  exact {
    iterations_pos := hvalid.iterations_pos
    sampler_pos := hvalid.samples_pos
    supporters_pos := patterns.supporters_pos
    lenders_pos := fun hsome => by
      obtain ⟨predict, hpredict⟩ := Option.isSome_iff_exists.1 hsome
      exact StageSettings.lenders_pos (hlends hpredict).1
    length_support := Pattern.length_of_build patterns.support_eq
    length_lending := Pattern.length_of_build patterns.lending_eq
    groups_eq := rfl
    matcher := matcher_sound hvalid.groups_ne_zero hvalid.features_mod hmatcher
    featureHead := fun s => costNetwork_batchwise hvalid.groups_ne_zero hfeatures
    supportOffsets := fun height width hheight hwidth =>
      offsetPredictor_batchwise hheight hwidth hsupport
    lendingOffsets := fun predict hpredict height width hheight hwidth => by
      obtain ⟨hl, rfl⟩ := hlends hpredict
      exact offsetPredictor_batchwise hheight hwidth (answered_onlyIf hlending hl) }

end Stages

section Extraction

open FeatureExtractor

variable {inputs outputs height width : Nat}

/-- The strided block halves a map with even sides. -/
theorem halvingBlock_batchwise (houtputs : outputs ≠ 0) (hheight : 0 < height) (hwidth : 0 < width)
    (h : Answered (convolutionBlock scope inputs outputs 5 ⟨2, 2, 1⟩ : Blueprint α _).requests
      answers) :
    Batchwise ((convolutionBlock scope inputs outputs 5 ⟨2, 2, 1⟩).assemble answers)
      [inputs, 2 * height, 2 * width] [outputs, height, width] :=
  convolutionBlock_batchwise h houtputs (outputSize_halve rfl hheight) (outputSize_halve rfl hwidth)

/-- Nothing can be normalized in a batch without elements. -/
theorem normalize_empty {norm : Normalization α} {t : Tensor α} {channels : Nat} {rest : List Nat}
    (hshape : t.shape = 0 :: channels :: rest) (hkind : t.kind = .single) :
    norm.apply t = .error .tensor := by
  have hsingle : t.requireSingle = .ok () := requireSingle_eq_ok.2 hkind
  simp only [Normalization.apply, hsingle, ok_bind, hshape, true_or, if_true, throw_eq_error,
    error_bind]

/-- A convolution whose kernels fit the map gives a map. -/
theorem convolve_ok {kernels t : Tensor α} {batch kernel rows columns : Nat} {stride : Stride}
    (hshape : t.shape = [batch, inputs, height, width]) (hkind : t.kind = .single)
    (hk : kernels.shape = [outputs, inputs, kernel, kernel])
    (hrows : outputSize stride height kernel = some rows)
    (hcolumns : outputSize stride width kernel = some columns) :
    ∃ u, Convolution.apply stride kernels t = .ok u ∧ u.shape = [batch, outputs, rows, columns] ∧
      u.kind = .single := by
  have hsingle : t.requireSingle = .ok () := requireSingle_eq_ok.2 hkind
  simp only [Convolution.apply, sizes4_eq_ok.2 hshape, sizes4_eq_ok.2 hk, ok_bind, if_true,
    hsingle, hrows, hcolumns]
  exact ⟨_, rfl, rfl, rfl⟩

/-- A batch without elements cannot be convolved. -/
theorem sameSizeBlock_empty {t : Tensor α} (hheight : 0 < height) (hwidth : 0 < width)
    (hshape : t.shape = [0, inputs, height, width]) (hkind : t.kind = .single)
    (h : Answered (sameSizeBlock scope inputs outputs : Blueprint α _).requests answers) :
    (sameSizeBlock scope inputs outputs).assemble answers t = .error .tensor := by
  simp only [sameSizeBlock, convolutionBlock, Convolution.blueprint, answered_seq, answered_map,
    answered_parameter] at h
  obtain ⟨u, hu, hs, hk⟩ := convolve_ok hshape hkind h.1 (outputSize_dilated 1 hheight)
    (outputSize_dilated 1 hwidth)
  simp only [sameSizeBlock, convolutionBlock, Convolution.blueprint, assemble_seq, assemble_map,
    assemble_parameter, hu, ok_bind, normalize_empty hs hk, error_bind]

/-- Blocks with the right answers take elements of one shape to elements of another one. -/
def TrunkFits (answers : String → Tensor α) (scope : String) (start : Nat)
    (specs : List (Nat × Nat × Nat × Stride)) (s s' : List Nat) : Prop :=
  Answered (list (blocks scope start specs : List (Blueprint α _))).requests answers →
    Batchwise (chain ((list (blocks scope start specs)).assemble answers)) s s'

theorem trunkFits_nil {start : Nat} {s : List Nat} : TrunkFits answers scope start [] s s :=
  fun _ => .chain_nil

theorem trunkFits_cons {start kernel : Nat} {stride : Stride}
    {specs : List (Nat × Nat × Nat × Stride)} {s s' s'' : List Nat}
    (hblock : Answered (convolutionBlock (dotted scope start.repr) inputs outputs kernel stride :
        Blueprint α _).requests answers →
      Batchwise ((convolutionBlock (dotted scope start.repr) inputs outputs kernel
        stride).assemble answers) s s')
    (hrest : TrunkFits answers scope (start + 1) specs s' s'') :
    TrunkFits answers scope start ((inputs, outputs, kernel, stride) :: specs) s s'' := by
  intro h
  have hparts := answered_append.1 h
  exact .chain_cons (hblock hparts.1) (hrest hparts.2)

/-- A trunk whose blocks fit one another maps every batch element by itself. -/
theorem trunk_batchwise {specs : List (Nat × Nat × Nat × Stride)} {s s' : List Nat}
    (hfits : TrunkFits answers scope 0 specs s s')
    (h : Answered (trunk scope specs : Blueprint α _).requests answers) :
    Batchwise ((trunk scope specs).assemble answers) s s' :=
  hfits (answered_map.1 h)

theorem half_fits (hheight : 0 < height) (hwidth : 0 < width) :
    TrunkFits answers scope 0
      [(3, 8, same), (8, 8, same), (8, 16, halve), (16, 16, same), (16, 16, same)]
      [3, 2 * height, 2 * width] [16, height, width] := by
  have hheight' : 0 < 2 * height := by omega
  have hwidth' : 0 < 2 * width := by omega
  refine trunkFits_cons (sameSizeBlock_batchwise (by decide) hheight' hwidth') ?_
  refine trunkFits_cons (sameSizeBlock_batchwise (by decide) hheight' hwidth') ?_
  refine trunkFits_cons (halvingBlock_batchwise (by decide) hheight hwidth) ?_
  refine trunkFits_cons (sameSizeBlock_batchwise (by decide) hheight hwidth) ?_
  exact trunkFits_cons (sameSizeBlock_batchwise (by decide) hheight hwidth) trunkFits_nil

/-- The two deeper trunks have one form. -/
theorem deeper_fits (houtputs : outputs ≠ 0) (hheight : 0 < height) (hwidth : 0 < width) :
    TrunkFits answers scope 0
      [(inputs, outputs, halve), (outputs, outputs, same), (outputs, outputs, same)]
      [inputs, 2 * height, 2 * width] [outputs, height, width] := by
  refine trunkFits_cons (halvingBlock_batchwise houtputs hheight hwidth) ?_
  refine trunkFits_cons (sameSizeBlock_batchwise houtputs hheight hwidth) ?_
  exact trunkFits_cons (sameSizeBlock_batchwise houtputs hheight hwidth) trunkFits_nil

theorem trunk_empty {t : Tensor α} {specs : List (Nat × Nat × Nat × Stride)} (hheight : 0 < height)
    (hwidth : 0 < width) (hshape : t.shape = [0, inputs, height, width]) (hkind : t.kind = .single)
    (h : Answered (trunk scope ((inputs, outputs, same) :: specs) : Blueprint α _).requests
      answers) :
    (trunk scope ((inputs, outputs, same) :: specs)).assemble answers t = .error .tensor := by
  rw [trunk, answered_map] at h
  have hfirst := sameSizeBlock_empty hheight hwidth hshape hkind (answered_append.1 h).1
  have hchain (layers : List (Layer α)) {layer : Layer α} (hl : layer t = .error .tensor) :
      chain (layer :: layers) t = .error .tensor := by
    rw [chain, List.foldlM_cons, hl, error_bind]
  exact hchain _ hfirst

/-- The layers of the feature extractor fit together, whatever their parameters are. -/
theorem extractor_sound {coarse middle fine : Nat}
    (h : Answered (FeatureExtractor.blueprint scope coarse middle fine :
      Blueprint α _).requests answers) :
    ((FeatureExtractor.blueprint scope coarse middle fine).assemble answers).Sound coarse middle
      fine := by
  simp only [FeatureExtractor.blueprint, answered_seq, answered_map] at h
  obtain ⟨⟨⟨⟨⟨⟨⟨hhalf, hquarter⟩, heighth⟩, hcoarse⟩, hmiddle⟩, hfine⟩, hinner⟩, hinner'⟩ := h
  simp only [FeatureExtractor.blueprint, assemble_seq, assemble_map]
  exact {
    half := fun height width hh hw => trunk_batchwise (half_fits hh hw) hhalf
    half_empty := fun height width hh hw t hshape hkind =>
      trunk_empty (by omega) (by omega) hshape hkind hhalf
    quarter := fun height width hh hw => trunk_batchwise (deeper_fits (by decide) hh hw) hquarter
    eighth := fun height width hh hw => trunk_batchwise (deeper_fits (by decide) hh hw) heighth
    coarseOutput := fun height width hh hw =>
      convolution_batchwise hcoarse (outputSize_point hh) (outputSize_point hw)
    middleOutput := fun height width hh hw =>
      convolution_batchwise hmiddle (outputSize_point hh) (outputSize_point hw)
    fineOutput := fun height width hh hw =>
      convolution_batchwise hfine (outputSize_point hh) (outputSize_point hw)
    halfBridge := fun height width hh hw =>
      convolutionWithBias_batchwise hinner (outputSize_point hh) (outputSize_point hw)
    quarterBridge := fun height width hh hw =>
      convolutionWithBias_batchwise hinner' (outputSize_point hh) (outputSize_point hw) }

end Extraction

section Refinement

theorem depthBranch_batchwise {height width : Nat} (hheight : 0 < height) (hwidth : 0 < width)
    (h : Answered (Refiner.depthBranch scope : Blueprint α _).requests answers) :
    Batchwise ((Refiner.depthBranch scope).assemble answers) [1, height, width]
      [8, 2 * height, 2 * width] := by
  simp only [Refiner.depthBranch, answered_seq, answered_map, answered_parameter] at h
  obtain ⟨⟨⟨hkernels, hfirst⟩, hsecond⟩, hnorm⟩ := h
  intro p t t' ht
  refine (sameSizeBlock_batchwise (by decide) hheight hwidth hfirst p _ _ ht).bind
    fun first first' hone => ?_
  refine (sameSizeBlock_batchwise (by decide) hheight hwidth hsecond p _ _ hone).bind
    fun second second' htwo => ?_
  refine (spread_batchwise hkernels p _ _ htwo).bind fun guided guided' hguided => ?_
  exact (normalization_batchwise (by decide) hnorm p _ _ hguided).bind fun u u' hu =>
    .ok (hu.map _)

/-- The two branches of the refinement fit together. -/
theorem refiner_sound (h : Answered (Refiner.blueprint scope : Blueprint α _).requests answers) :
    ((Refiner.blueprint scope).assemble answers).Sound := by
  simp only [Refiner.blueprint, answered_seq, answered_map] at h
  obtain ⟨⟨himage, hdepth⟩, hcorrection⟩ := h
  simp only [Refiner.correctionBranch, answered_seq, answered_map] at hcorrection
  exact {
    image := fun height width hh hw => sameSizeBlock_batchwise (by decide) hh hw himage
    depth := fun height width hh hw => depthBranch_batchwise hh hw hdepth
    correction := fun height width hh hw =>
      (sameSizeBlock_batchwise (by decide) hh hw hcorrection.2).comp
        (convolution_batchwise hcorrection.1 (outputSize_dilated 1 hh) (outputSize_dilated 1 hw)) }

end Refinement

section Whole

variable {δ : Type} [Scalar δ] [Precision α δ]

omit [Precision α δ] in
/-- Every part of an estimator built from accepted settings fits the others. -/
theorem parts_sound {settings : Settings δ} {u : Unit} (hvalid : settings.validate = .ok u)
    (coarse : settings.coarse.Patterns) (middle : settings.middle.Patterns)
    (fine : settings.fine.Patterns)
    (h : Answered (Estimator.parts coarse middle fine : Blueprint α _).requests answers) :
    ((Estimator.parts coarse middle fine).assemble answers).Sound
      ((Stage.parts coarse 0 false settings.parallel "patch_match_3").assemble answers)
      ((Stage.parts middle 1 false settings.parallel "patch_match_2").assemble answers)
      ((Stage.parts fine 2 true settings.parallel "patch_match_1").assemble answers) := by
  obtain ⟨hc, hm, hf⟩ := Settings.validate_eq_ok.1 hvalid
  simp only [Estimator.parts, answered_seq, answered_map] at h
  obtain ⟨⟨hextractor, hstages⟩, hrefiner⟩ := h
  rw [requests_list] at hstages
  simp only [List.flatMap_cons, List.flatMap_nil, answered_append] at hstages
  obtain ⟨hcoarse, hmiddle, hfine, -⟩ := hstages
  exact {
    stages_eq := rfl
    index_coarse := rfl
    index_middle := rfl
    index_fine := rfl
    rates := rfl
    sound_coarse := stage_sound hc coarse 0 false _ hcoarse
    sound_middle := stage_sound hm middle 1 false _ hmiddle
    sound_fine := stage_sound hf fine 2 true _ hfine
    extractor := extractor_sound hextractor
    refiner := refiner_sound hrefiner }

/-- Every estimator that is built has parts that fit each other. -/
theorem Estimator.sound_of_build {settings : Settings δ} {source : ParameterSource α}
    {estimator : Estimator α δ} (h : Estimator.build settings source = .ok estimator) :
    ∃ coarse middle fine, estimator.Sound coarse middle fine := by
  obtain ⟨b, hb, hbuild⟩ := bind_eq_ok.1 h
  obtain ⟨answers, hanswers, rfl⟩ := exists_answers (Estimator.names_nodup hb) hbuild
  obtain ⟨hvalid, coarse, middle, fine, rfl⟩ := Estimator.blueprint_eq_ok hb
  exact ⟨_, _, _, parts_sound hvalid coarse middle fine hanswers.answered⟩

end Whole

end MultiViewDepth
