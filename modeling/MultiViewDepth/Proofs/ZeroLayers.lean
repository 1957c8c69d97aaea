import MultiViewDepth.Proofs.DepthBounds
import MultiViewDepth.Proofs.ViewWeights

/-!
Learned parts whose weights and biases are all zero.

The last kernels of every part are zero, so a part gives one number everywhere, whatever it is
given and whatever statistics normalize it. Only its success and the shape of its answer depend on
the layers before the last.
-/
namespace MultiViewDepth

open Tensor Arithmetic Blueprint

/-- A layer whose answers have one number everywhere. -/
def Constantly (v : ℝ) (layer : Layer ℝ) : Prop :=
  ∀ t u, layer t = .ok u → u.Between v v

/-- A weight or a bias; all other parameters are statistics that normalize. -/
def ParameterRequest.Learned (request : ParameterRequest) : Prop :=
  ∃ scope, request.name = dotted scope "weight" ∨ request.name = dotted scope "bias"

def Zeroed (requests : List ParameterRequest) (answers : String → Tensor ℝ) : Prop :=
  ∀ request ∈ requests, request.Learned → (answers request.name).Between 0 0

section Layers

variable {answers : String → Tensor ℝ} {scope : String}

theorem zeroed_append {first second : List ParameterRequest} :
    Zeroed (first ++ second) answers ↔ Zeroed first answers ∧ Zeroed second answers :=
  List.forall_mem_append

theorem zeroed_seq {β γ : Type} {f : Blueprint ℝ (β → γ)} {x : Blueprint ℝ β} :
    Zeroed (f <*> x).requests answers ↔ Zeroed f.requests answers ∧ Zeroed x.requests answers :=
  zeroed_append

theorem zeroed_map {β γ : Type} {f : β → γ} {x : Blueprint ℝ β} :
    Zeroed (f <$> x).requests answers ↔ Zeroed x.requests answers :=
  Iff.rfl

theorem zeroed_weight {shape : List Nat} :
    Zeroed (parameter (dotted scope "weight") shape : Blueprint ℝ (Tensor ℝ)).requests answers ↔
      (answers (dotted scope "weight")).Between 0 0 := by
  rw [Zeroed, requests_parameter, List.forall_mem_singleton]
  exact forall_prop_of_true ⟨scope, .inl rfl⟩

theorem zeroed_bias {shape : List Nat} :
    Zeroed (parameter (dotted scope "bias") shape : Blueprint ℝ (Tensor ℝ)).requests answers ↔
      (answers (dotted scope "bias")).Between 0 0 := by
  rw [Zeroed, requests_parameter, List.forall_mem_singleton]
  exact forall_prop_of_true ⟨scope, .inr rfl⟩

theorem zeroed_onlyIf {β : Type} {part : Blueprint ℝ β} {condition : Bool}
    (h : Zeroed (onlyIf condition part).requests answers) (hcondition : condition = true) :
    Zeroed part.requests answers := by
  subst hcondition
  exact h

theorem addBias_zero {bias t u : Tensor ℝ} {v : ℝ} (hbias : bias.Between 0 0) (ht : t.Between v v)
    (hu : Convolution.addBias bias t = .ok u) : u.Between v v := by
  simp only [Convolution.addBias, bind_eq_ok] at hu
  obtain ⟨_, -, hu⟩ := hu
  split at hu
  next batch channels rest hshape =>
    simp only [throw_eq_error, error_bind, ite_error_eq_ok] at hu
    obtain ⟨-, hu⟩ := hu
    cases hu
    refine between_ofFn fun index hw => ?_
    have hmem := ht.mem index hw
    rw [hshape] at hw
    obtain ⟨b, _, rfl, -, hw⟩ := hw.exists_cons
    obtain ⟨c, voxel, rfl, -, -⟩ := hw.exists_cons
    dsimp only
    rwa [hbias.get_zero, add_zero]
  next => cases hu

/-- A voxelwise layer without weights gives zero everywhere. -/
theorem voxelwise_zero {weight t u : Tensor ℝ} (hweight : weight.Between 0 0)
    (hu : Voxelwise.apply weight t = .ok u) : u.Between 0 0 := by
  unfold Voxelwise.apply at hu
  split at hu
  next batch channels rest hshape =>
    simp only [bind_eq_ok, throw_eq_error, error_bind, error_ite_eq_ok, ite_error_eq_ok] at hu
    obtain ⟨-, -, _, -, hu⟩ := hu
    cases hu
    refine between_ofFn fun index hw => ?_
    obtain ⟨b, _, rfl, -, hw⟩ := hw.exists_cons
    obtain ⟨o, voxel, rfl, -, -⟩ := hw.exists_cons
    simp [hweight.get_zero, sumTo_real]
  next => cases hu

/-- With zero kernels and zero bias a convolution gives the zero map. -/
theorem convolutionWithBias_constantly {inputs outputs kernel : Nat} {stride : Stride}
    (h : Zeroed (Convolution.blueprintWithBias scope inputs outputs kernel stride :
      Blueprint ℝ _).requests answers) :
    Constantly 0
      ((Convolution.blueprintWithBias scope inputs outputs kernel stride).assemble answers) := by
  simp only [Convolution.blueprintWithBias, zeroed_seq, zeroed_map, zeroed_weight,
    zeroed_bias] at h
  intro t u hu
  obtain ⟨mixed, hmixed, hu⟩ := bind_eq_ok.1 hu
  exact addBias_zero h.2 (convolution_zero h.1 hmixed) hu

theorem costNetwork_constantly {groups : Nat}
    (h : Zeroed (costNetwork scope groups .identity : Blueprint ℝ _).requests answers) :
    Constantly 0 ((costNetwork scope groups .identity).assemble answers) := by
  simp only [costNetwork, Voxelwise.blueprintWithBias, zeroed_seq, zeroed_map, zeroed_weight,
    zeroed_bias] at h
  intro t u hu
  obtain ⟨first, -, hu⟩ := bind_eq_ok.1 hu
  obtain ⟨second, -, hu⟩ := bind_eq_ok.1 hu
  obtain ⟨last, hlast, hu⟩ := bind_eq_ok.1 hu
  obtain ⟨mixed, hmixed, hlast⟩ := bind_eq_ok.1 hlast
  cases hu
  exact addBias_zero h.2.2 (voxelwise_zero h.2.1 hmixed) hlast

theorem sigmoid_zero : Scalar.sigmoid (0 : ℝ) = 1 / 2 := by
  change 1 / (Real.exp (-0) + 1) = (1 / 2 : ℝ)
  norm_num

/-- A network that ends in a sigmoid gives one half when its parameters are zero. -/
theorem sigmoidNetwork_constantly {groups : Nat}
    (h : Zeroed (costNetwork scope groups .sigmoid : Blueprint ℝ _).requests answers) :
    Constantly (1 / 2) ((costNetwork scope groups .sigmoid).assemble answers) := by
  intro t u hu
  rw [costNetwork_sigmoid] at hu
  obtain ⟨cost, hcost, hu⟩ := bind_eq_ok.1 hu
  cases hu
  refine (costNetwork_constantly h t cost hcost).map fun x hx => ?_
  rw [Set.Icc_self, Set.mem_singleton_iff] at hx ⊢
  rw [hx, sigmoid_zero]

end Layers

/-- The learned parts of a stage give one number each, whatever they are given. -/
structure Stage.Silent (stage : Stage ℝ ℝ) : Prop where
  lendingOffsets : ∀ predict ∈ stage.lendingOffsets, Constantly 0 predict
  supportOffsets : Constantly 0 stage.supportOffsets
  featureHead : Constantly (1 / 2) stage.featureHead
  viewHead : ∀ head ∈ stage.matcher.viewHead, Constantly (1 / 2) head
  similarityHead : Constantly 0 stage.matcher.similarityHead

section Parts

variable {answers : String → Tensor ℝ} {scope : String}

/-- Every network of a stage is constant when its parameters are zero. -/
theorem stage_silent {settings : StageSettings ℝ} (patterns : settings.Patterns) (index : Nat)
    (final parallel : Bool)
    (h : Zeroed (Stage.parts patterns index final parallel scope : Blueprint ℝ _).requests
      answers) :
    ((Stage.parts patterns index final parallel scope).assemble answers).Silent := by
  simp only [Stage.parts, Matcher.blueprint, zeroed_seq, zeroed_map] at h
  obtain ⟨⟨⟨hlending, hsupport⟩, hview, hsimilarity⟩, hfeatures⟩ := h
  constructor
  · intro predict hpredict
    simp only [Stage.parts, assemble_seq, assemble_map, onlyIf_assemble] at hpredict
    split at hpredict
    next hlends =>
      obtain rfl := Option.some.inj hpredict
      exact convolutionWithBias_constantly (zeroed_onlyIf hlending hlends)
    next => cases hpredict
  · exact convolutionWithBias_constantly hsupport
  · exact sigmoidNetwork_constantly hfeatures
  · intro head hhead
    simp only [Stage.parts, Matcher.blueprint, assemble_seq, assemble_map, onlyIf_assemble] at hhead
    split at hhead
    next hrates =>
      obtain rfl := Option.some.inj hhead
      exact sigmoidNetwork_constantly (zeroed_onlyIf hview hrates)
    next => cases hhead
  · exact costNetwork_constantly hsimilarity

end Parts

section Sources

variable {settings : Settings ℝ} {source : ParameterSource ℝ} {estimator : Estimator ℝ ℝ}

structure ParameterSource.Zero (source : ParameterSource ℝ) (settings : Settings ℝ) : Prop where
  answers : source.Answers settings
  getWide_eq : ∀ b : Blueprint ℝ (Estimator ℝ ℝ), Estimator.blueprint settings = .ok b →
    ∀ request ∈ b.requests, request.Learned → ∀ t, source request = some t →
      ∀ index, Within index t.shape → (t.getWide index : ℝ) = 0

theorem zeroed_of_answeredBy {requests : List ParameterRequest} {answers : String → Tensor ℝ}
    (h : AnsweredBy source requests answers)
    (hzero : ∀ request ∈ requests, request.Learned → ∀ t, source request = some t →
      ∀ index, Within index t.shape → (t.getWide index : ℝ) = 0) : Zeroed requests answers := by
  intro request hrequest hlearned
  obtain ⟨t, ht, -, heq⟩ := h request hrequest
  rw [heq]
  refine ⟨kind_toSingle t, fun index hw => ?_⟩
  rw [shape_toSingle] at hw
  rw [get_toSingle hw, hzero request hrequest hlearned t ht index hw]
  exact ⟨le_rfl, le_rfl⟩

structure Estimator.Silent (estimator : Estimator ℝ ℝ) : Prop where
  stages : ∀ stage ∈ estimator.stages, stage.Silent
  refiner : estimator.refiner.Silent

/-- An estimator built from zero parameters has constant networks only. -/
theorem Estimator.silent_of_zero (hzero : source.Zero settings)
    (h : Estimator.build settings source = .ok estimator) : estimator.Silent := by
  obtain ⟨b, hb, hbuild⟩ := bind_eq_ok.1 h
  obtain ⟨answers, hanswers, rfl⟩ := Blueprint.exists_answers (Estimator.names_nodup hb) hbuild
  have hzeroed := zeroed_of_answeredBy hanswers (hzero.getWide_eq b hb)
  have hall := hzero.getWide_eq b hb
  obtain ⟨-, coarse, middle, fine, rfl⟩ := Estimator.blueprint_eq_ok hb
  constructor
  · simp only [Estimator.parts, zeroed_seq, zeroed_map, requests_list, List.flatMap_cons,
      List.flatMap_nil, List.append_nil, zeroed_append] at hzeroed
    obtain ⟨⟨-, hc, hm, hf⟩, -⟩ := hzeroed
    simp only [Estimator.parts, assemble_seq, assemble_map, assemble_list, List.map_cons,
      List.map_nil, List.forall_mem_cons]
    exact ⟨stage_silent coarse 0 false _ hc, stage_silent middle 1 false _ hm,
      stage_silent fine 2 true _ hf, by simp⟩
  · have hlearned : Refiner.lastKernels.Learned := ⟨"refinement.residual.1", .inl (by decide)⟩
    exact silent_of_build h fun t ht => hall _ (lastKernels_mem coarse middle fine) hlearned t ht

end Sources

end MultiViewDepth
