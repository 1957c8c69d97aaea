import MultiViewDepth.Proofs.LearnedParts
import Mathlib.Data.List.Nodup
import Mathlib.Data.List.Pairwise

/-!
No two parameters of an estimator share a name.

Names are paths of parts inside parts. Parts of one scope whose names are no beginnings of each
other keep all that lies below them apart.
-/
namespace MultiViewDepth

/-- The name is that of the scope, or lies inside it. -/
def Below (scope name : String) : Prop := (scope ++ ".").toList <+: (name ++ ".").toList

instance (scope name : String) : Decidable (Below scope name) :=
  inferInstanceAs (Decidable ((scope ++ ".").toList <+: (name ++ ".").toList))

def Apart (a b : String) : Prop := ¬ Below a b ∧ ¬ Below b a

instance (a b : String) : Decidable (Apart a b) := inferInstanceAs (Decidable (_ ∧ _))

section Paths

variable {scope a b name : String}

theorem dotted_eq (h : scope ≠ "") (name : String) : dotted scope name = scope ++ "." ++ name := by
  simp [dotted, h]

theorem dotted_ne_empty (h : scope ≠ "") (name : String) : dotted scope name ≠ "" := by
  rw [dotted_eq h]
  intro heq
  simpa using congrArg String.toList heq

theorem below_dotted (h : scope ≠ "") (hbelow : Below (dotted scope a) name) :
    Below scope name := by
  refine List.IsPrefix.trans ?_ hbelow
  rw [dotted_eq h]
  simp only [String.toList_append, List.append_assoc]
  exact List.prefix_append_right_inj _ |>.2 (List.prefix_append _ _)

theorem dotted_ne_empty_of_name (scope : String) (h : name ≠ "") : dotted scope name ≠ "" := by
  by_cases hscope : scope = ""
  · simpa [dotted, hscope] using h
  · exact dotted_ne_empty hscope name

theorem Apart.dotted (scope : String) (hapart : Apart a b) :
    Apart (dotted scope a) (dotted scope b) := by
  by_cases h : scope = ""
  · simpa [MultiViewDepth.dotted, h] using hapart
  · simp only [Apart, Below, dotted_eq h, String.toList_append, List.append_assoc,
      List.prefix_append_right_inj] at hapart ⊢
    exact hapart

/-- What lies below names that are apart is different. -/
theorem Apart.ne (hapart : Apart a b) {n m : String} (hn : Below a n) (hm : Below b m) : n ≠ m := by
  rintro rfl
  rcases List.prefix_or_prefix_of_prefix hn hm with h | h
  · exact hapart.1 h
  · exact hapart.2 h

end Paths

/-- Requests inside a scope, each with a name of its own. -/
structure Tidy (scope : String) (requests : List ParameterRequest) : Prop where
  below : ∀ request ∈ requests, Below scope request.name
  nodup : (requests.map (·.name)).Nodup

namespace Tidy

variable {scope : String}

theorem nil : Tidy scope [] := ⟨by simp, by simp⟩

theorem single (name : String) (shape : List Nat) : Tidy name [⟨name, shape⟩] :=
  ⟨by simp [Below], by simp⟩

/-- Parts whose scopes are apart. -/
theorem nodup_flatMap (parts : List (String × List ParameterRequest))
    (h : ∀ part ∈ parts, Tidy part.1 part.2)
    (hapart : (parts.map Prod.fst).Pairwise Apart) :
    ((parts.flatMap Prod.snd).map (·.name)).Nodup := by
  rw [List.pairwise_map] at hapart
  rw [List.map_flatMap, List.nodup_flatMap]
  refine ⟨fun part hpart => (h part hpart).nodup, hapart.imp_of_mem ?_⟩
  intro part part' hpart hpart' hne name hname hname'
  obtain ⟨request, hr, rfl⟩ := List.mem_map.1 hname
  obtain ⟨request', hr', heq⟩ := List.mem_map.1 hname'
  exact hne.ne ((h part hpart).below request hr) ((h part' hpart').below request' hr') heq.symm

/-- Parts of one scope, which may be empty, whose names are apart. -/
theorem nodup_join (parts : List (String × List ParameterRequest))
    (h : ∀ part ∈ parts, Tidy (dotted scope part.1) part.2)
    (hapart : (parts.map Prod.fst).Pairwise Apart) :
    ((parts.flatMap Prod.snd).map (·.name)).Nodup := by
  have hfull := nodup_flatMap (parts.map fun part => (dotted scope part.1, part.2))
    (fun part hpart => by
      obtain ⟨inner, hinner, rfl⟩ := List.mem_map.1 hpart
      exact h inner hinner)
    (by
      rw [List.pairwise_map] at hapart
      simpa [List.pairwise_map] using hapart.imp fun hne => hne.dotted scope)
  simpa [List.flatMap_map] using hfull

/-- Parts of one scope whose names are apart. -/
theorem join (parts : List (String × List ParameterRequest)) (hscope : scope ≠ "")
    (h : ∀ part ∈ parts, Tidy (dotted scope part.1) part.2)
    (hapart : (parts.map Prod.fst).Pairwise Apart) : Tidy scope (parts.flatMap Prod.snd) where
  below request hrequest := by
    obtain ⟨part, hpart, hr⟩ := List.mem_flatMap.1 hrequest
    exact below_dotted hscope ((h part hpart).below request hr)
  nodup := nodup_join parts h hapart

end Tidy

section Parts

variable {α : Type} [Scalar α] {scope : String}

omit [Scalar α] in
theorem normalization_tidy (hscope : scope ≠ "") (channels : Nat) :
    Tidy scope (Normalization.blueprint scope channels : Blueprint α _).requests := by
  have h := Tidy.join
    [("running_mean", [⟨dotted scope "running_mean", [channels]⟩]),
      ("running_var", [⟨dotted scope "running_var", [channels]⟩]),
      ("weight", [⟨dotted scope "weight", [channels]⟩]),
      ("bias", [⟨dotted scope "bias", [channels]⟩])] hscope
    (by simp [Tidy.single])
    (by simp only [List.map_cons, List.map_nil]; decide)
  simpa [Normalization.blueprint] using h

theorem convolution_tidy (hscope : scope ≠ "") (inputs outputs kernel : Nat) (stride : Stride) :
    Tidy scope (Convolution.blueprint scope inputs outputs kernel stride :
      Blueprint α _).requests := by
  have h := Tidy.join [("weight", [⟨dotted scope "weight", [outputs, inputs, kernel, kernel]⟩])]
    hscope (by simp [Tidy.single])
    (by simp only [List.map_cons, List.map_nil]; decide)
  simpa [Convolution.blueprint] using h

theorem convolutionWithBias_tidy (hscope : scope ≠ "") (inputs outputs kernel : Nat)
    (stride : Stride) :
    Tidy scope (Convolution.blueprintWithBias scope inputs outputs kernel stride :
      Blueprint α _).requests := by
  have h := Tidy.join
    [("weight", [⟨dotted scope "weight", [outputs, inputs, kernel, kernel]⟩]),
      ("bias", [⟨dotted scope "bias", [outputs]⟩])] hscope
    (by simp [Tidy.single])
    (by simp only [List.map_cons, List.map_nil]; decide)
  simpa [Convolution.blueprintWithBias] using h

theorem convolutionBlock_tidy (hscope : scope ≠ "") (inputs outputs kernel : Nat)
    (stride : Stride) :
    Tidy scope (convolutionBlock scope inputs outputs kernel stride :
      Blueprint α _).requests := by
  have h := Tidy.join
    [("conv", (Convolution.blueprint (dotted scope "conv") inputs outputs kernel stride :
        Blueprint α _).requests),
      ("bn", (Normalization.blueprint (dotted scope "bn") outputs : Blueprint α _).requests)]
    hscope
    (by simp [convolution_tidy, normalization_tidy, dotted_ne_empty hscope])
    (by simp only [List.map_cons, List.map_nil]; decide)
  simpa [convolutionBlock] using h

theorem voxelwise_tidy (hscope : scope ≠ "") (inputs outputs : Nat) :
    Tidy scope (Voxelwise.blueprint scope inputs outputs : Blueprint α _).requests := by
  have h := Tidy.join [("weight", [⟨dotted scope "weight", [outputs, inputs, 1, 1, 1]⟩])]
    hscope (by simp [Tidy.single])
    (by simp only [List.map_cons, List.map_nil]; decide)
  simpa [Voxelwise.blueprint] using h

theorem voxelwiseWithBias_tidy (hscope : scope ≠ "") (inputs outputs : Nat) :
    Tidy scope (Voxelwise.blueprintWithBias scope inputs outputs : Blueprint α _).requests := by
  have h := Tidy.join
    [("weight", [⟨dotted scope "weight", [outputs, inputs, 1, 1, 1]⟩]),
      ("bias", [⟨dotted scope "bias", [outputs]⟩])] hscope
    (by simp [Tidy.single])
    (by simp only [List.map_cons, List.map_nil]; decide)
  simpa [Voxelwise.blueprintWithBias] using h

theorem voxelwiseBlock_tidy (hscope : scope ≠ "") (inputs outputs : Nat) :
    Tidy scope (Voxelwise.block scope inputs outputs : Blueprint α _).requests := by
  have h := Tidy.join
    [("conv", (Voxelwise.blueprint (dotted scope "conv") inputs outputs :
        Blueprint α _).requests),
      ("bn", (Normalization.blueprint (dotted scope "bn") outputs : Blueprint α _).requests)]
    hscope
    (by simp [voxelwise_tidy, normalization_tidy, dotted_ne_empty hscope])
    (by simp only [List.map_cons, List.map_nil]; decide)
  simpa [Voxelwise.block] using h

theorem costNetwork_tidy (hscope : scope ≠ "") (groups : Nat) (activation : Activation) :
    Tidy scope (costNetwork scope groups activation : Blueprint α _).requests := by
  have h := Tidy.join
    [("0", (Voxelwise.block (dotted scope "0") groups 16 : Blueprint α _).requests),
      ("1", (Voxelwise.block (dotted scope "1") 16 8 : Blueprint α _).requests),
      ("2", (Voxelwise.blueprintWithBias (dotted scope "2") 8 1 : Blueprint α _).requests)]
    hscope
    (by simp [voxelwiseBlock_tidy, voxelwiseWithBias_tidy, dotted_ne_empty hscope])
    (by simp only [List.map_cons, List.map_nil]; decide)
  simpa [costNetwork] using h

omit [Scalar α] in
theorem onlyIf_tidy {β : Type} {part : Blueprint α β} (condition : Bool)
    (h : Tidy scope part.requests) : Tidy scope (Blueprint.onlyIf condition part).requests := by
  cases condition with
  | false => exact Tidy.nil
  | true => exact h

end Parts

section Networks

variable {α : Type} [Scalar α] {scope : String}

theorem exists_blocks (hscope : scope ≠ "") (specs : List (Nat × Nat × Nat × Stride))
    (start : Nat) :
    ∃ parts : List (String × List ParameterRequest),
      parts.map Prod.fst = (List.range' start specs.length).map Nat.repr ∧
      (∀ part ∈ parts, Tidy (dotted scope part.1) part.2) ∧
      ((FeatureExtractor.blocks scope start specs).flatMap
        fun part : Blueprint α (Layer α) => part.requests) = parts.flatMap Prod.snd := by
  induction specs generalizing start with
  | nil => exact ⟨[], rfl, by simp, rfl⟩
  | cons spec specs ih =>
    obtain ⟨inputs, outputs, kernel, stride⟩ := spec
    obtain ⟨parts, hnames, htidy, hrequests⟩ := ih (start + 1)
    refine ⟨(start.repr, (convolutionBlock (dotted scope start.repr) inputs outputs kernel stride :
      Blueprint α _).requests) :: parts, ?_, ?_, ?_⟩
    · simp [hnames, List.range'_succ]
    · intro part hpart
      rcases List.mem_cons.1 hpart with rfl | hpart
      · exact convolutionBlock_tidy (dotted_ne_empty hscope _) inputs outputs kernel stride
      · exact htidy part hpart
    · simp [FeatureExtractor.blocks, hrequests]

/-- The blocks of a trunk are numbered, which keeps their parameters apart. -/
theorem trunk_tidy (hscope : scope ≠ "") (specs : List (Nat × Nat × Nat × Stride))
    (hapart : ((List.range' 0 specs.length).map Nat.repr).Pairwise Apart) :
    Tidy scope (FeatureExtractor.trunk scope specs : Blueprint α _).requests := by
  obtain ⟨parts, hnames, htidy, hrequests⟩ := exists_blocks (α := α) hscope specs 0
  rw [FeatureExtractor.trunk, Blueprint.requests_map, Blueprint.requests_list, hrequests]
  exact Tidy.join parts hscope htidy (hnames ▸ hapart)

omit [Scalar α] in
theorem requests_extractor (a b c d e f g k : Blueprint α (Layer α)) :
    (FeatureExtractor.mk <$> a <*> b <*> c <*> d <*> e <*> f <*> g <*> k).requests =
      [("stage1", a.requests), ("stage2", b.requests), ("stage3", c.requests),
        ("output3", d.requests), ("output2", e.requests), ("output1", f.requests),
        ("inner1", g.requests), ("inner2", k.requests)].flatMap Prod.snd := by
  simp

/-- The eight parts of the extractor have scopes of their own. -/
theorem extractor_tidy (hscope : scope ≠ "") (coarse middle fine : Nat) :
    Tidy scope (FeatureExtractor.blueprint scope coarse middle fine :
      Blueprint α _).requests := by
  have hne := dotted_ne_empty hscope
  rw [FeatureExtractor.blueprint, requests_extractor]
  refine Tidy.join _ hscope ?_ (by simp only [List.map_cons, List.map_nil]; decide)
  simp only [List.mem_cons, List.not_mem_nil, or_false, forall_eq_or_imp, forall_eq]
  exact ⟨trunk_tidy (hne _) _ (by decide), trunk_tidy (hne _) _ (by decide),
    trunk_tidy (hne _) _ (by decide), convolution_tidy (hne _) .., convolution_tidy (hne _) ..,
    convolution_tidy (hne _) .., convolutionWithBias_tidy (hne _) ..,
    convolutionWithBias_tidy (hne _) ..⟩

/-- The two heads of a matcher have scopes of their own. -/
theorem matcher_tidy (hscope : scope ≠ "") (groups : Nat) (ratesViews parallel : Bool) :
    Tidy scope (Matcher.blueprint scope groups ratesViews parallel : Blueprint α _).requests := by
  have hne := dotted_ne_empty hscope
  have h := Tidy.join
    [("pixelwise_net.conv", (Blueprint.onlyIf ratesViews
        (costNetwork (dotted scope "pixelwise_net.conv") groups .sigmoid) :
        Blueprint α _).requests),
      ("similarity_net.conv", (costNetwork (dotted scope "similarity_net.conv") groups .identity :
        Blueprint α _).requests)] hscope
    (by simp [onlyIf_tidy, costNetwork_tidy, hne])
    (by simp only [List.map_cons, List.map_nil]; decide)
  simpa [Matcher.blueprint] using h

theorem depthBranch_tidy (hscope : scope ≠ "") :
    Tidy scope (Refiner.depthBranch scope : Blueprint α _).requests := by
  have hne := dotted_ne_empty hscope
  have h := Tidy.join
    [("2.weight", [⟨dotted scope "2.weight",
        [Refiner.guideChannels, Refiner.guideChannels, 3, 3]⟩]),
      ("0", (sameSizeBlock (dotted scope "0") 1 Refiner.guideChannels :
        Blueprint α _).requests),
      ("1", (sameSizeBlock (dotted scope "1") Refiner.guideChannels Refiner.guideChannels :
        Blueprint α _).requests),
      ("3", (Normalization.blueprint (dotted scope "3") Refiner.guideChannels :
        Blueprint α _).requests)] hscope
    (by simp [Tidy.single, sameSizeBlock, convolutionBlock_tidy, normalization_tidy, hne])
    (by simp only [List.map_cons, List.map_nil]; decide)
  simpa [Refiner.depthBranch] using h

theorem correctionBranch_tidy (hscope : scope ≠ "") :
    Tidy scope (Refiner.correctionBranch scope : Blueprint α _).requests := by
  have hne := dotted_ne_empty hscope
  have h := Tidy.join
    [("1", (Convolution.blueprint (dotted scope "1") Refiner.guideChannels 1 3 ⟨1, 1, 1⟩ :
        Blueprint α _).requests),
      ("0", (sameSizeBlock (dotted scope "0") (2 * Refiner.guideChannels) Refiner.guideChannels :
        Blueprint α _).requests)] hscope
    (by simp [sameSizeBlock, convolutionBlock_tidy, convolution_tidy, hne])
    (by simp only [List.map_cons, List.map_nil]; decide)
  simpa [Refiner.correctionBranch] using h

/-- The branches of the refinement share no parameter. -/
theorem refiner_tidy (hscope : scope ≠ "") :
    Tidy scope (Refiner.blueprint scope : Blueprint α _).requests := by
  have hne := dotted_ne_empty hscope
  have h := Tidy.join
    [("conv", (sameSizeBlock (dotted scope "conv") 3 Refiner.guideChannels :
        Blueprint α _).requests),
      ("deconv", (Refiner.depthBranch (dotted scope "deconv") : Blueprint α _).requests),
      ("residual", (Refiner.correctionBranch (dotted scope "residual") :
        Blueprint α _).requests)] hscope
    (by simp [sameSizeBlock, convolutionBlock_tidy, depthBranch_tidy, correctionBranch_tidy, hne])
    (by simp only [List.map_cons, List.map_nil]; decide)
  simpa [Refiner.blueprint] using h

end Networks

end MultiViewDepth
