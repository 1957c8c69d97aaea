import MultiViewDepth.Proofs.TwinLayers
import MultiViewDepth.Estimator

/-!
The learned parts of an estimator, put together from answers of the shapes that they ask for, work
on every element of a batch by itself and give arrays of the expected shapes.
-/
namespace MultiViewDepth

open Tensor Arithmetic Scalar Twins

namespace Blueprint

variable {α β γ : Type}

@[simp] theorem assemble_pure (part : β) (answers : String → Tensor α) :
    (pure part : Blueprint α β).assemble answers = part := rfl
@[simp] theorem assemble_seq (f : Blueprint α (β → γ)) (x : Blueprint α β)
    (answers : String → Tensor α) :
    (f <*> x).assemble answers = f.assemble answers (x.assemble answers) := rfl
@[simp] theorem assemble_map (f : β → γ) (x : Blueprint α β) (answers : String → Tensor α) :
    (f <$> x).assemble answers = f (x.assemble answers) := rfl
@[simp] theorem assemble_parameter (name : String) (shape : List Nat)
    (answers : String → Tensor α) :
    (parameter name shape : Blueprint α (Tensor α)).assemble answers = answers name := rfl

@[simp] theorem assemble_list (parts : List (Blueprint α β)) (answers : String → Tensor α) :
    (list parts).assemble answers = parts.map (·.assemble answers) := by
  induction parts with
  | nil => rfl
  | cons part parts ih => simp [list, ih]

@[simp] theorem requests_list (parts : List (Blueprint α β)) :
    (list parts).requests = parts.flatMap (·.requests) := by
  induction parts with
  | nil => rfl
  | cons part parts ih => simp [list, ih]

theorem onlyIf_requests {part : Blueprint α β} (condition : Bool) :
    (onlyIf condition part).requests = if condition then part.requests else [] := by
  cases condition <;> rfl

theorem onlyIf_assemble {part : Blueprint α β} (condition : Bool) (answers : String → Tensor α) :
    (onlyIf condition part).assemble answers =
      if condition then some (part.assemble answers) else none := by
  cases condition <;> rfl

/-- Every request is answered with an array of its shape. -/
def Answered (requests : List ParameterRequest) (answers : String → Tensor α) : Prop :=
  ∀ request ∈ requests, (answers request.name).shape = request.shape

variable {answers : String → Tensor α}

@[simp] theorem answered_append {first second : List ParameterRequest} :
    Answered (first ++ second) answers ↔ Answered first answers ∧ Answered second answers :=
  List.forall_mem_append

@[simp] theorem answered_single {request : ParameterRequest} :
    Answered [request] answers ↔ (answers request.name).shape = request.shape := by
  simp [Answered]

theorem answered_seq {f : Blueprint α (β → γ)} {x : Blueprint α β} :
    Answered (f <*> x).requests answers ↔
      Answered f.requests answers ∧ Answered x.requests answers :=
  answered_append

theorem answered_map {f : β → γ} {x : Blueprint α β} :
    Answered (f <$> x).requests answers ↔ Answered x.requests answers :=
  Iff.rfl

theorem answered_parameter {name : String} {shape : List Nat} :
    Answered (parameter name shape : Blueprint α (Tensor α)).requests answers ↔
      (answers name).shape = shape :=
  answered_single

end Blueprint

open Blueprint

variable {α : Type} [Scalar α] {answers : String → Tensor α} {scope : String}

section Layers

variable {inputs outputs kernel height width rows columns : Nat} {stride : Stride}

theorem normalization_batchwise {channels : Nat} {rest : List Nat} (hchannels : channels ≠ 0)
    (h : Answered (Normalization.blueprint scope channels : Blueprint α _).requests answers) :
    Batchwise ((Normalization.blueprint scope channels).assemble answers).apply (channels :: rest)
      (channels :: rest) := by
  simp only [Normalization.blueprint, answered_seq, answered_map,
    answered_parameter] at h
  exact Normalization.apply_batchwise hchannels h.1.1.1

theorem convolution_batchwise
    (h : Answered (Convolution.blueprint scope inputs outputs kernel stride :
      Blueprint α _).requests answers)
    (hrows : Convolution.outputSize stride height kernel = some rows)
    (hcolumns : Convolution.outputSize stride width kernel = some columns) :
    Batchwise ((Convolution.blueprint scope inputs outputs kernel stride).assemble answers)
      [inputs, height, width] [outputs, rows, columns] :=
  Convolution.apply_batchwise (answered_single.1 h) hrows hcolumns

theorem convolutionWithBias_batchwise
    (h : Answered (Convolution.blueprintWithBias scope inputs outputs kernel stride :
      Blueprint α _).requests answers)
    (hrows : Convolution.outputSize stride height kernel = some rows)
    (hcolumns : Convolution.outputSize stride width kernel = some columns) :
    Batchwise ((Convolution.blueprintWithBias scope inputs outputs kernel stride).assemble answers)
      [inputs, height, width] [outputs, rows, columns] := by
  simp only [Convolution.blueprintWithBias, answered_seq, answered_map,
    answered_parameter] at h
  exact (Convolution.apply_batchwise h.1 hrows hcolumns).comp (Convolution.addBias_batchwise h.2)

theorem convolutionBlock_batchwise
    (h : Answered (convolutionBlock scope inputs outputs kernel stride :
      Blueprint α _).requests answers) (houtputs : outputs ≠ 0)
    (hrows : Convolution.outputSize stride height kernel = some rows)
    (hcolumns : Convolution.outputSize stride width kernel = some columns) :
    Batchwise ((convolutionBlock scope inputs outputs kernel stride).assemble answers)
      [inputs, height, width] [outputs, rows, columns] := by
  simp only [convolutionBlock, answered_seq, answered_map] at h
  exact (convolution_batchwise h.1 hrows hcolumns).comp
    ((normalization_batchwise houtputs h.2).comp (.map relu))

theorem voxelwiseBlock_batchwise {rest : List Nat} (hinputs : inputs ≠ 0) (houtputs : outputs ≠ 0)
    (h : Answered (Voxelwise.block scope inputs outputs : Blueprint α _).requests answers) :
    Batchwise ((Voxelwise.block scope inputs outputs).assemble answers) (inputs :: rest)
      (outputs :: rest) := by
  simp only [Voxelwise.block, Voxelwise.blueprint, answered_seq, answered_map,
    answered_parameter] at h
  exact (Voxelwise.apply_batchwise hinputs h.1).comp
    ((normalization_batchwise houtputs h.2).comp (.map relu))

theorem activation_batchwise (activation : Activation) (s : List Nat) :
    Batchwise (fun t : Tensor α => .ok (activation.apply t)) s s := by
  cases activation with
  | identity => exact fun _ _ _ h => .ok h
  | sigmoid => exact .map Scalar.sigmoid

/-- A cost head takes the groups of every voxel to one number. -/
theorem costNetwork_batchwise {groups : Nat} {activation : Activation} {rest : List Nat}
    (hgroups : groups ≠ 0)
    (h : Answered (costNetwork scope groups activation : Blueprint α _).requests answers) :
    Batchwise ((costNetwork scope groups activation).assemble answers) (groups :: rest)
      (1 :: rest) := by
  simp only [costNetwork, Voxelwise.blueprintWithBias, answered_seq, answered_map,
    answered_parameter] at h
  obtain ⟨⟨hfirst, hsecond⟩, hweight, hbias⟩ := h
  have hmix : Batchwise (Voxelwise.apply (answers (dotted (dotted scope "2") "weight")))
      (8 :: rest) (1 :: rest) := Voxelwise.apply_batchwise (by decide) hweight
  have hlast := hmix.comp (Convolution.addBias_batchwise hbias)
  exact (voxelwiseBlock_batchwise hgroups (by decide) hfirst).comp
    ((voxelwiseBlock_batchwise (by decide) (by decide) hsecond).comp
      (hlast.comp (activation_batchwise activation _)))

end Layers

section Sizes

open MultiViewDepth.Convolution

variable {size n : Nat}

theorem outputSize_point (h : 0 < size) : outputSize ⟨1, 0, 1⟩ size 1 = some size := by
  simp only [outputSize]
  rw [if_neg (by omega), Option.some.injEq]
  omega

theorem outputSize_dilated (range : Nat) (h : 0 < size) :
    outputSize ⟨1, range, range⟩ size 3 = some size := by
  simp only [outputSize]
  rw [if_neg (by omega), Option.some.injEq]
  omega

theorem outputSize_halve (h : size = 2 * n) (hn : 0 < n) :
    outputSize ⟨2, 2, 1⟩ size 5 = some n := by
  simp only [outputSize]
  rw [if_neg (by omega), Option.some.injEq]
  omega

end Sizes

/-- A 3 × 3 block keeps the sides. -/
theorem sameSizeBlock_batchwise {inputs outputs height width : Nat} (houtputs : outputs ≠ 0)
    (hheight : 0 < height) (hwidth : 0 < width)
    (h : Answered (sameSizeBlock scope inputs outputs : Blueprint α _).requests answers) :
    Batchwise ((sameSizeBlock scope inputs outputs).assemble answers) [inputs, height, width]
      [outputs, height, width] :=
  convolutionBlock_batchwise h houtputs (outputSize_dilated 1 hheight) (outputSize_dilated 1 hwidth)

end MultiViewDepth
