import MultiViewDepth.Proofs.SingleArrays
import MultiViewDepth.Proofs.Soundness

/-!
Learned layers that work on every voxel by itself.

Mixing channels, normalizing, adding a bias and applying a function to entries each take the
channels of a voxel to the channels of the same voxel, and so does what is put together from them.
The heads that rate group similarities are of this kind.
-/
namespace MultiViewDepth

open Tensor Arithmetic

/-- The layer takes the channels of every voxel to those that `f` makes of them. -/
def ActsVoxelwise {inputs outputs : Nat} (layer : Layer ℝ)
    (f : (Fin inputs → ℝ) → Fin outputs → ℝ) : Prop :=
  ∀ (t : Tensor ℝ) (batch : Nat) (voxels : List Nat), 0 < batch →
    t.IsSingle (batch :: inputs :: voxels) →
    ∃ u, layer t = .ok u ∧ u.IsSingle (batch :: outputs :: voxels) ∧
      ∀ b (o : Fin outputs) voxel, b < batch → Within voxel voxels →
        u.get (b :: o.val :: voxel) = f (fun c => t.get (b :: c.val :: voxel)) o

namespace ActsVoxelwise

variable {inputs hidden outputs : Nat} {first second : Layer ℝ}

/-- Layers that act on voxels compose as their functions do. -/
theorem comp {f : (Fin inputs → ℝ) → Fin hidden → ℝ} {g : (Fin hidden → ℝ) → Fin outputs → ℝ}
    (hf : ActsVoxelwise first f) (hg : ActsVoxelwise second g) :
    ActsVoxelwise (fun t => do second (← first t)) fun v => g (f v) := by
  intro t batch voxels hbatch ht
  obtain ⟨u, hu, hus, hget⟩ := hf t batch voxels hbatch ht
  obtain ⟨w, hw, hws, hget'⟩ := hg u batch voxels hbatch hus
  refine ⟨w, by simp only [hu, ok_bind, hw], hws, fun b o voxel hb hvoxel => ?_⟩
  rw [hget' b o voxel hb hvoxel]
  exact congrArg (fun v => g v o) (funext fun c => hget b c voxel hb hvoxel)

theorem map (f : ℝ → ℝ) :
    ActsVoxelwise (fun t => .ok (t.map f)) fun (v : Fin inputs → ℝ) c => f (v c) := by
  intro t batch voxels hbatch ht
  refine ⟨_, rfl, ⟨(shape_map f t).trans ht.shape_eq, (kind_map f t).trans ht.kind_eq⟩,
    fun b c voxel hb hvoxel => get_map ht.kind_eq ?_ f⟩
  rw [ht.shape_eq]
  exact ⟨hb, c.isLt, hvoxel⟩

end ActsVoxelwise

section Layers

variable {inputs outputs : Nat}

noncomputable def Voxelwise.mixed (weight : Tensor ℝ) (v : Fin inputs → ℝ) (o : Fin outputs) : ℝ :=
  ∑ c, v c * weight.get [o, c, 0, 0, 0]

/-- A voxelwise layer mixes the channels of each voxel. -/
theorem Voxelwise.apply_actsVoxelwise {weight : Tensor ℝ} (hinputs : inputs ≠ 0)
    (hweight : weight.shape = [outputs, inputs, 1, 1, 1]) :
    ActsVoxelwise (Voxelwise.apply weight)
      (mixed weight : (Fin inputs → ℝ) → Fin outputs → ℝ) := by
  intro t batch voxels hbatch ht
  have hpos : ¬ (batch = 0 ∨ inputs = 0) := by omega
  have hin : weight.size 1 = inputs := by simp [size, hweight]
  have hout : weight.size 0 = outputs := by simp [size, hweight]
  simp only [Voxelwise.apply, ht.shape_eq, ht.requireSingle, hpos, hin, hout,
    if_true, if_false, ok_bind, pure_eq_ok]
  refine ⟨_, rfl, isSingle_ofFn _ _, fun b o voxel hb hvoxel => ?_⟩
  rw [get_ofFn (within_cons.2 ⟨hb, within_cons.2 ⟨o.isLt, hvoxel⟩⟩)]
  exact (sumTo_real _ _).trans (Finset.sum_range _)

theorem Convolution.addBias_actsVoxelwise {channels : Nat} {bias : Tensor ℝ}
    (hbias : bias.shape = [channels]) :
    ActsVoxelwise (addBias bias) fun (v : Fin channels → ℝ) c => v c + bias.get [c] := by
  intro t batch voxels _ ht
  simp only [addBias, ht.requireSingle, ok_bind, ht.shape_eq, hbias, if_true,
    pure_eq_ok]
  refine ⟨_, rfl, isSingle_ofFn _ _, fun b c voxel hb hvoxel => ?_⟩
  rw [get_ofFn (within_cons.2 ⟨hb, within_cons.2 ⟨c.isLt, hvoxel⟩⟩)]

theorem Normalization.apply_actsVoxelwise {channels : Nat} {norm : Normalization ℝ}
    (hchannels : channels ≠ 0) (hmean : norm.mean.shape = [channels]) :
    ActsVoxelwise norm.apply fun (v : Fin channels → ℝ) c => norm.entry c (v c) := by
  intro t batch voxels hbatch ht
  have hpos : ¬ (batch = 0 ∨ channels = 0) := by omega
  simp only [Normalization.apply, ht.requireSingle, ok_bind, ht.shape_eq, hpos,
    hmean, if_true, if_false, pure_eq_ok]
  refine ⟨_, rfl, isSingle_ofFn _ _, fun b c voxel hb hvoxel => ?_⟩
  rw [get_ofFn (within_cons.2 ⟨hb, within_cons.2 ⟨c.isLt, hvoxel⟩⟩)]

end Layers

section Heads

open Blueprint

variable {answers : String → Tensor ℝ} {scope : String} {inputs outputs : Nat}

noncomputable def Activation.value : Activation → ℝ → ℝ
  | .identity => id
  | .sigmoid => Scalar.sigmoid

theorem Activation.apply_actsVoxelwise (activation : Activation) :
    ActsVoxelwise (fun t => .ok (activation.apply t)) fun (v : Fin inputs → ℝ) c =>
      activation.value (v c) := by
  cases activation with
  | identity =>
    exact fun t _ _ _ ht => ⟨t, rfl, ht, fun _ _ _ _ _ => rfl⟩
  | sigmoid => exact .map Scalar.sigmoid

noncomputable def Voxelwise.rectified (scope : String) (answers : String → Tensor ℝ)
    (v : Fin inputs → ℝ) (o : Fin outputs) : ℝ :=
  Scalar.relu (((Normalization.blueprint (dotted scope "bn") outputs).assemble answers).entry o
    (mixed (answers (dotted (dotted scope "conv") "weight")) v o))

theorem Voxelwise.block_actsVoxelwise (hinputs : inputs ≠ 0) (houtputs : outputs ≠ 0)
    (h : Answered (Voxelwise.block scope inputs outputs : Blueprint ℝ _).requests answers) :
    ActsVoxelwise ((Voxelwise.block scope inputs outputs).assemble answers)
      (rectified scope answers : (Fin inputs → ℝ) → Fin outputs → ℝ) := by
  simp only [Voxelwise.block, Voxelwise.blueprint, Normalization.blueprint, answered_seq,
    answered_map, answered_parameter] at h
  obtain ⟨hweight, ⟨⟨hmean, -⟩, -⟩, -⟩ := h
  exact (Voxelwise.apply_actsVoxelwise hinputs hweight).comp
    ((Normalization.apply_actsVoxelwise houtputs hmean).comp (.map Scalar.relu))

noncomputable def Voxelwise.mixedWithBias (scope : String) (answers : String → Tensor ℝ)
    (v : Fin inputs → ℝ) (o : Fin outputs) : ℝ :=
  mixed (answers (dotted scope "weight")) v o + (answers (dotted scope "bias")).get [o]

theorem Voxelwise.blueprintWithBias_actsVoxelwise (hinputs : inputs ≠ 0)
    (h : Answered (Voxelwise.blueprintWithBias scope inputs outputs :
      Blueprint ℝ _).requests answers) :
    ActsVoxelwise ((Voxelwise.blueprintWithBias scope inputs outputs).assemble answers)
      (mixedWithBias scope answers : (Fin inputs → ℝ) → Fin outputs → ℝ) := by
  simp only [Voxelwise.blueprintWithBias, answered_seq, answered_map, answered_parameter] at h
  exact (Voxelwise.apply_actsVoxelwise hinputs h.1).comp (Convolution.addBias_actsVoxelwise h.2)

/-- The number that a cost head makes of the groups of a voxel, before its activation. -/
noncomputable def voxelCost (scope : String) (answers : String → Tensor ℝ) {groups : Nat}
    (v : Fin groups → ℝ) : ℝ :=
  let first : Fin 16 → ℝ := Voxelwise.rectified (dotted scope "0") answers v
  let second : Fin 8 → ℝ := Voxelwise.rectified (dotted scope "1") answers first
  Voxelwise.mixedWithBias (dotted scope "2") answers second (Fin.last 0)

/-- A network of voxelwise layers is one function of the groups of a voxel. -/
theorem costNetwork_actsVoxelwise {groups : Nat} (activation : Activation) (hgroups : groups ≠ 0)
    (h : Answered (costNetwork scope groups activation : Blueprint ℝ _).requests answers) :
    ActsVoxelwise ((costNetwork scope groups activation).assemble answers)
      fun (v : Fin groups → ℝ) (_ : Fin 1) => activation.value (voxelCost scope answers v) := by
  simp only [costNetwork, answered_seq, answered_map] at h
  obtain ⟨⟨hfirst, hsecond⟩, hlast⟩ := h
  have hall := (Voxelwise.block_actsVoxelwise hgroups (by decide) hfirst).comp
    ((Voxelwise.block_actsVoxelwise (by decide) (by decide) hsecond).comp
      ((Voxelwise.blueprintWithBias_actsVoxelwise (by decide) hlast).comp
        activation.apply_actsVoxelwise))
  have hone : (fun (v : Fin groups → ℝ) (o : Fin 1) => activation.value
      (Voxelwise.mixedWithBias (dotted scope "2") answers
        (Voxelwise.rectified (dotted scope "1") answers
          (Voxelwise.rectified (dotted scope "0") answers v : Fin 16 → ℝ) : Fin 8 → ℝ) o)) =
      fun v _ => activation.value (voxelCost scope answers v) := by
    funext v o
    rw [Subsingleton.elim o (Fin.last 0)]
    rfl
  exact hone ▸ hall

/-- A head with the number that it makes of the groups of a voxel. -/
structure VoxelHead (groups : Nat) where
  layer : Layer ℝ
  rate : (Fin groups → ℝ) → ℝ
  acts : ActsVoxelwise layer fun v (_ : Fin 1) => rate v

/-- A cost head that is put together from answers rates voxels; its activation comes last. -/
theorem exists_voxelHead {groups : Nat} {activation : Activation} (hgroups : groups ≠ 0)
    (h : Answered (costNetwork scope groups activation : Blueprint ℝ _).requests answers) :
    ∃ (head : VoxelHead groups) (cost : (Fin groups → ℝ) → ℝ),
      head.layer = (costNetwork scope groups activation).assemble answers ∧
        ∀ v, head.rate v = activation.value (cost v) := by
  exact ⟨⟨_, _, costNetwork_actsVoxelwise activation hgroups h⟩, voxelCost scope answers, rfl,
    fun _ => rfl⟩

/-- Both heads of a matcher that is put together from answers rate voxels. -/
theorem Matcher.exists_voxelHeads {groups : Nat} {ratesViews parallel : Bool}
    (hgroups : groups ≠ 0)
    (h : Answered (Matcher.blueprint scope groups ratesViews parallel : Blueprint ℝ _).requests
      answers) :
    ∃ (viewHead : Option (VoxelHead groups)) (similarityHead : VoxelHead groups),
      viewHead.isSome = ratesViews ∧
        (Matcher.blueprint scope groups ratesViews parallel).assemble answers =
          ⟨groups, viewHead.map VoxelHead.layer, similarityHead.layer, parallel⟩ := by
  simp only [Matcher.blueprint, answered_seq, answered_map] at h
  obtain ⟨hview, hsimilarity⟩ := h
  obtain ⟨similarityHead, _, hlayer, -⟩ := exists_voxelHead hgroups hsimilarity
  simp only [Matcher.blueprint, assemble_seq, assemble_map, onlyIf_assemble, ← hlayer]
  cases ratesViews with
  | false => exact ⟨none, similarityHead, rfl, rfl⟩
  | true =>
    obtain ⟨viewHead, _, hviewLayer, -⟩ := exists_voxelHead hgroups (answered_onlyIf hview rfl)
    exact ⟨some viewHead, similarityHead, rfl, by simp only [if_true, ← hviewLayer, Option.map]⟩

end Heads

end MultiViewDepth
