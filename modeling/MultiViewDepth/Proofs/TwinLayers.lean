import MultiViewDepth.Proofs.TwinArithmetic
import MultiViewDepth.Features
import MultiViewDepth.Layer.Voxelwise
import MultiViewDepth.Refiner

/-!
Learned layers work on every element of a batch by itself.
-/
namespace MultiViewDepth

open Tensor Arithmetic Scalar Twins

variable {α : Type} [Scalar α]

/-- The layer takes elements of one shape to elements of another one, each by itself. -/
def Batchwise (layer : Layer α) (s s' : List Nat) : Prop :=
  ∀ (p : Twins) (t t' : Tensor α), p.Alike s t t' → Both (p.Alike s') (layer t) (layer t')

namespace Batchwise

variable {s s' s'' : List Nat} {first second : Layer α}

theorem comp (hf : Batchwise first s s') (hs : Batchwise second s' s'') :
    Batchwise (fun t => do second (← first t)) s s'' :=
  fun p t t' h => (hf p t t' h).bind (hs p)

theorem map (f : α → α) : Batchwise (fun t => .ok (t.map f)) s s :=
  fun _ _ _ h => .ok (h.map f)

theorem chain_nil : Batchwise (chain ([] : List (Layer α))) s s :=
  fun _ _ _ h => .ok h

theorem chain_cons {layers : List (Layer α)} (hf : Batchwise first s s')
    (hl : Batchwise (chain layers) s' s'') : Batchwise (chain (first :: layers)) s s'' := by
  intro p t t' h
  simp only [chain, List.foldlM_cons]
  exact (hf p t t' h).bind (hl p)

end Batchwise

namespace Convolution

theorem tap_lt {stride : Stride} {size p k i : Nat} (h : tap stride size p k = some i) :
    i < size := by
  simp only [tap] at h
  split at h
  next hi => cases h; exact hi.2
  next => cases h

theorem spreadTap_lt {size p k i : Nat} (h : spreadTap size p k = some i) : i < size := by
  unfold spreadTap at h
  split at h
  next hi => cases h; exact hi.2.2
  next => cases h

variable {kernels bias : Tensor α} {outputs inputs height width : Nat}

/-- A convolution never mixes batch elements. -/
theorem apply_batchwise {stride : Stride} {kernelHeight kernelWidth rows columns : Nat}
    (hk : kernels.shape = [outputs, inputs, kernelHeight, kernelWidth])
    (hrows : outputSize stride height kernelHeight = some rows)
    (hcolumns : outputSize stride width kernelWidth = some columns) :
    Batchwise (apply stride kernels) [inputs, height, width] [outputs, rows, columns] := by
  intro p t t' h
  simp only [apply, h.sizes4.1, h.sizes4.2, sizes4_eq_ok.2 hk, ok_bind, if_true,
    h.requireSingle.1, h.requireSingle.2, hrows, hcolumns, pure_eq_ok]
  refine .ok (alike_ofFn fun index hw => ?_)
  obtain ⟨o, y, x, rfl, -, -, -⟩ := hw.exists_three
  refine sumTo_congr fun c hc => sumTo_congr fun i _ => sumTo_congr fun j _ => ?_
  -- outside the margin both sides read one entry of the twins
  cases hy : tap stride height y i with
  | none => rfl
  | some a =>
    cases hx : tap stride width x j with
    | none => rfl
    | some b =>
      simp only [get4_eq h.shape_left, get4_eq h.shape_right]
      rw [h.get_eq [c, a, b] ⟨hc, tap_lt hy, tap_lt hx, trivial⟩]

theorem addBias_batchwise {channels : Nat} {rest : List Nat} (hb : bias.shape = [channels]) :
    Batchwise (addBias bias) (channels :: rest) (channels :: rest) := by
  intro p t t' h
  simp only [addBias, h.requireSingle.1, h.requireSingle.2, ok_bind, h.shape_left, h.shape_right,
    hb, if_true, pure_eq_ok]
  refine .ok (alike_ofFn fun index hw => ?_)
  obtain ⟨c, voxel, rfl, hc, hvoxel⟩ := hw.exists_cons
  change t.get _ + _ = t'.get _ + _
  rw [h.get_eq (c :: voxel) ⟨hc, hvoxel⟩]

/-- The transposed convolution doubles the sides. -/
theorem spread_batchwise (hk : kernels.shape = [inputs, outputs, 3, 3]) :
    Batchwise (spread kernels) [inputs, height, width] [outputs, 2 * height, 2 * width] := by
  intro p t t' h
  simp only [spread, h.sizes4.1, h.sizes4.2, sizes4_eq_ok.2 hk, ok_bind, if_true,
    h.requireSingle.1, h.requireSingle.2, pure_eq_ok]
  refine .ok (alike_ofFn fun index hw => ?_)
  obtain ⟨o, y, x, rfl, -, -, -⟩ := hw.exists_three
  refine sumTo_congr fun c hc => sumTo_congr fun i _ => ?_
  cases hy : spreadTap height y i with
  | none => rfl
  | some a =>
    refine sumTo_congr fun j _ => ?_
    cases hx : spreadTap width x j with
    | none => rfl
    | some b =>
      simp only [get4_eq h.shape_left, get4_eq h.shape_right]
      rw [h.get_eq [c, a, b] ⟨hc, spreadTap_lt hy, spreadTap_lt hx, trivial⟩]

end Convolution

theorem Normalization.apply_batchwise {norm : Normalization α} {channels : Nat} {rest : List Nat}
    (hchannels : channels ≠ 0) (hmean : norm.mean.shape = [channels]) :
    Batchwise norm.apply (channels :: rest) (channels :: rest) := by
  intro p t t' h
  have hp : ¬ (p.size = 0 ∨ channels = 0) := by have := p.lt; omega
  have hp' : ¬ (p.size' = 0 ∨ channels = 0) := by have := p.lt'; omega
  simp only [Normalization.apply, h.requireSingle.1, h.requireSingle.2, ok_bind, h.shape_left,
    h.shape_right, hp, hp', hmean, if_true, if_false, pure_eq_ok]
  refine .ok (alike_ofFn fun index hw => ?_)
  obtain ⟨c, voxel, rfl, hc, hvoxel⟩ := hw.exists_cons
  change norm.entry c (t.get _) = norm.entry c (t'.get _)
  rw [h.get_eq (c :: voxel) ⟨hc, hvoxel⟩]

theorem Voxelwise.apply_batchwise {weight : Tensor α} {inputs outputs : Nat} {rest : List Nat}
    (hinputs : inputs ≠ 0) (hweight : weight.shape = [outputs, inputs, 1, 1, 1]) :
    Batchwise (Voxelwise.apply weight) (inputs :: rest) (outputs :: rest) := by
  intro p t t' h
  have hp : ¬ (p.size = 0 ∨ inputs = 0) := by have := p.lt; omega
  have hp' : ¬ (p.size' = 0 ∨ inputs = 0) := by have := p.lt'; omega
  have hin : weight.size 1 = inputs := by simp [Tensor.size, hweight]
  have hout : weight.size 0 = outputs := by simp [Tensor.size, hweight]
  simp only [Voxelwise.apply, h.requireSingle.1, h.requireSingle.2, ok_bind, h.shape_left,
    h.shape_right, hp, hp', hin, hout, if_true, if_false, pure_eq_ok]
  refine .ok (alike_ofFn fun index hw => ?_)
  obtain ⟨o, voxel, rfl, -, hvoxel⟩ := hw.exists_cons
  refine sumTo_congr fun c hc => ?_
  rw [h.get_eq (c :: voxel) ⟨hc, hvoxel⟩]

end MultiViewDepth
