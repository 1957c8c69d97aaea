import MultiViewDepth.Proofs.VariedScenes
import MultiViewDepth.Proofs.DepthBounds
import MultiViewDepth.Proofs.ParameterNames
import MultiViewDepth.Proofs.Soundness

/-!
What a refinement adds to a depth map.

Depth is normalized before its features are found and mapped back after the correction. Both are
affine, and doubling a map passes through affine changes, so that a refined map is the doubled map
with the correction added in units of the range.
-/
namespace MultiViewDepth

open Tensor Arithmetic Blueprint

section Blocks

variable {α : Type} [Scalar α] {answers : String → Tensor α} {scope : String}
  {batch inputs outputs height width : Nat} {t u : Tensor α}

theorem outputSize_pos {size rows : Nat}
    (h : Convolution.outputSize ⟨1, 1, 1⟩ size 3 = some rows) : 0 < size := by
  simp only [Convolution.outputSize] at h
  split at h
  next => cases h
  next hle => omega

/-- Kernels of size 3 fit into a margin of one only around a map with texels. -/
theorem convolved_pos {kernels : Tensor α} (hshape : t.shape = [batch, inputs, height, width])
    (hkernels : kernels.shape = [outputs, inputs, 3, 3])
    (h : Convolution.apply ⟨1, 1, 1⟩ kernels t = .ok u) :
    0 < height ∧ 0 < width ∧ ∃ rest, u.shape = batch :: rest := by
  simp only [Convolution.apply, sizes4_eq_ok.2 hshape, sizes4_eq_ok.2 hkernels, ok_bind, if_true,
    bind_eq_ok] at h
  obtain ⟨-, -, h⟩ := h
  split at h
  next rows columns hrows hcolumns =>
    cases h
    exact ⟨outputSize_pos hrows, outputSize_pos hcolumns, [outputs, rows, columns], rfl⟩
  next => cases h

theorem normalize_pos {norm : Normalization α} {rest : List Nat} (hshape : t.shape = batch :: rest)
    (h : norm.apply t = .ok u) : 0 < batch := by
  simp only [Normalization.apply, bind_eq_ok, hshape] at h
  obtain ⟨-, -, h⟩ := h
  split at h
  next first _ _ heq =>
    obtain ⟨rfl, -⟩ := List.cons.inj heq
    simp only [throw_eq_error, error_bind, error_ite_eq_ok] at h
    omega
  next => cases h

/-- A block that keeps the size of its maps needs maps with texels, and a batch with elements. -/
theorem sameSizeBlock_pos
    (hanswers : Answered (sameSizeBlock scope inputs outputs : Blueprint α _).requests answers)
    (hshape : t.shape = [batch, inputs, height, width])
    (h : (sameSizeBlock scope inputs outputs).assemble answers t = .ok u) :
    0 < batch ∧ 0 < height ∧ 0 < width := by
  simp only [sameSizeBlock, convolutionBlock, answered_seq, answered_map] at hanswers
  obtain ⟨_, hconvolved, h⟩ := bind_eq_ok.1 h
  obtain ⟨_, hnormalized, -⟩ := bind_eq_ok.1 h
  obtain ⟨hheight, hwidth, _, hconvolvedShape⟩ :=
    convolved_pos hshape (answered_single.1 hanswers.1) hconvolved
  exact ⟨normalize_pos hconvolvedShape hnormalized, hheight, hwidth⟩

end Blocks

namespace Refiner

variable {batch height width : Nat} {source : ParameterSource ℝ} {refiner : Refiner ℝ}
  {image depth : Tensor ℝ} {range : DepthRange ℝ}

theorem normalized_get {shape index : List Nat} (hdepth : depth.IsSingle shape)
    (hw : Within index shape) :
    (normalized range depth).get index =
      (depth.get index - range.near) / (range.far - range.near) := by
  rw [← hdepth.shape_eq] at hw
  rw [normalized, Tensor.affine, get_map hdepth.kind_eq hw, affine_real, narrow_real, narrow_real,
    DepthRange.span]
  ring

/-- A refinement succeeds just when there is something to refine. -/
theorem refine_succeeds {answers : String → Tensor ℝ}
    (hanswers : Answered (Refiner.blueprint "refinement" : Blueprint ℝ _).requests answers)
    (himage : image.IsSingle [batch, 3, 2 * height, 2 * width])
    (hdepth : depth.IsSingle [batch, 1, height, width]) (range : DepthRange ℝ) :
    (∃ refined, ((Refiner.blueprint "refinement").assemble answers).refine image depth range =
      .ok refined) ↔ 0 < batch ∧ 0 < height ∧ 0 < width := by
  constructor
  · rintro ⟨refined, hrefined⟩
    -- the correction needs features of the image, which an empty map or batch does not have
    obtain ⟨_, _, _, -, hfix, -⟩ := refine_parts hdepth.kind_eq hrefined
    obtain ⟨features, hfeatures, -⟩ := bind_eq_ok.1 hfix
    have himageAnswers : Answered (sameSizeBlock "refinement.conv" 3 guideChannels :
        Blueprint ℝ _).requests answers := by
      simp only [blueprint, answered_seq, answered_map] at hanswers
      exact hanswers.1.1
    obtain ⟨hbatch, hheight, hwidth⟩ := sameSizeBlock_pos himageAnswers himage.shape_eq hfeatures
    exact ⟨hbatch, Nat.pos_of_mul_pos_left hheight, Nat.pos_of_mul_pos_left hwidth⟩
  · rintro ⟨hbatch, hheight, hwidth⟩
    have hboth := Twins.refine_alike (refiner_sound hanswers) (himage.alike hbatch)
      (hdepth.alike hbatch) hheight hwidth range
    obtain ⟨refined, hrefined, -⟩ := hboth.self
    exact ⟨refined, hrefined⟩

/-- A refined map is the doubled map with the correction of the normalized one added in units of the
range. With last kernels of zero it is the doubled map. -/
theorem refine_corrects
    (hbuild : (Refiner.blueprint "refinement" : Blueprint ℝ _).build source = .ok refiner)
    (himage : image.IsSingle [batch, 3, 2 * height, 2 * width])
    (hdepth : depth.IsSingle [batch, 1, height, width]) (range : DepthRange ℝ) :
    ((∃ refined, refiner.refine image depth range = .ok refined) ↔
      0 < batch ∧ 0 < height ∧ 0 < width) ∧
    (∀ index, Within index [batch, 1, height, width] →
      (normalized range depth).get index =
        (depth.get index - range.near) / (range.far - range.near)) ∧
    ∀ refined, refiner.refine image depth range = .ok refined →
      ∃ large fix, Sampling.double depth = .ok large ∧
        refiner.residual image (normalized range depth) = .ok fix ∧
        large.IsSingle [batch, 1, 2 * height, 2 * width] ∧
        fix.IsSingle [batch, 1, 2 * height, 2 * width] ∧
        refined.IsSingle [batch, 2 * height, 2 * width] ∧
        (∀ b y x, Within [b, y, x] [batch, 2 * height, 2 * width] →
          refined.get [b, y, x] =
            large.get [b, 0, y, x] + (range.far - range.near) * fix.get [b, 0, y, x]) ∧
        ((∀ t, source lastKernels = some t →
            ∀ index, Within index t.shape → (t.getWide index : ℝ) = 0) →
          large.squeeze 1 = .ok refined) := by
  obtain ⟨answers, hanswers, rfl⟩ :=
    Blueprint.exists_answers (refiner_tidy (by decide)).nodup hbuild
  have hsucceeds := refine_succeeds hanswers.answered himage hdepth range
  refine ⟨hsucceeds, fun index hw => normalized_get hdepth hw, fun refined hrefined => ?_⟩
  obtain ⟨hbatch, hheight, hwidth⟩ := hsucceeds.1 ⟨refined, hrefined⟩
  obtain ⟨large, fix, total, hlarge, hfix, hfixShape, htotal, hsqueeze, hget⟩ :=
    refine_parts hdepth.kind_eq hrefined
  have hlargeSingle := ((Sampling.double_eq_ok hdepth).1 hlarge).1
  rw [hlargeSingle.shape_eq] at hfixShape htotal hget
  have hfixSingle : fix.IsSingle [batch, 1, 2 * height, 2 * width] :=
    ⟨hfixShape, (hget [0, 0, 0, 0] (within_four hbatch Nat.one_pos (by omega) (by omega))).1⟩
  obtain ⟨u, hu, huSingle, huGet⟩ := htotal.squeeze_second
  obtain rfl : refined = u := Except.ok.inj (hsqueeze.symm.trans hu)
  refine ⟨large, fix, hlarge, hfix, hlargeSingle, hfixSingle, huSingle, fun b y x hw => ?_,
    fun hzero => ?_⟩
  · obtain ⟨hb, hy, hx, -⟩ := hw
    exact (huGet b [y, x]).trans (hget _ (within_four hb Nat.one_pos hy hx)).2
  · obtain ⟨large', hlarge', hsilent⟩ :=
      refine_silent (refiner_silent hanswers lastKernels_mem hzero) hdepth.kind_eq hrefined
    obtain rfl : large = large' := Except.ok.inj (hlarge.symm.trans hlarge')
    exact hsilent

theorem refine_corrects_six :
    let source := variedSource.silenced (· = lastKernels)
    let image : Tensor ℝ := ofFn [1, 3, 4, 6] fun index => index.sum
    ∃ refiner large refined,
      (Refiner.blueprint "refinement" : Blueprint ℝ _).build source = .ok refiner ∧
        refiner.refine image Sampling.sixTexels unitRange = .ok refined ∧
        Sampling.double Sampling.sixTexels = .ok large ∧ large.squeeze 1 = .ok refined ∧
        refined.IsSingle [1, 4, 6] := by
  intro source image
  obtain ⟨refiner, hbuild⟩ : ∃ refiner,
      (Refiner.blueprint "refinement" : Blueprint ℝ _).build source = .ok refiner :=
    Blueprint.exists_build fun _ _ => ParameterSource.exists_silenced ⟨_, rfl, rfl⟩
  have himage : image.IsSingle [1, 3, 2 * 2, 2 * 3] := isSingle_ofFn _ _
  obtain ⟨hsucceeds, -, hparts⟩ := refine_corrects hbuild himage
    (isSingle_ofFn [1, 1, 2, 3] _ : Sampling.sixTexels.IsSingle [1, 1, 2, 3]) unitRange
  obtain ⟨refined, hrefined⟩ := hsucceeds.2 (by decide)
  obtain ⟨large, fix, hlarge, -, -, -, hsingle, -, hsilent⟩ := hparts refined hrefined
  exact ⟨refiner, large, refined, hbuild, hrefined, hlarge,
    hsilent fun t ht index hw => ParameterSource.getWide_silenced rfl ht hw, hsingle⟩

end Refiner

end MultiViewDepth
