import MultiViewDepth.Proofs.VoxelHeads

/-!
Layers that work on every voxel by itself do not see where a voxel is.

For voxels in another order they give what they give for the voxels, in that order, and for voxels
that are laid out in one row what they give for the volume. Arrays that such a layer cannot work on
it refuses, however their voxels are laid out.
-/
namespace MultiViewDepth

open Tensor Arithmetic Blueprint

section Orders

variable {voxels voxel : List Nat} {σ : Equiv.Perm (Fin (volume voxels))} {t u : Tensor ℝ}
  {batch channels inputs outputs : Nat} {layer : Layer ℝ}
  {f : (Fin inputs → ℝ) → Fin outputs → ℝ}

/-- The voxel whose place is `σ` of the place of this one. -/
def movedVoxel (σ : Equiv.Perm (Fin (volume voxels))) (voxel : List Nat) : List Nat :=
  if h : place 0 voxels voxel < volume voxels then digits voxels (σ ⟨_, h⟩) else voxel

theorem within_movedVoxel (h : Within voxel voxels) : Within (movedVoxel σ voxel) voxels := by
  rw [movedVoxel, dif_pos (place_lt h)]
  exact within_digits (Fin.isLt _)

/-- The voxels of every batch element in another order, each with its channels. -/
noncomputable def Tensor.permuteVoxels (σ : Equiv.Perm (Fin (volume voxels))) (t : Tensor ℝ) :
    Tensor ℝ :=
  t.derive t.shape fun entry index =>
    match index with
    | b :: c :: voxel => entry (b :: c :: movedVoxel σ voxel)
    | index => entry index

namespace Tensor

@[simp] theorem shape_permuteVoxels (σ : Equiv.Perm (Fin (volume voxels))) (t : Tensor ℝ) :
    (t.permuteVoxels σ).shape = t.shape := rfl
@[simp] theorem kind_permuteVoxels (σ : Equiv.Perm (Fin (volume voxels))) (t : Tensor ℝ) :
    (t.permuteVoxels σ).kind = t.kind := kind_derive₂ _

theorem IsSingle.permuteVoxels {shape : List Nat} (h : t.IsSingle shape)
    (σ : Equiv.Perm (Fin (volume voxels))) : (t.permuteVoxels σ).IsSingle shape :=
  ⟨h.shape_eq, (kind_permuteVoxels σ t).trans h.kind_eq⟩

theorem permuteVoxels_get (h : t.IsSingle (batch :: channels :: voxels)) {b c : Nat}
    (hb : b < batch) (hc : c < channels) (hvoxel : Within voxel voxels) :
    (t.permuteVoxels σ).get (b :: c :: voxel) = t.get (b :: c :: movedVoxel σ voxel) := by
  have hw : Within (b :: c :: voxel) t.shape := by
    rw [h.shape_eq]
    exact ⟨hb, hc, hvoxel⟩
  exact get_derive₂ h.kind_eq hw _

/-- Arrays are the same if they have the same channels at every voxel. -/
theorem ext_voxels (ht : t.IsSingle (batch :: channels :: voxels))
    (hu : u.IsSingle (batch :: channels :: voxels))
    (h : ∀ b c voxel, b < batch → c < channels → Within voxel voxels →
      t.get (b :: c :: voxel) = u.get (b :: c :: voxel)) : t = u := by
  refine ext_get ht.kind_eq hu.kind_eq (ht.shape_eq.trans hu.shape_eq.symm) fun index hw => ?_
  rw [ht.shape_eq] at hw
  obtain ⟨b, _, rfl, hb, hw⟩ := hw.exists_cons
  obtain ⟨c, voxel, rfl, hc, hvoxel⟩ := hw.exists_cons
  exact h b c voxel hb hc hvoxel

end Tensor

/-- What a layer gives when the voxels of an array are laid out in one row for it. -/
noncomputable def inOneRow (layer : Layer ℝ) (batch channels outputs : Nat) (voxels : List Nat) :
    Layer ℝ := fun t => do
  let given ← layer (← t.reshape [batch, channels, volume voxels])
  given.reshape (batch :: outputs :: voxels)

/-- Entries do not move when the voxels are laid out in one row. -/
theorem place_row (batch channels b c : Nat) (hvoxel : Within voxel voxels) :
    place 0 [batch, channels, volume voxels] [b, c, place 0 voxels voxel] =
      place 0 (batch :: channels :: voxels) (b :: c :: voxel) := by
  simp only [place_cons, place_nil, place_eq hvoxel ((0 * batch + b) * channels + c)]

theorem volume_row (batch channels : Nat) (voxels : List Nat) :
    volume [batch, channels, volume voxels] = volume (batch :: channels :: voxels) := by
  simp only [volume_cons, volume_nil, Nat.mul_one]

namespace ActsVoxelwise

/-- Voxels in another order give the results in that order. -/
theorem permute (h : ActsVoxelwise layer f) (hbatch : 0 < batch)
    (ht : t.IsSingle (batch :: inputs :: voxels)) (σ : Equiv.Perm (Fin (volume voxels))) :
    layer (t.permuteVoxels σ) = Tensor.permuteVoxels σ <$> layer t := by
  obtain ⟨u, hu, hus, hget⟩ := h t batch voxels hbatch ht
  obtain ⟨u', hu', hus', hget'⟩ := h (t.permuteVoxels σ) batch voxels hbatch (ht.permuteVoxels σ)
  have hsame : u' = u.permuteVoxels σ := by
    refine ext_voxels hus' (hus.permuteVoxels σ) fun b o voxel hb ho hvoxel => ?_
    have hchannels : (fun c : Fin inputs => (t.permuteVoxels σ).get (b :: c.val :: voxel)) =
        fun c => t.get (b :: c.val :: movedVoxel σ voxel) :=
      funext fun c => permuteVoxels_get ht hb c.isLt hvoxel
    rw [permuteVoxels_get hus hb ho hvoxel, hget' b ⟨o, ho⟩ voxel hb hvoxel,
      hget b ⟨o, ho⟩ _ hb (within_movedVoxel hvoxel), hchannels]
  rw [hu, hu', hsame]
  rfl

/-- Voxels in one row give the results of the voxels where they are. -/
theorem row (h : ActsVoxelwise layer f) (hbatch : 0 < batch)
    (ht : t.IsSingle (batch :: inputs :: voxels)) :
    inOneRow layer batch inputs outputs voxels t = layer t := by
  obtain ⟨u, hu, hus, hget⟩ := h t batch voxels hbatch ht
  obtain ⟨flat, hflat, hflats, hflatGet⟩ := ht.reshape _ (volume_row batch inputs voxels).symm
  obtain ⟨w, hw, hws, hwGet⟩ := h flat batch [volume voxels] hbatch hflats
  obtain ⟨u', hu', hus', hget'⟩ := hws.reshape _ (volume_row batch outputs voxels)
  have hsame : u' = u := by
    refine ext_voxels hus' hus fun b o voxel hb ho hvoxel => ?_
    have hchannels : (fun c : Fin inputs => flat.get [b, c.val, place 0 voxels voxel]) =
        fun c => t.get (b :: c.val :: voxel) :=
      funext fun c => hflatGet _ _ (place_row batch inputs b c hvoxel)
    have hplace : Within [place 0 voxels voxel] [volume voxels] := ⟨place_lt hvoxel, trivial⟩
    rw [hget' _ _ (place_row batch outputs b o hvoxel).symm, hwGet b ⟨o, ho⟩ _ hb hplace,
      hchannels, hget b ⟨o, ho⟩ voxel hb hvoxel]
  simp only [inOneRow, hflat, hw, hu', ok_bind, hu, hsame]

end ActsVoxelwise

end Orders

/-- The layers that heads for voxels are put together from, and the heads themselves. -/
inductive VoxelLayer where
  | mix (inputs outputs : Nat)
  | mixWithBias (inputs outputs : Nat)
  | normalize (channels : Nat)
  | block (inputs outputs : Nat)
  | head (groups : Nat) (activation : Activation)

namespace VoxelLayer

def inputs : VoxelLayer → Nat
  | mix inputs _ | mixWithBias inputs _ | block inputs _ => inputs
  | normalize channels => channels
  | head groups _ => groups

def outputs : VoxelLayer → Nat
  | mix _ outputs | mixWithBias _ outputs | block _ outputs => outputs
  | normalize channels => channels
  | head _ _ => 1

def Filled : VoxelLayer → Prop
  | mix inputs _ | mixWithBias inputs _ => inputs ≠ 0
  | normalize channels => channels ≠ 0
  | block inputs outputs => inputs ≠ 0 ∧ outputs ≠ 0
  | head groups _ => groups ≠ 0

noncomputable def blueprint (scope : String) : VoxelLayer → Blueprint ℝ (Layer ℝ)
  | mix inputs outputs => Voxelwise.blueprint scope inputs outputs
  | mixWithBias inputs outputs => Voxelwise.blueprintWithBias scope inputs outputs
  | normalize channels => Normalization.apply <$> Normalization.blueprint scope channels
  | block inputs outputs => Voxelwise.block scope inputs outputs
  | head groups activation => costNetwork scope groups activation

noncomputable def value (scope : String) (answers : String → Tensor ℝ) :
    (layer : VoxelLayer) → (Fin layer.inputs → ℝ) → Fin layer.outputs → ℝ
  | mix _ _ => Voxelwise.mixed (answers (dotted scope "weight"))
  | mixWithBias _ _ => Voxelwise.mixedWithBias scope answers
  | normalize channels => fun v c =>
    ((Normalization.blueprint scope channels).assemble answers).entry c (v c)
  | block _ _ => Voxelwise.rectified scope answers
  | head _ activation => fun v _ => activation.value (voxelCost scope answers v)

variable {scope : String} {answers : String → Tensor ℝ} {layer : VoxelLayer} {t : Tensor ℝ}
  {batch channels inputs outputs : Nat} {voxels : List Nat}

theorem actsVoxelwise (h : Answered (layer.blueprint scope).requests answers)
    (hfilled : layer.Filled) :
    ActsVoxelwise ((layer.blueprint scope).assemble answers) (layer.value scope answers) := by
  cases layer with
  | mix inputs outputs =>
    simp only [blueprint, Voxelwise.blueprint, answered_map, answered_parameter] at h
    exact Voxelwise.apply_actsVoxelwise hfilled h
  | mixWithBias inputs outputs => exact Voxelwise.blueprintWithBias_actsVoxelwise hfilled h
  | normalize channels =>
    simp only [blueprint, Normalization.blueprint, answered_seq, answered_map,
      answered_parameter] at h
    exact Normalization.apply_actsVoxelwise hfilled h.1.1.1
  | block inputs outputs => exact Voxelwise.block_actsVoxelwise hfilled.1 hfilled.2 h
  | head groups activation => exact costNetwork_actsVoxelwise activation hfilled h

/-- The layer can work on arrays of the kind `kind` with `batch` elements and `channels`. -/
structure Takes (layer : VoxelLayer) (kind : ElementKind) (batch channels : Nat) : Prop where
  kind_eq : kind = .single
  batch_ne_zero : batch ≠ 0
  channels_eq : channels = layer.inputs
  filled : layer.Filled

section Refused

variable {norm : Normalization ℝ} {weight : Tensor ℝ}

theorem mix_refuses (hweight : weight.shape = [outputs, inputs, 1, 1, 1])
    (ht : t.shape = batch :: channels :: voxels)
    (h : ¬ (mix inputs outputs).Takes t.kind batch channels) :
    Voxelwise.apply weight t = .error .tensor := by
  have hin : weight.size 1 = inputs := by simp [size, hweight]
  simp only [Voxelwise.apply, ht, hin]
  by_cases hempty : batch = 0 ∨ channels = 0
  · rw [if_pos hempty]
    rfl
  rw [if_neg hempty]
  obtain ⟨hbatch, hchannels⟩ := not_or.1 hempty
  by_cases heq : inputs = channels
  · rw [if_pos heq]
    have hkind : t.kind ≠ .single := fun hkind =>
      h ⟨hkind, hbatch, heq.symm, fun hzero => hchannels (heq ▸ hzero)⟩
    simp only [requireSingle, if_neg hkind, error_bind, pure_eq_ok]
  · rw [if_neg heq]
    rfl

theorem normalize_refuses (hmean : norm.mean.shape = [inputs])
    (ht : t.shape = batch :: channels :: voxels)
    (h : ¬ (normalize inputs).Takes t.kind batch channels) : norm.apply t = .error .tensor := by
  by_cases hkind : t.kind = .single
  · have hsingle : t.requireSingle = .ok () := requireSingle_eq_ok.2 hkind
    simp only [Normalization.apply, hsingle, ok_bind, ht, hmean]
    by_cases hempty : batch = 0 ∨ channels = 0
    · rw [if_pos hempty]
      rfl
    rw [if_neg hempty]
    obtain ⟨hbatch, hchannels⟩ := not_or.1 hempty
    have hne : [inputs] ≠ [channels] := fun heq =>
      have heq : inputs = channels := List.head_eq_of_cons_eq heq
      h ⟨hkind, hbatch, heq.symm, fun hzero => hchannels (heq ▸ hzero)⟩
    rw [if_neg hne]
    rfl
  · simp only [Normalization.apply, requireSingle, if_neg hkind, error_bind]

theorem block_refuses (h : Answered ((block inputs outputs).blueprint scope).requests answers)
    (ht : t.shape = batch :: channels :: voxels)
    (hnot : ¬ (block inputs outputs).Takes t.kind batch channels) :
    ((block inputs outputs).blueprint scope).assemble answers t = .error .tensor := by
  simp only [blueprint, Voxelwise.block, Voxelwise.blueprint, Normalization.blueprint,
    answered_seq, answered_map, answered_parameter] at h
  obtain ⟨hweight, ⟨⟨hmean, -⟩, -⟩, -⟩ := h
  simp only [blueprint, Voxelwise.block, Voxelwise.blueprint, assemble_seq, assemble_map,
    assemble_parameter]
  by_cases hmix : (mix inputs outputs).Takes t.kind batch channels
  · obtain rfl : channels = inputs := hmix.channels_eq
    obtain ⟨u, hu, hus, -⟩ := Voxelwise.apply_actsVoxelwise hmix.filled hweight t batch voxels
      (Nat.pos_of_ne_zero hmix.batch_ne_zero) ⟨ht, hmix.kind_eq⟩
    -- the channels are mixed, so that there is none left to normalize
    have hnormalize : ¬ (normalize outputs).Takes u.kind batch outputs := fun htakes =>
      hnot ⟨hmix.kind_eq, hmix.batch_ne_zero, rfl, hmix.filled, htakes.filled⟩
    rw [hu, ok_bind, normalize_refuses hmean hus.shape_eq hnormalize, error_bind]
  · rw [mix_refuses hweight ht hmix, error_bind]

/-- Whatever a layer cannot work on it refuses. -/
theorem refuses (h : Answered (layer.blueprint scope).requests answers)
    (ht : t.shape = batch :: channels :: voxels) (hnot : ¬ layer.Takes t.kind batch channels) :
    (layer.blueprint scope).assemble answers t = .error .tensor := by
  cases layer with
  | mix inputs outputs =>
    simp only [blueprint, Voxelwise.blueprint, answered_map, answered_parameter] at h
    exact mix_refuses h ht hnot
  | mixWithBias inputs outputs =>
    simp only [blueprint, Voxelwise.blueprintWithBias, answered_seq, answered_map,
      answered_parameter] at h
    have hmix : ¬ (mix inputs outputs).Takes t.kind batch channels := fun htakes =>
      hnot ⟨htakes.kind_eq, htakes.batch_ne_zero, htakes.channels_eq, htakes.filled⟩
    simp only [blueprint, Voxelwise.blueprintWithBias, assemble_seq, assemble_map,
      assemble_parameter, mix_refuses h.1 ht hmix, error_bind]
  | normalize channels =>
    simp only [blueprint, Normalization.blueprint, answered_seq, answered_map,
      answered_parameter] at h
    exact normalize_refuses h.1.1.1 ht hnot
  | block inputs outputs => exact block_refuses h ht hnot
  | head groups activation =>
    simp only [blueprint, costNetwork, answered_seq, answered_map] at h
    have hfirst : ¬ (block groups 16).Takes t.kind batch channels := fun htakes =>
      hnot ⟨htakes.kind_eq, htakes.batch_ne_zero, htakes.channels_eq, htakes.filled.1⟩
    have herror : (Voxelwise.block (dotted scope "0") groups 16).assemble answers t =
        .error .tensor := block_refuses h.1.1 ht hfirst
    simp only [blueprint, costNetwork, assemble_seq, assemble_map, herror, error_bind]

/-- A refusal does not depend on how the voxels are laid out. -/
theorem row_refuses (h : Answered (layer.blueprint scope).requests answers)
    (ht : t.shape = batch :: channels :: voxels) (hnot : ¬ layer.Takes t.kind batch channels)
    (outputs : Nat) :
    inOneRow ((layer.blueprint scope).assemble answers) batch channels outputs voxels t =
      .error .tensor := by
  have hvolume : volume t.shape = volume [batch, channels, volume voxels] := by
    rw [ht, volume_row]
  have hflat : t.reshape [batch, channels, volume voxels] =
      .ok ⟨_, t.elements, t.size_elements.trans hvolume⟩ := dif_pos hvolume
  have hrefused := refuses h (t := ⟨_, t.elements, t.size_elements.trans hvolume⟩) rfl hnot
  simp only [inOneRow, hflat, ok_bind, hrefused, error_bind]

end Refused

/-- In a volume that a layer can work on, it makes of the channels of a voxel what it makes of them
at any voxel of any batch element; it refuses all other volumes. Laying the voxels out in one row
changes nothing, and voxels in another order give the same in that order, refusals included. -/
theorem assemble_voxelwise {depth height width : Nat}
    (h : Answered (layer.blueprint scope).requests answers)
    (ht : t.shape = [batch, channels, depth, height, width]) :
    (layer.Takes t.kind batch channels →
      ∃ u, (layer.blueprint scope).assemble answers t = .ok u ∧
        u.IsSingle [batch, layer.outputs, depth, height, width] ∧
        ∀ b (o : Fin layer.outputs) d y x, b < batch → d < depth → y < height → x < width →
          u.get [b, o, d, y, x] =
            layer.value scope answers (fun i => t.get [b, i, d, y, x]) o) ∧
    (¬ layer.Takes t.kind batch channels →
      (layer.blueprint scope).assemble answers t = .error .tensor) ∧
    inOneRow ((layer.blueprint scope).assemble answers) batch channels layer.outputs
        [depth, height, width] t = (layer.blueprint scope).assemble answers t ∧
    ∀ σ : Equiv.Perm (Fin (volume [depth, height, width])),
      (layer.blueprint scope).assemble answers (t.permuteVoxels σ) =
        Tensor.permuteVoxels σ <$> (layer.blueprint scope).assemble answers t := by
  by_cases htakes : layer.Takes t.kind batch channels
  · obtain rfl : channels = layer.inputs := htakes.channels_eq
    have hacts := actsVoxelwise h htakes.filled
    have hbatch := Nat.pos_of_ne_zero htakes.batch_ne_zero
    have hsingle : t.IsSingle (batch :: layer.inputs :: [depth, height, width]) :=
      ⟨ht, htakes.kind_eq⟩
    refine ⟨fun _ => ?_, fun hnot => absurd htakes hnot, hacts.row hbatch hsingle,
      hacts.permute hbatch hsingle⟩
    obtain ⟨u, hu, hus, hget⟩ := hacts t batch _ hbatch hsingle
    exact ⟨u, hu, hus, fun b o d y x hb hd hy hx => hget b o _ hb (within_three hd hy hx)⟩
  · have hrefused := refuses h ht htakes
    refine ⟨fun htaken => absurd htaken htakes, fun _ => hrefused, ?_, fun σ => ?_⟩
    · rw [row_refuses h ht htakes, hrefused]
    · have hmoved := refuses h (t := t.permuteVoxels σ) ht
        (by rwa [kind_permuteVoxels])
      rw [hmoved, hrefused]
      rfl

noncomputable def twoVoxels : Tensor ℝ :=
  .ofFn [1, 1, 1, 1, 2] fun index => place 0 [1, 1, 1, 1, 2] index

noncomputable def plainAnswers (_ : String) : Tensor ℝ := .ofFn [1, 1, 1, 1, 1] fun _ => -1

def swappedVoxels : Equiv.Perm (Fin (volume [1, 1, 2])) :=
  Equiv.swap ⟨0, by decide⟩ ⟨1, by decide⟩

theorem assemble_voxelwise_twoVoxels :
    ∃ u, ((mix 1 1).blueprint "").assemble plainAnswers
        (twoVoxels.permuteVoxels swappedVoxels) = .ok u ∧
      u.get [0, 0, 0, 0, 0] = -1 ∧ u.get [0, 0, 0, 0, 1] = 0 := by
  have hanswers : Answered ((mix 1 1).blueprint "").requests plainAnswers := by
    simp only [blueprint, Voxelwise.blueprint, answered_map, answered_parameter]
    rfl
  obtain ⟨hvalue, -, -, hpermute⟩ := assemble_voxelwise hanswers (t := twoVoxels) rfl
  obtain ⟨u, hu, hus, hget⟩ := hvalue ⟨rfl, one_ne_zero, rfl, one_ne_zero⟩
  have hw (x n : Nat) (hx : x < n) : Within [0, 0, 0, 0, x] [1, 1, 1, 1, n] :=
    within_five Nat.one_pos Nat.one_pos Nat.one_pos Nat.one_pos hx
  have hvoxel (x : Nat) (hx : x < 2) : u.get [0, 0, 0, 0, x] = -x := by
    calc u.get [0, 0, 0, 0, x]
        = ∑ c : Fin 1, twoVoxels.get [0, c, 0, 0, x] *
            (plainAnswers "weight").get [0, c, 0, 0, 0] :=
          hget 0 (Fin.last 0) 0 0 x Nat.one_pos Nat.one_pos Nat.one_pos hx
      _ = twoVoxels.get [0, 0, 0, 0, x] * (plainAnswers "weight").get [0, 0, 0, 0, 0] :=
          Fin.sum_univ_one _
      _ = -x := by
          rw [twoVoxels, get_ofFn (hw x 2 hx), plainAnswers, get_ofFn (hw 0 1 Nat.one_pos)]
          simp
  have hmoved (x : Nat) (hx : x < 2) : (u.permuteVoxels swappedVoxels).get [0, 0, 0, 0, x] =
      u.get (0 :: 0 :: movedVoxel swappedVoxels [0, 0, x]) :=
    permuteVoxels_get hus Nat.one_pos Nat.one_pos (within_three Nat.one_pos Nat.one_pos hx)
  have hfirst : movedVoxel swappedVoxels [0, 0, 0] = [0, 0, 1] := by decide
  have hsecond : movedVoxel swappedVoxels [0, 0, 1] = [0, 0, 0] := by decide
  refine ⟨u.permuteVoxels swappedVoxels, ?_, ?_, ?_⟩
  · rw [hpermute, hu]
    rfl
  · rw [hmoved 0 (by decide), hfirst, hvoxel 1 (by decide)]
    norm_num
  · rw [hmoved 1 (by decide), hsecond, hvoxel 0 (by decide)]
    norm_num

end VoxelLayer

end MultiViewDepth
