import MultiViewDepth.Proofs.SamplingBounds
import MultiViewDepth.Proofs.SingleArrays
import MultiViewDepth.Proofs.ViewOrder

/-!
Maps of twice the size, entry by entry.

Along an axis, every entry of a doubled map lies in one texel of the map, a quarter of a texel off
its middle. It takes three quarters of that texel and one quarter of the texel next to it on that
side; at an end the texel stands for the missing one next to it. What an end texel gives to an entry
twice is what a texel inside gives to the entries beyond its neighbors, so that all texels count the
same in the whole.
-/
namespace MultiViewDepth

open Tensor Arithmetic

noncomputable def Tensor.transposed (t : Tensor ℝ) : Tensor ℝ :=
  ofFn [t.size 0, t.size 1, t.size 3, t.size 2] fun
    | [b, c, x, y] => t.get [b, c, y, x]
    | _ => 0

noncomputable def Tensor.flipped (axis : Nat) (t : Tensor ℝ) : Tensor ℝ :=
  t.reorder axis (t.size axis - 1 - ·)

namespace Sampling

/-- The two texels of an axis that entry `o` of twice as many is blended from: the one that it lies
in, and the one next to that. -/
def tapAt (size o : Nat) : Fin 2 → Nat
  | 0 => o / 2
  | 1 => if o % 2 = 0 then o / 2 - 1 else min (o / 2 + 1) (size - 1)

noncomputable def tapShare : Fin 2 → ℝ
  | 0 => (3 : Nat) / (4 : Nat)
  | 1 => 1 / (4 : Nat)

/-- Entry `o` of a row of `size` entries that is stretched to twice its length. -/
noncomputable def stretch (row : Nat → ℝ) (size o : Nat) : ℝ :=
  ∑ a, tapShare a * row (tapAt size o a)

section Rows

variable {row row' : Nat → ℝ} {size o i k : Nat}

theorem stretch_even (row : Nat → ℝ) (size i : Nat) :
    stretch row size (2 * i) = 3 / 4 * row i + 1 / 4 * row (i - 1) := by
  have hlies : 2 * i / 2 = i := by omega
  have hparity : 2 * i % 2 = 0 := by omega
  simp only [stretch, Fin.sum_univ_two, tapAt, tapShare, hlies, hparity, if_true]
  norm_num

theorem stretch_odd (row : Nat → ℝ) (size i : Nat) :
    stretch row size (2 * i + 1) = 3 / 4 * row i + 1 / 4 * row (min (i + 1) (size - 1)) := by
  have hlies : (2 * i + 1) / 2 = i := by omega
  have hparity : ¬ (2 * i + 1) % 2 = 0 := by omega
  simp only [stretch, Fin.sum_univ_two, tapAt, tapShare, hlies, hparity, if_false]
  norm_num

theorem tapAt_lt (ho : o < 2 * size) (a : Fin 2) : tapAt size o a < size := by
  match a with
  | 0 =>
    change o / 2 < size
    omega
  | 1 =>
    change (if o % 2 = 0 then o / 2 - 1 else min (o / 2 + 1) (size - 1)) < size
    split <;> omega

theorem tapShare_nonneg (a : Fin 2) : 0 ≤ tapShare a := by
  match a with
  | 0 => norm_num [tapShare]
  | 1 => norm_num [tapShare]

theorem sum_tapShare : ∑ a, tapShare a = 1 := by
  norm_num [Fin.sum_univ_two, tapShare]

theorem stretch_congr (ho : o < 2 * size) (h : ∀ i < size, row i = row' i) :
    stretch row size o = stretch row' size o :=
  Finset.sum_congr rfl fun a _ => by rw [h _ (tapAt_lt ho a)]

theorem stretch_affine (row : Nat → ℝ) (size o : Nat) (factor term : ℝ) :
    stretch (fun i => row i * factor + term) size o = stretch row size o * factor + term := by
  have hsum : ∑ a, tapShare a * term = term := by rw [← Finset.sum_mul, sum_tapShare, one_mul]
  simp only [stretch, mul_add, Finset.sum_add_distrib, hsum, ← mul_assoc, Finset.sum_mul]

/-- A row that is turned round is stretched from its other end. -/
theorem stretch_reversed (row : Nat → ℝ) (ho : o < 2 * size) :
    stretch (fun i => row (size - 1 - i)) size o = stretch row size (2 * size - 1 - o) := by
  obtain ⟨i, rfl | rfl⟩ := Nat.even_or_odd' o
  · have hodd : 2 * size - 1 - 2 * i = 2 * (size - 1 - i) + 1 := by omega
    have hnext : size - 1 - (i - 1) = min (size - 1 - i + 1) (size - 1) := by omega
    rw [hodd, stretch_even, stretch_odd, hnext]
  · have heven : 2 * size - 1 - (2 * i + 1) = 2 * (size - 1 - i) := by omega
    have hnext : size - 1 - min (i + 1) (size - 1) = size - 1 - i - 1 := by omega
    rw [heven, stretch_even, stretch_odd, hnext]

theorem stretch_mem {S : Set ℝ} (hS : Convex ℝ S) (ho : o < 2 * size) (h : ∀ i < size, row i ∈ S) :
    stretch row size o ∈ S :=
  hS.sum_mem (fun a _ => tapShare_nonneg a) sum_tapShare fun a _ => h _ (tapAt_lt ho a)

/-- A double sum over pairs of neighbors. -/
theorem sum_range_two_mul (f : Nat → ℝ) (n : Nat) :
    ∑ o ∈ Finset.range (2 * n), f o = ∑ i ∈ Finset.range n, (f (2 * i) + f (2 * i + 1)) := by
  induction n with
  | zero => rfl
  | succ n ih =>
    rw [Nat.mul_succ, Finset.sum_range_succ, Finset.sum_range_succ, ih, Finset.sum_range_succ,
      add_assoc]

/-- The texels before and behind the texels of an axis are all texels twice: what the steps to the
left leave out is the last texel, and the steps to the right take that twice. -/
theorem sum_neighbors (row : Nat → ℝ) (size : Nat) :
    ∑ i ∈ Finset.range size, row (i - 1) + ∑ i ∈ Finset.range size, row (min (i + 1) (size - 1)) =
      2 * ∑ i ∈ Finset.range size, row i := by
  cases size with
  | zero => simp
  | succ n =>
    have hbefore : ∑ i ∈ Finset.range (n + 1), row (i - 1) =
        ∑ i ∈ Finset.range n, row i + row 0 := Finset.sum_range_succ' (fun i => row (i - 1)) n
    have hbehind : ∑ i ∈ Finset.range (n + 1), row (min (i + 1) n) =
        ∑ i ∈ Finset.range n, row (i + 1) + row n := by
      rw [Finset.sum_range_succ, min_eq_right n.le_succ]
      refine congrArg (· + row n) (Finset.sum_congr rfl fun i hi => ?_)
      rw [min_eq_left (Finset.mem_range.1 hi)]
    have hlast := Finset.sum_range_succ row n
    have hfirst := Finset.sum_range_succ' row n
    rw [Nat.add_sub_cancel, hbefore, hbehind]
    linarith

/-- Stretching keeps the mean of a row. -/
theorem sum_stretch (row : Nat → ℝ) (size : Nat) :
    ∑ o : Fin (2 * size), stretch row size o = 2 * ∑ i : Fin size, row i := by
  have hneighbors := sum_neighbors row size
  rw [← Finset.sum_range fun o => stretch row size o, ← Finset.sum_range row]
  simp only [sum_range_two_mul, stretch_even, stretch_odd, Finset.sum_add_distrib,
    ← Finset.mul_sum]
  linarith

theorem sourcePosition_even (i : Nat) : (sourcePosition (2 * (i + 1)) : ℝ) = i + 3 / 4 := by
  have hi : (0 : ℝ) ≤ i := i.cast_nonneg
  simp only [sourcePosition]
  push_cast
  rw [if_neg (by linarith)]
  ring

theorem sourcePosition_odd (i : Nat) : (sourcePosition (2 * i + 1) : ℝ) = i + 1 / 4 := by
  have hi : (0 : ℝ) ≤ i := i.cast_nonneg
  simp only [sourcePosition]
  push_cast
  rw [if_neg (by linarith)]
  ring

theorem sourcePosition_zero : (sourcePosition 0 : ℝ) = 0 := by
  norm_num [sourcePosition]

theorem taps_of_position {w : ℝ} (hk : k < size) (hw : w ∈ Set.Ico (0 : ℝ) 1)
    (hp : (sourcePosition o : ℝ) = k + w) :
    (taps size o : Nat × Nat × ℝ) = (k, min (k + 1) (size - 1), w) := by
  have hfloor : ⌊(k : ℝ) + w⌋₊ = k := by
    rw [Nat.floor_eq_iff (add_nonneg k.cast_nonneg hw.1)]
    exact ⟨by linarith [hw.1], by linarith [hw.2]⟩
  have hfirst : min k (size - 1) = k := by omega
  have hsecond : (if k + 1 < size then k + 1 else k) = min (k + 1) (size - 1) := by
    split <;> omega
  simp only [taps, hp, toNat_floor (add_nonneg k.cast_nonneg hw.1), hfloor, hfirst, hsecond,
    add_sub_cancel_left]

/-- The weights of an output blend the texel that it lies in with the one next to that. -/
theorem sumTo_weight (row : Nat → ℝ) (ho : o < 2 * size) :
    sumTo size (fun i => row i * weight size i o) = stretch row size o := by
  rw [sumTo_weight_taps row ho]
  obtain ⟨i, rfl | rfl⟩ := Nat.even_or_odd' o
  · cases i with
    | zero =>
      have hp : (sourcePosition (2 * 0) : ℝ) = (0 : Nat) + 0 := by simpa using sourcePosition_zero
      rw [taps_of_position (by omega) ⟨le_rfl, one_pos⟩ hp, stretch_even]
      ring
    | succ i =>
      have hnext : min (i + 1) (size - 1) = i + 1 := by omega
      rw [taps_of_position (by omega) (by norm_num) (sourcePosition_even i), hnext, stretch_even,
        Nat.add_sub_cancel]
      ring
  · rw [taps_of_position (by omega) (by norm_num) (sourcePosition_odd i), stretch_odd]
    ring

theorem weight_eq_stretch (hi : i < size) (ho : o < 2 * size) :
    (weight size i o : ℝ) = stretch (fun k => if k = i then 1 else 0) size o := by
  rw [← sumTo_weight _ ho, sumTo_real]
  simp [hi]

end Rows

section Maps

variable {batch channels height width : Nat} {t u : Tensor ℝ}

/-- The order in which the two axes are stretched does not matter. -/
theorem stretch_comm (map : Nat → Nat → ℝ) (height width p q : Nat) :
    stretch (fun y => stretch (map y) width q) height p =
      stretch (fun x => stretch (fun y => map y x) height p) width q := by
  simp only [stretch, Finset.mul_sum]
  rw [Finset.sum_comm]
  exact Finset.sum_congr rfl fun a _ => Finset.sum_congr rfl fun e _ => mul_left_comm _ _ _

/-- A doubled map is stretched along both axes. -/
theorem double_stretched (ht : t.IsSingle [batch, channels, height, width]) :
    ∃ u, double t = .ok u ∧ u.IsSingle [batch, channels, 2 * height, 2 * width] ∧
      ∀ b c p q, Within [b, c, p, q] [batch, channels, 2 * height, 2 * width] →
        u.get [b, c, p, q] =
          stretch (fun y => stretch (fun x => t.get [b, c, y, x]) width q) height p := by
  obtain ⟨u, hu, hshape, hkind, hget⟩ := double_ok ht.shape_eq ht.kind_eq
  refine ⟨u, hu, ⟨hshape, hkind⟩, ?_⟩
  rintro b c p q ⟨hb, hc, hp, hq, -⟩
  rw [hget b c p q hb hc hp hq, ← sumTo_weight _ hp]
  exact sumTo_congr fun y _ => congrArg (· * _) (sumTo_weight _ hq)

/-- What makes an array the doubled one of a map. -/
theorem double_eq_ok (ht : t.IsSingle [batch, channels, height, width]) :
    double t = .ok u ↔ u.IsSingle [batch, channels, 2 * height, 2 * width] ∧
      ∀ b c p q, Within [b, c, p, q] [batch, channels, 2 * height, 2 * width] →
        u.get [b, c, p, q] =
          stretch (fun y => stretch (fun x => t.get [b, c, y, x]) width q) height p := by
  obtain ⟨v, hv, hsingle, hget⟩ := double_stretched ht
  constructor
  · intro hu
    obtain rfl : u = v := Except.ok.inj (hu.symm.trans hv)
    exact ⟨hsingle, hget⟩
  · rintro ⟨huSingle, huGet⟩
    rw [hv]
    refine congrArg Except.ok (ext_get hsingle.kind_eq huSingle.kind_eq
      (hsingle.shape_eq.trans huSingle.shape_eq.symm) fun index hw => ?_)
    rw [hsingle.shape_eq] at hw
    obtain ⟨b, c, p, q, rfl, -⟩ := hw.exists_four
    rw [hget b c p q hw, huGet b c p q hw]

/-- Numbers can be moved and scaled before as well as after. -/
theorem double_affine (ht : t.IsSingle [batch, channels, height, width]) (hu : double t = .ok u)
    (factor term : ℝ) : double (t.affine factor term) = .ok (u.affine factor term) := by
  obtain ⟨hsingle, hget⟩ := (double_eq_ok ht).1 hu
  refine (double_eq_ok (ht.map _)).2 ⟨hsingle.map _, fun b c p q hw => ?_⟩
  have ⟨hb, hc, hp, hq, _⟩ := hw
  rw [Tensor.affine, get_map hsingle.kind_eq (hsingle.shape_eq ▸ hw), hget b c p q hw, affine_real,
    ← stretch_affine]
  refine stretch_congr hp fun y hy => ?_
  rw [← stretch_affine]
  refine stretch_congr hq fun x hx => ?_
  rw [get_map ht.kind_eq (ht.shape_eq ▸ within_four hb hc hy hx), affine_real]

theorem transposed_single (ht : t.IsSingle [batch, channels, height, width]) :
    t.transposed.IsSingle [batch, channels, width, height] := by
  refine ⟨?_, rfl⟩
  simp [transposed, size, ht.shape_eq]

theorem transposed_get (ht : t.IsSingle [batch, channels, height, width]) {b c x y : Nat}
    (hw : Within [b, c, x, y] [batch, channels, width, height]) :
    t.transposed.get [b, c, x, y] = t.get [b, c, y, x] := by
  rw [← (transposed_single ht).shape_eq] at hw
  exact get_ofFn hw _

theorem flipped_single {shape : List Nat} (ht : t.IsSingle shape) (axis : Nat) :
    (t.flipped axis).IsSingle shape :=
  ⟨ht.shape_eq, (kind_reorder t axis _).trans ht.kind_eq⟩

theorem flipped_get {shape index : List Nat} (ht : t.IsSingle shape) (axis : Nat)
    (hw : Within index shape) :
    (t.flipped axis).get index = t.get (index.modify axis (shape.getD axis 0 - 1 - ·)) := by
  rw [← ht.shape_eq] at hw ⊢
  exact get_derive₂ ht.kind_eq hw _

/-- Maps with their rows as columns are doubled alike. -/
theorem double_transposed (ht : t.IsSingle [batch, channels, height, width])
    (hu : double t = .ok u) : double t.transposed = .ok u.transposed := by
  obtain ⟨hsingle, hget⟩ := (double_eq_ok ht).1 hu
  refine (double_eq_ok (transposed_single ht)).2 ⟨transposed_single hsingle, ?_⟩
  intro b c q p hw
  have ⟨hb, hc, hq, hp, _⟩ := hw
  rw [transposed_get hsingle hw, hget b c p q (within_four hb hc hp hq), stretch_comm]
  refine stretch_congr hq fun x hx => stretch_congr hp fun y hy => ?_
  exact (transposed_get ht (within_four hb hc hx hy)).symm

theorem double_flippedRows (ht : t.IsSingle [batch, channels, height, width])
    (hu : double t = .ok u) : double (t.flipped 2) = .ok (u.flipped 2) := by
  obtain ⟨hsingle, hget⟩ := (double_eq_ok ht).1 hu
  refine (double_eq_ok (flipped_single ht 2)).2 ⟨flipped_single hsingle 2, ?_⟩
  intro b c p q hw
  have ⟨hb, hc, hp, hq, _⟩ := hw
  have hturned : 2 * height - 1 - p < 2 * height := by omega
  rw [flipped_get hsingle 2 hw]
  refine (hget b c _ q (within_four hb hc hturned hq)).trans ?_
  rw [← stretch_reversed _ hp]
  refine stretch_congr hp fun y hy => stretch_congr hq fun x hx => ?_
  exact (flipped_get ht 2 (within_four hb hc hy hx)).symm

/-- Turning the columns round is turning the rows round between two transpositions. -/
theorem flippedColumns_eq (ht : t.IsSingle [batch, channels, height, width]) :
    t.flipped 3 = (t.transposed.flipped 2).transposed := by
  have hturned := flipped_single (transposed_single ht) 2
  have hsingle := transposed_single hturned
  refine ext_get (flipped_single ht 3).kind_eq hsingle.kind_eq
    ((flipped_single ht 3).shape_eq.trans hsingle.shape_eq.symm) fun index hindex => ?_
  rw [(flipped_single ht 3).shape_eq] at hindex
  obtain ⟨b, c, y, x, rfl, hb, hc, hy, hx⟩ := hindex.exists_four
  rw [transposed_get hturned hindex, flipped_get (transposed_single ht) 2 (within_four hb hc hx hy),
    flipped_get ht 3 hindex]
  exact (transposed_get ht (within_four hb hc (show width - 1 - x < width by omega) hy)).symm

theorem double_flippedColumns (ht : t.IsSingle [batch, channels, height, width])
    (hu : double t = .ok u) : double (t.flipped 3) = .ok (u.flipped 3) := by
  have hrows := double_flippedRows (transposed_single ht) (double_transposed ht hu)
  rw [flippedColumns_eq ht, flippedColumns_eq ((double_eq_ok ht).1 hu).1]
  exact double_transposed (flipped_single (transposed_single ht) 2) hrows

/-- Every entry of a doubled map is blended from four texels, along each axis three quarters to one
quarter. So a map that is the same everywhere stays so, no entry leaves the bounds of its map, and
maps can be transposed or turned round before as well as after. -/
theorem double_fourTexels (ht : t.IsSingle [batch, channels, height, width]) :
    ∃ u, double t = .ok u ∧ u.IsSingle [batch, channels, 2 * height, 2 * width] ∧
      (∀ b c p q, Within [b, c, p, q] [batch, channels, 2 * height, 2 * width] →
        let map := fun y x => t.get [b, c, y, x]
        u.get [b, c, p, q] =
            ∑ a, ∑ e, tapShare a * tapShare e * map (tapAt height p a) (tapAt width q e) ∧
          (∀ v, (∀ y x, y < height → x < width → map y x = v) → u.get [b, c, p, q] = v) ∧
          u.get [b, c, p, q] ∈ Set.Icc (⨅ k : Fin height × Fin width, map k.1 k.2)
            (⨆ k : Fin height × Fin width, map k.1 k.2)) ∧
      double t.transposed = .ok u.transposed ∧ double (t.flipped 2) = .ok (u.flipped 2) ∧
      double (t.flipped 3) = .ok (u.flipped 3) := by
  obtain ⟨u, hu, hsingle, hget⟩ := double_stretched ht
  refine ⟨u, hu, hsingle, ?_, double_transposed ht hu, double_flippedRows ht hu,
    double_flippedColumns ht hu⟩
  intro b c p q hw map
  have ⟨_, _, hp, hq, _⟩ := hw
  have hmem {S : Set ℝ} (hS : Convex ℝ S) (h : ∀ y x, y < height → x < width → map y x ∈ S) :
      u.get [b, c, p, q] ∈ S := by
    rw [hget b c p q hw]
    exact stretch_mem hS hp fun y hy => stretch_mem hS hq fun x hx => h y x hy hx
  refine ⟨?_, fun v hv => hmem (convex_singleton v) hv,
    hmem (convex_Icc _ _) fun y x hy hx => texel_mem map hy hx⟩
  rw [hget b c p q hw]
  simp only [stretch, Finset.mul_sum, mul_assoc]
  rfl

noncomputable def sixTexels : Tensor ℝ := ofFn [1, 1, 2, 3] fun
  | [_, _, y, x] => (3 * y + x : Nat)
  | _ => 0

theorem sixTexels_get {y x : Nat} (hy : y < 2) (hx : x < 3) :
    sixTexels.get [0, 0, y, x] = (3 * y + x : Nat) :=
  get_ofFn (within_four Nat.one_pos Nat.one_pos hy hx) _

theorem double_fourTexels_six :
    sixTexels.IsSingle [1, 1, 2, 3] ∧ ∃ u, double sixTexels = .ok u ∧
      u.IsSingle [1, 1, 4, 6] ∧ u.get [0, 0, 1, 5] = 11 / 4 ∧ u.get [0, 0, 2, 1] = 5 / 2 := by
  have hsingle : sixTexels.IsSingle [1, 1, 2, 3] := isSingle_ofFn _ _
  obtain ⟨u, hu, huSingle, hget, -⟩ := double_fourTexels hsingle
  refine ⟨hsingle, u, hu, huSingle, ?_, ?_⟩
  · rw [(hget 0 0 1 5 (by simp)).1]
    norm_num [Fin.sum_univ_two, tapAt, tapShare, sixTexels_get]
  · rw [(hget 0 0 2 1 (by simp)).1]
    norm_num [Fin.sum_univ_two, tapAt, tapShare, sixTexels_get]

/-- Each texel is given out twice in all. -/
theorem sum_weights {size i : Nat} (hi : i < size) :
    ∑ o : Fin (2 * size), (weights size : Tensor ℝ).get [i, o] = 2 :=
  calc ∑ o : Fin (2 * size), (weights size : Tensor ℝ).get [i, o]
      = ∑ o : Fin (2 * size), stretch (fun k => if k = i then 1 else 0) size o :=
        Finset.sum_congr rfl fun o _ => by rw [get_weights hi o.isLt, weight_eq_stretch hi o.isLt]
    _ = 2 * ∑ k ∈ Finset.range size, if k = i then 1 else 0 := by
        rw [sum_stretch, Finset.sum_range]
    _ = 2 := by simp [hi]

/-- All texels count the same along an axis, and a doubled map sums to four times its map. -/
theorem double_total (ht : t.IsSingle [batch, channels, height, width]) :
    (∀ size i, i < size → ∑ o : Fin (2 * size), (weights size : Tensor ℝ).get [i, o] = 2) ∧
      ∃ u, double t = .ok u ∧ u.IsSingle [batch, channels, 2 * height, 2 * width] ∧
        ∀ b c, b < batch → c < channels →
          ∑ p : Fin (2 * height), ∑ q : Fin (2 * width), u.get [b, c, p, q] =
            4 * ∑ y : Fin height, ∑ x : Fin width, t.get [b, c, y, x] := by
  obtain ⟨u, hu, hsingle, hget⟩ := double_stretched ht
  refine ⟨fun size i hi => sum_weights hi, u, hu, hsingle, fun b c hb hc => ?_⟩
  calc ∑ p : Fin (2 * height), ∑ q : Fin (2 * width), u.get [b, c, p, q]
      = ∑ q : Fin (2 * width), ∑ p : Fin (2 * height),
          stretch (fun y => stretch (fun x => t.get [b, c, y, x]) width q) height p := by
        rw [Finset.sum_comm]
        exact Finset.sum_congr rfl fun q _ => Finset.sum_congr rfl fun p _ =>
          hget b c p q (within_four hb hc p.isLt q.isLt)
    _ = ∑ q : Fin (2 * width), 2 * ∑ y : Fin height,
          stretch (fun x => t.get [b, c, y, x]) width q :=
        Finset.sum_congr rfl fun q _ => sum_stretch _ height
    _ = 2 * ∑ y : Fin height, ∑ q : Fin (2 * width),
          stretch (fun x => t.get [b, c, y, x]) width q := by
        rw [← Finset.mul_sum, Finset.sum_comm]
    _ = 4 * ∑ y : Fin height, ∑ x : Fin width, t.get [b, c, y, x] := by
        rw [Finset.sum_congr rfl fun y _ => sum_stretch _ width, ← Finset.mul_sum, ← mul_assoc]
        norm_num

theorem double_total_six :
    sixTexels.IsSingle [1, 1, 2, 3] ∧ ∃ u, double sixTexels = .ok u ∧ u.IsSingle [1, 1, 4, 6] ∧
      ∑ p : Fin 4, ∑ q : Fin 6, u.get [0, 0, p, q] = 60 := by
  have hsingle : sixTexels.IsSingle [1, 1, 2, 3] := isSingle_ofFn _ _
  obtain ⟨-, u, hu, huSingle, hsum⟩ := double_total hsingle
  refine ⟨hsingle, u, hu, huSingle, (hsum 0 0 Nat.one_pos Nat.one_pos).trans ?_⟩
  norm_num [Fin.sum_univ_two, Fin.sum_univ_three, sixTexels_get]

end Maps

end Sampling

end MultiViewDepth
