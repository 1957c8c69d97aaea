import MultiViewDepth.Proofs.Bounds
import MultiViewDepth.Proofs.TwinSampling

/-!
Enlarged maps and maps read within their borders keep the bounds of their entries.

Both are weighted means: the weights of the texels around a position are not negative and sum to 1.
-/
namespace MultiViewDepth.Sampling

open Tensor Arithmetic

variable {lo hi : ℝ}

section Doubling

variable {size o : Nat}

theorem sourcePosition_mem (ho : o < 2 * size) :
    (sourcePosition o : ℝ) ∈ Set.Ico (0 : ℝ) size := by
  have hsize : (0 : ℝ) < size := by exact_mod_cast (by omega : 0 < size)
  have hle : (o : ℝ) + 1 ≤ 2 * size := by exact_mod_cast ho
  simp only [sourcePosition]
  split_ifs with h
  · exact ⟨le_rfl, hsize⟩
  · push_cast at h ⊢
    exact ⟨not_lt.1 h, by linarith⟩

theorem toNat_floor {p : ℝ} (hp : 0 ≤ p) : toNat (Scalar.floor p) = ⌊p⌋₊ := by
  change ⌊((⌊p⌋ : ℤ) : ℝ)⌋₊ = ⌊p⌋₊
  rw [← natCast_floor_eq_intCast_floor hp, Nat.floor_natCast]

/-- The taps of an output are inputs, and the share of the second lies between 0 and 1. -/
theorem taps_mem (ho : o < 2 * size) :
    (taps size o : Nat × Nat × ℝ).1 < size ∧ (taps size o : Nat × Nat × ℝ).2.1 < size ∧
      (taps size o : Nat × Nat × ℝ).2.2 ∈ Set.Icc (0 : ℝ) 1 := by
  obtain ⟨hpos, hlt⟩ := sourcePosition_mem ho
  have hfloor : ⌊(sourcePosition o : ℝ)⌋₊ < size := (Nat.floor_lt hpos).2 hlt
  have hmin : min ⌊(sourcePosition o : ℝ)⌋₊ (size - 1) = ⌊(sourcePosition o : ℝ)⌋₊ := by omega
  simp only [taps, toNat_floor hpos, hmin]
  refine ⟨hfloor, ?_, ?_, ?_⟩
  · split_ifs <;> omega
  · exact sub_nonneg.2 (Nat.floor_le hpos)
  · have := Nat.lt_floor_add_one (sourcePosition o : ℝ)
    linarith

theorem weight_nonneg (ho : o < 2 * size) (i : Nat) : 0 ≤ (weight size i o : ℝ) := by
  obtain ⟨-, -, hpos, hle⟩ := taps_mem ho
  simp only [weight]
  split_ifs <;> linarith

/-- What the weights of an output take of a row: shares of its two taps. -/
theorem sumTo_weight_taps (row : Nat → ℝ) (ho : o < 2 * size) :
    sumTo size (fun i => row i * weight size i o) =
      row (taps size o : Nat × Nat × ℝ).1 * (1 - (taps size o : Nat × Nat × ℝ).2.2) +
        row (taps size o : Nat × Nat × ℝ).2.1 * (taps size o : Nat × Nat × ℝ).2.2 := by
  obtain ⟨hfirst, hsecond, -⟩ := taps_mem ho
  have hsplit (i : Nat) : row i * (weight size i o : ℝ) =
      (if i = (taps size o : Nat × Nat × ℝ).1 then row i * (1 - (taps size o : Nat × Nat × ℝ).2.2)
        else 0) +
        if i = (taps size o : Nat × Nat × ℝ).2.1 then row i * (taps size o : Nat × Nat × ℝ).2.2
        else 0 := by
    simp only [weight]
    split_ifs <;> ring
  simp only [sumTo_real, hsplit, Finset.sum_add_distrib, Finset.sum_ite_eq', Finset.mem_range,
    hfirst, hsecond, if_true]

/-- The weights of a doubled row or column sum to one. -/
theorem weight_sum (ho : o < 2 * size) : sumTo size (fun i => (weight size i o : ℝ)) = 1 := by
  have h := sumTo_weight_taps (fun _ => 1) ho
  simpa only [one_mul, sub_add_cancel] using h

/-- Entries of an enlarged map lie in every convex set that holds those of the map. -/
theorem double_mem {S : Set ℝ} (hS : Convex ℝ S) {t u : Tensor ℝ} (hkind : t.kind = .single)
    (h : ∀ index, Within index t.shape → t.get index ∈ S) (hu : double t = .ok u) :
    u.kind = .single ∧ ∀ index, Within index u.shape → u.get index ∈ S := by
  obtain ⟨⟨batch, channels, height, width⟩, hsizes, -⟩ := bind_eq_ok.1 hu
  have hshape := sizes4_eq_ok.1 hsizes
  obtain ⟨u', hu', hs, hk, hget⟩ := double_ok hshape hkind
  obtain rfl : u = u' := Except.ok.inj (hu.symm.trans hu')
  refine ⟨hk, fun index hw => ?_⟩
  rw [hs] at hw
  obtain ⟨b, c, p, q, rfl, hb, hc, hp, hq⟩ := hw.exists_four
  rw [hget b c p q hb hc hp hq]
  refine weighted_mem_convex hS (fun y _ => weight_nonneg hp y) (weight_sum hp) fun y hy => ?_
  refine weighted_mem_convex hS (fun x _ => weight_nonneg hq x) (weight_sum hq) fun x hx => ?_
  exact h _ (hshape ▸ within_four hb hc hy hx)

/-- A texel lies between the smallest and the largest one. -/
theorem texel_mem {height width i j : Nat} (map : Nat → Nat → ℝ) (hi : i < height)
    (hj : j < width) :
    map i j ∈ Set.Icc (⨅ k : Fin height × Fin width, map k.1 k.2)
      (⨆ k : Fin height × Fin width, map k.1 k.2) := by
  have hfinite := Set.finite_range fun k : Fin height × Fin width => map k.1 k.2
  exact ⟨ciInf_le hfinite.bddBelow (⟨i, hi⟩, ⟨j, hj⟩), le_ciSup hfinite.bddAbove (⟨i, hi⟩, ⟨j, hj⟩)⟩

theorem double_between {t u : Tensor ℝ} (h : t.Between lo hi) (hu : double t = .ok u) :
    u.Between lo hi := by
  obtain ⟨hkind, hmem⟩ := double_mem (convex_Icc lo hi) h.kind_single h.mem hu
  exact ⟨hkind, hmem⟩

theorem double_constant (batch channels height width : Nat) (v : ℝ) :
    double (constant [batch, channels, height, width] v) =
      .ok (constant [batch, channels, 2 * height, 2 * width] v) := by
  obtain ⟨u, hu, hs, -⟩ := double_ok (shape_constant [batch, channels, height, width] v)
    (kind_constant _ _)
  rw [hu, (double_between (constant_between _ v) hu).eq_constant, hs]

end Doubling

section Reading

variable {size height width : Nat}

theorem floor_real (x : ℝ) : Scalar.floor x = (⌊x⌋ : ℝ) := rfl

/-- The two texels of an axis around a position between the first and the last texel share the
whole weight. -/
theorem axis_weights {p : ℝ} (hp : p ∈ Set.Icc (0 : ℝ) ((size - 1 : Nat) : ℝ)) :
    0 ≤ (1 - (p - ⌊p⌋)) * inside size (⌊p⌋ : ℝ) ∧ 0 ≤ (p - ⌊p⌋) * inside size ((⌊p⌋ : ℝ) + 1) ∧
      (1 - (p - ⌊p⌋)) * inside size (⌊p⌋ : ℝ) + (p - ⌊p⌋) * inside size ((⌊p⌋ : ℝ) + 1) = 1 := by
  obtain ⟨hpos, hle⟩ := hp
  have hfloor : (0 : ℝ) ≤ ⌊p⌋ := by exact_mod_cast Int.floor_nonneg.2 hpos
  have hbelow := Int.floor_le p
  have habove := Int.lt_floor_add_one p
  have hfirst : inside size (⌊p⌋ : ℝ) = 1 := by
    simp [inside, hfloor, hbelow.trans hle]
  by_cases hnext : (⌊p⌋ : ℝ) + 1 ≤ ((size - 1 : Nat) : ℝ)
  · have hsecond : inside size ((⌊p⌋ : ℝ) + 1) = 1 := by
      simp only [inside, hnext, if_true, if_pos (by linarith : (0 : ℝ) ≤ ⌊p⌋ + 1)]
      norm_num
    rw [hfirst, hsecond]
    exact ⟨by linarith, by linarith, by ring⟩
  · -- a position whose next texel is missing is that of the last texel
    have hlast : p = ⌊p⌋ := by
      have hint : ((size - 1 : Nat) : ℤ) < ⌊p⌋ + 1 := by
        exact_mod_cast not_le.1 hnext
      have : ((size - 1 : Nat) : ℝ) ≤ ⌊p⌋ := by exact_mod_cast Int.lt_add_one_iff.1 hint
      linarith
    rw [hfirst, ← hlast]
    simp

/-- A blend of four texels is between the smallest and the largest of them. -/
theorem blend_mem {plane : Nat → ℝ} (hheight : 0 < height) (hwidth : 0 < width)
    (h : ∀ k < height * width, plane k ∈ Set.Icc lo hi) {py px : ℝ}
    (hy : py ∈ Set.Icc (0 : ℝ) ((height - 1 : Nat) : ℝ))
    (hx : px ∈ Set.Icc (0 : ℝ) ((width - 1 : Nat) : ℝ)) :
    blend plane height width py px ∈ Set.Icc lo hi := by
  obtain ⟨ha, hb, hab⟩ := axis_weights hx
  obtain ⟨hc, hd, hcd⟩ := axis_weights hy
  have htexel (cy cx : ℝ) : plane (texel height width cy cx) ∈ Set.Icc lo hi :=
    h _ (texel_lt hheight hwidth cy cx)
  have hupper := mean_pair_mem ha hb hab (htexel ⌊py⌋ ⌊px⌋) (htexel ⌊py⌋ (⌊px⌋ + 1))
  have hlower := mean_pair_mem ha hb hab (htexel (⌊py⌋ + 1) ⌊px⌋) (htexel (⌊py⌋ + 1) (⌊px⌋ + 1))
  convert mean_pair_mem hc hd hcd hupper hlower using 1
  simp only [blend, corner, floor_real]
  ring

/-- A read with border padding never leaves the values of the map. -/
theorem read_border_mem {plane : Nat → ℝ} (hheight : 0 < height) (hwidth : 0 < width)
    (h : ∀ k < height * width, plane k ∈ Set.Icc lo hi) (gy gx : ℝ) :
    read plane height width .border gy gx ∈ Set.Icc lo hi :=
  blend_mem hheight hwidth h (clampAxis_mem height _) (clampAxis_mem width _)

/-- What is read within the borders of a map keeps the bounds of the map. -/
theorem sample_between {map points u : Tensor ℝ} (h : map.Between lo hi)
    (hu : sample map points .border = .ok u) : u.Between lo hi := by
  simp only [sample, bind_eq_ok, throw_eq_error, error_bind, ite_error_eq_ok, found_iff] at hu
  obtain ⟨⟨batch, channels, height, width⟩, hsizes, ⟨pointBatch, rows, columns, coordinates⟩, -, -,
    _, -, harea, hu⟩ := hu
  dsimp only at harea hu
  have hshape := sizes4_eq_ok.1 hsizes
  refine (between_compute h.kind_single hu fun index hw => ?_).2
  obtain ⟨b, c, p, q, rfl, hb, hc, hp, hq⟩ := hw.exists_four
  have hvolume : volume [batch, channels, rows, columns] ≠ 0 :=
    (Nat.zero_lt_of_lt (place_lt (within_four hb hc hp hq))).ne'
  have hpos : 0 < height * width := by
    by_contra hzero
    exact harea ⟨Nat.eq_zero_of_not_pos hzero, hvolume⟩
  have hwidth : 0 < width := Nat.pos_of_mul_pos_left hpos
  refine read_border_mem (Nat.pos_of_mul_pos_right hpos) hwidth (fun k hk => ?_) _ _
  rw [plane_eq hshape b c hk]
  exact h.mem _ (hshape ▸ within_four hb hc (Nat.div_lt_of_lt_mul (by rwa [Nat.mul_comm]))
    (Nat.mod_lt _ hwidth))

end Reading

end MultiViewDepth.Sampling
