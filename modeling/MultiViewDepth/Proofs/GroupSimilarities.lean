import MultiViewDepth.Proofs.DepthGaps
import MultiViewDepth.Proofs.ScoreDistributions

/-!
Similarities of groups of channels.

A learned weight rates how similar the reference features at a neighbor are to the pixel's own, and
they are compared just as source views are. Groups are blocks of channels, so that fewer groups hold
the means of the groups that they consist of.
-/
namespace MultiViewDepth

open Tensor Arithmetic

variable {batch channels groups share count height width : Nat} {warped features : Tensor ℝ}

/-- A sum over blocks one after the other, block by block. -/
theorem sum_blocks (blocks size : Nat) (f : Nat → ℝ) :
    ∑ c : Fin (blocks * size), f c = ∑ j : Fin blocks, ∑ i : Fin size, f (j * size + i) := by
  rw [← finProdFinEquiv.sum_comp, Fintype.sum_prod_type]
  refine Finset.sum_congr rfl fun j _ => Finset.sum_congr rfl fun i _ => congrArg f ?_
  rw [finProdFinEquiv_apply_val]
  ring

section Shapes

variable {t u : Tensor ℝ} {shape target : List Nat}

/-- Only the last shape that an array gets matters. -/
theorem Tensor.reshape_of_reshape (h : t.reshape shape = .ok u) (target : List Nat) :
    u.reshape target = t.reshape target := by
  unfold Tensor.reshape at h ⊢
  split at h
  next hvolume =>
    cases h
    simp only [hvolume]
  next => cases h

theorem Tensor.reshape_eq_error {e : Failure} (h : t.reshape shape = .error e)
    (hvolume : volume shape = volume target) : t.reshape target = .error e := by
  unfold Tensor.reshape at h ⊢
  split at h
  next => cases h
  next hne => rw [dif_neg (hvolume ▸ hne), h]

end Shapes

section Blocks

/-- Blocks of channels that are taken apart, multiplied and averaged are compared group by group. -/
theorem groupSimilarity_blocks (hgroups : 0 < groups)
    (hwarped : warped.IsSingle [batch, groups * share, count, height, width])
    (hfeatures : features.IsSingle [batch, groups * share, height, width]) :
    ∃ blocks center product means similarity,
      warped.reshape [batch, groups, share, count, height, width] = .ok blocks ∧
      features.reshape [batch, groups, share, 1, height, width] = .ok center ∧
      Tensor.zip (· * ·) blocks center = .ok product ∧ product.mean 2 = .ok means ∧
      means.squeeze 2 = .ok similarity ∧
      groupSimilarity warped features groups = .ok similarity := by
  obtain ⟨blocks, hblocks, hblocksSingle, hblock⟩ :=
    hwarped.reshape [batch, groups, share, count, height, width] (by simp [Nat.mul_assoc])
  obtain ⟨center, hcenter, hcenterSingle, hown⟩ :=
    hfeatures.reshape [batch, groups, share, 1, height, width] (by simp [Nat.mul_assoc])
  have hcenterSingle :
      center.IsSingle ([batch, groups, share, count, height, width].set 3 1) := hcenterSingle
  obtain ⟨product, hproduct, hproductSingle, hmul⟩ := hblocksSingle.zip_along hcenterSingle (· * ·)
  have haxis : [batch, groups, share, count, height, width][2]? = some share := rfl
  obtain ⟨means, hmeans, hmeansSingle, hmean⟩ := hproductSingle.reduce haxis meanTo
  have hmeansSingle :
      means.IsSingle ([batch, groups, count, height, width].insertIdx 2 1) := hmeansSingle
  obtain ⟨similarity, hsimilarity, hsingle, hflat⟩ := hmeansSingle.squeeze (by simp)
  refine ⟨blocks, center, product, means, similarity, hblocks, hcenter, hproduct, hmeans,
    hsimilarity, ?_⟩
  obtain ⟨u, hu, husingle, hget⟩ :=
    groupSimilarity_ok hwarped hfeatures hgroups.ne' (Nat.mul_mod_right groups share)
  rw [Nat.mul_div_cancel_left share hgroups] at hget
  rw [hu]
  refine congrArg Except.ok (ext_get husingle.kind_eq hsingle.kind_eq
    (husingle.shape_eq.trans hsingle.shape_eq.symm) fun index hindex => ?_)
  rw [husingle.shape_eq] at hindex
  obtain ⟨b, rest, rfl, hb, hrest⟩ := hindex.exists_cons
  obtain ⟨g, k, y, x, rfl, hg, hk, hy, hx⟩ := hrest.exists_four
  have hmeanOf : similarity.get [b, g, k, y, x] = meanTo share fun c =>
      product.get [b, g, c, k, y, x] :=
    (hflat [b, g, k, y, x] (by simp)).trans
      (hmean [b, g, 0, k, y, x] ⟨hb, within_five hg Nat.one_pos hk hy hx⟩)
  rw [hget b g k y x hb hg hk hy hx, hmeanOf, meanTo, affine_real, sumTo_real, Finset.sum_range,
    add_zero, mul_one_div]
  refine congrArg (· / _) (Finset.sum_congr rfl fun c _ => ?_)
  have hproductOf := hmul [b, g, c, k, y, x] ⟨hb, within_five hg c.isLt hk hy hx⟩
  have hblockOf := hblock [b, g, c, k, y, x] [b, g * share + c, k, y, x] (by
    simp only [place_cons, place_nil]
    ring)
  have hcenterOf := hown [b, g, c, 0, y, x] [b, g * share + c, y, x] (by
    simp only [place_cons, place_nil]
    ring)
  rw [hproductOf, hblockOf]
  exact congrArg (_ * ·) hcenterOf.symm

/-- Fewer groups hold the means of the groups that they consist of. -/
theorem groupSimilarity_nested {fewer blocks : Nat} (hfewer : 0 < fewer) (hblocks : 0 < blocks)
    (hwarped : warped.IsSingle [batch, fewer * blocks * share, count, height, width])
    (hfeatures : features.IsSingle [batch, fewer * blocks * share, height, width]) :
    ∃ fine coarse, groupSimilarity warped features (fewer * blocks) = .ok fine ∧
      groupSimilarity warped features fewer = .ok coarse ∧
      coarse.IsSingle [batch, fewer, count, height, width] ∧
      ∀ b g k y x, b < batch → g < fewer → k < count → y < height → x < width →
        coarse.get [b, g, k, y, x] =
          (∑ j : Fin blocks, fine.get [b, g * blocks + j, k, y, x]) / blocks := by
  have hmod : fewer * blocks * share % fewer = 0 := by
    rw [Nat.mul_assoc]
    exact Nat.mul_mod_right _ _
  obtain ⟨fine, hfine, -, hfineOf⟩ := groupSimilarity_ok hwarped hfeatures
    (Nat.mul_pos hfewer hblocks).ne' (Nat.mul_mod_right _ share)
  obtain ⟨coarse, hcoarse, hsingle, hcoarseOf⟩ :=
    groupSimilarity_ok hwarped hfeatures hfewer.ne' hmod
  rw [Nat.mul_div_cancel_left share (Nat.mul_pos hfewer hblocks)] at hfineOf
  rw [Nat.mul_assoc, Nat.mul_div_cancel_left _ hfewer] at hcoarseOf
  refine ⟨fine, coarse, hfine, hcoarse, hsingle, fun b g k y x hb hg hk hy hx => ?_⟩
  have hfineAt (j : Fin blocks) := hfineOf b (g * blocks + j) k y x hb
    (stacked_row_lt hg j.isLt) hk hy hx
  rw [hcoarseOf b g k y x hb hg hk hy hx, sum_blocks blocks share fun c =>
    warped.get [b, g * (blocks * share) + c, k, y, x] *
      features.get [b, g * (blocks * share) + c, y, x]]
  have hchannel (j c : Nat) :
      g * (blocks * share) + (j * share + c) = (g * blocks + j) * share + c := by ring
  simp only [hfineAt, hchannel, ← Finset.sum_div, div_div, Nat.cast_mul, mul_comm (blocks : ℝ)]

end Blocks

section Surroundings

/-- What a map holds at every neighbor of every pixel, `(B, C, N, H, W)`. -/
noncomputable def NeighborGrid.surroundings (grid : NeighborGrid ℝ) (map : Tensor ℝ) :
    Result (Tensor ℝ) := do
  let (batch, channels, height, width) ← map.sizes4
  (← Sampling.sample map grid.points .border).reshape
    [batch, channels, grid.neighbors, height, width]

variable {grid : NeighborGrid ℝ} {map found around : Tensor ℝ}

theorem NeighborGrid.surroundings_of_sample
    (hmap : map.IsSingle [batch, channels, height, width])
    (h : Sampling.sample map grid.points .border = .ok found) :
    grid.surroundings map = found.reshape [batch, channels, grid.neighbors, height, width] := by
  simp only [surroundings, sizes4_eq_ok.2 hmap.shape_eq, ok_bind, h]

theorem NeighborGrid.surroundings_eq_ok (hmap : map.IsSingle [batch, channels, height, width])
    (h : grid.surroundings map = .ok around) :
    around.IsSingle [batch, channels, grid.neighbors, height, width] ∧
      ∀ b c n y x, b < batch → c < channels → n < grid.neighbors → y < height → x < width →
        around.get [b, c, n, y, x] =
          grid.readAt (fun i j => map.get [b, c, i, j]) height width b n y x := by
  simp only [surroundings, sizes4_eq_ok.2 hmap.shape_eq, ok_bind] at h
  obtain ⟨found, hfound, haround⟩ := bind_eq_ok.1 h
  have hkind : around.kind = .single :=
    (kind_of_reshape haround).trans ((kind_of_sample hfound).trans hmap.kind_eq)
  refine ⟨⟨(reshape_eq_ok haround).1, hkind⟩, fun b c n y x hb hc hn hy hx => ?_⟩
  have hchannels : 0 < channels := Nat.zero_lt_of_lt hc
  obtain ⟨e, hrefuses⟩ | hfits := grid.refuses_or_fits batch height width
  · cases h.symm.trans (hrefuses channels map hchannels hmap)
  · obtain ⟨found', around', hfound', haround', -, hread⟩ := hfits channels map hchannels hmap
    obtain rfl : found = found' := Except.ok.inj (hfound.symm.trans hfound')
    obtain rfl : around = around' := Except.ok.inj (haround.symm.trans haround')
    exact hread b c n y x hb hc hn hy hx

end Surroundings

namespace NeighborWeight

/-- Learned weights rate how similar the reference features are to what they hold at the
neighbors. -/
theorem ofFeatures_eq (head : Layer ℝ) (grid : NeighborGrid ℝ) (hgroups : 0 < groups)
    (hfeatures : features.IsSingle [batch, groups * share, height, width]) :
    ofFeatures head groups features grid = (do
      let similarity ← groupSimilarity (← grid.surroundings features) features groups
      (← head similarity).squeeze 1) := by
  have hmod : groups * share % groups = 0 := Nat.mul_mod_right groups share
  simp only [ofFeatures, NeighborGrid.surroundings, sizes4_eq_ok.2 hfeatures.shape_eq, ok_bind,
    hgroups.ne', hmod, if_true, if_false, Nat.mul_div_cancel_left share hgroups]
  cases hfound : Sampling.sample features grid.points .border with
  | error e => rfl
  | ok found =>
    simp only [ok_bind]
    cases haround : found.reshape [batch, groups * share, grid.neighbors, height, width] with
    | error e =>
      rw [reshape_eq_error haround (by simp [Nat.mul_assoc])]
      rfl
    | ok around =>
      obtain ⟨haroundSingle, -⟩ := NeighborGrid.surroundings_eq_ok hfeatures
        ((NeighborGrid.surroundings_of_sample hfeatures hfound).trans haround)
      obtain ⟨blocks, center, product, means, similarity, hblocks, hcenter, hproduct, hmeans,
        hsqueezed, hsimilarity⟩ := groupSimilarity_blocks hgroups haroundSingle hfeatures
      rw [reshape_of_reshape haround] at hblocks
      simp only [hblocks, hcenter, hproduct, hmeans, hsqueezed, hsimilarity, ok_bind]

/-- Neighbors are compared like source views, and the groups of a comparison are blocks of
channels. -/
theorem ofFeatures_groupwise (hgroups : 0 < groups) (hdvd : groups ∣ channels) :
    (∀ (features : Tensor ℝ) (grid : NeighborGrid ℝ),
      features.IsSingle [batch, channels, height, width] →
      (∀ head : Layer ℝ, ofFeatures head groups features grid = (do
        let similarity ← groupSimilarity (← grid.surroundings features) features groups
        (← head similarity).squeeze 1)) ∧
      (∀ around, grid.surroundings features = .ok around →
        around.IsSingle [batch, channels, grid.neighbors, height, width] ∧
        ∀ b c n y x, b < batch → c < channels → n < grid.neighbors → y < height → x < width →
          around.get [b, c, n, y, x] =
            grid.readAt (fun i j => features.get [b, c, i, j]) height width b n y x) ∧
      (grid.points.IsSingle [batch, grid.neighbors * height, width, 2] →
        ∃ around, grid.surroundings features = .ok around)) ∧
    ∀ (warped reference : Tensor ℝ) (count : Nat),
      warped.IsSingle [batch, channels, count, height, width] →
      reference.IsSingle [batch, channels, height, width] →
      ∃ fine, groupSimilarity warped reference groups = .ok fine ∧
        fine.IsSingle [batch, groups, count, height, width] ∧
        (∀ fewer, fewer ∣ groups → ∃ coarse,
          groupSimilarity warped reference fewer = .ok coarse ∧
          coarse.IsSingle [batch, fewer, count, height, width] ∧
          ∀ b g k y x, b < batch → g < fewer → k < count → y < height → x < width →
            coarse.get [b, g, k, y, x] =
              (∑ j : Fin (groups / fewer), fine.get [b, g * (groups / fewer) + j, k, y, x]) /
                (groups / fewer : Nat)) ∧
        ∃ whole, groupSimilarity warped reference 1 = .ok whole ∧
          whole.IsSingle [batch, 1, count, height, width] ∧
          ∀ b k y x, b < batch → k < count → y < height → x < width →
            whole.get [b, 0, k, y, x] =
              (∑ c : Fin channels, warped.get [b, c, k, y, x] * reference.get [b, c, y, x]) /
                channels := by
  obtain ⟨share, rfl⟩ := hdvd
  refine ⟨fun features grid hfeatures => ⟨fun head => ofFeatures_eq head grid hgroups hfeatures,
    fun around haround => NeighborGrid.surroundings_eq_ok hfeatures haround, fun hpoints => ?_⟩,
    fun warped reference count hwarped hreference => ?_⟩
  · obtain ⟨found, around, hfound, haround, -⟩ :=
      Sampling.sample_stacked_of_area hfeatures hpoints id .border
    exact ⟨around, (NeighborGrid.surroundings_of_sample hfeatures hfound).trans haround⟩
  · obtain ⟨fine, hfine, hfineSingle, -⟩ :=
      groupSimilarity_ok hwarped hreference hgroups.ne' (Nat.mul_mod_right groups share)
    obtain ⟨whole, hwhole, hwholeSingle, hwholeOf⟩ :=
      groupSimilarity_ok hwarped hreference one_ne_zero (Nat.mod_one _)
    refine ⟨fine, hfine, hfineSingle, fun fewer hnested => ?_,
      whole, hwhole, hwholeSingle, fun b k y x hb hk hy hx => ?_⟩
    · obtain ⟨blocks, rfl⟩ := hnested
      have hfewer : 0 < fewer := Nat.pos_of_mul_pos_right hgroups
      have hblocks : 0 < blocks := Nat.pos_of_mul_pos_left hgroups
      obtain ⟨fine', coarse, hfine', hcoarse, hsingle, hmean⟩ :=
        groupSimilarity_nested hfewer hblocks hwarped hreference
      obtain rfl : fine = fine' := Except.ok.inj (hfine.symm.trans hfine')
      rw [Nat.mul_div_cancel_left blocks hfewer]
      exact ⟨coarse, hcoarse, hsingle, hmean⟩
    · rw [Nat.div_one] at hwholeOf
      simpa only [Nat.zero_mul, Nat.zero_add] using hwholeOf b 0 k y x hb Nat.one_pos hk hy hx

noncomputable def risingPair : Tensor ℝ := ofFn [1, 4, 1, 2] fun
  | [_, c, _, x] => (2 * x + c + 1 : Nat)
  | _ => 0

theorem readAt_midway (map : Nat → Nat → ℝ) :
    midwayGrid.readAt map 1 2 0 0 0 0 = (map 0 0 + map 0 1) / 2 := by
  have hpoints : midwayGrid.points.shape = [1, midwayGrid.neighbors * 1, 2, 2] := rfl
  have hpoint (c : Nat) (hc : c < 2) : midwayGrid.points.get [0, 0 * 1 + 0, 0, c] = 0 :=
    get_ofFn (within_four (by decide) (by decide) (by decide) hc) _
  rw [NeighborGrid.readAt, NeighborGrid.coordinate_eq hpoints, NeighborGrid.coordinate_eq hpoints,
    hpoint 0 (by decide), hpoint 1 (by decide), Sampling.readMap,
    Sampling.read_border (by decide) (by decide) map, Sampling.position_real,
    Sampling.position_real]
  norm_num [Sampling.interpolate, Sampling.extend, Sampling.nearest]
  ring

theorem ofFeatures_groupwise_rising : 0 < 2 ∧ 2 ∣ 4 ∧ risingPair.IsSingle [1, 4, 1, 2] ∧
    midwayGrid.points.IsSingle [1, 1 * 1, 2, 2] ∧
    ∃ around fine whole, midwayGrid.surroundings risingPair = .ok around ∧
      around.IsSingle [1, 4, 1, 1, 2] ∧
      groupSimilarity around risingPair 2 = .ok fine ∧
      groupSimilarity around risingPair 1 = .ok whole ∧
      (∀ head : Layer ℝ, ofFeatures head 2 risingPair midwayGrid =
        (head fine >>= fun weight => weight.squeeze 1)) ∧
      fine.get [0, 0, 0, 0, 0] + fine.get [0, 1, 0, 0, 0] = 2 * 10 ∧
      whole.get [0, 0, 0, 0, 0] = 10 := by
  have hpair : risingPair.IsSingle [1, 4, 1, 2] := isSingle_ofFn _ _
  have hpoints : midwayGrid.points.IsSingle [1, 1 * 1, 2, 2] := ⟨rfl, rfl⟩
  obtain ⟨hsplit, hmeans⟩ := @ofFeatures_groupwise 1 4 2 1 2 (by decide) (by decide)
  obtain ⟨hlearned, hread, hfits⟩ := hsplit risingPair midwayGrid hpair
  obtain ⟨around, haround⟩ := hfits hpoints
  obtain ⟨haroundSingle, hmidway⟩ := hread around haround
  obtain ⟨fine, hfine, -, hnested, whole, hwhole, -, hmean⟩ :=
    hmeans around risingPair 1 haroundSingle hpair
  obtain ⟨coarse, hcoarse, -, hpairs⟩ := hnested 1 (by decide)
  obtain rfl : whole = coarse := Except.ok.inj (hwhole.symm.trans hcoarse)
  have hchannel (c : Nat) (hc : c < 4) : around.get [0, c, 0, 0, 0] * risingPair.get [0, c, 0, 0] =
      (c + 2) * (c + 1) := by
    have hpixel (x : Nat) (hx : x < 2) : risingPair.get [0, c, 0, x] = (2 * x + c + 1 : Nat) :=
      get_ofFn (within_four (by decide) hc (by decide) hx) _
    rw [hmidway 0 c 0 0 0 (by decide) hc (by decide) (by decide) (by decide), readAt_midway,
      hpixel 0 (by decide), hpixel 1 (by decide)]
    push_cast
    ring
  have hten : whole.get [0, 0, 0, 0, 0] = 10 := by
    rw [hmean 0 0 0 0 (by decide) (by decide) (by decide) (by decide),
      Finset.sum_congr rfl fun (c : Fin 4) _ => hchannel c c.isLt, Fin.sum_univ_four]
    norm_num
  refine ⟨by decide, by decide, hpair, hpoints, around, fine, whole, haround, haroundSingle, hfine,
    hwhole, fun head => ?_, ?_, ?_⟩
  · rw [hlearned head, haround, ok_bind, hfine, ok_bind]
  · have htwo := hpairs 0 0 0 0 0 (by decide) (by decide) (by decide) (by decide) (by decide)
    rw [hten, Nat.div_one, Fin.sum_univ_two, eq_div_iff (by norm_num), mul_comm] at htwo
    exact htwo.symm
  · exact hten

end NeighborWeight

end MultiViewDepth
