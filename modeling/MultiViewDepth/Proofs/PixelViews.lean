import MultiViewDepth.Proofs.Scaling
import MultiViewDepth.Proofs.TransformMatrices
import MultiViewDepth.Proofs.TwinPoses
import MultiViewDepth.Proofs.TwinViews
import MultiViewDepth.Proofs.VoxelHeads

/-!
What single pixels of reprojected features and of group similarities are.

A pixel at a depth moves by the product of the source projection and the inverse of the reference
projection. Where it lands in front of the source camera, the features of the source are read there.
-/
namespace MultiViewDepth

open Tensor Arithmetic

section Rows

variable {n h k y : Nat}

/-- A row of a stack of maps is row `y` of map `k`. -/
theorem stacked_row (hy : y < h) : (k * h + y) / h = k ∧ (k * h + y) % h = y := by
  rw [Nat.mul_comm k h, Nat.mul_add_div (by omega), Nat.div_eq_of_lt hy, Nat.mul_add_mod,
    Nat.mod_eq_of_lt hy]
  exact ⟨by omega, rfl⟩

theorem stacked_row_lt (hk : k < n) (hy : y < h) : k * h + y < n * h := by
  calc k * h + y < (k + 1) * h := by rw [Nat.succ_mul]; omega
    _ ≤ n * h := Nat.mul_le_mul_right h hk

end Rows

namespace Sampling

noncomputable def readMap (map : Nat → Nat → ℝ) (height width : Nat) (padding : Border)
    (gy gx : ℝ) : ℝ :=
  read (fun k => map (k / width) (k % width)) height width padding gy gx

variable {batch channels layers height width rows columns : Nat} {map points : Tensor ℝ}

theorem readMap_congr (hheight : 0 < height) (hwidth : 0 < width) {map map' : Nat → Nat → ℝ}
    (h : ∀ y x, y < height → x < width → map y x = map' y x) (padding : Border) (gy gx : ℝ) :
    readMap map height width padding gy gx = readMap map' height width padding gy gx :=
  read_congr hheight hwidth (fun k hk => h _ _ (Nat.div_lt_of_lt_mul (by rwa [Nat.mul_comm]))
    (Nat.mod_lt k hwidth)) padding gy gx

/-- Every map is read at a stack of grids of points. -/
theorem sample_stacked_of_area (hmap : map.IsSingle [batch, channels, height, width])
    (hpoints : points.IsSingle [batch, layers * rows, columns, 2])
    (harea : height * width = 0 → rows * columns = 0) (padding : Border) :
    ∃ found u, sample map points padding = .ok found ∧
      found.reshape [batch, channels, layers, rows, columns] = .ok u ∧
      u.IsSingle [batch, channels, layers, rows, columns] ∧
      ∀ b c k y x, b < batch → c < channels → k < layers → y < rows → x < columns →
        u.get [b, c, k, y, x] = readMap (fun y x => map.get [b, c, y, x]) height width padding
          (points.get [b, k * rows + y, x, 1]) (points.get [b, k * rows + y, x, 0]) := by
  have hstack (hzero : height * width = 0) : layers * rows * columns = 0 := by
    rw [Nat.mul_assoc, harea hzero, Nat.mul_zero]
  obtain ⟨found, hfound, hshape, hkind, hget⟩ := sample_ok_of_area hmap.shape_eq hmap.kind_eq
    hpoints.shape_eq hpoints.kind_eq hstack padding
  obtain ⟨u, hu, hsingle, hplaced⟩ := IsSingle.reshape ⟨hshape, hkind⟩
    [batch, channels, layers, rows, columns] (by simp [Nat.mul_assoc])
  refine ⟨found, u, hfound, hu, hsingle, fun b c k y x hb hc hk hy hx => ?_⟩
  have hplace : place 0 [batch, channels, layers, rows, columns] [b, c, k, y, x] =
      place 0 [batch, channels, layers * rows, columns] [b, c, k * rows + y, x] := by
    simp only [place_cons, place_nil]
    ring
  rw [hplaced _ _ hplace, hget b c _ x hb hc (stacked_row_lt hk hy) hx, readMap]

theorem sample_stacked (hmap : map.IsSingle [batch, channels, height, width])
    (hpoints : points.IsSingle [batch, layers * rows, columns, 2]) (hheight : 0 < height)
    (hwidth : 0 < width) (padding : Border) :
    ∃ found u, sample map points padding = .ok found ∧
      found.reshape [batch, channels, layers, rows, columns] = .ok u ∧
      u.IsSingle [batch, channels, layers, rows, columns] ∧
      ∀ b c k y x, b < batch → c < channels → k < layers → y < rows → x < columns →
        u.get [b, c, k, y, x] = readMap (fun y x => map.get [b, c, y, x]) height width padding
          (points.get [b, k * rows + y, x, 1]) (points.get [b, k * rows + y, x, 0]) :=
  sample_stacked_of_area hmap hpoints
    (fun hzero => absurd hzero (Nat.mul_pos hheight hwidth).ne') padding

end Sampling

namespace RelativePose

/-- Takes reference pixels scaled by their depth to source pixels scaled by theirs. -/
noncomputable def matrix (source reference : Tensor ℝ) (b : Nat) : Matrix (Fin 4) (Fin 4) ℝ :=
  Matrix.of (projectionAt source b) * (Matrix.of (projectionAt reference b))⁻¹

noncomputable def point (source reference : Tensor ℝ) (b x y : Nat) (d : ℝ) : Fin 4 → ℝ :=
  (matrix source reference b).mulVec ![x * d, y * d, d, 1]

variable {source reference : Tensor ℝ} {batch b : Nat}

theorem entry_mul_inverse (source : Tensor ℝ)
    (h : (Matrix.of (projectionAt reference b)).det ≠ 0) :
    ∃ inverse, (projectionAt reference b).inverse? = some inverse ∧ ∀ r c : Fin 4,
      ((projectionAt source b).mul inverse).entry r c = matrix source reference b r c := by
  refine ⟨_, Transform.inverse?_of_det h, fun r c => ?_⟩
  have hmul := Transform.mul_eq (projectionAt source b)
    (Matrix.of.symm (Matrix.of (projectionAt reference b))⁻¹)
  rw [Equiv.apply_symm_apply] at hmul
  rw [matrix, ← hmul, Transform.entry, dif_pos ⟨r.isLt, c.isLt⟩]
  rfl

noncomputable def move (pose : RelativePose ℝ) (b r : Nat) (x y d : ℝ) : ℝ :=
  (pose.rotation.get [b, r, 0] * x + pose.rotation.get [b, r, 1] * y +
    pose.rotation.get [b, r, 2]) * d + pose.displacement.get [b, r, 0]

theorem apply_eq_move (pose : RelativePose ℝ) (b r x y : Nat) (d : ℝ) :
    pose.apply b r x y d = pose.move b r x y d := rfl

/-- The pose of two views moves points by the matrix of their projections. -/
theorem between_move (hsource : source.shape = [batch, 4, 4])
    (hreference : reference.shape = [batch, 4, 4])
    (hregular : ∀ b < batch, (Matrix.of (projectionAt reference b)).det ≠ 0) :
    ∃ pose, between source reference = .ok pose ∧ pose.rotation.size 0 = batch ∧
      ∀ b (r : Fin 3) x y d, b < batch → pose.move b r x y d =
        (matrix source reference b).mulVec ![x * d, y * d, d, 1] r.castSucc := by
  have hdet (b : Nat) (hb : b < batch) : (projectionAt reference b).det ≠ 0 := by
    rw [Transform.det_eq]
    exact hregular b hb
  obtain ⟨pose, hpose, hshape, -, -, -, hentries⟩ := between_ok hsource hreference hdet
  refine ⟨pose, hpose, by simp [size, hshape], fun b r x y d hb => ?_⟩
  obtain ⟨inverse, hinverse, hentry⟩ := entry_mul_inverse source (hregular b hb)
  have hrotation (c : Fin 3) : pose.rotation.get [b, r, c] =
      matrix source reference b r.castSucc c.castSucc :=
    (hentries b inverse hb hinverse r c r.isLt c.isLt).1.trans (hentry r.castSucc c.castSucc)
  have hdisplacement : pose.displacement.get [b, r, 0] =
      matrix source reference b r.castSucc 3 :=
    (hentries b inverse hb hinverse r 0 r.isLt (by decide)).2.trans (hentry r.castSucc 3)
  have h0 : pose.rotation.get [b, r, 0] = matrix source reference b r.castSucc 0 := hrotation 0
  have h1 : pose.rotation.get [b, r, 1] = matrix source reference b r.castSucc 1 := hrotation 1
  have h2 : pose.rotation.get [b, r, 2] = matrix source reference b r.castSucc 2 := hrotation 2
  simp only [move, h0, h1, h2, hdisplacement, Matrix.mulVec, dotProduct, Fin.sum_univ_four,
    Matrix.cons_val]
  ring

/-- The pose of two views moves pixels by the matrix of their projections. -/
theorem between_apply (hsource : source.shape = [batch, 4, 4])
    (hreference : reference.shape = [batch, 4, 4])
    (hregular : ∀ b < batch, (Matrix.of (projectionAt reference b)).det ≠ 0) :
    ∃ pose, between source reference = .ok pose ∧ pose.rotation.size 0 = batch ∧
      ∀ b (r : Fin 3) x y d, b < batch →
        pose.apply b r x y d = point source reference b x y d r.castSucc := by
  obtain ⟨pose, hpose, hsize, hmove⟩ := between_move hsource hreference hregular
  exact ⟨pose, hpose, hsize, fun b r x y d hb =>
    (apply_eq_move pose b r x y d).trans (hmove b r x y d hb)⟩

end RelativePose

section Views

variable {batch channels hypotheses height width : Nat}
  {features source reference depth : Tensor ℝ}

namespace Reprojection

/-- The normalized column and row that pixel `(x, y)` lands at from depth `d`. -/
noncomputable def landing (source reference : Tensor ℝ) (height width b x y : Nat) (d : ℝ) :
    ℝ × ℝ :=
  let p := RelativePose.point source reference b x y d
  land height width (p 0) (p 1) (p 2)

/-- The points of a depth volume are found hypothesis by hypothesis. -/
theorem points_of_pose {pose : RelativePose ℝ}
    (hpose : RelativePose.between source reference = .ok pose)
    (hsize : pose.rotation.size 0 = batch)
    (hdepth : depth.IsSingle [batch, hypotheses, height, width]) :
    ∃ u, points source reference depth = .ok u ∧
      u.IsSingle [batch, hypotheses * height, width, 2] ∧
      ∀ b k y x, b < batch → k < hypotheses → y < height → x < width →
        let d := depth.get [b, k, y, x]
        let found := land height width (pose.apply b 0 x y d) (pose.apply b 1 x y d)
          (pose.apply b 2 x y d)
        u.get [b, k * height + y, x, 0] = found.1 ∧ u.get [b, k * height + y, x, 1] = found.2 := by
  simp only [points, sizes4_eq_ok.2 hdepth.shape_eq, hpose, hsize, ok_bind, if_true,
    requireSingleEntries_of_single hdepth.kind_eq, pure_eq_ok]
  refine ⟨_, rfl, isSingle_ofFn _ _, fun b k y x hb hk hy hx => ?_⟩
  have hrow := stacked_row_lt hk hy
  obtain ⟨hdiv, hmod⟩ := stacked_row (k := k) hy
  constructor
  · rw [get_ofFn (within_four hb hrow hx (by decide))]
    simp only [hdiv, hmod, if_true]
  · rw [get_ofFn (within_four hb hrow hx (by decide))]
    simp only [hdiv, hmod, one_ne_zero, if_false]

theorem points_ok (hsource : source.shape = [batch, 4, 4])
    (hreference : reference.shape = [batch, 4, 4])
    (hregular : ∀ b < batch, (Matrix.of (projectionAt reference b)).det ≠ 0)
    (hdepth : depth.IsSingle [batch, hypotheses, height, width]) :
    ∃ u, points source reference depth = .ok u ∧
      u.IsSingle [batch, hypotheses * height, width, 2] ∧
      ∀ b k y x, b < batch → k < hypotheses → y < height → x < width →
        let found := landing source reference height width b x y (depth.get [b, k, y, x])
        u.get [b, k * height + y, x, 0] = found.1 ∧ u.get [b, k * height + y, x, 1] = found.2 := by
  obtain ⟨pose, hpose, hsize, happly⟩ :=
    RelativePose.between_apply hsource hreference hregular
  obtain ⟨u, hu, hsingle, hfound⟩ := points_of_pose hpose hsize hdepth
  refine ⟨u, hu, hsingle, fun b k y x hb hk hy hx => ?_⟩
  have hland (d : ℝ) : land height width (pose.apply b 0 x y d) (pose.apply b 1 x y d)
      (pose.apply b 2 x y d) = landing source reference height width b x y d := by
    have h0 : pose.apply b 0 x y d = RelativePose.point source reference b x y d 0 :=
      happly b 0 x y d hb
    have h1 : pose.apply b 1 x y d = RelativePose.point source reference b x y d 1 :=
      happly b 1 x y d hb
    have h2 : pose.apply b 2 x y d = RelativePose.point source reference b x y d 2 :=
      happly b 2 x y d hb
    rw [h0, h1, h2, landing]
  have hpixel := hfound b k y x hb hk hy hx
  simp only [hland] at hpixel
  exact hpixel

/-- A source feature read where pixel `(x, y)` lands from depth `d`. -/
noncomputable def seen (features source reference : Tensor ℝ) (height width b c x y : Nat)
    (d : ℝ) : ℝ :=
  let found := landing source reference height width b x y d
  Sampling.readMap (fun y x => features.get [b, c, y, x]) height width .zeros found.2 found.1

/-- Features are read wherever points are found. -/
theorem features_of_points {found : Tensor ℝ}
    (hfeatures : features.IsSingle [batch, channels, height, width])
    (hdepth : depth.IsSingle [batch, hypotheses, height, width])
    (hfound : points source reference depth = .ok found)
    (hfoundSingle : found.IsSingle [batch, hypotheses * height, width, 2]) :
    ∃ u, Reprojection.features features source reference depth = .ok u ∧
      u.IsSingle [batch, channels, hypotheses, height, width] ∧
      ∀ b c k y x, b < batch → c < channels → k < hypotheses → y < height → x < width →
        u.get [b, c, k, y, x] =
          Sampling.readMap (fun y x => features.get [b, c, y, x]) height width .zeros
            (found.get [b, k * height + y, x, 1]) (found.get [b, k * height + y, x, 0]) := by
  obtain ⟨read, u, hread, hu, hsingle, hget⟩ :=
    Sampling.sample_stacked_of_area hfeatures hfoundSingle id .zeros
  refine ⟨u, ?_, hsingle, hget⟩
  simp only [Reprojection.features, sizes4_eq_ok.2 hfeatures.shape_eq,
    sizes4_eq_ok.2 hdepth.shape_eq, ok_bind, and_self, if_true, hfound, hread, hu]

theorem features_ok (hfeatures : features.IsSingle [batch, channels, height, width])
    (hsource : source.shape = [batch, 4, 4]) (hreference : reference.shape = [batch, 4, 4])
    (hregular : ∀ b < batch, (Matrix.of (projectionAt reference b)).det ≠ 0)
    (hdepth : depth.IsSingle [batch, hypotheses, height, width]) :
    ∃ u, Reprojection.features features source reference depth = .ok u ∧
      u.IsSingle [batch, channels, hypotheses, height, width] ∧
      ∀ b c k y x, b < batch → c < channels → k < hypotheses → y < height → x < width →
        u.get [b, c, k, y, x] =
          seen features source reference height width b c x y (depth.get [b, k, y, x]) := by
  obtain ⟨points, hpoints, hpointsSingle, hfound⟩ :=
    points_ok hsource hreference hregular hdepth
  obtain ⟨u, hu, hsingle, hget⟩ := features_of_points hfeatures hdepth hpoints hpointsSingle
  refine ⟨u, hu, hsingle, fun b c k y x hb hc hk hy hx => ?_⟩
  obtain ⟨hcolumn, hrow⟩ := hfound b k y x hb hk hy hx
  rw [hget b c k y x hb hc hk hy hx, hcolumn, hrow, seen]

end Reprojection

/-- The mean product of features over the channels of a group. -/
theorem groupSimilarity_ok {groups : Nat} {warped : Tensor ℝ}
    (hwarped : warped.IsSingle [batch, channels, hypotheses, height, width])
    (hreference : reference.IsSingle [batch, channels, height, width]) (hgroups : groups ≠ 0)
    (hmod : channels % groups = 0) :
    ∃ u, groupSimilarity warped reference groups = .ok u ∧
      u.IsSingle [batch, groups, hypotheses, height, width] ∧
      ∀ b g k y x, b < batch → g < groups → k < hypotheses → y < height → x < width →
        u.get [b, g, k, y, x] =
          (∑ c : Fin (channels / groups),
            warped.get [b, g * (channels / groups) + c, k, y, x] *
              reference.get [b, g * (channels / groups) + c, y, x]) /
            (channels / groups : Nat) := by
  have hfit : ¬ (groups = 0 ∨ channels % groups ≠ 0) := by simp [hgroups, hmod]
  have hkind : warped.kind = reference.kind := hwarped.kind_eq.trans hreference.kind_eq.symm
  simp only [groupSimilarity, sizes5_eq_ok.2 hwarped.shape_eq, sizes4_eq_ok.2 hreference.shape_eq,
    ok_bind, hfit, if_true, if_false, hkind, true_or, pure_eq_ok]
  rw [derive₂_of_single hwarped.kind_eq]
  refine ⟨_, rfl, isSingle_ofFn _ _, fun b g k y x hb hg hk hy hx => ?_⟩
  rw [get_ofFn (within_cons.2 ⟨hb, within_four hg hk hy hx⟩)]
  simp only [meanTo, sumTo_real, affine_real, Finset.sum_range]
  ring

end Views

end MultiViewDepth
