import MultiViewDepth.Proofs.NeighborReads

/-!
Two views of which one is looked up from the other.

A pixel of the reference view at a depth is a point of the scene. The features of the source view
are read where this point is projected to, unless it lies behind the source camera. Such a point is
replaced by one that is projected outside the image, so it reads nothing.
-/
namespace MultiViewDepth

open Tensor Arithmetic

section Projections

variable {batch : Nat} {t source reference depth : Tensor ℝ}

/-- Matrices with four rows, or with the first three of them. -/
def HoldsProjections (t : Tensor ℝ) (batch : Nat) : Prop :=
  t.shape = [batch, 3, 4] ∨ t.shape = [batch, 4, 4]

/-- Matrix `b` of an array. The row `(0, 0, 0, 1)` stands for one that is missing. -/
noncomputable def completed (t : Tensor ℝ) (b : Nat) : Matrix (Fin 4) (Fin 4) ℝ :=
  Matrix.of fun r c =>
    if r.val < t.size 1 then t.getWide [b, r.val, c.val] else if c = 3 then 1 else 0

theorem completed_ofFn {rows b : Nat} (hb : b < batch) (f : List Nat → ℝ) :
    completed (ofFn [batch, rows, 4] f) b = Matrix.of fun r c =>
      if r.val < rows then f [b, r.val, c.val] else if c = 3 then 1 else 0 := by
  ext r c
  have hsize : (ofFn [batch, rows, 4] f).size 1 = rows := rfl
  rw [completed, Matrix.of_apply, Matrix.of_apply, hsize, getWide_of_single rfl]
  split_ifs with hr
  · exact get_ofFn (within_three hb hr c.isLt) f
  · rfl
  · rfl

noncomputable def bordered (t : Tensor ℝ) (batch : Nat) : Tensor ℝ := ofFn [batch, 4, 4] fun
  | [b, r, c] => if r < t.size 1 then t.getWide [b, r, c] else if c = 3 then 1 else 0
  | _ => 0

theorem projectionAt_bordered (t : Tensor ℝ) {b : Nat} (hb : b < batch) :
    Matrix.of (projectionAt (bordered t batch) b) = completed t b := by
  ext r c
  have hw : Within [b, r.val, c.val] [batch, 4, 4] := within_three hb r.isLt c.isLt
  rw [completed, Matrix.of_apply, Matrix.of_apply, projectionAt, getWide_of_single rfl, bordered,
    get_ofFn hw]
  simp [Fin.ext_iff]

theorem transforms_bordered (h : HoldsProjections t batch) :
    (transforms (bordered t batch) : Result (List (Transform ℝ))) = transforms t := by
  have hsizes : ∃ rows, t.shape = [batch, rows, 4] ∧ (rows = 3 ∨ rows = 4) :=
    h.elim (fun h => ⟨3, h, .inl rfl⟩) fun h => ⟨4, h, .inr rfl⟩
  obtain ⟨rows, hshape, hrows⟩ := hsizes
  rw [RelativePose.transforms_ok (show (bordered t batch).shape = [batch, 4, 4] from rfl)]
  simp only [transforms, sizes3_eq_ok.2 hshape, ok_bind, true_and, if_pos hrows, pure_eq_ok,
    range_eq_ofFn, List.map_ofFn]
  refine congrArg (fun ts => Except.ok (List.ofFn ts)) (funext fun b => ?_)
  have hsize : t.size 1 = rows := by simp [size, hshape]
  refine Matrix.of.injective ((projectionAt_bordered t b.isLt).trans ?_)
  ext r c
  simp only [completed, hsize, Matrix.of_apply, Function.comp_apply, Fin.ext_iff]
  rfl

theorem between_bordered (hsource : HoldsProjections source batch)
    (hreference : HoldsProjections reference batch) :
    RelativePose.between (bordered source batch) (bordered reference batch) =
      RelativePose.between source reference := by
  simp only [RelativePose.between, transforms_bordered hsource, transforms_bordered hreference]

end Projections

/-- Features of a source view, projections of this view and of the reference view, and hypotheses of
the depth of every pixel of the reference view. -/
structure ViewPair where
  batch : Nat
  channels : Nat
  hypotheses : Nat
  height : Nat
  width : Nat
  features : Tensor ℝ
  source : Tensor ℝ
  reference : Tensor ℝ
  depth : Tensor ℝ
  -- positions of pixels are normalized by the distance of the first pixel from the last
  two_le_height : 2 ≤ height
  two_le_width : 2 ≤ width
  features_single : features.IsSingle [batch, channels, height, width]
  source_holds : HoldsProjections source batch
  reference_holds : HoldsProjections reference batch
  depth_single : depth.IsSingle [batch, hypotheses, height, width]
  regular : ∀ b < batch, (completed reference b).det ≠ 0

namespace ViewPair

variable (s : ViewPair)

/-- The point of the scene that pixel `(x, y)` of the reference view sees at hypothesis `k`. -/
noncomputable def scenePoint (b k y x : Nat) : Fin 4 → ℝ :=
  let d := s.depth.get [b, k, y, x]
  (completed s.reference b)⁻¹.mulVec ![x * d, y * d, d, 1]

/-- Where the source view sees it: column and row, both times its depth, and its depth. -/
noncomputable def projected (b k y x : Nat) : Fin 4 → ℝ :=
  (completed s.source b).mulVec (s.scenePoint b k y x)

/-- The projected point or, if it lies behind the camera, the point that stands for it. -/
noncomputable def target (b k y x : Nat) : Fin 3 → ℝ :=
  let p := s.projected b k y x
  if p 2 ≤ frontDepth then ![s.width, s.height, 1] else ![p 0, p 1, p 2]

theorem frontDepth_real : (frontDepth : ℝ) = 1 / 1000 := by norm_num [frontDepth]

variable {s}

theorem height_pos (s : ViewPair) : 0 < s.height := Nat.lt_of_lt_of_le Nat.two_pos s.two_le_height

theorem width_pos (s : ViewPair) : 0 < s.width := Nat.lt_of_lt_of_le Nat.two_pos s.two_le_width

theorem landing_eq {b k y x : Nat} (hb : b < s.batch) :
    Reprojection.landing (bordered s.source s.batch) (bordered s.reference s.batch) s.height
        s.width b
        x y (s.depth.get [b, k, y, x]) =
      (normalize s.width (s.target b k y x 0 / s.target b k y x 2),
        normalize s.height (s.target b k y x 1 / s.target b k y x 2)) := by
  have hpoint : RelativePose.point (bordered s.source s.batch) (bordered s.reference s.batch) b x y
      (s.depth.get [b, k, y, x]) = s.projected b k y x := by
    rw [RelativePose.point, RelativePose.matrix, projectionAt_bordered _ hb,
      projectionAt_bordered _ hb, projected, scenePoint, Matrix.mulVec_mulVec]
  rw [Reprojection.landing, hpoint, Reprojection.land, target]
  split_ifs <;> rfl

/-- A source feature is read at the column and the row of the target. -/
theorem seen_eq {b c k y x : Nat} (hb : b < s.batch) :
    Reprojection.seen s.features (bordered s.source s.batch) (bordered s.reference s.batch) s.height
        s.width b c x y (s.depth.get [b, k, y, x]) =
      Sampling.paddedRead (fun i j => s.features.get [b, c, i, j]) s.height s.width
        (s.target b k y x 1 / s.target b k y x 2 * s.height / (s.height - 1) - 1 / 2)
        (s.target b k y x 0 / s.target b k y x 2 * s.width / (s.width - 1) - 1 / 2) := by
  rw [Reprojection.seen, landing_eq hb, Sampling.readMap,
    Sampling.read_zeros s.height_pos s.width_pos fun i j => s.features.get [b, c, i, j],
    position_normalize s.two_le_height, position_normalize s.two_le_width, readPosition,
    readPosition, Nat.cast_ofNat]

theorem regular_bordered (s : ViewPair) (b : Nat) (hb : b < s.batch) :
    (Matrix.of (projectionAt (bordered s.reference s.batch) b)).det ≠ 0 := by
  rw [projectionAt_bordered _ hb]
  exact s.regular b hb

/-- Missing last rows make no difference. -/
theorem points_bordered (s : ViewPair) :
    Reprojection.points s.source s.reference s.depth =
      Reprojection.points (bordered s.source s.batch) (bordered s.reference s.batch) s.depth := by
  obtain ⟨pose, hpose, hsize, -⟩ := RelativePose.between_apply
    (show (bordered s.source s.batch).shape = [s.batch, 4, 4] from rfl) rfl s.regular_bordered
  have hpose' := (between_bordered s.source_holds s.reference_holds).symm.trans hpose
  simp only [Reprojection.points, sizes4_eq_ok.2 s.depth_single.shape_eq, hpose, hpose', ok_bind,
    hsize, if_true]

/-- Points and features of the source view, entry by entry. -/
theorem reproject_ok (s : ViewPair) :
    ∃ points u, Reprojection.points s.source s.reference s.depth = .ok points ∧
      Reprojection.features s.features s.source s.reference s.depth = .ok u ∧
      u.IsSingle [s.batch, s.channels, s.hypotheses, s.height, s.width] ∧
      ∀ b k y x, Within [b, k, y, x] [s.batch, s.hypotheses, s.height, s.width] →
        let q := s.target b k y x
        points.get [b, k * s.height + y, x, 0] = normalize s.width (q 0 / q 2) ∧
        points.get [b, k * s.height + y, x, 1] = normalize s.height (q 1 / q 2) ∧
        ∀ c < s.channels, u.get [b, c, k, y, x] =
          Sampling.paddedRead (fun i j => s.features.get [b, c, i, j]) s.height s.width
            (q 1 / q 2 * s.height / (s.height - 1) - 1 / 2)
            (q 0 / q 2 * s.width / (s.width - 1) - 1 / 2) := by
  have hsource : (bordered s.source s.batch).shape = [s.batch, 4, 4] := rfl
  obtain ⟨points, hpoints, -, hland⟩ :=
    Reprojection.points_ok hsource rfl s.regular_bordered s.depth_single
  obtain ⟨u, hu, hsingle, hseen⟩ :=
    Reprojection.features_ok s.features_single hsource rfl s.regular_bordered s.depth_single
  have hfeatures : Reprojection.features s.features s.source s.reference s.depth = .ok u := by
    rw [← hu]
    simp only [Reprojection.features, s.points_bordered]
  refine ⟨points, u, s.points_bordered.trans hpoints, hfeatures, hsingle, ?_⟩
  rintro b k y x ⟨hb, hk, hy, hx, -⟩
  intro q
  obtain ⟨hcolumn, hrow⟩ := hland b k y x hb hk hy hx
  rw [landing_eq hb] at hcolumn hrow
  refine ⟨hcolumn, hrow, fun c hc => ?_⟩
  rw [hseen b c k y x hb hc hk hy hx, seen_eq hb]

section Front

theorem target_front {b k y x : Nat} (h : 1 / 1000 < s.projected b k y x 2) :
    s.target b k y x =
      ![s.projected b k y x 0, s.projected b k y x 1, s.projected b k y x 2] := by
  rw [target, frontDepth_real, if_neg h.not_ge]

/-- A view that agrees with the reference view sees points where this one does. -/
theorem projected_self {b k y x : Nat} (hb : b < s.batch)
    (h : completed s.source b = completed s.reference b) :
    s.projected b k y x =
      ![x * s.depth.get [b, k, y, x], y * s.depth.get [b, k, y, x],
        s.depth.get [b, k, y, x], 1] := by
  have hunit : IsUnit (completed s.reference b).det := isUnit_iff_ne_zero.2 (s.regular b hb)
  rw [projected, scenePoint, Matrix.mulVec_mulVec, h, Matrix.mul_nonsing_inv _ hunit,
    Matrix.one_mulVec]

/-- In front of the source camera its features are read where the point of the scene is projected
to. Where both views have the same projection, this is the same position at every depth. -/
theorem features_front (s : ViewPair) :
    ∃ u, Reprojection.features s.features s.source s.reference s.depth = .ok u ∧
      u.IsSingle [s.batch, s.channels, s.hypotheses, s.height, s.width] ∧
      ∀ b c k y x, Within [b, c, k, y, x] [s.batch, s.channels, s.hypotheses, s.height, s.width] →
        let p := s.projected b k y x
        let read := Sampling.paddedRead (fun i j => s.features.get [b, c, i, j]) s.height s.width
        (1 / 1000 < p 2 → u.get [b, c, k, y, x] =
          read (p 1 / p 2 * s.height / (s.height - 1) - 1 / 2)
            (p 0 / p 2 * s.width / (s.width - 1) - 1 / 2)) ∧
        (completed s.source b = completed s.reference b → 1 / 1000 < s.depth.get [b, k, y, x] →
          u.get [b, c, k, y, x] = read (y * s.height / (s.height - 1) - 1 / 2)
            (x * s.width / (s.width - 1) - 1 / 2)) := by
  obtain ⟨points, u, -, hu, hsingle, hread⟩ := s.reproject_ok
  refine ⟨u, hu, hsingle, ?_⟩
  rintro b c k y x ⟨hb, hc, hk, hy, hx, -⟩
  intro p read
  obtain ⟨-, -, hread⟩ := hread b k y x (within_four hb hk hy hx)
  have hfront (h : 1 / 1000 < p 2) : u.get [b, c, k, y, x] =
      read (p 1 / p 2 * s.height / (s.height - 1) - 1 / 2)
        (p 0 / p 2 * s.width / (s.width - 1) - 1 / 2) := by
    rw [hread c hc, target_front h]
    rfl
  refine ⟨hfront, fun hsame hdepth => ?_⟩
  have hp : p = ![x * s.depth.get [b, k, y, x], y * s.depth.get [b, k, y, x],
      s.depth.get [b, k, y, x], 1] := projected_self hb hsame
  have hd : s.depth.get [b, k, y, x] ≠ 0 := by linarith
  have h := hfront (by rw [hp]; exact hdepth)
  simp only [hp, Matrix.cons_val, mul_div_cancel_right₀ _ hd] at h
  exact h

noncomputable def numbered (batch height width : Nat) : Tensor ℝ :=
  ofFn [batch, 1, height, width] fun
    | [_, _, y, x] => y * width + x
    | _ => 0

noncomputable def restMatrices : Tensor ℝ := ofFn [2, 4, 4] fun
  | [_, r, c] => if r = c then 1 else 0
  | _ => 0

/-- A step to the right, down and back for the first of two elements, and none for the second. -/
noncomputable def stepMatrices : Tensor ℝ := ofFn [2, 3, 4] fun
  | [b, r, c] => if r = c then 1 else if b = 0 ∧ c = 3 then (if r = 2 then -1 else 1) else 0
  | _ => 0

theorem completed_restMatrices {b : Nat} (hb : b < 2) : completed restMatrices b = 1 := by
  rw [restMatrices, completed_ofFn hb]
  ext r c
  simp only [Matrix.of_apply, if_pos r.isLt, Matrix.one_apply, Fin.val_inj]

theorem completed_stepMatrices :
    completed stepMatrices 0 = !![1, 0, 0, 1; 0, 1, 0, 1; 0, 0, 1, -1; 0, 0, 0, 1] ∧
      completed stepMatrices 1 = 1 := by
  constructor
  · rw [stepMatrices, completed_ofFn (by decide)]
    ext r c
    fin_cases r <;> fin_cases c <;> simp
  · rw [stepMatrices, completed_ofFn (by decide)]
    ext r c
    fin_cases r <;> fin_cases c <;> simp

noncomputable def twoDepths : Tensor ℝ := ofFn [2, 2, 3, 3] fun
  | [_, k, _, _] => (if k = 0 then 2 else 1 : Nat)
  | _ => 0

theorem twoDepths_get {b k y x : Nat} (h : Within [b, k, y, x] [2, 2, 3, 3]) :
    twoDepths.get [b, k, y, x] = if k = 0 then 2 else 1 := by
  rw [twoDepths, get_ofFn h]
  push_cast
  rfl

theorem numbered_get {batch height width b y x : Nat} (hb : b < batch) (hy : y < height)
    (hx : x < width) : (numbered batch height width).get [b, 0, y, x] = y * width + x :=
  get_ofFn (within_four hb Nat.one_pos hy hx) _

/-- Two elements with two hypotheses. The source view is a step away from the reference view in the
first element, and agrees with it in the second. -/
noncomputable def stepPair : ViewPair where
  batch := 2
  channels := 1
  hypotheses := 2
  height := 3
  width := 3
  features := numbered 2 3 3
  source := stepMatrices
  reference := restMatrices
  depth := twoDepths
  two_le_height := by decide
  two_le_width := by decide
  features_single := isSingle_ofFn _ _
  source_holds := .inl rfl
  reference_holds := .inr rfl
  depth_single := isSingle_ofFn _ _
  regular b hb := by
    rw [completed_restMatrices hb, Matrix.det_one]
    exact one_ne_zero

/-- The first pixel of the first element moves to the middle of the map. -/
theorem stepPair_projected {k : Nat} (hk : k < 2) :
    stepPair.projected 0 k 0 0 = ![1, 1, (if k = 0 then 2 else 1) - 1, 1] := by
  have hsource : completed stepPair.source 0 = _ := completed_stepMatrices.1
  have hreference : completed stepPair.reference 0 = 1 := completed_restMatrices (by decide)
  have hdepth : stepPair.depth.get [0, k, 0, 0] = if k = 0 then 2 else 1 :=
    twoDepths_get (within_four (by decide) hk (by decide) (by decide))
  rw [projected, scenePoint, hsource, hreference, inv_one, Matrix.one_mulVec, hdepth]
  ext r
  fin_cases r <;> simp [Matrix.mulVec, dotProduct, Fin.sum_univ_four]
  ring

theorem paddedRead_numbered {b : Nat} (hb : b < 2) :
    Sampling.paddedRead (fun i j => (numbered 2 3 3).get [b, 0, i, j]) 3 3 1 1 = 4 := by
  rw [Sampling.paddedRead_congr fun i j hi hj => numbered_get hb hi hj]
  norm_num [Sampling.paddedRead, Sampling.tent, Fin.sum_univ_three]

theorem features_front_step :
    ∃ u, Reprojection.features stepPair.features stepPair.source stepPair.reference stepPair.depth =
        .ok u ∧
      1 / 1000 < stepPair.projected 0 0 0 0 2 ∧ u.get [0, 0, 0, 0, 0] = 4 ∧
      completed stepPair.source 1 = completed stepPair.reference 1 ∧
      1 / 1000 < stepPair.depth.get [1, 1, 1, 1] ∧ u.get [1, 0, 1, 1, 1] = 4 := by
  obtain ⟨u, hu, -, hread⟩ := features_front stepPair
  have hshape : Within [0, 0, 0, 0, 0] [2, 1, 2, 3, 3] := by simp
  have hshape' : Within [1, 0, 1, 1, 1] [2, 1, 2, 3, 3] := by simp
  have hp (r : Fin 4) : stepPair.projected 0 0 0 0 r = 1 := by
    rw [stepPair_projected (by decide)]
    fin_cases r <;> norm_num
  have hfront : 1 / 1000 < stepPair.projected 0 0 0 0 2 := by
    rw [hp]
    norm_num
  have hsame : completed stepPair.source 1 = completed stepPair.reference 1 :=
    completed_stepMatrices.2.trans (completed_restMatrices (by decide)).symm
  have hdepth : 1 / 1000 < stepPair.depth.get [1, 1, 1, 1] := by
    have h : stepPair.depth.get [1, 1, 1, 1] = 1 := twoDepths_get (by simp)
    rw [h]
    norm_num
  have hmoved := (hread 0 0 0 0 0 hshape).1 hfront
  have hstill := (hread 1 0 1 1 1 hshape').2 hsame hdepth
  refine ⟨u, hu, hfront, ?_, hsame, hdepth, ?_⟩
  · rw [hmoved, hp, hp, hp]
    refine Eq.trans ?_ (paddedRead_numbered Nat.two_pos)
    norm_num [stepPair]
  · rw [hstill]
    refine Eq.trans ?_ (paddedRead_numbered Nat.one_lt_two)
    norm_num [stepPair]

end Front

section Behind

theorem target_behind {b k y x : Nat} (h : s.projected b k y x 2 ≤ 1 / 1000) :
    s.target b k y x = ![(s.width : ℝ), (s.height : ℝ), 1] := by
  rw [target, frontDepth_real, if_pos h]

/-- Whatever is divided by lies in front of the camera. -/
theorem target_depth (s : ViewPair) (b k y x : Nat) : 1 / 1000 < s.target b k y x 2 := by
  rcases le_or_gt (s.projected b k y x 2) (1 / 1000) with h | h
  · rw [target_behind h]
    change (1 : ℝ) / 1000 < 1
    norm_num
  · rw [target_front h]
    exact h

/-- The point that stands for points behind the camera lies at least a texel behind the last one. -/
theorem width_le_outside (s : ViewPair) :
    (s.width : ℝ) ≤ (s.width : ℝ) / 1 * s.width / (s.width - 1) - 1 / 2 := by
  have hwidth : (2 : ℝ) ≤ s.width := by exact_mod_cast s.two_le_width
  have hpos : (0 : ℝ) < s.width - 1 := by linarith
  have hquotient : (s.width : ℝ) + 1 ≤ s.width / 1 * s.width / (s.width - 1) := by
    rw [le_div_iff₀ hpos]
    nlinarith
  linarith

/-- Points behind the source camera have no features, and no similarity with the reference view.
What coordinates are divided by never lies there. -/
theorem features_behind (s : ViewPair) {groups : Nat} {center : Tensor ℝ}
    (hcenter : center.IsSingle [s.batch, s.channels, s.height, s.width]) (hgroups : groups ≠ 0)
    (hmod : s.channels % groups = 0) :
    ∃ points u similarity, Reprojection.points s.source s.reference s.depth = .ok points ∧
      Reprojection.features s.features s.source s.reference s.depth = .ok u ∧
      groupSimilarity u center groups = .ok similarity ∧
      ∀ b k y x, Within [b, k, y, x] [s.batch, s.hypotheses, s.height, s.width] →
        let q := s.target b k y x
        (points.get [b, k * s.height + y, x, 0] = normalize s.width (q 0 / q 2) ∧
          points.get [b, k * s.height + y, x, 1] = normalize s.height (q 1 / q 2) ∧
          1 / 1000 < q 2) ∧
        (s.projected b k y x 2 ≤ 1 / 1000 →
          (∀ c < s.channels, u.get [b, c, k, y, x] = 0) ∧
          ∀ g < groups, similarity.get [b, g, k, y, x] = 0) := by
  obtain ⟨points, u, hpoints, hu, hsingle, hread⟩ := s.reproject_ok
  obtain ⟨similarity, hsimilarity, -, hmean⟩ := groupSimilarity_ok hsingle hcenter hgroups hmod
  refine ⟨points, u, similarity, hpoints, hu, hsimilarity, fun b k y x hw => ?_⟩
  intro q
  obtain ⟨hcolumn, hrow, hread⟩ := hread b k y x hw
  refine ⟨⟨hcolumn, hrow, s.target_depth b k y x⟩, fun hbehind => ?_⟩
  have hzero (c : Nat) (hc : c < s.channels) : u.get [b, c, k, y, x] = 0 := by
    rw [hread c hc, target_behind hbehind]
    exact Sampling.paddedRead_outside s.width_le_outside
  refine ⟨hzero, fun g hg => ?_⟩
  obtain ⟨hb, hk, hy, hx, -⟩ := hw
  rw [hmean b g k y x hb hg hk hy hx]
  have hnone (c : Fin (s.channels / groups)) :=
    hzero _ (groupChannel_lt hmod hg c.isLt)
  simp only [hnone, zero_mul, Finset.sum_const_zero, zero_div]

theorem features_behind_step :
    ∃ points u similarity,
      Reprojection.points stepPair.source stepPair.reference stepPair.depth = .ok points ∧
      Reprojection.features stepPair.features stepPair.source stepPair.reference stepPair.depth =
        .ok u ∧
      groupSimilarity u (numbered 2 3 3) 1 = .ok similarity ∧
      stepPair.projected 0 1 0 0 2 ≤ 1 / 1000 ∧ 1 / 1000 < stepPair.target 0 1 0 0 2 ∧
      u.get [0, 0, 1, 0, 0] = 0 ∧ similarity.get [0, 0, 1, 0, 0] = 0 := by
  have hcenter : (numbered 2 3 3).IsSingle [2, 1, 3, 3] := isSingle_ofFn _ _
  obtain ⟨points, u, similarity, hpoints, hu, hsimilarity, hread⟩ :=
    features_behind stepPair hcenter Nat.one_ne_zero (Nat.mod_one 1)
  have hshape : Within [0, 1, 0, 0] [2, 2, 3, 3] := by simp
  have hbehind : stepPair.projected 0 1 0 0 2 ≤ 1 / 1000 := by
    rw [stepPair_projected (by decide)]
    change (1 : ℝ) - 1 ≤ 1 / 1000
    norm_num
  obtain ⟨⟨-, -, hdivisor⟩, hnone⟩ := hread 0 1 0 0 hshape
  obtain ⟨hfeature, hgroup⟩ := hnone hbehind
  exact ⟨points, u, similarity, hpoints, hu, hsimilarity, hbehind, hdivisor,
    hfeature 0 Nat.one_pos, hgroup 0 Nat.one_pos⟩

end Behind

end ViewPair

end MultiViewDepth
