import MultiViewDepth.Proofs.SamplingBounds
import MultiViewDepth.Proofs.SingleArrays

/-!
Maps that are read between their texels.

Every texel counts by how near it lies to the position that is read. Outside a map there is either
nothing, so that only its own texels count, or the map goes on with its edge texels over the whole
plane, which is then interpolated.
-/
namespace MultiViewDepth.Sampling

open Tensor Arithmetic

/-- Weight of a texel that lies `t` away from a position along an axis. -/
noncomputable def tent (t : ℝ) : ℝ := max 0 (1 - |t|)

/-- Sum of all texels of a map, each weighted by its nearness to row `y` and column `x`. -/
noncomputable def paddedRead (map : Nat → Nat → ℝ) (height width : Nat) (y x : ℝ) : ℝ :=
  ∑ i : Fin height, ∑ j : Fin width, map i j * tent (y - i) * tent (x - j)

noncomputable def interpolate (map : ℤ → ℤ → ℝ) (y x : ℝ) : ℝ :=
  (1 - Int.fract y) * ((1 - Int.fract x) * map ⌊y⌋ ⌊x⌋ + Int.fract x * map ⌊y⌋ (⌊x⌋ + 1)) +
    Int.fract y * ((1 - Int.fract x) * map (⌊y⌋ + 1) ⌊x⌋ + Int.fract x * map (⌊y⌋ + 1) (⌊x⌋ + 1))

/-- The texel of an axis that is nearest to texel `z` of an axis without ends. -/
def nearest (size : Nat) (z : ℤ) : Nat := min z.toNat (size - 1)

/-- The map of the whole plane that goes on with the edge texels of a map. -/
def extend (map : Nat → Nat → ℝ) (height width : Nat) : ℤ → ℤ → ℝ := fun i j =>
  map (nearest height i) (nearest width j)

/-- Weight of texel `i` of an axis at a position, where the edge texels go on without end. -/
noncomputable def edgeWeight (size : Nat) (p : ℝ) (i : Nat) : ℝ :=
  (1 - Int.fract p) * (if nearest size ⌊p⌋ = i then 1 else 0) +
    Int.fract p * (if nearest size (⌊p⌋ + 1) = i then 1 else 0)

section Axes

variable {size i : Nat}

theorem position_real (size : Nat) (g : ℝ) : position size g = ((g + 1) * size - 1) / 2 := by
  simp only [position, affine_real]
  push_cast
  ring

theorem tent_far {t : ℝ} (h : 1 ≤ |t|) : tent t = 0 := max_eq_left (by linarith)

theorem tent_near {t : ℝ} (h : |t| ≤ 1) : tent t = 1 - |t| := max_eq_right (by linarith)

/-- Only the two texels around a position have a weight there. -/
theorem tent_sub_int (p : ℝ) (z : ℤ) :
    tent (p - z) = (1 - Int.fract p) * (if z = ⌊p⌋ then 1 else 0) +
      Int.fract p * (if z = ⌊p⌋ + 1 then 1 else 0) := by
  have hsplit : p = ⌊p⌋ + Int.fract p := (Int.floor_add_fract p).symm
  have hpos := Int.fract_nonneg p
  have hlt := Int.fract_lt_one p
  rcases lt_trichotomy z ⌊p⌋ with hz | rfl | hz
  · have hle : (z : ℝ) + 1 ≤ ⌊p⌋ := by exact_mod_cast hz
    rw [tent_far (le_abs.2 (.inl (by linarith))), if_neg hz.ne, if_neg (by omega)]
    ring
  · have hdistance : |p - ⌊p⌋| = Int.fract p := abs_of_nonneg hpos
    rw [tent_near (by linarith), hdistance, if_pos rfl, if_neg (by omega)]
    ring
  · rcases (Int.add_one_le_iff.2 hz).eq_or_lt with rfl | hz
    · have hdistance : |p - (⌊p⌋ + 1 : ℤ)| = 1 - Int.fract p := by
        rw [abs_of_nonpos (by push_cast; linarith)]
        push_cast
        linarith
      rw [tent_near (by linarith), hdistance, if_neg (by omega), if_pos rfl]
      ring
    · have hle : (⌊p⌋ : ℝ) + 1 + 1 ≤ z := by exact_mod_cast hz
      rw [tent_far (le_abs.2 (.inr (by linarith))), if_neg (by omega), if_neg (by omega)]
      ring

theorem tent_nonneg (t : ℝ) : 0 ≤ tent t := le_max_left _ _

/-- A texel of the axis is inside, and no other whole position is. -/
theorem inside_int (hsize : 0 < size) (z : ℤ) :
    (inside size (z : ℝ) : ℝ) = if 0 ≤ z ∧ z < size then 1 else 0 := by
  have hlast : (z : ℝ) ≤ ((size - 1 : Nat) : ℝ) ↔ z < size := by
    rw [← Int.cast_natCast, Int.cast_le]
    omega
  simp only [inside, Int.cast_nonneg_iff, hlast]
  split_ifs <;> simp_all

theorem clampAxis_of_mem {p : ℝ} (hp : p ∈ Set.Icc (0 : ℝ) ((size - 1 : Nat) : ℝ)) :
    clampAxis size p = p := by
  rw [clampAxis, clamp_real, max_eq_left hp.1, min_eq_left hp.2]

theorem clampAxis_natCast (hi : i < size) : clampAxis size (i : ℝ) = i :=
  clampAxis_of_mem ⟨Nat.cast_nonneg i, Nat.cast_le.2 (by omega)⟩

theorem nearest_lt (hsize : 0 < size) (z : ℤ) : nearest size z < size := by
  rw [nearest]
  omega

theorem nearest_eq_iff {z : ℤ} (hpos : 0 ≤ z) (hlt : z < size) :
    nearest size z = i ↔ (i : ℤ) = z := by
  rw [nearest]
  omega

theorem tent_natCast_sub (k i : Nat) : tent ((k : ℝ) - i) = if k = i then 1 else 0 := by
  have h := tent_sub_int (k : ℝ) i
  rw [Int.fract_natCast, Int.floor_natCast, Int.cast_natCast] at h
  simp only [h, sub_zero, one_mul, zero_mul, add_zero, Nat.cast_inj, eq_comm]

theorem edgeWeight_outside {p : ℝ} {k : Nat} (hbelow : nearest size ⌊p⌋ = k)
    (habove : nearest size (⌊p⌋ + 1) = k) (i : Nat) :
    edgeWeight size p i = if k = i then 1 else 0 := by
  rw [edgeWeight, hbelow, habove]
  ring

/-- Between the texels of an axis two of them count by their nearness. Outside all weight is with
the edge texel. -/
theorem edgeWeight_eq_tent (hi : i < size) (p : ℝ) :
    edgeWeight size p i = tent (clampAxis size p - i) := by
  rcases lt_or_ge p 0 with hlow | hpos
  · have hfloor : ⌊p⌋ < 0 := Int.floor_lt.2 (by exact_mod_cast hlow)
    have hclamp : clampAxis size p = ((0 : Nat) : ℝ) := by
      rw [clampAxis, clamp_real, max_eq_right hlow.le, min_eq_left (Nat.cast_nonneg _),
        Nat.cast_zero]
    rw [hclamp, tent_natCast_sub]
    exact edgeWeight_outside (by rw [nearest]; omega) (by rw [nearest]; omega) i
  rcases lt_or_ge p ((size - 1 : Nat) : ℝ) with hlt | hhigh
  · have hfloor : 0 ≤ ⌊p⌋ := Int.floor_nonneg.2 hpos
    have hnext : ⌊p⌋ < (size - 1 : Nat) := Int.floor_lt.2 (by exact_mod_cast hlt)
    have htent := tent_sub_int p i
    rw [Int.cast_natCast] at htent
    have hbelow : nearest size ⌊p⌋ = i ↔ (i : ℤ) = ⌊p⌋ := nearest_eq_iff hfloor (by omega)
    have habove : nearest size (⌊p⌋ + 1) = i ↔ (i : ℤ) = ⌊p⌋ + 1 :=
      nearest_eq_iff (by omega) (by omega)
    simp only [clampAxis_of_mem ⟨hpos, hlt.le⟩, htent, edgeWeight, hbelow, habove]
  · have hfloor : ((size - 1 : Nat) : ℤ) ≤ ⌊p⌋ := Int.le_floor.2 (by exact_mod_cast hhigh)
    have hclamp : clampAxis size p = ((size - 1 : Nat) : ℝ) := by
      rw [clampAxis, clamp_real, max_eq_left hpos, min_eq_right hhigh]
    rw [hclamp, tent_natCast_sub]
    exact edgeWeight_outside (by rw [nearest]; omega) (by rw [nearest]; omega) i

theorem edgeWeight_nonneg (hi : i < size) (p : ℝ) : 0 ≤ edgeWeight size p i := by
  rw [edgeWeight_eq_tent hi]
  exact tent_nonneg _

theorem sum_pick (f : Nat → ℝ) (k : Nat) :
    ∑ i : Fin size, f i * (if k = i then 1 else 0) = if k < size then f k else 0 := by
  split_ifs with hk
  · rw [Finset.sum_eq_single ⟨k, hk⟩]
    · rw [if_pos rfl, mul_one]
    · intro i _ hi
      rw [if_neg fun h => hi (Fin.ext h.symm), mul_zero]
    · exact fun h => absurd (Finset.mem_univ _) h
  · refine Finset.sum_eq_zero fun i _ => ?_
    rw [if_neg (by omega), mul_zero]

theorem sum_pick_int (f : Nat → ℝ) (z : ℤ) :
    ∑ i : Fin size, f i * (if (i : ℤ) = z then 1 else 0) =
      if 0 ≤ z ∧ z < size then f z.toNat else 0 := by
  rcases lt_or_ge z 0 with hz | hz
  · rw [if_neg (by omega)]
    refine Finset.sum_eq_zero fun i _ => ?_
    rw [if_neg (by omega), mul_zero]
  · lift z to Nat using hz
    have h := @sum_pick size f z
    simpa [eq_comm] using h

/-- The two texels around a position, or the edge texels that stand for them. -/
theorem sum_edgeWeight (hsize : 0 < size) (f : Nat → ℝ) (p : ℝ) :
    ∑ i : Fin size, f i * edgeWeight size p i =
      (1 - Int.fract p) * f (nearest size ⌊p⌋) + Int.fract p * f (nearest size (⌊p⌋ + 1)) := by
  have hpick (z : ℤ) : f (nearest size z) =
      ∑ i : Fin size, f i * (if nearest size z = i then 1 else 0) := by
    rw [sum_pick, if_pos (nearest_lt hsize z)]
  rw [hpick, hpick, Finset.mul_sum, Finset.mul_sum, ← Finset.sum_add_distrib]
  refine Finset.sum_congr rfl fun i _ => ?_
  rw [edgeWeight]
  ring

theorem sum_edgeWeight_one (hsize : 0 < size) (p : ℝ) :
    ∑ i : Fin size, edgeWeight size p i = 1 := by
  have h := sum_edgeWeight hsize (fun _ => 1) p
  simpa using h

end Axes

section Maps

variable {height width : Nat}

theorem texel_natCast {i j : Nat} (hi : i < height) (hj : j < width) :
    texel height width (i : ℝ) (j : ℝ) = i * width + j := by
  rw [texel, clampAxis_natCast hi, clampAxis_natCast hj, ← Nat.cast_mul, ← Nat.cast_add]
  exact Nat.floor_natCast _

/-- A corner with whole coordinates is a texel, or lies outside the map and does not count. -/
theorem corner_int (hheight : 0 < height) (hwidth : 0 < width) (map : Nat → Nat → ℝ) (cy cx : ℤ)
    (w : ℝ) :
    corner (fun k => map (k / width) (k % width)) height width (cy : ℝ) (cx : ℝ) w =
      ∑ i : Fin height, ∑ j : Fin width, map i j *
        (w * ((if (i : ℤ) = cy then 1 else 0) * (if (j : ℤ) = cx then 1 else 0))) := by
  have hsum : ∑ i : Fin height, ∑ j : Fin width, map i j *
        (w * ((if (i : ℤ) = cy then 1 else 0) * (if (j : ℤ) = cx then 1 else 0))) =
      if 0 ≤ cy ∧ cy < height then
        w * if 0 ≤ cx ∧ cx < width then map cy.toNat cx.toNat else 0
      else 0 := by
    rw [← sum_pick_int fun i => w * if 0 ≤ cx ∧ cx < width then map i cx.toNat else 0]
    refine Finset.sum_congr rfl fun i _ => ?_
    rw [← sum_pick_int (map i), Finset.mul_sum, Finset.sum_mul]
    refine Finset.sum_congr rfl fun j _ => ?_
    ring
  rw [hsum, corner, inside_int hheight, inside_int hwidth]
  by_cases hy : 0 ≤ cy ∧ cy < height
  · by_cases hx : 0 ≤ cx ∧ cx < width
    · lift cy to Nat using hy.1
      lift cx to Nat using hx.1
      have hj : cx < width := by exact_mod_cast hx.2
      have hrow : (cy * width + cx) / width = cy ∧ (cy * width + cx) % width = cx :=
        (Nat.div_mod_unique hwidth).2 ⟨by ring, hj⟩
      rw [Int.cast_natCast, Int.cast_natCast, texel_natCast (by exact_mod_cast hy.2) hj,
        hrow.1, hrow.2, if_pos hx, if_pos hy, if_pos hx, if_pos hy, Int.toNat_natCast,
        Int.toNat_natCast]
      ring
    · rw [if_neg hx, if_neg hx, zero_mul, mul_zero, mul_zero, ite_self]
  · rw [if_neg hy, if_neg hy, mul_zero, mul_zero, mul_zero]

/-- The four corners around a position are all texels that have a weight there. -/
theorem blend_eq_paddedRead (hheight : 0 < height) (hwidth : 0 < width) (map : Nat → Nat → ℝ)
    (y x : ℝ) :
    blend (fun k => map (k / width) (k % width)) height width y x =
      paddedRead map height width y x := by
  have hnext (p : ℝ) : (⌊p⌋ : ℝ) + 1 = ((⌊p⌋ + 1 : ℤ) : ℝ) := by
    rw [Int.cast_add, Int.cast_one]
  simp only [blend, floor_real, hnext, corner_int hheight hwidth, ← Finset.sum_add_distrib]
  refine Finset.sum_congr rfl fun i _ => Finset.sum_congr rfl fun j _ => ?_
  have hi := tent_sub_int y i
  have hj := tent_sub_int x j
  rw [Int.cast_natCast] at hi hj
  rw [hi, hj, Int.fract, Int.fract]
  ring

/-- Interpolating what goes on with the edge texels gives every texel its edge weights. -/
theorem interpolate_extend (hheight : 0 < height) (hwidth : 0 < width) (map : Nat → Nat → ℝ)
    (y x : ℝ) :
    interpolate (extend map height width) y x =
      ∑ i : Fin height, ∑ j : Fin width,
        map i j * (edgeWeight height y i * edgeWeight width x j) := by
  have hrow (i : Fin height) :
      ∑ j : Fin width, map i j * (edgeWeight height y i * edgeWeight width x j) =
        (∑ j : Fin width, map i j * edgeWeight width x j) * edgeWeight height y i := by
    rw [Finset.sum_mul]
    exact Finset.sum_congr rfl fun j _ => by ring
  simp only [hrow, sum_edgeWeight hwidth]
  rw [sum_edgeWeight hheight fun i => (1 - Int.fract x) * map i (nearest width ⌊x⌋) +
    Int.fract x * map i (nearest width (⌊x⌋ + 1))]
  rfl

theorem paddedRead_congr {map map' : Nat → Nat → ℝ}
    (h : ∀ i j, i < height → j < width → map i j = map' i j) (y x : ℝ) :
    paddedRead map height width y x = paddedRead map' height width y x :=
  Finset.sum_congr rfl fun i _ => Finset.sum_congr rfl fun j _ => by rw [h i j i.isLt j.isLt]

/-- A column a texel behind the last one is too far from every texel. -/
theorem paddedRead_outside {map : Nat → Nat → ℝ} {y x : ℝ} (h : (width : ℝ) ≤ x) :
    paddedRead map height width y x = 0 := by
  refine Finset.sum_eq_zero fun i _ => Finset.sum_eq_zero fun j _ => ?_
  have hj : (j : ℝ) + 1 ≤ width := by exact_mod_cast j.isLt
  have hfar : tent (x - j) = 0 := tent_far (le_abs.2 (.inl (by linarith)))
  rw [hfar, mul_zero]

theorem read_zeros (hheight : 0 < height) (hwidth : 0 < width) (map : Nat → Nat → ℝ) (gy gx : ℝ) :
    read (fun k => map (k / width) (k % width)) height width .zeros gy gx =
      paddedRead map height width (position height gy) (position width gx) :=
  blend_eq_paddedRead hheight hwidth map _ _

theorem read_border (hheight : 0 < height) (hwidth : 0 < width) (map : Nat → Nat → ℝ) (gy gx : ℝ) :
    read (fun k => map (k / width) (k % width)) height width .border gy gx =
      interpolate (extend map height width) (position height gy) (position width gx) := by
  refine (blend_eq_paddedRead hheight hwidth map _ _).trans ?_
  rw [interpolate_extend hheight hwidth]
  refine Finset.sum_congr rfl fun i _ => Finset.sum_congr rfl fun j _ => ?_
  rw [edgeWeight_eq_tent i.isLt, edgeWeight_eq_tent j.isLt, mul_assoc]

/-- What is interpolated lies between the smallest and the largest texel. -/
theorem interpolate_mem (hheight : 0 < height) (hwidth : 0 < width) (map : Nat → Nat → ℝ)
    (y x : ℝ) :
    interpolate (extend map height width) y x ∈
      Set.Icc (⨅ t : Fin height × Fin width, map t.1 t.2)
        (⨆ t : Fin height × Fin width, map t.1 t.2) := by
  have htexel (i j : ℤ) : extend map height width i j ∈
      Set.Icc (⨅ t : Fin height × Fin width, map t.1 t.2)
        (⨆ t : Fin height × Fin width, map t.1 t.2) :=
    texel_mem map (nearest_lt hheight i) (nearest_lt hwidth j)
  have hfract (p : ℝ) : 0 ≤ 1 - Int.fract p := sub_nonneg.2 (Int.fract_lt_one p).le
  have hrow (i : ℤ) := mean_pair_mem (hfract x) (Int.fract_nonneg x) (sub_add_cancel 1 _)
    (htexel i ⌊x⌋) (htexel i (⌊x⌋ + 1))
  have hmean := mean_pair_mem (hfract y) (Int.fract_nonneg y) (sub_add_cancel 1 _)
    (hrow ⌊y⌋) (hrow (⌊y⌋ + 1))
  convert hmean using 1
  rw [interpolate]
  ring

end Maps

section Samples

variable {batch channels height width rows columns : Nat} {map points : Tensor ℝ}

/-- Reading a map at a point is bilinear interpolation, of the map with nothing around it or of the
map with its edges going on. In the second case the weights of the texels are those of a mean. -/
theorem sample_bilinear (hmap : map.IsSingle [batch, channels, height, width])
    (hpoints : points.IsSingle [batch, rows, columns, 2]) (hheight : 0 < height)
    (hwidth : 0 < width) :
    ∃ padded edged, sample map points .zeros = .ok padded ∧ sample map points .border = .ok edged ∧
      padded.IsSingle [batch, channels, rows, columns] ∧
      edged.IsSingle [batch, channels, rows, columns] ∧
      (∀ cy cx : ℝ, texel height width cy cx < height * width) ∧
      ∀ b c p q, Within [b, c, p, q] [batch, channels, rows, columns] →
        let y := ((points.get [b, p, q, 1] + 1) * height - 1) / 2
        let x := ((points.get [b, p, q, 0] + 1) * width - 1) / 2
        let plane := fun i j => map.get [b, c, i, j]
        let weight := fun t : Fin height × Fin width =>
          edgeWeight height y t.1 * edgeWeight width x t.2
        padded.get [b, c, p, q] =
            ∑ i : Fin height, ∑ j : Fin width, plane i j * tent (y - i) * tent (x - j) ∧
          edged.get [b, c, p, q] = interpolate (extend plane height width) y x ∧
          edged.get [b, c, p, q] = ∑ t : Fin height × Fin width, plane t.1 t.2 * weight t ∧
          (∀ t, 0 ≤ weight t) ∧ ∑ t, weight t = 1 ∧
          edged.get [b, c, p, q] ∈ Set.Icc (⨅ t : Fin height × Fin width, plane t.1 t.2)
            (⨆ t : Fin height × Fin width, plane t.1 t.2) := by
  obtain ⟨padded, hpadded, hpaddedShape, hpaddedKind, hempty⟩ := sample_ok hmap.shape_eq
    hmap.kind_eq hpoints.shape_eq hpoints.kind_eq hheight hwidth .zeros
  obtain ⟨edged, hedged, hedgedShape, hedgedKind, hedge⟩ := sample_ok hmap.shape_eq hmap.kind_eq
    hpoints.shape_eq hpoints.kind_eq hheight hwidth .border
  refine ⟨padded, edged, hpadded, hedged, ⟨hpaddedShape, hpaddedKind⟩, ⟨hedgedShape, hedgedKind⟩,
    texel_lt hheight hwidth, ?_⟩
  rintro b c p q ⟨hb, hc, hp, hq, -⟩
  intro y x plane weight
  have hempty := hempty b c p q hb hc hp hq
  have hedge := hedge b c p q hb hc hp hq
  have hinterpolated : edged.get [b, c, p, q] = interpolate (extend plane height width) y x := by
    rw [hedge, read_border hheight hwidth plane, position_real, position_real]
  refine ⟨?_, hinterpolated, ?_, fun t => ?_, ?_, ?_⟩
  · rw [hempty, read_zeros hheight hwidth plane, position_real, position_real]
    rfl
  · rw [hinterpolated, interpolate_extend hheight hwidth, Fintype.sum_prod_type]
  · exact mul_nonneg (edgeWeight_nonneg t.1.isLt y) (edgeWeight_nonneg t.2.isLt x)
  · rw [Fintype.sum_prod_type]
    simp only [weight, ← Finset.mul_sum, sum_edgeWeight_one hwidth, mul_one,
      sum_edgeWeight_one hheight]
  · rw [hinterpolated]
    exact interpolate_mem hheight hwidth plane y x

noncomputable def twoTexels : Tensor ℝ := ofFn [1, 1, 1, 2] fun
  | [_, _, _, x] => if x = 0 then 1 else 3
  | _ => 0

/-- The point half a texel behind the last of two texels in a row. -/
noncomputable def outerPoint : Tensor ℝ := ofFn [1, 1, 1, 2] fun
  | [_, _, _, coordinate] => if coordinate = 0 then 1 else 0
  | _ => 0

theorem sample_bilinear_outer :
    twoTexels.IsSingle [1, 1, 1, 2] ∧ outerPoint.IsSingle [1, 1, 1, 2] ∧
      ∃ padded edged, sample twoTexels outerPoint .zeros = .ok padded ∧
        sample twoTexels outerPoint .border = .ok edged ∧
        padded.get [0, 0, 0, 0] = 3 / 2 ∧ edged.get [0, 0, 0, 0] = 3 := by
  have htexels : twoTexels.IsSingle [1, 1, 1, 2] := isSingle_ofFn _ _
  have hpoint : outerPoint.IsSingle [1, 1, 1, 2] := isSingle_ofFn _ _
  obtain ⟨padded, edged, hpadded, hedged, -, -, -, hread⟩ :=
    sample_bilinear htexels hpoint Nat.one_pos Nat.two_pos
  obtain ⟨hempty, hedge, -⟩ := hread 0 0 0 0 (by simp)
  have hy : outerPoint.get [0, 0, 0, 1] = 0 := get_ofFn (by simp) _
  have hx : outerPoint.get [0, 0, 0, 0] = 1 := get_ofFn (by simp) _
  have hfirst : twoTexels.get [0, 0, 0, 0] = 1 := get_ofFn (by simp) _
  have hsecond : twoTexels.get [0, 0, 0, 1] = 3 := get_ofFn (by simp) _
  refine ⟨htexels, hpoint, padded, edged, hpadded, hedged, hempty.trans ?_, hedge.trans ?_⟩
  · rw [hx, hy]
    norm_num [Fin.sum_univ_two, hfirst, hsecond, tent]
  · rw [hx, hy]
    norm_num [interpolate, extend, nearest, hsecond]

end Samples

end MultiViewDepth.Sampling
