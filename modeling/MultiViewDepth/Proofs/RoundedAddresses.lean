import MultiViewDepth.Proofs.BilinearReads
import MultiViewDepth.Proofs.PixelViews

/-!
Numbers of texels in single precision.

The whole numbers of single precision are those of at most 24 significant bits: a result is rounded
to the nearest of them, and a tie goes to the even one. On maps of at most `2 ^ 24 + 1` texels every
corner still finds its texel; on any larger map some texel is missed.
-/
namespace MultiViewDepth

open Arithmetic

/-- A whole number of at most 24 significant bits. -/
def Significant (z : ℤ) : Prop := ∃ (m : ℤ) (e : ℕ), |m| < 2 ^ 24 ∧ z = m * 2 ^ e

/-- Distance between the numbers of 24 significant bits that lie around `z`. -/
def spacing (z : ℤ) : ℤ := 2 ^ (z.natAbs.log2 - 23)

def nearestMultiple (u z : ℤ) : ℤ :=
  if 2 * (z % u) < u ∨ 2 * (z % u) = u ∧ 2 ∣ z / u then z / u * u else (z / u + 1) * u

def roundSignificant (z : ℤ) : ℤ := nearestMultiple (spacing z) z

/-- No number of at most 24 significant bits is nearer to `z` than `w`, and if another one is as
near, the last bit of `w` is 0. -/
structure RoundsTo (z w : ℤ) : Prop where
  significant : Significant w
  nearest : ∀ v, Significant v → |z - w| ≤ |z - v|
  even : ∀ v, Significant v → v ≠ w → |z - v| = |z - w| → 2 * spacing z ∣ w

section Multiples

variable {u z : ℤ}

theorem exists_nearestMultiple (hu : 0 < u) (z : ℤ) :
    ∃ q, nearestMultiple u z = q * u ∧ 2 * |z - q * u| ≤ u ∧ (2 * |z - q * u| = u → 2 ∣ q) := by
  have hsplit := Int.mul_ediv_add_emod z u
  have hpos := Int.emod_nonneg z hu.ne'
  have hlt := Int.emod_lt_of_pos z hu
  have hbelow : z - z / u * u = z % u := by linarith [mul_comm u (z / u)]
  have habove : z - (z / u + 1) * u = -(u - z % u) := by linarith [add_mul (z / u) 1 u]
  unfold nearestMultiple
  split
  next h =>
    refine ⟨z / u, rfl, ?_, fun htie => ?_⟩ <;> rw [hbelow, abs_of_nonneg hpos] at *
    · omega
    · exact (h.resolve_left (by omega)).2
  next h =>
    refine ⟨z / u + 1, rfl, ?_, fun htie => ?_⟩ <;> rw [habove, abs_neg, abs_of_pos (by omega)] at *
    · omega
    · omega

theorem abs_sub_nearestMultiple_le (hu : 0 < u) (z k : ℤ) :
    |z - nearestMultiple u z| ≤ |z - k * u| := by
  obtain ⟨q, hq, hnear, -⟩ := exists_nearestMultiple hu z
  rw [hq]
  rcases eq_or_ne k q with rfl | hk
  · exact le_rfl
  · have hfar : u ≤ |k * u - q * u| := by
      rw [← sub_mul, abs_mul, abs_of_pos hu]
      exact le_mul_of_one_le_left hu.le (Int.one_le_abs (sub_ne_zero.2 hk))
    have htriangle := abs_sub_le (k * u) z (q * u)
    rw [abs_sub_comm (k * u) z] at htriangle
    omega

theorem nearestMultiple_of_dvd (hu : 0 < u) (h : u ∣ z) : nearestMultiple u z = z := by
  have hrest := Int.emod_eq_zero_of_dvd h
  rw [nearestMultiple, hrest, if_pos (.inl (by omega)), Int.ediv_mul_cancel h]

end Multiples

section Spacing

variable {z v : ℤ}

theorem spacing_pos (z : ℤ) : 0 < spacing z := by
  unfold spacing
  positivity

theorem abs_lt_spacing (z : ℤ) : |z| < 2 ^ 24 * spacing z := by
  have hlt : z.natAbs < 2 ^ (24 + (z.natAbs.log2 - 23)) :=
    Nat.lt_log2_self.trans_le (Nat.pow_le_pow_right (by decide) (by omega))
  rw [Int.abs_eq_natAbs, spacing, ← pow_add]
  exact_mod_cast hlt

/-- Numbers that lie further apart than 1 have all of their 24 bits. -/
theorem spacing_le_abs (h : 23 ≤ z.natAbs.log2) : 2 ^ 23 * spacing z ≤ |z| := by
  have hz : z.natAbs ≠ 0 := by
    rintro hzero
    rw [hzero] at h
    exact absurd h (by decide)
  rw [Int.abs_eq_natAbs, spacing, ← pow_add, Nat.add_sub_cancel' h]
  exact_mod_cast Nat.log2_self_le hz

theorem significant_mul {m : ℤ} (h : |m| ≤ 2 ^ 24) (e : ℕ) : Significant (m * 2 ^ e) := by
  rcases h.lt_or_eq with h | h
  · exact ⟨m, e, h, rfl⟩
  · rcases eq_or_eq_neg_of_abs_eq h with rfl | rfl
    · exact ⟨1, 24 + e, by norm_num, by rw [one_mul, pow_add]⟩
    · exact ⟨-1, 24 + e, by norm_num, by rw [pow_add]; ring⟩

theorem significant_of_abs_le (h : |z| ≤ 2 ^ 24) : Significant z := by
  simpa using significant_mul h 0

/-- What has at most 24 bits and is as large as the numbers of some spacing is a multiple of it. -/
theorem Significant.spacing_dvd (h : Significant v) (hle : 2 ^ 23 * spacing z ≤ |v|) :
    spacing z ∣ v := by
  obtain ⟨m, e, hm, rfl⟩ := h
  have hlt : (2 : ℤ) ^ (23 + (z.natAbs.log2 - 23)) < 2 ^ (24 + e) := by
    rw [pow_add, pow_add]
    calc (2 : ℤ) ^ 23 * spacing z ≤ |m| * 2 ^ e := by rwa [abs_mul, abs_pow, abs_two] at hle
      _ < 2 ^ 24 * 2 ^ e := by gcongr
  have hexponent := (pow_lt_pow_iff_right₀ (one_lt_two : (1 : ℤ) < 2)).1 hlt
  exact (pow_dvd_pow 2 (by omega)).mul_left m

end Spacing

section Rounding

variable {z v : ℤ}

theorem significant_roundSignificant (z : ℤ) : Significant (roundSignificant z) := by
  obtain ⟨q, hq, hnear, -⟩ := exists_nearestMultiple (spacing_pos z) z
  have hbound := abs_lt_spacing z
  have hpos := spacing_pos z
  have htriangle : |q| * spacing z ≤ |z| + |z - q * spacing z| := by
    rw [← abs_of_pos hpos, ← abs_mul, abs_of_pos hpos, abs_sub_comm]
    linarith [abs_sub_abs_le_abs_sub (q * spacing z) z]
  rw [roundSignificant, hq]
  refine significant_mul ?_ _
  by_contra hlarge
  nlinarith

/-- Numbers of at most 24 bits stay as they are. -/
theorem roundSignificant_of_significant (h : Significant z) : roundSignificant z = z := by
  refine nearestMultiple_of_dvd (spacing_pos z) ?_
  rcases le_or_gt 23 z.natAbs.log2 with hlog | hlog
  · exact h.spacing_dvd (spacing_le_abs hlog)
  · simp [spacing, Nat.sub_eq_zero_of_le hlog.le]

/-- What is no multiple of the spacing around `z` lies nearer to zero than all numbers of that
spacing, the smallest of which is nearer to `z`. -/
theorem abs_sub_roundSignificant_lt (h : Significant v) (hdvd : ¬ spacing z ∣ v) :
    |z - roundSignificant z| < |z - v| := by
  have hlog : 23 ≤ z.natAbs.log2 := by
    by_contra hlog
    exact hdvd (by simp [spacing, Nat.sub_eq_zero_of_le (not_le.1 hlog).le])
  have hsmall : |v| < 2 ^ 23 * spacing z := not_le.1 fun hle => hdvd (h.spacing_dvd hle)
  have hlarge := spacing_le_abs hlog
  have hbetween : |z| - 2 ^ 23 * spacing z < |z - v| := by
    linarith [abs_sub_abs_le_abs_sub z v]
  refine lt_of_le_of_lt ?_ hbetween
  rcases abs_cases z with ⟨hz, -⟩ | ⟨hz, -⟩
  · refine (abs_sub_nearestMultiple_le (spacing_pos z) z (2 ^ 23)).trans_eq ?_
    rw [abs_of_nonneg (by linarith), hz]
  · refine (abs_sub_nearestMultiple_le (spacing_pos z) z (-2 ^ 23)).trans_eq ?_
    rw [abs_of_nonpos (by linarith), hz]
    ring

theorem abs_sub_roundSignificant_le (h : Significant v) :
    |z - roundSignificant z| ≤ |z - v| := by
  by_cases hdvd : spacing z ∣ v
  · obtain ⟨k, rfl⟩ := hdvd
    rw [mul_comm]
    exact abs_sub_nearestMultiple_le (spacing_pos z) z k
  · exact (abs_sub_roundSignificant_lt h hdvd).le

theorem even_of_tie (h : Significant v) (hne : v ≠ roundSignificant z)
    (htie : |z - v| = |z - roundSignificant z|) : 2 * spacing z ∣ roundSignificant z := by
  have hdvd : spacing z ∣ v := by
    by_contra hdvd
    exact (abs_sub_roundSignificant_lt h hdvd).ne' htie
  obtain ⟨k, rfl⟩ := hdvd
  obtain ⟨q, hq, hnear, heven⟩ := exists_nearestMultiple (spacing_pos z) z
  have hpos := spacing_pos z
  rw [roundSignificant, hq] at hne htie ⊢
  have hkq : k ≠ q := by
    rintro rfl
    exact hne (mul_comm _ _)
  have hfar : spacing z ≤ |spacing z * k - q * spacing z| := by
    rw [mul_comm, ← sub_mul, abs_mul, abs_of_pos hpos]
    exact le_mul_of_one_le_left hpos.le (Int.one_le_abs (sub_ne_zero.2 hkq))
  have htriangle := abs_sub_le (spacing z * k) z (q * spacing z)
  rw [abs_sub_comm (spacing z * k) z] at htriangle
  exact mul_dvd_mul_right (heven (by omega)) _

theorem roundsTo_roundSignificant (z : ℤ) : RoundsTo z (roundSignificant z) where
  significant := significant_roundSignificant z
  nearest _ h := abs_sub_roundSignificant_le h
  even _ := even_of_tie

end Rounding

/-- The whole numbers of single precision, without infinities. -/
structure RoundedInt where
  val : ℤ
  significant : Significant val

namespace RoundedInt

def ofInt (z : ℤ) : RoundedInt := ⟨roundSignificant z, (roundsTo_roundSignificant z).significant⟩

/-- Results are rounded, after a quotient has lost its fraction. What does not fit into 32 bits
becomes the largest number that does. -/
instance : Arithmetic RoundedInt where
  zero := ofInt 0
  one := ofInt 1
  natCast n := ofInt n
  add x y := ofInt (x.val + y.val)
  sub x y := ofInt (x.val - y.val)
  mul x y := ofInt (x.val * y.val)
  div x y := ofInt (x.val / y.val)
  lt x y := x.val < y.val
  le x y := x.val ≤ y.val
  decidableLT x y := inferInstanceAs (Decidable (x.val < y.val))
  decidableLE x y := inferInstanceAs (Decidable (x.val ≤ y.val))
  toNat x := min x.val.toNat (2 ^ 32 - 1)

theorem val_ofInt {z : ℤ} (h : Significant z) : (ofInt z).val = z :=
  roundSignificant_of_significant h

@[simp] theorem val_zero : (0 : RoundedInt).val = 0 :=
  val_ofInt (significant_of_abs_le (by norm_num))

theorem val_natCast {n : ℕ} (h : n ≤ 2 ^ 24) : (n : RoundedInt).val = n :=
  val_ofInt (significant_of_abs_le (by rw [Nat.abs_cast]; exact_mod_cast h))

theorem val_add {x y : RoundedInt} (h : |x.val + y.val| ≤ 2 ^ 24) :
    (x + y).val = x.val + y.val :=
  val_ofInt (significant_of_abs_le h)

theorem val_mul {x y : RoundedInt} (h : |x.val * y.val| ≤ 2 ^ 24) :
    (x * y).val = x.val * y.val :=
  val_ofInt (significant_of_abs_le h)

theorem val_maximum (x bound : RoundedInt) : (maximum x bound).val = max x.val bound.val := by
  unfold maximum
  split
  next h => exact (max_eq_right (le_of_lt h)).symm
  next h => exact (max_eq_left (not_lt.1 h)).symm

theorem val_minimum (x bound : RoundedInt) : (minimum x bound).val = min x.val bound.val := by
  unfold minimum
  split
  next h => exact (min_eq_right (le_of_lt h)).symm
  next h => exact (min_eq_left (not_lt.1 h)).symm

end RoundedInt

namespace Sampling

open RoundedInt

variable {height width : Nat}

theorem nearest_natCast {size i : Nat} (hi : i < size) : nearest size i = i :=
  (nearest_eq_iff (Int.natCast_nonneg i) (by exact_mod_cast hi)).2 rfl

/-- A corner that is rounded stays on its side of an axis of at most `2 ^ 24 + 1` texels. -/
theorem nearest_ofInt {size : Nat} (hsize : size ≤ 2 ^ 24 + 1) (z : ℤ) :
    nearest size (ofInt z).val = nearest size z := by
  have hnearest := (roundsTo_roundSignificant z).nearest
  change nearest size (roundSignificant z) = nearest size z
  rcases le_or_gt |z| (2 ^ 24) with hz | hz
  · rw [roundSignificant_of_significant (significant_of_abs_le hz)]
  · rcases lt_abs.1 hz with hpos | hneg
    · have hlast := (abs_le.1 (hnearest (2 ^ 24) (significant_of_abs_le (by norm_num)))).2
      rw [abs_of_pos (by omega)] at hlast
      rw [nearest, nearest]
      omega
    · have hfirst := (abs_le.1 (hnearest 0 (significant_of_abs_le (by norm_num)))).1
      rw [sub_zero, abs_of_neg (by omega)] at hfirst
      rw [nearest, nearest]
      omega

/-- Axes of at most `2 ^ 24 + 1` texels have exact ends. -/
theorem val_clampAxis {size : Nat} (hsize : size ≤ 2 ^ 24 + 1) (p : RoundedInt) :
    (clampAxis size p).val = nearest size p.val := by
  rw [clampAxis, clamp, val_minimum, val_maximum, val_zero, val_natCast (by omega), nearest]
  omega

/-- A row in front of which there are at most `2 ^ 24` texels starts at an exact number. The
width itself is exact too, unless there is only one row. -/
theorem val_rowStart {c : RoundedInt} {y : Nat} (hc : c.val = y) (h : y * width ≤ 2 ^ 24) :
    (c * (width : RoundedInt)).val = (y * width : ℕ) := by
  rcases y.eq_zero_or_pos with rfl | hy
  · rw [val_mul (by simp [hc]), hc]
    simp
  · have hwidth := val_natCast ((Nat.le_mul_of_pos_left width hy).trans h)
    have hproduct : c.val * (width : RoundedInt).val = (y * width : ℕ) := by
      rw [hc, hwidth, Nat.cast_mul]
    rw [val_mul (by rw [hproduct, Nat.abs_cast]; exact_mod_cast h), hproduct]

theorem texel_of_area_le (hheight : 0 < height) (hwidth : 0 < width)
    (harea : height * width ≤ 2 ^ 24 + 1) (cy cx : RoundedInt) :
    texel height width cy cx = nearest height cy.val * width + nearest width cx.val := by
  have hcolumn := nearest_lt hwidth cx.val
  have hy := val_clampAxis ((Nat.le_mul_of_pos_right height hwidth).trans harea) cy
  have hx := val_clampAxis ((Nat.le_mul_of_pos_left width hheight).trans harea) cx
  have hlast : nearest height cy.val * width + nearest width cx.val < height * width :=
    stacked_row_lt (nearest_lt hheight cy.val) hcolumn
  have hstart : (clampAxis height cy * (width : RoundedInt)).val =
      (nearest height cy.val * width : ℕ) := val_rowStart hy (by omega)
  have hsum : (clampAxis height cy * (width : RoundedInt)).val + (clampAxis width cx).val =
      (nearest height cy.val * width + nearest width cx.val : ℕ) := by
    rw [hstart, hx, Nat.cast_add]
  have hval := val_add (by rw [hsum, Nat.abs_cast]; exact_mod_cast (by omega))
  rw [hsum] at hval
  change min (clampAxis height cy * (width : RoundedInt) + clampAxis width cx).val.toNat _ = _
  rw [hval, Int.toNat_natCast]
  omega

/-- The number `2 ^ 24 + 1` is not among those of 24 significant bits. -/
theorem not_significant_of_odd {z : ℤ} (hodd : ¬ 2 ∣ z) (h : 2 ^ 24 < |z|) : ¬ Significant z := by
  rintro ⟨m, e, hm, rfl⟩
  cases e with
  | zero => simp at h; omega
  | succ e => exact hodd ((dvd_pow_self 2 e.succ_ne_zero).mul_left m)

/-- Texel `2 ^ 24 + 1` is never looked up. -/
theorem texel_ne (cy cx : RoundedInt) : texel height width cy cx ≠ 2 ^ 24 + 1 := by
  intro htexel
  set sum := clampAxis height cy * (width : RoundedInt) + clampAxis width cx
  have hsum : sum.val = 2 ^ 24 + 1 := by
    change min sum.val.toNat (2 ^ 32 - 1) = 2 ^ 24 + 1 at htexel
    omega
  exact not_significant_of_odd (by rw [hsum]; decide) (by rw [hsum]; decide) sum.significant

/-- Every corner finds the texel that is nearest to it just if there are at most `2 ^ 24 + 1`
texels. -/
theorem texel_exact_iff (hheight : 0 < height) (hwidth : 0 < width) :
    (∀ cy cx : ℤ,
      texel height width (ofInt cy) (ofInt cx) = nearest height cy * width + nearest width cx ∧
        texel height width (ofInt cy) (ofInt cx) < height * width) ↔
      height * width ≤ 2 ^ 24 + 1 := by
  constructor
  · intro hexact
    by_contra harea
    have hrow : (2 ^ 24 + 1) / width < height := Nat.div_lt_of_lt_mul (by rw [mul_comm]; omega)
    have hcolumn : (2 ^ 24 + 1) % width < width := Nat.mod_lt _ hwidth
    have htexel := (hexact ((2 ^ 24 + 1) / width : ℕ) ((2 ^ 24 + 1) % width : ℕ)).1
    rw [nearest_natCast hrow, nearest_natCast hcolumn, Nat.div_add_mod'] at htexel
    exact texel_ne _ _ htexel
  · intro harea cy cx
    rw [texel_of_area_le hheight hwidth harea,
      nearest_ofInt ((Nat.le_mul_of_pos_right height hwidth).trans harea),
      nearest_ofInt ((Nat.le_mul_of_pos_left width hheight).trans harea)]
    exact ⟨rfl, stacked_row_lt (nearest_lt hheight cy) (nearest_lt hwidth cx)⟩

theorem texel_exact_iff_square : 0 < 4096 ∧
    ((∀ cy cx : ℤ,
      texel 4096 4096 (ofInt cy) (ofInt cx) = nearest 4096 cy * 4096 + nearest 4096 cx ∧
        texel 4096 4096 (ofInt cy) (ofInt cx) < 4096 * 4096) ↔ 4096 * 4096 ≤ 2 ^ 24 + 1) :=
  ⟨by decide, texel_exact_iff (by decide) (by decide)⟩

/-- Of 4098 rows of 4097 texels the last texel is taken for the one before it, and of 4098 rows of
4098 texels for one that lies behind the map. -/
theorem texel_inexact :
    texel 4098 4097 (ofInt 4097) (ofInt 4096) = 4097 * 4097 + 4095 ∧
    texel 4098 4098 (ofInt 4097) (ofInt 4097) = 4098 * 4098 ∧
    ¬ ∀ height width : Nat, 0 < height → 0 < width → height * width < 2 ^ 32 → ∀ cy cx : ℤ,
      texel height width (ofInt cy) (ofInt cx) = nearest height cy * width + nearest width cx ∧
        texel height width (ofInt cy) (ofInt cx) < height * width := by
  have hbehind : texel 4098 4098 (ofInt 4097) (ofInt 4097) = 4098 * 4098 := by decide +kernel
  refine ⟨by decide +kernel, hbehind, fun hexact => ?_⟩
  have hlt := (hexact 4098 4098 (by decide) (by decide) (by decide) 4097 4097).2
  omega

end Sampling

end MultiViewDepth
