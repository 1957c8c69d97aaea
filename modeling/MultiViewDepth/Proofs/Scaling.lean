import MultiViewDepth.Proofs.Outcome
import MultiViewDepth.Proofs.TexelAddresses
import MultiViewDepth.Sampling.Doubling
import MultiViewDepth.Tensor.Arithmetic
import MultiViewDepth.Tensor.Layout

/-!
Arrays of lengths in another unit.

Operations that move entries or add them give scaled results for scaled arrays, and fail alike.
Numbers that are not in single precision are left as they are, by scaling and by all operations, so
nothing is asked of the kind of an array.
-/
namespace MultiViewDepth

open Tensor Arithmetic Scalar

section Steps

variable {ε β β' γ γ' : Type}

@[simp] theorem map_ok (f : β → γ) (a : β) : f <$> (Except.ok a : Except ε β) = .ok (f a) := rfl

/-- A step whose outcome is carried over by `f` is followed by steps carried over by `k`. -/
theorem bind_map_congr {x : Except ε β} {x' : Except ε β'} {f : β → β'} {g : β → Except ε γ}
    {g' : β' → Except ε γ'} {k : γ → γ'} (h : x' = f <$> x) (hg : ∀ a, g' (f a) = k <$> g a) :
    (x' >>= g') = k <$> (x >>= g) := by
  subst h
  cases x with
  | error e => rfl
  | ok a => exact hg a

/-- A step that is the same is followed by steps carried over by `k`. -/
theorem bind_congr_map {x : Except ε β} {g : β → Except ε γ} {g' : β → Except ε γ'} {k : γ → γ'}
    (hg : ∀ a, g' a = k <$> g a) : (x >>= g') = k <$> (x >>= g) := by
  cases x with
  | error e => rfl
  | ok a => exact hg a

/-- The same, where only what comes of the first step is carried over. -/
theorem bind_map_of_ok {x : Except ε β} {x' : Except ε β'} {f : β → β'} {g : β → Except ε γ}
    {g' : β' → Except ε γ'} {k : γ → γ'} (h : x' = f <$> x)
    (hg : ∀ a, x = .ok a → g' (f a) = k <$> g a) : (x' >>= g') = k <$> (x >>= g) := by
  subst h
  cases x with
  | error e => rfl
  | ok a => exact hg a rfl

theorem bind_congr_of_ok {x : Except ε β} {g : β → Except ε γ} {g' : β → Except ε γ'} {k : γ → γ'}
    (hg : ∀ a, x = .ok a → g' a = k <$> g a) : (x >>= g') = k <$> (x >>= g) := by
  cases x with
  | error e => rfl
  | ok a => exact hg a rfl

/-- Steps that agree on what they are given. -/
theorem bind_congr_ok {x : Except ε β} {g g' : β → Except ε γ}
    (hg : ∀ a, x = .ok a → g' a = g a) : (x >>= g') = (x >>= g) := by
  cases x with
  | error e => rfl
  | ok a => exact hg a rfl

/-- Steps that make up for how `f` carries over what they are given. -/
theorem bind_map_congr_ok {x : Except ε β} {x' : Except ε β'} {f : β → β'} {g : β → Except ε γ}
    {g' : β' → Except ε γ} (h : x' = f <$> x) (hg : ∀ a, x = .ok a → g' (f a) = g a) :
    (x' >>= g') = (x >>= g) := by
  subst h
  cases x with
  | error e => rfl
  | ok a => exact hg a rfl

end Steps

section Numbers

variable {c : ℝ}

theorem recip_mul (c x : ℝ) : recip (c * x) = c⁻¹ * recip x := by
  simp only [recip, one_div, mul_inv]

theorem sumTo_mul (c : ℝ) (n : Nat) (f : Nat → ℝ) :
    sumTo n (fun i => c * f i) = c * sumTo n f := by
  rw [sumTo_real, sumTo_real, Finset.mul_sum]

theorem clamp_mul (hc : 0 ≤ c) (lo hi x : ℝ) :
    clamp (c * lo) (c * hi) (c * x) = c * clamp lo hi x := by
  rw [clamp_real, clamp_real, mul_min_of_nonneg _ _ hc, mul_max_of_nonneg _ _ hc]

end Numbers

namespace Tensor

variable {c d e : ℝ} {s t : Tensor ℝ} {shape : List Nat}

noncomputable def scaled (c : ℝ) (t : Tensor ℝ) : Tensor ℝ := t.map (c * ·)

@[simp] theorem shape_scaled (c : ℝ) (t : Tensor ℝ) : (t.scaled c).shape = t.shape := rfl
@[simp] theorem kind_scaled (c : ℝ) (t : Tensor ℝ) : (t.scaled c).kind = t.kind := kind_map _ t
@[simp] theorem sizes4_scaled (c : ℝ) (t : Tensor ℝ) : (t.scaled c).sizes4 = t.sizes4 := rfl

@[simp] theorem requireSingleEntries_scaled (c : ℝ) (t : Tensor ℝ) :
    (t.scaled c).requireSingleEntries = t.requireSingleEntries := by
  simp [requireSingleEntries]

/-- A number with position is scaled, and zero where there is none. -/
theorem entry_scaled (c : ℝ) (t : Tensor ℝ) (k : Nat) :
    Elements.entry (t.scaled c).elements.singles k = c * Elements.entry t.elements.singles k := by
  obtain ⟨shape, elements, size⟩ := t
  cases elements with
  | single entries =>
    by_cases hk : k < entries.size
    · simp [scaled, map, Elements.map, Elements.singles, Elements.entry,
        Array.getD_eq_getD_getElem?, hk]
    · simp [scaled, map, Elements.map, Elements.singles, Elements.entry,
        Array.getD_eq_getD_getElem?, hk]
  | double _ => exact (mul_zero c).symm
  | word _ => exact (mul_zero c).symm
  | long _ => exact (mul_zero c).symm

@[simp] theorem get_scaled (c : ℝ) (t : Tensor ℝ) (index : List Nat) :
    (t.scaled c).get index = c * t.get index :=
  entry_scaled c t _

@[simp] theorem get4_scaled (c : ℝ) (t : Tensor ℝ) (b k y x : Nat) :
    (t.scaled c).get4 b k y x = c * t.get4 b k y x := by
  simp only [get4, shape_scaled]
  split
  · exact entry_scaled c t _
  · exact (mul_zero c).symm

theorem map_map (f g : ℝ → ℝ) (t : Tensor ℝ) : (t.map f).map g = t.map fun x => g (f x) := by
  obtain ⟨shape, elements, size⟩ := t
  cases elements <;> simp [map, Elements.map, Function.comp_def]

theorem map_id (t : Tensor ℝ) : t.map (fun x => x) = t := by
  obtain ⟨shape, elements, size⟩ := t
  cases elements <;> simp [map, Elements.map]

@[simp] theorem scaled_one (t : Tensor ℝ) : t.scaled 1 = t := by
  simp only [scaled, one_mul, map_id]

/-- A function of the entries that does not see the unit. -/
theorem map_scaled {f f' : ℝ → ℝ} (h : ∀ x, f' (c * x) = f x) (t : Tensor ℝ) :
    (t.scaled c).map f' = t.map f := by
  rw [scaled, map_map]
  exact congrArg t.map (funext h)

/-- A function of the entries that gives its results in another unit. -/
theorem map_eq_scaled {f f' : ℝ → ℝ} (h : ∀ x, f' x = d * f x) (t : Tensor ℝ) :
    t.map f' = (t.map f).scaled d := by
  rw [scaled, map_map]
  exact congrArg t.map (funext h)

/-- A function of the entries that takes one unit to another. -/
theorem map_scaled_eq {f f' : ℝ → ℝ} (h : ∀ x, f' (c * x) = d * f x) (t : Tensor ℝ) :
    (t.scaled c).map f' = (t.map f).scaled d := by
  rw [scaled, map_map]
  exact map_eq_scaled h t

theorem ofFn_congr {f f' : List Nat → ℝ} (h : ∀ index, Within index shape → f' index = f index) :
    ofFn shape f' = ofFn shape f :=
  ext_get rfl rfl rfl fun index hw => by
    rw [shape_ofFn] at hw
    rw [get_ofFn hw, get_ofFn hw, h index hw]

theorem ofFn_scaled {f f' : List Nat → ℝ}
    (h : ∀ index, Within index shape → f' index = c * f index) :
    ofFn shape f' = (ofFn shape f).scaled c :=
  ext_get rfl rfl rfl fun index hw => by
    rw [shape_ofFn] at hw
    rw [get_scaled, get_ofFn hw, get_ofFn hw, h index hw]

/-- What is computed from scaled entries. -/
theorem compute_scaled {f f' : List Nat → ℝ}
    (h : ∀ index, Within index shape → f' index = d * f index) :
    (t.scaled c).compute shape f' = scaled d <$> t.compute shape f := by
  by_cases hkind : t.kind = .single
  · rw [compute_of_single hkind, compute_of_single ((kind_scaled c t).trans hkind), ofFn_scaled h]
    rfl
  · rw [compute, compute, kind_scaled, if_neg hkind, if_neg hkind]
    split
    next hempty =>
      refine congrArg Except.ok ?_
      cases t.kind <;> simp [empty, scaled, map, Elements.none, Elements.map]
    next => rfl

/-- What is computed of scaled arrays entry by entry. -/
theorem derive₂_scaled
    (f : ∀ {β : Type} [Arithmetic β], (List Nat → β) → (List Nat → β) → List Nat → β)
    (h : ∀ (x y : List Nat → ℝ) index,
      f (fun i => c * x i) (fun i => d * y i) index = e * f x y index) :
    (s.scaled c).derive₂ (t.scaled d) shape f = (s.derive₂ t shape f).scaled e := by
  by_cases hkind : s.kind = .single
  · rw [derive₂_of_single ((kind_scaled c s).trans hkind), derive₂_of_single hkind]
    refine ofFn_scaled fun index _ => ?_
    rw [← h, funext (get_scaled c s), funext (get_scaled d t)]
  · obtain ⟨shape, elements, size⟩ := s
    obtain ⟨shape', elements', size'⟩ := t
    cases elements with
    | single _ => exact absurd rfl hkind
    | double _ => cases elements' <;> rfl
    | word _ => cases elements' <;> rfl
    | long _ => cases elements' <;> rfl

theorem derive_scaled (f : ∀ {β : Type} [Arithmetic β], (List Nat → β) → List Nat → β)
    (h : ∀ (x : List Nat → ℝ) index, f (fun i => c * x i) index = d * f x index) :
    (t.scaled c).derive shape f = (t.derive shape f).scaled d :=
  derive₂_scaled (fun entry _ => f entry) fun x _ index => h x index

section Layout

theorem narrow_scaled (c : ℝ) (t : Tensor ℝ) (axis start count : Nat) :
    (t.scaled c).narrow axis start count = scaled c <$> t.narrow axis start count := by
  simp only [Tensor.narrow, shape_scaled]
  split
  · rfl
  · split
    · exact congrArg Except.ok (derive_scaled _ fun _ _ => rfl)
    · rfl

theorem reshape_map (f : ℝ → ℝ) (t : Tensor ℝ) (shape : List Nat) :
    (t.map f).reshape shape = map f <$> t.reshape shape := by
  by_cases h : volume t.shape = volume shape
  · have h' : volume (t.map f).shape = volume shape := h
    rw [Tensor.reshape, Tensor.reshape, dif_pos h, dif_pos h']
    rfl
  · have h' : ¬ volume (t.map f).shape = volume shape := h
    rw [Tensor.reshape, Tensor.reshape, dif_neg h, dif_neg h']
    rfl

theorem squeeze_map (f : ℝ → ℝ) (t : Tensor ℝ) (axis : Nat) :
    (t.map f).squeeze axis = map f <$> t.squeeze axis := by
  simp only [Tensor.squeeze, shape_map]
  split
  · rfl
  · exact reshape_map f t _
  · rfl

theorem reshape_scaled (c : ℝ) (t : Tensor ℝ) (shape : List Nat) :
    (t.scaled c).reshape shape = scaled c <$> t.reshape shape :=
  reshape_map (c * ·) t shape

theorem squeeze_scaled (c : ℝ) (t : Tensor ℝ) (axis : Nat) :
    (t.scaled c).squeeze axis = scaled c <$> t.squeeze axis :=
  squeeze_map (c * ·) t axis

theorem append_scaled (c : ℝ) (axis : Nat) (s t : Tensor ℝ) :
    append axis (s.scaled c) (t.scaled c) = scaled c <$> append axis s t := by
  have hiff : (axis < (s.scaled c).rank ∧
      (s.scaled c).shape.set axis 0 = (t.scaled c).shape.set axis 0 ∧
      (s.scaled c).kind = (t.scaled c).kind) ↔
      (axis < s.rank ∧ s.shape.set axis 0 = t.shape.set axis 0 ∧ s.kind = t.kind) := by
    simp [rank]
  by_cases h : axis < s.rank ∧ s.shape.set axis 0 = t.shape.set axis 0 ∧ s.kind = t.kind
  · rw [append, append, if_pos h, if_pos (hiff.2 h)]
    refine congrArg Except.ok (derive₂_scaled _ fun x y index => ?_)
    by_cases hi : index.getD axis 0 < s.size axis
    · have hi' : index.getD axis 0 < (s.scaled c).size axis := hi
      simp only [if_pos hi']
    · have hi' : ¬ index.getD axis 0 < (s.scaled c).size axis := hi
      simp only [if_neg hi']
  · rw [append, append, if_neg h, if_neg (mt hiff.1 h)]
    rfl

end Layout

section Sums

theorem zipSame_scaled (f : ∀ {β : Type} [Arithmetic β], β → β → β)
    (h : ∀ x y : ℝ, f (c * x) (d * y) = e * f x y) :
    zipSame f (s.scaled c) (t.scaled d) = scaled e <$> zipSame f s t := by
  simp only [zipSame, shape_scaled, kind_scaled]
  split
  · exact congrArg Except.ok (derive₂_scaled _ fun x y index => h _ _)
  · rfl

theorem sum_scaled (c : ℝ) (t : Tensor ℝ) (axis : Nat) :
    (t.scaled c).sum axis = scaled c <$> t.sum axis := by
  simp only [Tensor.sum, reduce, shape_scaled]
  split
  · rfl
  · exact congrArg Except.ok (derive_scaled _ fun x index => sumTo_mul c _ _)

end Sums

end Tensor

namespace Sampling

theorem plane_scaled (c : ℝ) (t : Tensor ℝ) (channels height width b k : Nat) :
    plane (t.scaled c) channels height width b k = fun i =>
      c * plane t channels height width b k i :=
  funext fun _ => entry_scaled c t _

theorem blend_mul (c : ℝ) (f : Nat → ℝ) (height width : Nat) (py px : ℝ) :
    blend (fun i => c * f i) height width py px = c * blend f height width py px := by
  simp only [blend, corner]
  ring

theorem read_mul (c : ℝ) (f : Nat → ℝ) (height width : Nat) (padding : Border) (gy gx : ℝ) :
    read (fun i => c * f i) height width padding gy gx = c * read f height width padding gy gx := by
  cases padding with
  | zeros => exact blend_mul c f height width _ _
  | border => exact blend_mul c f height width _ _

theorem sample_scaled (c : ℝ) (t points : Tensor ℝ) (padding : Border) :
    sample (t.scaled c) points padding = scaled c <$> sample t points padding := by
  simp only [sample, sizes4_scaled]
  refine bind_congr_map ?_
  rintro ⟨batch, channels, height, width⟩
  refine bind_congr_map ?_
  rintro ⟨pointBatch, rows, columns, coordinates⟩
  by_cases hsizes : pointBatch = batch ∧ coordinates = 2
  · simp only [if_pos hsizes]
    refine bind_congr_map fun _ => ?_
    simp only [found_iff, ite_not]
    by_cases hempty : height * width = 0 ∧ volume [batch, channels, rows, columns] ≠ 0
    · rw [if_pos hempty, if_pos hempty]
      rfl
    · rw [if_neg hempty, if_neg hempty]
      refine compute_scaled fun index hw => ?_
      obtain ⟨b, k, p, q, rfl, -⟩ := hw.exists_four
      dsimp only
      rw [plane_scaled, read_mul]
  · simp only [if_neg hsizes, throw_eq_error, error_bind]
    rfl

theorem double_scaled (c : ℝ) (t : Tensor ℝ) : double (t.scaled c) = scaled c <$> double t := by
  simp only [double, sizes4_scaled]
  refine bind_congr_map fun (batch, channels, height, width) => compute_scaled fun index hw => ?_
  obtain ⟨b, k, p, q, rfl, -⟩ := hw.exists_four
  dsimp only
  rw [← sumTo_mul]
  refine sumTo_congr fun y _ => ?_
  rw [← mul_assoc, ← get4_scaled]
  refine congrArg (fun wide : Tensor ℝ => wide.get4 b k y q * _) (ofFn_scaled fun index hw => ?_)
  obtain ⟨b, k, y, q, rfl, -⟩ := hw.exists_four
  simp only [get4_scaled, mul_assoc, sumTo_mul]

end Sampling

end MultiViewDepth
