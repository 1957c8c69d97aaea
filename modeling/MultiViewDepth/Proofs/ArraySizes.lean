import MultiViewDepth.Proofs.SingleArrays
import MultiViewDepth.Sampling.Bilinear
import MultiViewDepth.Sampling.Doubling

/-!
Sizes and kinds of arrays that could be computed.

An operation that succeeds says much of what it was applied to. All of this holds in any arithmetic,
also in one that rounds or overflows.
-/
namespace MultiViewDepth

open Tensor Arithmetic

variable {α : Type} [Scalar α] {t u v : Tensor α} {shape index : List Nat} {axis : Nat}

theorem volume_ne_zero (h : Within index shape) : volume shape ≠ 0 :=
  (Nat.zero_lt_of_lt (place_lt h)).ne'

section Layout

omit [Scalar α] in
theorem kind_of_reshape (h : t.reshape shape = .ok u) : u.kind = t.kind :=
  congrArg Elements.kind (reshape_eq_ok h).2

omit [Scalar α] in
theorem kind_of_squeeze (h : t.squeeze axis = .ok u) : u.kind = t.kind := by
  unfold squeeze at h
  split at h
  · cases h
  · exact kind_of_reshape h
  · cases h
    rfl

omit [Scalar α] in
theorem shape_of_squeeze (haxis : t.shape[axis]? = some 1) (h : t.squeeze axis = .ok u) :
    u.shape = t.shape.eraseIdx axis := by
  unfold squeeze at h
  rw [haxis] at h
  exact (reshape_eq_ok h).1

omit [Scalar α] in
theorem shape_of_unsqueeze (h : t.unsqueeze axis = .ok u) : u.shape = t.shape.insertIdx axis 1 := by
  unfold unsqueeze at h
  split at h
  · exact (reshape_eq_ok h).1
  · cases h

/-- A slice has the length that was asked for. -/
theorem narrow_eq_ok {start count : Nat} (h : t.narrow axis start count = .ok u) :
    u.shape = t.shape.set axis count ∧ u.kind = t.kind := by
  unfold Tensor.narrow at h
  split at h
  · cases h
  · rw [ite_error_eq_ok] at h
    obtain ⟨-, h⟩ := h
    cases h
    exact ⟨rfl, kind_derive₂ _⟩

end Layout

section Computing

/-- Entries are only computed from single-precision ones. -/
theorem Tensor.compute_eq_ok {f : List Nat → α} (hu : t.compute shape f = .ok u) :
    u.shape = shape ∧ ∀ index, Within index shape → u.get index = f index := by
  by_cases hkind : t.kind = .single
  · rw [compute_of_single hkind] at hu
    cases hu
    exact ⟨rfl, fun index hw => get_ofFn hw f⟩
  · rw [compute, if_neg hkind] at hu
    split at hu
    next hempty =>
      cases hu
      exact ⟨rfl, fun index hw => absurd hempty (volume_ne_zero hw)⟩
    next => cases hu

omit [Scalar α] in
theorem kind_of_compute {f : List Nat → α} (h : t.compute shape f = .ok u) : u.kind = t.kind := by
  unfold compute at h
  split at h
  next hkind => cases h; exact hkind.symm
  next =>
    split at h
    · cases h
      exact Elements.kind_none _
    · cases h

theorem kind_of_sample {points : Tensor α} {padding : Border}
    (h : Sampling.sample t points padding = .ok u) : u.kind = t.kind := by
  simp only [Sampling.sample, bind_eq_ok, throw_eq_error, error_bind, ite_error_eq_ok] at h
  obtain ⟨_, -, _, -, -, _, -, -, h⟩ := h
  exact kind_of_compute h

theorem shape_of_double {batch channels height width : Nat}
    (hshape : t.shape = [batch, channels, height, width]) (h : Sampling.double t = .ok u) :
    u.shape = [batch, channels, 2 * height, 2 * width] := by
  simp only [Sampling.double, sizes4_eq_ok.2 hshape, ok_bind] at h
  exact (compute_eq_ok h).1

end Computing

section Combining

/-- Where there are entries, arrays that could be combined have one kind. -/
theorem zipSame_eq_ok {f : ∀ {β : Type} [Arithmetic β], β → β → β} (ht : t.kind = .single)
    (hv : zipSame f t u = .ok v) :
    v.shape = t.shape ∧ u.shape = t.shape ∧ v.kind = .single ∧
      ∀ index, Within index t.shape →
        u.kind = .single ∧ v.get index = f (t.get index) (u.get index) := by
  rw [zipSame, ite_error_eq_ok] at hv
  obtain ⟨⟨hshape, hkind⟩, hv⟩ := hv
  cases hv
  refine ⟨rfl, hshape.symm, (kind_derive₂ _).trans ht, fun index hw => ⟨?_, ?_⟩⟩
  · exact ((hkind.resolve_right (volume_ne_zero hw)).symm.trans ht)
  · exact get_derive₂ ht hw _

theorem shape_of_zipSame {f : ∀ {β : Type} [Arithmetic β], β → β → β}
    (hv : zipSame f t u = .ok v) : v.shape = t.shape := by
  rw [zipSame, ite_error_eq_ok] at hv
  cases hv.2
  rfl

theorem zip_eq_ok {f : ∀ {β : Type} [Arithmetic β], β → β → β} (hv : Tensor.zip f t u = .ok v) :
    v.kind = t.kind ∧
      commonShape (padShape (max t.rank u.rank) t.shape) (padShape (max t.rank u.rank) u.shape) =
        some v.shape := by
  simp only [Tensor.zip] at hv
  split at hv
  · cases hv
  next shape hshape =>
    rw [ite_error_eq_ok] at hv
    obtain ⟨-, hv⟩ := hv
    cases hv
    exact ⟨kind_derive₂ _, hshape⟩

theorem zip_shape_of_repeats {f : ∀ {β : Type} [Arithmetic β], β → β → β}
    (h : Repeats t.shape u.shape) (hv : Tensor.zip f t u = .ok v) : v.shape = t.shape := by
  have hrank : t.rank = u.rank := h.length_eq
  have hcommon := (zip_eq_ok hv).2
  rw [hrank, max_self, ← hrank, rank, padShape_length, h.length_eq, padShape_length,
    commonShape_of_repeats h] at hcommon
  exact (Option.some.inj hcommon).symm

theorem repeats_of_commonShape {s r c : List Nat} (h : commonShape s r = some c) : Repeats c s := by
  induction s generalizing r c with
  | nil =>
    cases r with
    | nil => cases h; exact .nil
    | cons n r => cases h
  | cons m s ih =>
    cases r with
    | nil => cases h
    | cons n r =>
      rw [commonShape] at h
      split_ifs at h with hkeep hone
      · obtain ⟨rest, hrest, rfl⟩ := Option.map_eq_some_iff.1 h
        exact .cons (.inl rfl) (ih hrest)
      · obtain ⟨rest, hrest, rfl⟩ := Option.map_eq_some_iff.1 h
        exact .cons (.inr hone) (ih hrest)

/-- An array is repeated to the shape of what it is combined to. -/
theorem repeats_of_zip {f : ∀ {β : Type} [Arithmetic β], β → β → β}
    (hv : Tensor.zip f t u = .ok v) : Repeats v.shape (padShape v.rank t.shape) := by
  have h := repeats_of_commonShape (zip_eq_ok hv).2
  have hrank : v.rank = max t.rank u.rank := by
    have hlength := h.length_eq
    simp only [padShape, List.length_append, List.length_replicate] at hlength
    simp only [rank] at hlength ⊢
    omega
  rwa [hrank]

end Combining

section Reducing

/-- A reduction leaves an axis of length one. -/
theorem reduce_eq_ok {f : ∀ {β : Type} [Arithmetic β], Nat → (Nat → β) → β}
    (hv : t.reduce f axis = .ok v) :
    ∃ n, t.shape[axis]? = some n ∧ v.shape = t.shape.set axis 1 ∧ v.kind = t.kind := by
  unfold reduce at hv
  split at hv
  · cases hv
  next n hn =>
    cases hv
    exact ⟨n, hn, rfl, kind_derive₂ _⟩

theorem softmax_eq_ok (hu : t.softmax axis = .ok u) :
    u.shape = t.shape ∧ u.kind = t.kind ∧ t.size axis ≠ 0 := by
  simp only [Tensor.softmax, Tensor.maximum, bind_eq_ok, error_ite_eq_ok, pure_eq_ok] at hu
  obtain ⟨m, ⟨hne, hm⟩, shifted, hshifted, total, htotal, r, hr, hu⟩ := hu
  cases hu
  obtain ⟨n, -, hm, -⟩ := reduce_eq_ok hm
  obtain ⟨k, -, htotal, -⟩ := reduce_eq_ok htotal
  have hs := zip_shape_of_repeats (by rw [hm]; exact Twins.repeats_set t.shape axis) hshifted
  rw [shape_map] at htotal
  have hr' := zip_shape_of_repeats
    (by rw [shape_map, htotal]; exact Twins.repeats_set shifted.shape axis) hr
  exact ⟨hr'.trans hs, (kind_map _ _).trans ((zip_eq_ok hr).1.trans (zip_eq_ok hshifted).1), hne⟩

end Reducing

end MultiViewDepth
