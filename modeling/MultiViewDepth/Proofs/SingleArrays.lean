import MultiViewDepth.Proofs.TwinArithmetic

/-!
Single-precision arrays of known shapes.

An operation on such arrays succeeds, its result has a known shape, and each entry of the result is
said by entries of what the operation is applied to.
-/
namespace MultiViewDepth.Tensor

open Arithmetic

/-- An array in single precision with a known shape. -/
structure IsSingle {α : Type} (t : Tensor α) (shape : List Nat) : Prop where
  shape_eq : t.shape = shape
  kind_eq : t.kind = .single

variable {α : Type} {t u : Tensor α} {shape small : List Nat} {axis n : Nat}

section Kinds

theorem eq_none_of_size {elements : Elements α} (h : elements.size = 0) :
    elements = Elements.none elements.kind := by
  cases elements <;> simp_all [Elements.size, Elements.kind, Elements.none]

/-- Entries that are not in single precision are not looked at, so that there must be none of them
where arrays are the same if their entries are. -/
theorem ext_entries [Zero α] (hshape : t.shape = u.shape) (hkind : t.kind = u.kind)
    (hsingle : t.kind = .single ∨ volume t.shape = 0)
    (hget : t.kind = .single → ∀ index, Within index t.shape → t.get index = u.get index) :
    t = u := by
  by_cases ht : t.kind = .single
  · exact ext_get ht (hkind ▸ ht) hshape (hget ht)
  · have hempty := hsingle.resolve_left ht
    have hleft := eq_none_of_size (t.size_elements.trans hempty)
    have hright := eq_none_of_size (u.size_elements.trans (hshape ▸ hempty))
    obtain ⟨shape, elements, size⟩ := t
    obtain ⟨shape', elements', size'⟩ := u
    obtain rfl : shape = shape' := hshape
    obtain rfl : elements = elements' :=
      hleft.trans ((congrArg Elements.none hkind).trans hright.symm)
    rfl

theorem map_of_kind_ne (h : t.kind ≠ .single) (f : α → α) : t.map f = t := by
  obtain ⟨shape, elements, size⟩ := t
  cases elements with
  | single entries => exact absurd rfl h
  | double _ => rfl
  | word _ => rfl
  | long _ => rfl

end Kinds

theorem isSingle_ofFn (shape : List Nat) (f : List Nat → α) : (ofFn shape f).IsSingle shape :=
  ⟨rfl, rfl⟩

namespace IsSingle

theorem map (h : t.IsSingle shape) (f : α → α) : (t.map f).IsSingle shape :=
  ⟨(shape_map f t).trans h.shape_eq, (kind_map f t).trans h.kind_eq⟩

theorem requireSingle (h : t.IsSingle shape) : t.requireSingle = .ok () :=
  requireSingle_eq_ok.2 h.kind_eq

section Layout

variable [Zero α]

/-- An array beside itself. -/
theorem alike {batch b : Nat} (hb : b < batch) (h : t.IsSingle (batch :: shape)) :
    (Twins.self hb).Alike shape t t :=
  ⟨h.shape_eq, h.shape_eq, h.kind_eq, h.kind_eq, fun _ _ => rfl⟩

theorem reshape (h : t.IsSingle shape) (target : List Nat)
    (hvolume : volume shape = volume target) :
    ∃ u, t.reshape target = .ok u ∧ u.IsSingle target ∧
      ∀ index index', place 0 target index = place 0 shape index' → u.get index = t.get index' := by
  have heq : volume t.shape = volume target := by rw [h.shape_eq, hvolume]
  have hu : t.reshape target = .ok ⟨_, t.elements, t.size_elements.trans heq⟩ := dif_pos heq
  refine ⟨_, hu, ⟨rfl, h.kind_eq⟩, fun index index' hplace => get_reshape hu ?_⟩
  rw [hplace, h.shape_eq]

theorem volume_insertIdx_one (shape : List Nat) (axis : Nat) :
    volume (shape.insertIdx axis 1) = volume shape := by
  induction shape generalizing axis with
  | nil => cases axis <;> simp
  | cons n shape ih => cases axis <;> simp [ih]

/-- An axis of size 1 does not move any entry. -/
theorem place_insertIdx {index : List Nat} (acc : Nat) (hshape : axis ≤ shape.length)
    (hindex : axis ≤ index.length) :
    place acc (shape.insertIdx axis 1) (index.insertIdx axis 0) = place acc shape index := by
  induction axis generalizing shape index acc with
  | zero => simp
  | succ axis ih =>
    obtain ⟨n, shape, rfl⟩ := List.exists_cons_of_length_pos (Nat.zero_lt_of_lt hshape)
    obtain ⟨i, index, rfl⟩ := List.exists_cons_of_length_pos (Nat.zero_lt_of_lt hindex)
    exact ih _ (Nat.le_of_succ_le_succ hshape) (Nat.le_of_succ_le_succ hindex)

theorem unsqueeze (h : t.IsSingle shape) (haxis : axis ≤ shape.length) :
    ∃ u, t.unsqueeze axis = .ok u ∧ u.IsSingle (shape.insertIdx axis 1) ∧
      ∀ index, axis ≤ index.length → u.get (index.insertIdx axis 0) = t.get index := by
  obtain ⟨u, hu, hsingle, hget⟩ := h.reshape _ (volume_insertIdx_one shape axis).symm
  refine ⟨u, ?_, hsingle, fun index hindex => hget _ _ (place_insertIdx 0 haxis hindex)⟩
  rw [Tensor.unsqueeze, rank, h.shape_eq, if_pos haxis, hu]

theorem squeeze (h : t.IsSingle (shape.insertIdx axis 1)) (haxis : axis ≤ shape.length) :
    ∃ u, t.squeeze axis = .ok u ∧ u.IsSingle shape ∧
      ∀ index, axis ≤ index.length → u.get index = t.get (index.insertIdx axis 0) := by
  obtain ⟨u, hu, hsingle, hget⟩ := h.reshape _ (volume_insertIdx_one shape axis)
  refine ⟨u, ?_, hsingle, fun index hindex => hget _ _ (place_insertIdx 0 haxis hindex).symm⟩
  have hone : t.shape[axis]? = some 1 := by
    rw [h.shape_eq, List.getElem?_insertIdx_self, if_pos haxis]
  have herase : t.shape.eraseIdx axis = shape := by
    rw [h.shape_eq, List.eraseIdx_insertIdx_self]
  simp only [Tensor.squeeze, hone, herase, hu]

/-- An array without its axis of size 1 behind the batch. -/
theorem squeeze_second {batch : Nat} (h : t.IsSingle (batch :: 1 :: shape)) :
    ∃ u, t.squeeze 1 = .ok u ∧ u.IsSingle (batch :: shape) ∧
      ∀ b index, u.get (b :: index) = t.get (b :: 0 :: index) := by
  have hinserted : t.IsSingle ((batch :: shape).insertIdx 1 1) := h
  obtain ⟨u, hu, hsingle, hget⟩ := hinserted.squeeze (by simp)
  exact ⟨u, hu, hsingle, fun b index => hget (b :: index) (by simp)⟩

end Layout

section Entries

variable [Scalar α]

theorem reduce (h : t.IsSingle shape) (haxis : shape[axis]? = some n)
    (f : ∀ {β : Type} [Arithmetic β], Nat → (Nat → β) → β) :
    ∃ u, t.reduce f axis = .ok u ∧ u.IsSingle (shape.set axis 1) ∧
      ∀ index, Within index (shape.set axis 1) →
        u.get index = f n fun i => t.get (index.set axis i) := by
  rw [reduce_of_single h.kind_eq (h.shape_eq ▸ haxis), h.shape_eq]
  exact ⟨_, rfl, isSingle_ofFn _ _, fun index hindex => get_ofFn hindex _⟩

/-- An array combined with one whose axes of size 1 are repeated. -/
theorem zip (h : t.IsSingle shape) (hu : u.IsSingle small) (hrepeats : Repeats shape small)
    (f : ∀ {β : Type} [Arithmetic β], β → β → β) :
    ∃ v, Tensor.zip f t u = .ok v ∧ v.IsSingle shape ∧
      ∀ index, Within index shape →
        v.get index = f (t.get index) (u.get (foldIndex small index)) := by
  rw [zip_of_repeats (by rwa [h.shape_eq, hu.shape_eq]) h.kind_eq hu.kind_eq, h.shape_eq,
    hu.shape_eq]
  refine ⟨_, rfl, isSingle_ofFn _ _, fun index hindex => ?_⟩
  rw [get_ofFn hindex, foldIndex_self hindex]

theorem zipSame (h : t.IsSingle shape) (hu : u.IsSingle shape)
    (f : ∀ {β : Type} [Arithmetic β], β → β → β) :
    ∃ v, Tensor.zipSame f t u = .ok v ∧ v.IsSingle shape ∧
      ∀ index, Within index shape → v.get index = f (t.get index) (u.get index) := by
  rw [zipSame_of_single (h.shape_eq.trans hu.shape_eq.symm) h.kind_eq hu.kind_eq, h.shape_eq]
  exact ⟨_, rfl, isSingle_ofFn _ _, fun index hindex => get_ofFn hindex _⟩

theorem atLeast (h : t.IsSingle shape) (bound : ∀ {β : Type} [Arithmetic β], β) :
    (t.atLeast bound).IsSingle shape ∧ ∀ index, Within index shape →
      (t.atLeast bound).get index = Arithmetic.maximum (t.get index) bound := by
  rw [atLeast_of_single h.kind_eq, h.shape_eq]
  exact ⟨isSingle_ofFn _ _, fun index hindex => get_ofFn hindex _⟩

theorem narrow {start count : Nat} (h : t.IsSingle shape) (haxis : shape[axis]? = some n)
    (hle : start + count ≤ n) :
    ∃ u, t.narrow axis start count = .ok u ∧ u.IsSingle (shape.set axis count) ∧
      ∀ index, Within index (shape.set axis count) →
        u.get index = t.get (index.modify axis (start + ·)) := by
  rw [narrow_of_single h.kind_eq (h.shape_eq ▸ haxis) hle, h.shape_eq]
  exact ⟨_, rfl, isSingle_ofFn _ _, fun index hindex => get_ofFn hindex _⟩

/-- Arrays one after the other along an axis. -/
theorem append {m : Nat} (h : t.IsSingle shape) (haxis : shape[axis]? = some n)
    (hu : u.IsSingle (shape.set axis m)) :
    ∃ v, Tensor.append axis t u = .ok v ∧ v.IsSingle (shape.set axis (n + m)) ∧
      ∀ index, Within index (shape.set axis (n + m)) → v.get index =
        if index.getD axis 0 < n then t.get index
        else u.get (index.set axis (index.getD axis 0 - n)) := by
  obtain ⟨hlength, -⟩ := List.getElem?_eq_some_iff.1 haxis
  have hn : t.size axis = n := by
    rw [size, h.shape_eq, List.getD_eq_getElem?_getD, haxis, Option.getD_some]
  have hm : u.size axis = m := by
    rw [size, hu.shape_eq, List.getD_eq_getElem?_getD, List.getElem?_set_self hlength,
      Option.getD_some]
  rw [append_of_single (by rwa [rank, h.shape_eq])
    (by rw [h.shape_eq, hu.shape_eq, List.set_set]) h.kind_eq hu.kind_eq, hn, hm, h.shape_eq]
  exact ⟨_, rfl, isSingle_ofFn _ _, fun index hindex => get_ofFn hindex _⟩

end Entries

end IsSingle

end MultiViewDepth.Tensor
