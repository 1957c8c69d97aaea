import MultiViewDepth.Proofs.Twins
import MultiViewDepth.Tensor.Arithmetic

/-!
Arithmetic on whole arrays keeps twins alike.

Axes are counted behind the batch: axis `k` of an element is axis `k + 1` of the array.
-/
namespace MultiViewDepth

open Tensor Arithmetic

section Single

variable {α : Type} [Scalar α] {t u : Tensor α}

theorem derive_of_single (ht : t.kind = .single) (shape : List Nat)
    (f : ∀ {β : Type} [Arithmetic β], (List Nat → β) → List Nat → β) :
    t.derive shape f = ofFn shape (f t.get) :=
  derive₂_of_single ht fun entry _ => f entry

theorem narrow_of_single {axis n start count : Nat} (ht : t.kind = .single)
    (haxis : t.shape[axis]? = some n) (hle : start + count ≤ n) :
    t.narrow axis start count =
      .ok (ofFn (t.shape.set axis count) fun index => t.get (index.modify axis (start + ·))) := by
  simp only [narrow, haxis, if_pos hle]
  rw [derive_of_single ht]

theorem reduce_of_single {axis n : Nat} (ht : t.kind = .single) (haxis : t.shape[axis]? = some n)
    (f : ∀ {β : Type} [Arithmetic β], Nat → (Nat → β) → β) :
    t.reduce f axis =
      .ok (ofFn (t.shape.set axis 1) fun index => f n fun i => t.get (index.set axis i)) := by
  simp only [reduce, haxis]
  rw [derive_of_single ht]

theorem padShape_length (shape : List Nat) : padShape shape.length shape = shape := by
  simp [padShape]

/-- An array combined with one whose axes of size 1 are repeated. -/
theorem zip_of_repeats (h : Repeats t.shape u.shape) (ht : t.kind = .single)
    (hu : u.kind = .single) (f : ∀ {β : Type} [Arithmetic β], β → β → β) :
    zip f t u = .ok (ofFn t.shape fun index =>
      f (t.get (foldIndex t.shape index)) (u.get (foldIndex u.shape index))) := by
  have hrank : max t.rank u.rank = t.shape.length := by simp [rank, h.length_eq]
  have hpad : padShape t.shape.length u.shape = u.shape := by
    rw [h.length_eq, padShape_length]
  simp only [zip, hrank, hpad, padShape_length, commonShape_of_repeats h]
  rw [if_pos (.inl (ht.trans hu.symm)), derive₂_of_single ht]

theorem zipSame_of_single (hshape : t.shape = u.shape) (ht : t.kind = .single)
    (hu : u.kind = .single) (f : ∀ {β : Type} [Arithmetic β], β → β → β) :
    zipSame f t u = .ok (ofFn t.shape fun index => f (t.get index) (u.get index)) := by
  rw [zipSame, if_pos ⟨hshape, .inl (ht.trans hu.symm)⟩, derive₂_of_single ht]

theorem append_of_single {axis : Nat} (haxis : axis < t.rank)
    (hshape : t.shape.set axis 0 = u.shape.set axis 0) (ht : t.kind = .single)
    (hu : u.kind = .single) :
    append axis t u = .ok (ofFn (t.shape.set axis (t.size axis + u.size axis)) fun index =>
      if index.getD axis 0 < t.size axis then t.get index
      else u.get (index.set axis (index.getD axis 0 - t.size axis))) := by
  rw [append, if_pos ⟨haxis, hshape, ht.trans hu.symm⟩, derive₂_of_single ht]

theorem atLeast_of_single (ht : t.kind = .single)
    (bound : ∀ {β : Type} [Arithmetic β], β) :
    t.atLeast bound = ofFn t.shape fun index => Arithmetic.maximum (t.get index) bound :=
  derive_of_single ht t.shape fun entry index => Arithmetic.maximum (entry index) bound

theorem meanTo_congr {n : Nat} {f g : Nat → α} (h : ∀ i < n, f i = g i) :
    meanTo n f = meanTo n g := by
  rw [meanTo, meanTo, sumTo_congr h]

/-- The largest of some numbers looks at the first one even when there is none. -/
theorem maxTo_congr {n : Nat} {f g : Nat → α} (hn : 0 < n) (h : ∀ i < n, f i = g i) :
    maxTo n f = maxTo n g := by
  have hfold (m : Nat) (hm : m ≤ n) (init : α) :
      m.fold (fun i _ acc => if acc < f i then f i else acc) init =
        m.fold (fun i _ acc => if acc < g i then g i else acc) init := by
    induction m with
    | zero => rfl
    | succ m ih => rw [Nat.fold_succ, Nat.fold_succ, ih (by omega), h m (by omega)]
  rw [maxTo, maxTo, hfold n (Nat.le_refl n), h 0 hn]

end Single

namespace Twins

variable {α : Type} [Scalar α] {p : Twins} {s r shape : List Nat} {t t' u u' : Tensor α}

/-- Slices of arrays that agree on a pair of elements agree there. -/
theorem Alike.narrow (h : p.Alike s t t') (axis start count : Nat)
    {n : Nat} (haxis : s[axis]? = some n)
    (hle : start + count ≤ n) :
    Both (p.Alike (s.set axis count)) (t.narrow (axis + 1) start count)
      (t'.narrow (axis + 1) start count) := by
  rw [narrow_of_single h.kind_left (by simpa [h.shape_left] using haxis) hle,
    narrow_of_single h.kind_right (by simpa [h.shape_right] using haxis) hle,
    h.shape_left, h.shape_right]
  exact .ok (alike_ofFn fun index hw => h.get_eq _ (hw.modify haxis hle))

/-- A reduction over an axis other than the batch reads the pair of elements only. -/
theorem Alike.reduce (h : p.Alike s t t') {axis n : Nat} (haxis : s[axis]? = some n)
    (f : ∀ {β : Type} [Arithmetic β], Nat → (Nat → β) → β)
    (hf : ∀ g g' : Nat → α, (∀ i < n, g i = g' i) → f n g = f n g') :
    Both (p.Alike (s.set axis 1)) (t.reduce f (axis + 1)) (t'.reduce f (axis + 1)) := by
  rw [reduce_of_single h.kind_left (by simpa [h.shape_left] using haxis),
    reduce_of_single h.kind_right (by simpa [h.shape_right] using haxis),
    h.shape_left, h.shape_right]
  exact .ok (alike_ofFn fun index hw => hf _ _ fun i hi => h.get_eq _ (hw.set haxis hi))

theorem Alike.sum (h : p.Alike s t t') (axis : Nat) {n : Nat} (haxis : s[axis]? = some n) :
    Both (p.Alike (s.set axis 1)) (t.sum (axis + 1)) (t'.sum (axis + 1)) :=
  h.reduce haxis sumTo fun _ _ => sumTo_congr

theorem Alike.mean (h : p.Alike s t t') (axis : Nat) {n : Nat} (haxis : s[axis]? = some n) :
    Both (p.Alike (s.set axis 1)) (t.mean (axis + 1)) (t'.mean (axis + 1)) :=
  h.reduce haxis meanTo fun _ _ => meanTo_congr

theorem Alike.maximum (h : p.Alike s t t') (axis : Nat) {n : Nat} (haxis : s[axis]? = some n)
    (hn : 0 < n) :
    Both (p.Alike (s.set axis 1)) (t.maximum (axis + 1)) (t'.maximum (axis + 1)) := by
  have hl : t.size (axis + 1) ≠ 0 := by
    simp [Tensor.size, h.shape_left, List.getD_eq_getElem?_getD, haxis]; omega
  have hr : t'.size (axis + 1) ≠ 0 := by
    simp [Tensor.size, h.shape_right, List.getD_eq_getElem?_getD, haxis]; omega
  rw [Tensor.maximum, Tensor.maximum, if_neg hl, if_neg hr]
  exact h.reduce haxis maxTo fun _ _ => maxTo_congr hn

/-- An array combined with one whose axes of size 1 are repeated. -/
theorem Alike.zip (h : p.Alike s t t') (hu : p.Alike r u u') (hsr : Repeats s r)
    (f : ∀ {β : Type} [Arithmetic β], β → β → β) :
    Both (p.Alike s) (Tensor.zip f t u) (Tensor.zip f t' u') := by
  have hl : Repeats t.shape u.shape := by
    rw [h.shape_left, hu.shape_left]; exact .cons (.inl rfl) hsr
  have hr : Repeats t'.shape u'.shape := by
    rw [h.shape_right, hu.shape_right]; exact .cons (.inl rfl) hsr
  rw [zip_of_repeats hl h.kind_left hu.kind_left, zip_of_repeats hr h.kind_right hu.kind_right,
    h.shape_left, h.shape_right, hu.shape_left, hu.shape_right]
  refine .ok (alike_ofFn fun index hw => ?_)
  have hlength := hw.length_eq.trans hsr.length_eq
  rw [foldIndex_cons p.lt hw.length_eq, foldIndex_cons p.lt' hw.length_eq, foldIndex_self hw,
    foldIndex_cons p.lt hlength, foldIndex_cons p.lt' hlength, h.get_eq index hw,
    hu.get_eq _ (within_foldIndex hsr hw)]

/-- An array combined with one that has no batch and is repeated for every element. -/
theorem Alike.zip_shared (h : p.Alike s t t') (hshape : u.shape = 1 :: r) (hkind : u.kind = .single)
    (hsr : Repeats s r) (f : ∀ {β : Type} [Arithmetic β], β → β → β) :
    Both (p.Alike s) (Tensor.zip f t u) (Tensor.zip f t' u) := by
  have hl : Repeats t.shape u.shape := by
    rw [h.shape_left, hshape]; exact .cons (.inr rfl) hsr
  have hr : Repeats t'.shape u.shape := by
    rw [h.shape_right, hshape]; exact .cons (.inr rfl) hsr
  rw [zip_of_repeats hl h.kind_left hkind, zip_of_repeats hr h.kind_right hkind,
    h.shape_left, h.shape_right, hshape]
  refine .ok (alike_ofFn fun index hw => ?_)
  have hlength := hw.length_eq.trans hsr.length_eq
  rw [foldIndex_cons p.lt hw.length_eq, foldIndex_cons p.lt' hw.length_eq, foldIndex_self hw,
    foldIndex_one_cons hlength, foldIndex_one_cons hlength, h.get_eq index hw]

theorem Alike.zipSame (h : p.Alike s t t') (hu : p.Alike s u u')
    (f : ∀ {β : Type} [Arithmetic β], β → β → β) :
    Both (p.Alike s) (Tensor.zipSame f t u) (Tensor.zipSame f t' u') := by
  rw [zipSame_of_single (h.shape_left.trans hu.shape_left.symm) h.kind_left hu.kind_left,
    zipSame_of_single (h.shape_right.trans hu.shape_right.symm) h.kind_right hu.kind_right,
    h.shape_left, h.shape_right]
  exact .ok (alike_ofFn fun index hw => by rw [h.get_eq index hw, hu.get_eq index hw])

theorem Alike.atLeast (h : p.Alike s t t') (bound : ∀ {β : Type} [Arithmetic β], β) :
    p.Alike s (t.atLeast bound) (t'.atLeast bound) := by
  rw [atLeast_of_single h.kind_left, atLeast_of_single h.kind_right, h.shape_left, h.shape_right]
  exact alike_ofFn fun index hw => by rw [h.get_eq index hw]

/-- Arrays laid side by side along the first axis of their elements. -/
theorem Alike.append {n m : Nat} (h : p.Alike (n :: s) t t') (hu : p.Alike (m :: s) u u') :
    Both (p.Alike ((n + m) :: s)) (Tensor.append 1 t u) (Tensor.append 1 t' u') := by
  rw [append_of_single (by simp [rank, h.shape_left]) (by simp [h.shape_left, hu.shape_left])
      h.kind_left hu.kind_left,
    append_of_single (by simp [rank, h.shape_right]) (by simp [h.shape_right, hu.shape_right])
      h.kind_right hu.kind_right]
  simp only [Tensor.size, h.shape_left, hu.shape_left, h.shape_right, hu.shape_right,
    List.getD_cons_succ, List.getD_cons_zero, List.set_cons_succ, List.set_cons_zero]
  refine .ok (alike_ofFn fun index hw => ?_)
  obtain ⟨i, rest, rfl, hi, hrest⟩ := hw.exists_cons
  simp only [List.getD_cons_succ, List.getD_cons_zero, List.set_cons_succ, List.set_cons_zero]
  split
  next hlt => exact h.get_eq _ ⟨hlt, hrest⟩
  next hle => exact hu.get_eq _ ⟨by omega, hrest⟩

theorem repeats_set (shape : List Nat) (axis : Nat) : Repeats shape (shape.set axis 1) := by
  induction shape generalizing axis with
  | nil => exact .nil
  | cons n shape ih =>
    cases axis with
    | zero => exact .cons (.inr rfl) (Repeats.refl shape)
    | succ axis => exact .cons (.inl rfl) (ih axis)

/-- Probabilities along a non-empty axis. -/
theorem Alike.softmax (h : p.Alike s t t') (axis : Nat) {n : Nat} (haxis : s[axis]? = some n)
    (hn : 0 < n) : Both (p.Alike s) (t.softmax (axis + 1)) (t'.softmax (axis + 1)) := by
  unfold Tensor.softmax
  refine (h.maximum axis haxis hn).bind fun m m' hm => ?_
  refine (h.zip hm (repeats_set s axis) (· - ·)).bind fun a a' ha => ?_
  refine ((ha.map Scalar.exp).sum axis haxis).bind fun b b' hb => ?_
  refine (ha.zip (hb.map Scalar.log) (repeats_set s axis) (· - ·)).bind fun c c' hc => ?_
  exact .ok (hc.map Scalar.exp)

end Twins

end MultiViewDepth
