import MultiViewDepth.Tensor.Index
import MultiViewDepth.Tensor.Arithmetic
import Mathlib.Data.List.Forall2

/-!
Indices that lie within a shape, taken apart and changed along one axis.
-/
namespace MultiViewDepth

variable {shape index : List Nat}

theorem Within.length_eq (h : Within index shape) : index.length = shape.length := by
  induction shape generalizing index with
  | nil => cases index with
    | nil => rfl
    | cons i index => simp at h
  | cons n shape ih => cases index with
    | nil => simp at h
    | cons i index => simp [ih h.2]

section Numbers

theorem Within.eq_nil (h : Within index []) : index = [] := by
  cases index with
  | nil => rfl
  | cons i index => simp at h

theorem Within.exists_cons {n : Nat} (h : Within index (n :: shape)) :
    ∃ i rest, index = i :: rest ∧ i < n ∧ Within rest shape := by
  cases index with
  | nil => simp at h
  | cons i rest => exact ⟨i, rest, rfl, h.1, h.2⟩

variable {a b c d e : Nat}

theorem Within.exists_one (h : Within index [a]) : ∃ i, index = [i] ∧ i < a := by
  obtain ⟨i, rest, rfl, hi, h⟩ := h.exists_cons
  exact ⟨i, by rw [h.eq_nil], hi⟩

theorem Within.exists_two (h : Within index [a, b]) : ∃ i j, index = [i, j] ∧ i < a ∧ j < b := by
  obtain ⟨i, rest, rfl, hi, h⟩ := h.exists_cons
  obtain ⟨j, rfl, hj⟩ := h.exists_one
  exact ⟨i, j, rfl, hi, hj⟩

theorem Within.exists_three (h : Within index [a, b, c]) :
    ∃ i j k, index = [i, j, k] ∧ i < a ∧ j < b ∧ k < c := by
  obtain ⟨i, rest, rfl, hi, h⟩ := h.exists_cons
  obtain ⟨j, k, rfl, hj, hk⟩ := h.exists_two
  exact ⟨i, j, k, rfl, hi, hj, hk⟩

theorem Within.exists_four (h : Within index [a, b, c, d]) :
    ∃ i j k l, index = [i, j, k, l] ∧ i < a ∧ j < b ∧ k < c ∧ l < d := by
  obtain ⟨i, rest, rfl, hi, h⟩ := h.exists_cons
  obtain ⟨j, k, l, rfl, hj, hk, hl⟩ := h.exists_three
  exact ⟨i, j, k, l, rfl, hi, hj, hk, hl⟩

variable {i j k l m : Nat}

theorem within_two (hi : i < a) (hj : j < b) : Within [i, j] [a, b] := ⟨hi, hj, trivial⟩

theorem within_three (hi : i < a) (hj : j < b) (hk : k < c) : Within [i, j, k] [a, b, c] :=
  ⟨hi, hj, hk, trivial⟩

theorem within_four (hi : i < a) (hj : j < b) (hk : k < c) (hl : l < d) :
    Within [i, j, k, l] [a, b, c, d] :=
  ⟨hi, hj, hk, hl, trivial⟩

theorem within_five (hi : i < a) (hj : j < b) (hk : k < c) (hl : l < d) (hm : m < e) :
    Within [i, j, k, l, m] [a, b, c, d, e] :=
  ⟨hi, hj, hk, hl, hm, trivial⟩

theorem place_lt_three (hi : i < a) (hj : j < b) (hk : k < c) :
    place 0 [a, b, c] [i, j, k] < a * b * c := by
  simpa [Nat.mul_assoc] using place_lt (within_three hi hj hk)

end Numbers

section Axis

variable {axis n : Nat}

/-- A slice of an axis lies within the axis. -/
theorem Within.modify {start count : Nat} (h : Within index (shape.set axis count))
    (haxis : shape[axis]? = some n) (hle : start + count ≤ n) :
    Within (index.modify axis (start + ·)) shape := by
  induction shape generalizing index axis with
  | nil => simp at haxis
  | cons m shape ih =>
    cases axis with
    | zero =>
      obtain ⟨i, rest, rfl, hi, hrest⟩ := h.exists_cons
      simp only [List.getElem?_cons_zero, Option.some.injEq] at haxis
      exact ⟨by dsimp only; omega, hrest⟩
    | succ axis =>
      obtain ⟨i, rest, rfl, hi, hrest⟩ := h.exists_cons
      exact ⟨hi, ih hrest (by simpa using haxis)⟩

/-- An axis of which one place is left has all its places back. -/
theorem Within.set {i : Nat} (h : Within index (shape.set axis 1))
    (haxis : shape[axis]? = some n) (hi : i < n) : Within (index.set axis i) shape := by
  induction shape generalizing index axis with
  | nil => simp at haxis
  | cons m shape ih =>
    cases axis with
    | zero =>
      obtain ⟨j, rest, rfl, hj, hrest⟩ := h.exists_cons
      simp only [List.getElem?_cons_zero, Option.some.injEq] at haxis
      subst haxis
      exact ⟨hi, hrest⟩
    | succ axis =>
      obtain ⟨j, rest, rfl, hj, hrest⟩ := h.exists_cons
      exact ⟨hj, ih hrest (by simpa using haxis)⟩

end Axis

section Repeated

open Tensor

/-- Axes that are repeated to the sizes of a shape: each has its size or size 1. -/
def Repeats (shape small : List Nat) : Prop := List.Forall₂ (fun m n => n = m ∨ n = 1) shape small

theorem Repeats.refl (shape : List Nat) : Repeats shape shape :=
  List.forall₂_same.2 fun _ _ => .inl rfl

theorem Repeats.length_eq {small : List Nat} (h : Repeats shape small) :
    shape.length = small.length :=
  List.Forall₂.length_eq h

theorem commonShape_of_repeats {small : List Nat} (h : Repeats shape small) :
    commonShape shape small = some shape := by
  induction h with
  | nil => rfl
  | cons hmn _ ih =>
    rw [commonShape, if_pos (hmn.imp_left Eq.symm), ih]
    rfl

theorem foldIndex_of_length {small : List Nat} (h : index.length = small.length) :
    foldIndex small index = List.zipWith (fun n i => if n = 1 then 0 else i) small index := by
  simp [foldIndex, h]

theorem foldIndex_cons {n b : Nat} {small : List Nat} (hb : b < n)
    (h : index.length = small.length) :
    foldIndex (n :: small) (b :: index) = b :: foldIndex small index := by
  rw [foldIndex_of_length h, foldIndex_of_length (by simp [h]), List.zipWith_cons_cons]
  split
  · have : b = 0 := by omega
    rw [this]
  · rfl

theorem foldIndex_one_cons {b : Nat} {small : List Nat} (h : index.length = small.length) :
    foldIndex (1 :: small) (b :: index) = 0 :: foldIndex small index := by
  rw [foldIndex_of_length h, foldIndex_of_length (by simp [h]), List.zipWith_cons_cons, if_pos rfl]

/-- What is read of repeated axes lies within them. -/
theorem within_foldIndex {small : List Nat} (h : Repeats shape small) (hw : Within index shape) :
    Within (foldIndex small index) small := by
  rw [foldIndex_of_length (hw.length_eq.trans h.length_eq)]
  induction h generalizing index with
  | nil => rw [hw.eq_nil]; trivial
  | @cons m n shape small hmn _ ih =>
    obtain ⟨i, rest, rfl, hi, hrest⟩ := hw.exists_cons
    refine ⟨?_, ih hrest⟩
    change (if n = 1 then 0 else i) < n
    split <;> omega

theorem foldIndex_self (h : Within index shape) : foldIndex shape index = index := by
  induction shape generalizing index with
  | nil => rw [h.eq_nil]; rfl
  | cons n shape ih =>
    obtain ⟨i, rest, rfl, hi, hrest⟩ := h.exists_cons
    rw [foldIndex_cons hi hrest.length_eq, ih hrest]

end Repeated

end MultiViewDepth
