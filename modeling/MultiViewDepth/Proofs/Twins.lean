import MultiViewDepth.Proofs.Indices
import MultiViewDepth.Proofs.Outcome
import MultiViewDepth.Tensor.Layout

/-!
Two arrays that hold the same numbers at one element of their batches.

`Twins` names an element of a batch and an element of another one. Operations on arrays keep `Alike`
and succeed on both sides, so one statement gives two things: with a batch as its own twin, that an
operation succeeds and what shape it gives; with two batches, that an element is treated as if it
were alone.
-/
namespace MultiViewDepth

/-- An element of a batch and an element of another one. -/
structure Twins where
  size : Nat
  size' : Nat
  element : Nat
  element' : Nat
  lt : element < size
  lt' : element' < size'

namespace Twins

def self {size element : Nat} (h : element < size) : Twins := ⟨size, size, element, element, h, h⟩

variable {α : Type}

/-- Single-precision arrays with batches along their first axis whose twins hold the same
numbers. -/
structure Alike [Zero α] (p : Twins) (shape : List Nat) (t t' : Tensor α) : Prop where
  shape_left : t.shape = p.size :: shape
  shape_right : t'.shape = p.size' :: shape
  kind_left : t.kind = .single
  kind_right : t'.kind = .single
  get_eq : ∀ index, Within index shape → t.get (p.element :: index) = t'.get (p.element' :: index)

variable {p : Twins}

open Tensor

section Maps

variable [Zero α] {shape s : List Nat} {t t' : Tensor α}

theorem Alike.within_left {index : List Nat} (h : p.Alike shape t t')
    (hw : Within index shape) : Within (p.element :: index) t.shape := by
  rw [h.shape_left]
  exact ⟨p.lt, hw⟩

theorem Alike.within_right {index : List Nat} (h : p.Alike shape t t')
    (hw : Within index shape) : Within (p.element' :: index) t'.shape := by
  rw [h.shape_right]
  exact ⟨p.lt', hw⟩

theorem alike_ofFn {f f' : List Nat → α}
    (h : ∀ index, Within index shape → f (p.element :: index) = f' (p.element' :: index)) :
    p.Alike shape (ofFn (p.size :: shape) f) (ofFn (p.size' :: shape) f') where
  shape_left := rfl
  shape_right := rfl
  kind_left := rfl
  kind_right := rfl
  get_eq index hw := by
    rw [get_ofFn (within_cons.2 ⟨p.lt, hw⟩), get_ofFn (within_cons.2 ⟨p.lt', hw⟩), h index hw]

theorem Alike.map (h : p.Alike shape t t') (f : α → α) : p.Alike shape (t.map f) (t'.map f) where
  shape_left := h.shape_left
  shape_right := h.shape_right
  kind_left := (kind_map f t).trans h.kind_left
  kind_right := (kind_map f t').trans h.kind_right
  get_eq index hw := by
    rw [get_map h.kind_left (h.within_left hw), get_map h.kind_right (h.within_right hw),
      h.get_eq index hw]

/-- Arrays computed from single-precision ones are alike if the entries of the twins are. -/
theorem Alike.compute (h : p.Alike s t t') (shape : List Nat) {f f' : List Nat → α}
    (hf : ∀ index, Within index shape → f (p.element :: index) = f' (p.element' :: index)) :
    Both (p.Alike shape) (t.compute (p.size :: shape) f) (t'.compute (p.size' :: shape) f') := by
  rw [compute_of_single h.kind_left, compute_of_single h.kind_right]
  exact .ok (alike_ofFn hf)

theorem Alike.sizes4 {a b c : Nat} (h : p.Alike [a, b, c] t t') :
    t.sizes4 = .ok (p.size, a, b, c) ∧ t'.sizes4 = .ok (p.size', a, b, c) :=
  ⟨sizes4_eq_ok.2 h.shape_left, sizes4_eq_ok.2 h.shape_right⟩

theorem Alike.sizes5 {a b c d : Nat} (h : p.Alike [a, b, c, d] t t') :
    t.sizes5 = .ok (p.size, a, b, c, d) ∧ t'.sizes5 = .ok (p.size', a, b, c, d) :=
  ⟨sizes5_eq_ok.2 h.shape_left, sizes5_eq_ok.2 h.shape_right⟩

theorem Alike.requireSingle (h : p.Alike shape t t') :
    t.requireSingle = .ok () ∧ t'.requireSingle = .ok () :=
  ⟨requireSingle_eq_ok.2 h.kind_left, requireSingle_eq_ok.2 h.kind_right⟩

theorem Alike.requireSingleEntries (h : p.Alike shape t t') :
    t.requireSingleEntries = .ok () ∧ t'.requireSingleEntries = .ok () :=
  ⟨requireSingleEntries_of_single h.kind_left, requireSingleEntries_of_single h.kind_right⟩

/-- Row-major positions are kept under every shape whose elements are as large. -/
theorem Alike.reshape (h : p.Alike s t t') (shape : List Nat) (hvolume : volume s = volume shape) :
    Both (p.Alike shape) (t.reshape (p.size :: shape)) (t'.reshape (p.size' :: shape)) := by
  have hl : volume t.shape = volume (p.size :: shape) := by simp [h.shape_left, hvolume]
  have hr : volume t'.shape = volume (p.size' :: shape) := by simp [h.shape_right, hvolume]
  have hu : t.reshape (p.size :: shape) = .ok ⟨_, t.elements, t.size_elements.trans hl⟩ :=
    dif_pos hl
  have hu' : t'.reshape (p.size' :: shape) = .ok ⟨_, t'.elements, t'.size_elements.trans hr⟩ :=
    dif_pos hr
  refine ⟨_, _, hu, hu', rfl, rfl, h.kind_left, h.kind_right, fun index hw => ?_⟩
  -- both sides read the element at the index that has the same place under the old shape
  have hlt : place 0 shape index < volume s := hvolume ▸ place_lt hw
  have hplace (n b : Nat) :
      place 0 (n :: shape) (b :: index) =
        place 0 (n :: s) (b :: digits s (place 0 shape index)) := by
    rw [place_cons, place_cons, place_eq hw, place_eq (within_digits hlt), place_digits hlt,
      hvolume]
  rw [get_reshape hu ((hplace _ _).trans (by rw [h.shape_left])),
    get_reshape hu' ((hplace _ _).trans (by rw [h.shape_right])), h.get_eq _ (within_digits hlt)]

/-- Drops an axis of size 1 behind the batch. -/
theorem Alike.squeeze (h : p.Alike s t t') (axis : Nat) (haxis : s[axis]? = some 1)
    (hvolume : volume s = volume (s.eraseIdx axis)) :
    Both (p.Alike (s.eraseIdx axis)) (t.squeeze (axis + 1)) (t'.squeeze (axis + 1)) := by
  have hl : t.squeeze (axis + 1) = t.reshape (p.size :: s.eraseIdx axis) := by
    simp [Tensor.squeeze, h.shape_left, haxis]
  have hr : t'.squeeze (axis + 1) = t'.reshape (p.size' :: s.eraseIdx axis) := by
    simp [Tensor.squeeze, h.shape_right, haxis]
  rw [hl, hr]
  exact h.reshape _ hvolume

/-- Adds an axis of size 1 behind the batch. -/
theorem Alike.unsqueeze (h : p.Alike s t t') (axis : Nat) (haxis : axis ≤ s.length)
    (hvolume : volume s = volume (s.insertIdx axis 1)) :
    Both (p.Alike (s.insertIdx axis 1)) (t.unsqueeze (axis + 1)) (t'.unsqueeze (axis + 1)) := by
  have hl : t.unsqueeze (axis + 1) = t.reshape (p.size :: s.insertIdx axis 1) := by
    simp [Tensor.unsqueeze, Tensor.rank, h.shape_left, haxis]
  have hr : t'.unsqueeze (axis + 1) = t'.reshape (p.size' :: s.insertIdx axis 1) := by
    simp [Tensor.unsqueeze, Tensor.rank, h.shape_right, haxis]
  rw [hl, hr]
  exact h.reshape _ hvolume

end Maps

end Twins

end MultiViewDepth
