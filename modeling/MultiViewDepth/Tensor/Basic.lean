import MultiViewDepth.Failure
import MultiViewDepth.Tensor.Elements
import MultiViewDepth.Tensor.Index

/-!
Arrays of numbers with a shape.

`Tensor.get` is the view of an array in single precision: two such arrays of one shape are equal
when their entries are, and `Tensor.ofFn` builds the array with given entries. `Tensor.compute`
builds an array from another one, which may have entries of another kind only where there is nothing
to compute; `Tensor.derive` computes with entries of any kind.
-/
namespace MultiViewDepth

structure Tensor (α : Type) where
  shape : List Nat
  /-- Entries in row-major order. -/
  elements : Elements α
  size_elements : elements.size = volume shape

namespace Tensor

variable {α : Type}

@[inline] def kind (t : Tensor α) : ElementKind := t.elements.kind

@[inline] def rank (t : Tensor α) : Nat := t.shape.length

def size (t : Tensor α) (axis : Nat) : Nat := t.shape.getD axis 0

/-- The single-precision array with the entry `f index` at every index. -/
@[specialize] def ofFn (shape : List Nat) (f : List Nat → α) : Tensor α :=
  ⟨shape, .single (Array.ofFn fun k : Fin (volume shape) => f (digits shape k)), by
    simp [Elements.size]⟩

/-- The array of the given elements, if they are as many as the shape asks for. -/
def ofElements? (shape : List Nat) (elements : Elements α) : Option (Tensor α) :=
  if h : elements.size = volume shape then some ⟨shape, elements, h⟩ else none

def empty (kind : ElementKind) (shape : List Nat) (h : volume shape = 0) : Tensor α :=
  ⟨shape, .none kind, by simp [h]⟩

/-- The single-precision entry at an index, zero outside the shape. -/
@[inline] def get [Zero α] (t : Tensor α) (index : List Nat) : α :=
  Elements.entry t.elements.singles (place 0 t.shape index)

@[inline] def get4 [Zero α] (t : Tensor α) (b c y x : Nat) : α :=
  match t.shape with
  | [_, channels, height, width] =>
    Elements.entry t.elements.singles (((b * channels + c) * height + y) * width + x)
  | _ => 0

@[specialize] def map (f : α → α) (t : Tensor α) : Tensor α :=
  ⟨t.shape, t.elements.map f, by simp [t.size_elements]⟩

/-- An array with the entries that `f` computes from a single-precision one. From an array of
another kind only one without entries can be made, and it is of that kind. -/
@[specialize] def compute (t : Tensor α) (shape : List Nat) (f : List Nat → α) :
    Result (Tensor α) :=
  if t.kind = .single then .ok (ofFn shape f)
  else if h : volume shape = 0 then .ok (empty t.kind shape h)
  else .error .tensor

/-- The array of the kind of `s` with the entries that `f` computes from those of `s` and `t`,
whatever their kind. -/
def derive₂ [Arithmetic α] (s t : Tensor α) (shape : List Nat)
    (f : ∀ {β : Type} [Arithmetic β], (List Nat → β) → (List Nat → β) → List Nat → β) : Tensor α :=
  ⟨shape, s.elements.derive t.elements (volume shape) fun a b k =>
    f (fun index => a (place 0 s.shape index)) (fun index => b (place 0 t.shape index))
      (digits shape k), by simp⟩

/-- The array of the kind of `t` with the entries that `f` computes from those of `t`. -/
def derive [Arithmetic α] (t : Tensor α) (shape : List Nat)
    (f : ∀ {β : Type} [Arithmetic β], (List Nat → β) → List Nat → β) : Tensor α :=
  t.derive₂ t shape fun entry _ => f entry

@[simp] theorem shape_ofFn (shape : List Nat) (f : List Nat → α) : (ofFn shape f).shape = shape :=
  rfl
@[simp] theorem kind_ofFn (shape : List Nat) (f : List Nat → α) :
    (ofFn shape f).kind = .single := rfl
@[simp] theorem shape_map (f : α → α) (t : Tensor α) : (t.map f).shape = t.shape := rfl
@[simp] theorem kind_map (f : α → α) (t : Tensor α) : (t.map f).kind = t.kind :=
  Elements.kind_map f t.elements

theorem compute_of_single {t : Tensor α} (h : t.kind = .single) (shape : List Nat)
    (f : List Nat → α) : t.compute shape f = .ok (ofFn shape f) := by
  simp [compute, h]

theorem size_singles {t : Tensor α} (h : t.kind = .single) :
    t.elements.singles.size = volume t.shape := by
  rw [← t.size_elements, Elements.eq_single_of_kind h]
  rfl

section Entries

variable [Zero α]

theorem get4_eq {t : Tensor α} {n channels height width : Nat}
    (h : t.shape = [n, channels, height, width]) (b c y x : Nat) :
    t.get4 b c y x = t.get [b, c, y, x] := by
  simp [get4, get, h]

theorem get_ofFn {shape index : List Nat} (h : Within index shape) (f : List Nat → α) :
    (ofFn shape f).get index = f index := by
  simp [get, ofFn, Elements.singles, Elements.entry, Array.getD_eq_getD_getElem?, place_lt h,
    digits_place h]

theorem get_map {t : Tensor α} {index : List Nat} (hkind : t.kind = .single)
    (h : Within index t.shape) (f : α → α) : (t.map f).get index = f (t.get index) := by
  have hlt : place 0 t.shape index < t.elements.singles.size := size_singles hkind ▸ place_lt h
  obtain ⟨shape, elements, size⟩ := t
  cases elements <;> simp_all [kind, Elements.kind, get, map, Elements.map, Elements.singles,
    Elements.entry, Array.getD_eq_getD_getElem?]

theorem ext_get {s t : Tensor α} (hs : s.kind = .single) (ht : t.kind = .single)
    (hshape : s.shape = t.shape)
    (hget : ∀ index, Within index s.shape → s.get index = t.get index) : s = t := by
  have hsize := size_singles hs
  have hsize' := size_singles ht
  obtain ⟨shape, elements, size⟩ := s
  obtain ⟨shape', elements', size'⟩ := t
  obtain rfl : shape = shape' := hshape
  suffices h : elements.singles = elements'.singles by
    obtain rfl : elements = elements' :=
      (Elements.eq_single_of_kind hs).trans
        ((congrArg _ h).trans (Elements.eq_single_of_kind ht).symm)
    rfl
  apply Array.ext (hsize.trans hsize'.symm)
  intro k hk hk'
  have h := hget (digits shape k) (within_digits (hsize ▸ hk))
  have hp : place 0 shape (digits shape k) = k := place_digits (hsize ▸ hk)
  simpa [get, hp, Elements.entry, Array.getD_eq_getD_getElem?, hk, hk'] using h

end Entries

section Derive

variable [Arithmetic α] {s t : Tensor α} {shape : List Nat}

@[simp] theorem kind_derive₂
    (f : ∀ {β : Type} [Arithmetic β], (List Nat → β) → (List Nat → β) → List Nat → β) :
    (s.derive₂ t shape f).kind = s.kind := by
  simp [kind, derive₂]

theorem derive₂_of_single (hs : s.kind = .single)
    (f : ∀ {β : Type} [Arithmetic β], (List Nat → β) → (List Nat → β) → List Nat → β) :
    s.derive₂ t shape f = ofFn shape (f s.get t.get) := by
  obtain ⟨shape', elements, size⟩ := s
  cases elements with
  | single entries => rfl
  | double _ => cases hs
  | word _ => cases hs
  | long _ => cases hs

theorem get_derive₂ {index : List Nat} (hs : s.kind = .single) (h : Within index shape)
    (f : ∀ {β : Type} [Arithmetic β], (List Nat → β) → (List Nat → β) → List Nat → β) :
    (s.derive₂ t shape f).get index = f s.get t.get index := by
  rw [derive₂_of_single hs, get_ofFn h]

end Derive

section Ranks

def sizes3 (t : Tensor α) : Result (Nat × Nat × Nat) :=
  match t.shape with
  | [a, b, c] => .ok (a, b, c)
  | _ => .error .tensor

def sizes4 (t : Tensor α) : Result (Nat × Nat × Nat × Nat) :=
  match t.shape with
  | [a, b, c, d] => .ok (a, b, c, d)
  | _ => .error .tensor

def sizes5 (t : Tensor α) : Result (Nat × Nat × Nat × Nat × Nat) :=
  match t.shape with
  | [a, b, c, d, e] => .ok (a, b, c, d, e)
  | _ => .error .tensor

theorem sizes3_eq_ok {t : Tensor α} {a b c : Nat} :
    t.sizes3 = .ok (a, b, c) ↔ t.shape = [a, b, c] := by
  unfold sizes3; split <;> simp_all

theorem sizes4_eq_ok {t : Tensor α} {a b c d : Nat} :
    t.sizes4 = .ok (a, b, c, d) ↔ t.shape = [a, b, c, d] := by
  unfold sizes4; split <;> simp_all

theorem sizes5_eq_ok {t : Tensor α} {a b c d e : Nat} :
    t.sizes5 = .ok (a, b, c, d, e) ↔ t.shape = [a, b, c, d, e] := by
  unfold sizes5; split <;> simp_all

end Ranks

section Kinds

/-- Fails unless the elements are stored in single precision. -/
def requireSingle (t : Tensor α) : Result Unit :=
  if t.kind = .single then .ok () else .error .tensor

/-- Fails if there is an entry that is not stored in single precision. -/
def requireSingleEntries (t : Tensor α) : Result Unit :=
  if t.kind = .single ∨ volume t.shape = 0 then .ok () else .error .tensor

theorem requireSingle_eq_ok {t : Tensor α} {u : Unit} :
    t.requireSingle = .ok u ↔ t.kind = .single := by
  unfold requireSingle; split <;> simp_all

theorem requireSingleEntries_of_single {t : Tensor α} (h : t.kind = .single) :
    t.requireSingleEntries = .ok () := by
  simp [requireSingleEntries, h]

end Kinds

end Tensor

end MultiViewDepth
