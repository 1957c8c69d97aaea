import MultiViewDepth.Tensor.Basic

/-!
Arrays taken apart and put together: no entry is computed, each is read from another place.
-/
namespace MultiViewDepth.Tensor

variable {α : Type}

def reshape (t : Tensor α) (shape : List Nat) : Result (Tensor α) :=
  if h : volume t.shape = volume shape then .ok ⟨shape, t.elements, t.size_elements.trans h⟩
  else .error .tensor

/-- Drops an axis of size 1 and leaves any other axis as it is. -/
def squeeze (t : Tensor α) (axis : Nat) : Result (Tensor α) :=
  match t.shape[axis]? with
  | none => .error .tensor
  | some 1 => t.reshape (t.shape.eraseIdx axis)
  | some _ => .ok t

/-- Adds an axis of size 1 in front of the given one. -/
def unsqueeze (t : Tensor α) (axis : Nat) : Result (Tensor α) :=
  if axis ≤ t.rank then t.reshape (t.shape.insertIdx axis 1) else .error .tensor

section Entries

variable [Arithmetic α]

/-- The `count` slices along an axis that begin at `start`. -/
def narrow (t : Tensor α) (axis start count : Nat) : Result (Tensor α) :=
  match t.shape[axis]? with
  | none => .error .tensor
  | some n =>
    if start + count ≤ n then
      .ok (t.derive (t.shape.set axis count) fun entry index =>
        entry (index.modify axis (start + ·)))
    else .error .tensor

/-- Lays two arrays of one kind side by side along an axis; all other sizes have to agree. -/
def append (axis : Nat) (s t : Tensor α) : Result (Tensor α) :=
  if axis < s.rank ∧ s.shape.set axis 0 = t.shape.set axis 0 ∧ s.kind = t.kind then
    .ok (s.derive₂ t (s.shape.set axis (s.size axis + t.size axis)) fun first second index =>
      let i := index.getD axis 0
      if i < s.size axis then first index else second (index.set axis (i - s.size axis)))
  else .error .tensor

def concat (axis : Nat) : List (Tensor α) → Result (Tensor α)
  | [] => .error .tensor
  | t :: ts => ts.foldlM (append axis) t

end Entries

theorem reshape_eq_ok {t u : Tensor α} {shape : List Nat} (h : t.reshape shape = .ok u) :
    u.shape = shape ∧ u.elements = t.elements := by
  unfold reshape at h
  split at h
  · simp only [Except.ok.injEq] at h; subst h; simp
  · simp at h

theorem get_reshape [Zero α] {t u : Tensor α} {shape index index' : List Nat}
    (h : t.reshape shape = .ok u) (hplace : place 0 shape index = place 0 t.shape index') :
    u.get index = t.get index' := by
  obtain ⟨hs, he⟩ := reshape_eq_ok h
  simp [get, hs, he, hplace]

end MultiViewDepth.Tensor
