import MultiViewDepth.Tensor.Basic

/-!
Entries of any kind as more precise numbers, and arrays of any kind in single precision.
-/
namespace MultiViewDepth.Tensor

variable {α δ : Type} [Scalar α] [Scalar δ] [Precision α δ]

/-- The entry at an index as a more precise number, whatever its kind. -/
def getWide (t : Tensor α) (index : List Nat) : δ :=
  let k := place 0 t.shape index
  match t.elements with
  | .single entries => Precision.widen (Elements.entry entries k)
  | .double entries => Precision.ofDouble α (Elements.entry entries k)
  | .word entries => ((Elements.entry entries k).toNat : δ)
  | .long entries => ((Elements.entry entries k).toInt : δ)

theorem getWide_of_single {t : Tensor α} (h : t.kind = .single) (index : List Nat) :
    t.getWide index = (Precision.widen (t.get index) : δ) := by
  obtain ⟨shape, elements, size⟩ := t
  cases elements with
  | single entries => rfl
  | double _ => cases h
  | word _ => cases h
  | long _ => cases h

def toSingle (t : Tensor α) : Tensor α :=
  if t.kind = .single then t
  else .ofFn t.shape fun index => Precision.narrow (t.getWide index : δ)

theorem toSingle_of_single {t : Tensor α} (h : t.kind = .single) : t.toSingle = t := if_pos h

@[simp] theorem shape_toSingle (t : Tensor α) : t.toSingle.shape = t.shape := by
  unfold toSingle; split <;> rfl

@[simp] theorem kind_toSingle (t : Tensor α) : t.toSingle.kind = .single := by
  unfold toSingle; split
  next h => exact h
  next => rfl

end MultiViewDepth.Tensor
