import MultiViewDepth.Tensor.Layout

/-!
Arithmetic on whole arrays: entry by entry, with axes of size 1 repeated where two shapes differ,
and along one axis. The axis that is summed or searched keeps its place with size 1.
-/
namespace MultiViewDepth.Tensor

open Arithmetic Scalar

variable {α : Type} [Scalar α]

/-- The shape that two shapes of one rank are both repeated to. -/
def commonShape : List Nat → List Nat → Option (List Nat)
  | [], [] => some []
  | m :: s, n :: t =>
    if m = n ∨ n = 1 then (m :: ·) <$> commonShape s t
    else if m = 1 then (n :: ·) <$> commonShape s t
    else none
  | _, _ => none

/-- A shape with axes of size 1 in front, up to the given rank. -/
def padShape (rank : Nat) (shape : List Nat) : List Nat :=
  List.replicate (rank - shape.length) 1 ++ shape

/-- Where an entry is read from in an array whose axes of size 1 are repeated. -/
def foldIndex (shape index : List Nat) : List Nat :=
  List.zipWith (fun n i => if n = 1 then 0 else i) shape (index.drop (index.length - shape.length))

/-- Combines two arrays entry by entry; axes of size 1 and missing leading axes are repeated. The
arrays have one kind, unless there is nothing to combine. -/
def zip (f : ∀ {β : Type} [Arithmetic β], β → β → β) (s t : Tensor α) : Result (Tensor α) :=
  let rank := max s.rank t.rank
  match commonShape (padShape rank s.shape) (padShape rank t.shape) with
  | none => .error .tensor
  | some shape =>
    if s.kind = t.kind ∨ volume shape = 0 then
      .ok (s.derive₂ t shape fun left right index =>
        f (left (foldIndex s.shape index)) (right (foldIndex t.shape index)))
    else .error .tensor

def zipSame (f : ∀ {β : Type} [Arithmetic β], β → β → β) (s t : Tensor α) : Result (Tensor α) :=
  if s.shape = t.shape ∧ (s.kind = t.kind ∨ volume s.shape = 0) then
    .ok (s.derive₂ t s.shape fun left right index => f (left index) (right index))
  else .error .tensor

/-- Replaces an axis by the number that `f` finds from the axis' size and entries. -/
def reduce (f : ∀ {β : Type} [Arithmetic β], Nat → (Nat → β) → β) (t : Tensor α) (axis : Nat) :
    Result (Tensor α) :=
  match t.shape[axis]? with
  | none => .error .tensor
  | some n =>
    .ok (t.derive (t.shape.set axis 1) fun entry index => f n fun i => entry (index.set axis i))

def sum (t : Tensor α) (axis : Nat) : Result (Tensor α) := t.reduce sumTo axis

def mean (t : Tensor α) (axis : Nat) : Result (Tensor α) := t.reduce meanTo axis

/-- The largest entries along a non-empty axis. -/
def maximum (t : Tensor α) (axis : Nat) : Result (Tensor α) :=
  if t.size axis = 0 then .error .tensor else t.reduce maxTo axis

def atLeast (bound : ∀ {β : Type} [Arithmetic β], β) (t : Tensor α) : Tensor α :=
  t.derive t.shape fun entry index => Arithmetic.maximum (entry index) bound

def affine (factor term : α) (t : Tensor α) : Tensor α := t.map (Arithmetic.affine factor term)

/-- Exponentials along an axis, divided by their sum; the largest entry is subtracted first. -/
def softmax (t : Tensor α) (axis : Nat) : Result (Tensor α) := do
  let shifted ← zip (· - ·) t (← t.maximum axis)
  let total ← (shifted.map exp).sum axis
  return (← zip (· - ·) shifted (total.map log)).map exp

end MultiViewDepth.Tensor
