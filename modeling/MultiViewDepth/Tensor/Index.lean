/-!
Row-major positions of the entries of an array.

An index is a list with one number per axis. `place` is its position, `digits` finds the index
back, and the two undo each other on indices that lie within the shape.
-/
namespace MultiViewDepth

def volume : List Nat → Nat
  | [] => 1
  | n :: shape => n * volume shape

@[simp] theorem volume_nil : volume [] = 1 := rfl
@[simp] theorem volume_cons (n : Nat) (shape : List Nat) :
    volume (n :: shape) = n * volume shape := rfl

/-- Every number of the index lies below the size of its axis. -/
def Within : List Nat → List Nat → Prop
  | [], [] => True
  | i :: index, n :: shape => i < n ∧ Within index shape
  | _, _ => False

@[simp] theorem within_nil : Within [] [] := trivial
@[simp] theorem within_cons {i n : Nat} {index shape : List Nat} :
    Within (i :: index) (n :: shape) ↔ i < n ∧ Within index shape := Iff.rfl
@[simp] theorem not_within_nil_cons {n : Nat} {shape : List Nat} : ¬ Within [] (n :: shape) := id
@[simp] theorem not_within_cons_nil {i : Nat} {index : List Nat} : ¬ Within (i :: index) [] := id

/-- Row-major position of an index, continued from the position `acc` of the axes before. -/
def place (acc : Nat) : List Nat → List Nat → Nat
  | n :: shape, i :: index => place (acc * n + i) shape index
  | _, _ => acc

@[simp] theorem place_nil (acc : Nat) (index : List Nat) : place acc [] index = acc := by
  cases index <;> rfl
@[simp] theorem place_cons (acc n i : Nat) (shape index : List Nat) :
    place acc (n :: shape) (i :: index) = place (acc * n + i) shape index := rfl

def digits : List Nat → Nat → List Nat
  | [], _ => []
  | _ :: shape, k => k / volume shape :: digits shape (k % volume shape)

theorem place_eq {shape index : List Nat} (h : Within index shape) (acc : Nat) :
    place acc shape index = acc * volume shape + place 0 shape index := by
  induction shape generalizing index acc with
  | nil => simp
  | cons n shape ih =>
    cases index with
    | nil => simp at h
    | cons i index =>
      rw [place_cons, place_cons, ih h.2, ih h.2 (0 * n + i), volume_cons]
      simp only [Nat.add_mul, Nat.zero_mul, Nat.zero_add, Nat.mul_assoc, Nat.add_assoc]

theorem place_lt {shape index : List Nat} (h : Within index shape) :
    place 0 shape index < volume shape := by
  induction shape generalizing index with
  | nil => simp
  | cons n shape ih =>
    cases index with
    | nil => simp at h
    | cons i index =>
      rw [place_cons, place_eq h.2, volume_cons]
      calc (0 * n + i) * volume shape + place 0 shape index
          < i * volume shape + volume shape := by
            rw [Nat.zero_mul, Nat.zero_add]; exact Nat.add_lt_add_left (ih h.2) _
        _ = (i + 1) * volume shape := by rw [Nat.add_mul, Nat.one_mul]
        _ ≤ n * volume shape := Nat.mul_le_mul_right _ h.1

theorem digits_place {shape index : List Nat} (h : Within index shape) :
    digits shape (place 0 shape index) = index := by
  induction shape generalizing index with
  | nil => cases index with
    | nil => rfl
    | cons i index => simp at h
  | cons n shape ih =>
    cases index with
    | nil => simp at h
    | cons i index =>
      have hlt := place_lt h.2
      have hpos : 0 < volume shape := by omega
      rw [place_cons, place_eq h.2, digits, Nat.zero_mul, Nat.zero_add]
      rw [Nat.mul_comm i, Nat.mul_add_div hpos, Nat.div_eq_of_lt hlt, Nat.mul_add_mod,
        Nat.mod_eq_of_lt hlt, ih h.2, Nat.add_zero]

theorem within_digits {shape : List Nat} {k : Nat} (h : k < volume shape) :
    Within (digits shape k) shape := by
  induction shape generalizing k with
  | nil => simp [digits]
  | cons n shape ih =>
    have hpos : 0 < volume shape := by
      cases hp : volume shape with
      | zero => simp [hp] at h
      | succ m => omega
    rw [volume_cons] at h
    exact ⟨(Nat.div_lt_iff_lt_mul hpos).2 h, ih (Nat.mod_lt _ hpos)⟩

theorem place_digits {shape : List Nat} {k : Nat} (h : k < volume shape) :
    place 0 shape (digits shape k) = k := by
  induction shape generalizing k with
  | nil => simp at h; simp [digits, h]
  | cons n shape ih =>
    have hpos : 0 < volume shape := by
      cases hp : volume shape with
      | zero => simp [hp] at h
      | succ m => omega
    have hw := within_digits (Nat.mod_lt k hpos)
    rw [digits, place_cons, place_eq hw, ih (Nat.mod_lt k hpos), Nat.zero_mul, Nat.zero_add]
    exact Nat.div_add_mod' k (volume shape)

end MultiViewDepth
