import MultiViewDepth.Scalar

/-!
4 × 4 matrices as functions of row and column, with product and inverse.
-/
namespace MultiViewDepth

/-- A 4 × 4 matrix, row first. -/
abbrev Transform (δ : Type) := Fin 4 → Fin 4 → δ

/-- Rows and columns go by number. -/
instance (priority := 2000) neZeroFour : @NeZero Nat Zero.ofOfNat0 4 := ⟨Nat.succ_ne_zero 3⟩

namespace Transform

variable {δ : Type} [Scalar δ]

def identity : Transform δ := fun r c => if r = c then 1 else 0

def entry (m : Transform δ) (r c : Nat) : δ :=
  if h : r < 4 ∧ c < 4 then m ⟨r, h.1⟩ ⟨c, h.2⟩ else 0

def mul (a b : Transform δ) : Transform δ := fun r c =>
  a r 0 * b 0 c + a r 1 * b 1 c + a r 2 * b 2 c + a r 3 * b 3 c

/-- The `k`-th of the three indices other than `i`. -/
def skip (i : Fin 4) (k : Fin 3) : Fin 4 := if k.val < i.val then k.castSucc else k.succ

/-- Determinant of what is left of `m` without row `r` and column `c`. -/
def minor (m : Transform δ) (r c : Fin 4) : δ :=
  let e (i j : Fin 3) : δ := m (skip r i) (skip c j)
  e 0 0 * e 1 1 * e 2 2 - e 0 0 * e 2 1 * e 1 2 - e 0 1 * e 1 0 * e 2 2 +
    e 0 1 * e 2 0 * e 1 2 + e 0 2 * e 1 0 * e 2 1 - e 0 2 * e 2 0 * e 1 1

def adjugate (m : Transform δ) : Transform δ := fun r c =>
  if (r.val + c.val) % 2 = 0 then minor m c r else -minor m c r

/-- Determinant, expanded along the first column. -/
def det (m : Transform δ) : δ :=
  m 0 0 * adjugate m 0 0 + m 1 0 * adjugate m 0 1 + m 2 0 * adjugate m 0 2 +
    m 3 0 * adjugate m 0 3

/-- Numbers that compare as equal to zero. -/
def isZero (x : δ) : Bool := x ≤ 0 && (0 : δ) ≤ x

/-- The inverse, missing only when the determinant is zero. -/
def inverse? (m : Transform δ) : Option (Transform δ) :=
  let d := det m
  if isZero d then none
  else
    let factor := 1 / d
    some fun r c => adjugate m r c * factor

end Transform

end MultiViewDepth
