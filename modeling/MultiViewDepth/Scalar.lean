/-!
The arithmetic that depth estimation needs, for any kind of number.

`Arithmetic` and `Scalar` hold operations and no laws, so one set of definitions runs on machine
numbers and is read on exact ones. Depth bounds and camera matrices are kept in a more precise kind
of number than maps and features; `Precision` converts between the two, and from double precision.
-/
namespace MultiViewDepth

/-- Sums, products, quotients, comparison and integer parts: what whole numbers have too. -/
class Arithmetic (α : Type) extends
    Zero α, One α, NatCast α, Add α, Sub α, Mul α, Div α, LT α, LE α where
  decidableLT : DecidableLT α
  decidableLE : DecidableLE α
  /-- Integer part of a number in `[0, 2 ^ 32)`; smaller numbers give zero. -/
  toNat : α → Nat

class Scalar (α : Type) extends Arithmetic α, IntCast α, OfScientific α, Neg α where
  exp : α → α
  log : α → α
  sqrt : α → α
  floor : α → α
  /-- Nearest integer, halves away from zero. -/
  round : α → α
  isFinite : α → Bool

instance instDecidableLT {α : Type} [Arithmetic α] (x y : α) : Decidable (x < y) :=
  Arithmetic.decidableLT x y

instance instDecidableLE {α : Type} [Arithmetic α] (x y : α) : Decidable (x ≤ y) :=
  Arithmetic.decidableLE x y

/-- Two kinds of numbers that convert into each other; `δ` is the more precise one. -/
class Precision (α : Type) (δ : outParam Type) where
  narrow : δ → α
  widen : α → δ
  /-- A number stored in double precision. -/
  ofDouble : Float → δ

namespace Arithmetic

variable {α : Type} [Arithmetic α]

/-- The larger number; `x` wins against a bound that it cannot be compared with. -/
def maximum (x bound : α) : α := if x < bound then bound else x

def minimum (x bound : α) : α := if bound < x then bound else x

def clamp (lo hi x : α) : α := minimum (maximum x lo) hi

/-- `x` times `factor`, plus `term`. A term of zero is added too, so a product of -0 becomes 0. -/
def affine (factor term x : α) : α := x * factor + term

/-- Sum of `f 0, …, f (n - 1)`, added in this order. -/
@[specialize] def sumTo (n : Nat) (f : Nat → α) : α := n.fold (fun i _ acc => acc + f i) 0

@[simp] theorem sumTo_zero (f : Nat → α) : sumTo 0 f = 0 := rfl

theorem sumTo_succ (n : Nat) (f : Nat → α) : sumTo (n + 1) f = sumTo n f + f n := by
  simp [sumTo, Nat.fold_succ]

theorem sumTo_congr {n : Nat} {f g : Nat → α} (h : ∀ i < n, f i = g i) :
    sumTo n f = sumTo n g := by
  induction n with
  | zero => rfl
  | succ n ih => rw [sumTo_succ, sumTo_succ, ih fun i hi => h i (by omega), h n (by omega)]

def meanTo (n : Nat) (f : Nat → α) : α := affine (1 / (n : α)) 0 (sumTo n f)

/-- The largest of `f 0, …, f (n - 1)`, or `f 0` when there is none. -/
def maxTo (n : Nat) (f : Nat → α) : α :=
  n.fold (fun i _ acc => if acc < f i then f i else acc) (f 0)

end Arithmetic

namespace Scalar

variable {α : Type} [Scalar α]

def recip (x : α) : α := 1 / x

def abs (x : α) : α := if x < 0 then -x else x

def sigmoid (x : α) : α := 1 / (exp (-x) + 1)

def relu (x : α) : α := if 0 < x then x else 0

end Scalar

instance : Scalar Float where
  zero := 0.0
  one := 1.0
  natCast := Float.ofNat
  intCast := Float.ofInt
  decidableLT := inferInstance
  decidableLE := inferInstance
  exp := Float.exp
  log := Float.log
  sqrt := Float.sqrt
  floor := Float.floor
  round := Float.round
  toNat x := x.toUInt32.toNat
  isFinite := Float.isFinite

instance : Scalar Float32 where
  zero := 0.0
  one := 1.0
  natCast := Float32.ofNat
  intCast := Float32.ofInt
  decidableLT := inferInstance
  decidableLE := inferInstance
  exp := Float32.exp
  log := Float32.log
  sqrt := Float32.sqrt
  floor := Float32.floor
  round := Float32.round
  toNat x := x.toUInt32.toNat
  isFinite := Float32.isFinite

/-- Sums and products wrap around, and quotients drop their fraction. -/
instance : Arithmetic UInt32 where
  zero := 0
  one := 1
  natCast := UInt32.ofNat
  decidableLT := inferInstance
  decidableLE := inferInstance
  toNat := UInt32.toNat

/-- Sums and products wrap around, and quotients drop their fraction. -/
instance : Arithmetic Int64 where
  zero := 0
  one := 1
  natCast := Int64.ofNat
  decidableLT := inferInstance
  decidableLE := inferInstance
  toNat x := x.toInt.toNat

instance : Precision Float32 Float where
  narrow := Float.toFloat32
  widen := Float32.toFloat
  ofDouble x := x

end MultiViewDepth
