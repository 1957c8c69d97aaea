/-!
Sources of random numbers, passed on explicitly.
-/
namespace MultiViewDepth

/-- A generator with state `σ` of numbers in `[0, 1)`. -/
class RandomSource (σ : Type) (α : outParam Type) where
  next : σ → α × σ

namespace RandomSource

variable {σ α : Type} [RandomSource σ α]

/-- The next `n` numbers, and the state after them. -/
def take : Nat → σ → List α × σ
  | 0, s => ([], s)
  | n + 1, s =>
    let (u, s) := next s
    let (us, s) := take n s
    (u :: us, s)

@[simp] theorem take_zero (s : σ) : take 0 s = ([], s) := rfl

theorem take_succ (n : Nat) (s : σ) :
    take (n + 1) s = ((next s).1 :: (take n (next s).2).1, (take n (next s).2).2) := rfl

@[simp] theorem length_take (n : Nat) (s : σ) : (take n s).1.length = n := by
  induction n generalizing s with
  | zero => rfl
  | succ n ih => simp [take_succ, ih]

end RandomSource

end MultiViewDepth
