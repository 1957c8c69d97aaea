import MultiViewDepth.Random
import Mathlib.Logic.Basic

/-!
Random numbers by their place in the stream that a generator gives.
-/
namespace MultiViewDepth.RandomSource

variable {σ α : Type} [RandomSource σ α]

def after (n : Nat) (s : σ) : σ := (take n s).2

/-- Draw number `n`. -/
def draw (n : Nat) (s : σ) : α := (next (after n s)).1

@[simp] theorem after_zero (s : σ) : after 0 s = s := rfl

theorem after_succ (n : Nat) (s : σ) : after (n + 1) s = after n (next s).2 := rfl

theorem after_add (m n : Nat) (s : σ) : after (m + n) s = after n (after m s) := by
  induction m generalizing s with
  | zero => simp
  | succ m ih => rw [Nat.succ_add, after_succ, after_succ, ih]

theorem draw_after (m n : Nat) (s : σ) : draw n (after m s) = draw (m + n) s := by
  rw [draw, draw, after_add]

theorem take_getElem? {n i : Nat} (s : σ) (h : i < n) : (take n s).1[i]? = some (draw i s) := by
  induction n generalizing s i with
  | zero => omega
  | succ n ih =>
    rw [take_succ]
    cases i with
    | zero => rfl
    | succ i =>
      rw [List.getElem?_cons_succ, ih _ (by omega)]
      rfl

/-- The numbers taken, read by position. -/
theorem take_getD {n i : Nat} (s : σ) (h : i < n) (default : α) :
    (take n s).1.toArray.getD i default = draw i s := by
  simp [Array.getD_eq_getD_getElem?, take_getElem? s h]

end MultiViewDepth.RandomSource
