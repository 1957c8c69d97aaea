import MultiViewDepth.Proofs.Outcome
import Mathlib.Data.Fin.Tuple.Basic
import Mathlib.Logic.Equiv.Defs

/-!
Lists that hold related entries in another order.
-/
namespace MultiViewDepth

variable {ε β β' γ γ' : Type} {n : Nat}

/-- Entry `i` of the second list is related to entry `σ i` of the first. -/
def Reordered (σ : Equiv.Perm (Fin n)) (R : β → β' → Prop) (xs : List β) (xs' : List β') : Prop :=
  ∃ (f : Fin n → β) (f' : Fin n → β'), xs = List.ofFn f ∧ xs' = List.ofFn f' ∧
    ∀ i, R (f (σ i)) (f' i)

namespace Reordered

variable {σ : Equiv.Perm (Fin n)} {R : β → β' → Prop} {S : γ → γ' → Prop} {xs : List β}
  {xs' : List β'}

theorem length_left (h : Reordered σ R xs xs') : xs.length = n := by
  obtain ⟨f, f', rfl, rfl, -⟩ := h
  simp

theorem length_right (h : Reordered σ R xs xs') : xs'.length = n := by
  obtain ⟨f, f', rfl, rfl, -⟩ := h
  simp

theorem getElem? (h : Reordered σ R xs xs') (i : Fin n) :
    ∃ x x', xs[(σ i).val]? = some x ∧ xs'[i.val]? = some x' ∧ R x x' := by
  obtain ⟨f, f', rfl, rfl, hr⟩ := h
  exact ⟨f (σ i), f' i, getElem?_ofFn_val f (σ i), getElem?_ofFn_val f' i, hr i⟩

theorem map {g : β → γ} {g' : β' → γ'} (h : Reordered σ R xs xs')
    (hg : ∀ x x', R x x' → S (g x) (g' x')) : Reordered σ S (xs.map g) (xs'.map g') := by
  obtain ⟨f, f', rfl, rfl, hr⟩ := h
  exact ⟨g ∘ f, g' ∘ f', List.map_ofFn, List.map_ofFn, fun i => hg _ _ (hr i)⟩

/-- The results of steps that succeed together, put in the order of the first list. -/
theorem exists_results (x : Fin n → Except ε γ) (x' : Fin n → Except ε γ')
    (h : ∀ i, Both S (x (σ i)) (x' i)) :
    ∃ (f : Fin n → γ) (f' : Fin n → γ'), (∀ i, x i = .ok (f i)) ∧ (∀ i, x' i = .ok (f' i)) ∧
      ∀ i, S (f (σ i)) (f' i) := by
  choose f f' hf hf' hr using h
  refine ⟨fun i => f (σ.symm i), f', fun i => ?_, hf', fun i => ?_⟩
  · rw [← hf, Equiv.apply_symm_apply]
  · dsimp only
    rw [Equiv.symm_apply_apply]
    exact hr i

theorem mapM {g : β → Except ε γ} {g' : β' → Except ε γ'} (h : Reordered σ R xs xs')
    (hg : ∀ x x', R x x' → Both S (g x) (g' x')) :
    Both (Reordered σ S) (xs.mapM g) (xs'.mapM g') := by
  obtain ⟨f, f', rfl, rfl, hr⟩ := h
  obtain ⟨v, v', hv, hv', hs⟩ := exists_results (fun i => g (f i)) (fun i => g' (f' i))
    fun i => hg _ _ (hr i)
  exact ⟨_, _, mapM_ofFn_ok hv, mapM_ofFn_ok hv', v, v', rfl, rfl, hs⟩

theorem mapM_range (g : Nat → Except ε γ) (g' : Nat → Except ε γ')
    (h : ∀ i : Fin n, Both S (g (σ i)) (g' i)) :
    Both (Reordered σ S) ((List.range n).mapM g) ((List.range n).mapM g') := by
  obtain ⟨v, v', hv, hv', hs⟩ := exists_results (fun i => g i) (fun i => g' i) h
  rw [range_eq_ofFn]
  exact ⟨_, _, mapM_ofFn_ok hv, mapM_ofFn_ok hv', v, v', rfl, rfl, hs⟩

/-- Tasks that succeed together, with and without pools. -/
theorem run [WorkerPool] {task : Nat → Except ε γ} {task' : Nat → Except ε γ'}
    (parallel parallel' : Bool) (h : ∀ i : Fin n, Both S (task (σ i)) (task' i)) :
    Both (Reordered σ S) (Tasks.run parallel n task) (Tasks.run parallel' n task') := by
  obtain ⟨v, v', hv, hv', hs⟩ := exists_results (fun i => task i) (fun i => task' i) h
  exact ⟨_, _, Tasks.run_ok parallel hv, Tasks.run_ok parallel' hv', v, v', rfl, rfl, hs⟩

/-- Tasks of which the first one keeps its place. -/
theorem run_succ [WorkerPool] {task : Nat → Except ε γ} {task' : Nat → Except ε γ'}
    (parallel parallel' : Bool) (hfirst : Both S (task 0) (task' 0))
    (h : ∀ i : Fin n, Both S (task ((σ i).val + 1)) (task' (i.val + 1))) :
    Both (fun ys ys' => ∃ y y' zs zs', ys = y :: zs ∧ ys' = y' :: zs' ∧ S y y' ∧
        Reordered σ S zs zs')
      (Tasks.run parallel (n + 1) task) (Tasks.run parallel' (n + 1) task') := by
  obtain ⟨y, y', hy, hy', hs⟩ := hfirst
  obtain ⟨v, v', hv, hv', hsv⟩ :=
    exists_results (fun i => task (i + 1)) (fun i => task' (i + 1)) h
  have hrun : Tasks.run parallel (n + 1) task = .ok (List.ofFn (Fin.cons y v)) :=
    Tasks.run_ok parallel (Fin.cases hy hv)
  have hrun' : Tasks.run parallel' (n + 1) task' = .ok (List.ofFn (Fin.cons y' v')) :=
    Tasks.run_ok parallel' (Fin.cases hy' hv')
  rw [List.ofFn_cons] at hrun hrun'
  exact ⟨_, _, hrun, hrun', y, y', _, _, rfl, rfl, hs, v, v', rfl, rfl, hsv⟩

end Reordered

end MultiViewDepth
