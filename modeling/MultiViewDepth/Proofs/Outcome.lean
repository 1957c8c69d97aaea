import MultiViewDepth.Tasks
import Mathlib.Data.List.Forall2
import Mathlib.Data.List.OfFn

/-!
Computations that may fail: when they succeed, and two of them side by side.

`Both R x x'` says that two computations succeed with related results. It passes through `bind`, so
two runs of one program are compared step by step.
-/
namespace MultiViewDepth

variable {ε β β' γ γ' : Type}

section Steps

@[simp] theorem ok_bind (a : β) (f : β → Except ε γ) : (Except.ok a >>= f) = f a := rfl
@[simp] theorem error_bind (e : ε) (f : β → Except ε γ) :
    ((Except.error e : Except ε β) >>= f) = .error e := rfl
@[simp] theorem pure_eq_ok (a : β) : (pure a : Except ε β) = .ok a := rfl
@[simp] theorem throw_eq_error (e : ε) : (throw e : Except ε β) = .error e := rfl

theorem bind_eq_ok {x : Except ε β} {f : β → Except ε γ} {c : γ} :
    (x >>= f) = .ok c ↔ ∃ a, x = .ok a ∧ f a = .ok c := by
  cases x with
  | error e => simp
  | ok a => simp

theorem ite_error_eq_ok {p : Prop} [Decidable p] {x : Except ε β} {e : ε} {b : β} :
    (if p then x else .error e) = .ok b ↔ p ∧ x = .ok b := by
  split <;> simp_all

theorem error_ite_eq_ok {p : Prop} [Decidable p] {x : Except ε β} {e : ε} {b : β} :
    (if p then .error e else x) = .ok b ↔ ¬ p ∧ x = .ok b := by
  split <;> simp_all

end Steps

/-- Both computations succeed, with related results. -/
def Both (R : β → β' → Prop) (x : Except ε β) (x' : Except ε β') : Prop :=
  ∃ a a', x = .ok a ∧ x' = .ok a' ∧ R a a'

namespace Both

variable {R : β → β' → Prop} {S : γ → γ' → Prop} {x : Except ε β} {x' : Except ε β'}

theorem ok {a : β} {a' : β'} (h : R a a') :
    Both R (.ok a : Except ε β) (.ok a' : Except ε β') :=
  ⟨a, a', rfl, rfl, h⟩

theorem bind {f : β → Except ε γ} {f' : β' → Except ε γ'} (h : Both R x x')
    (hf : ∀ a a', R a a' → Both S (f a) (f' a')) : Both S (x >>= f) (x' >>= f') := by
  obtain ⟨a, a', rfl, rfl, hr⟩ := h
  exact hf a a' hr

theorem mono {S : β → β' → Prop} (h : Both R x x') (hrs : ∀ a a', R a a' → S a a') :
    Both S x x' := by
  obtain ⟨a, a', hx, hx', hr⟩ := h
  exact ⟨a, a', hx, hx', hrs a a' hr⟩

/-- The relation holds of the results that are already known. -/
theorem of_ok {a : β} {a' : β'} (h : Both R (.ok a : Except ε β) (.ok a' : Except ε β')) :
    R a a' := by
  obtain ⟨b, b', hb, hb', hr⟩ := h
  cases hb
  cases hb'
  exact hr

section Self

variable {T : β → β → Prop} {y : Except ε β}

/-- A computation beside itself. -/
theorem self (h : Both T y y) : ∃ a, y = .ok a ∧ T a a := by
  obtain ⟨a, a', ha, ha', hr⟩ := h
  obtain rfl : a = a' := Except.ok.inj (ha.symm.trans ha')
  exact ⟨a, ha, hr⟩

theorem of_self (h : Both T y y) {a : β} (ha : y = .ok a) : T a a := by
  obtain ⟨b, hb, hr⟩ := h.self
  obtain rfl : a = b := Except.ok.inj (ha.symm.trans hb)
  exact hr

end Self

end Both

/-- What is there once for each of two runs, or for neither. -/
def Optionally (R : β → β' → Prop) : Option β → Option β' → Prop
  | none, none => True
  | some x, some x' => R x x'
  | _, _ => False

section Lists

variable {n : Nat}

theorem mapM_ok {xs : List β} {f : β → Except ε γ} {g : β → γ} (h : ∀ x ∈ xs, f x = .ok (g x)) :
    xs.mapM f = .ok (xs.map g) := by
  induction xs with
  | nil => rfl
  | cons x xs ih =>
    rw [List.mapM_cons, h x (by simp), ih fun y hy => h y (by simp [hy])]
    rfl

/-- Results of a step that succeeds for every entry, entry by entry. -/
theorem mapM_eq_ok {xs : List β} {f : β → Except ε γ} {ys : List γ} (h : xs.mapM f = .ok ys) :
    List.Forall₂ (fun x y => f x = .ok y) xs ys := by
  induction xs generalizing ys with
  | nil => cases h; exact .nil
  | cons x xs ih =>
    rw [List.mapM_cons] at h
    obtain ⟨y, hy, h⟩ := bind_eq_ok.1 h
    obtain ⟨zs, hzs, h⟩ := bind_eq_ok.1 h
    cases h
    exact .cons hy (ih hzs)

/-- Where an entry of the results comes from. -/
theorem getElem?_of_mapM {xs : List β} {f : β → Except ε γ} {ys : List γ} (h : xs.mapM f = .ok ys)
    {i : Nat} {y : γ} (hy : ys[i]? = some y) : ∃ x, xs[i]? = some x ∧ f x = .ok y := by
  replace h := mapM_eq_ok h
  induction h generalizing i with
  | nil => simp at hy
  | cons hfirst hrest ih =>
    cases i with
    | zero =>
      simp only [List.getElem?_cons_zero, Option.some.injEq] at hy
      exact ⟨_, rfl, hy ▸ hfirst⟩
    | succ i => exact ih hy

theorem exists_mapM_ok {xs : List β} {f : β → Except ε γ} (h : ∀ x ∈ xs, ∃ y, f x = .ok y) :
    ∃ ys, xs.mapM f = .ok ys := by
  induction xs with
  | nil => exact ⟨[], rfl⟩
  | cons x xs ih =>
    obtain ⟨⟨y, hy⟩, hrest⟩ := List.forall_mem_cons.1 h
    obtain ⟨ys, hys⟩ := ih hrest
    exact ⟨y :: ys, by rw [List.mapM_cons, hy, hys]; rfl⟩

theorem mapM_congr {xs : List β} {f g : β → Except ε γ} (h : ∀ x ∈ xs, f x = g x) :
    xs.mapM f = xs.mapM g := by
  induction xs with
  | nil => rfl
  | cons x xs ih =>
    rw [List.mapM_cons, List.mapM_cons, h x (by simp), ih fun y hy => h y (by simp [hy])]

/-- A change of every result is a change of all of them. -/
theorem mapM_map_eq (g : γ → γ') (f : β → Except ε γ) (xs : List β) :
    xs.mapM (fun x => g <$> f x) = List.map g <$> xs.mapM f := by
  induction xs with
  | nil => rfl
  | cons x xs ih =>
    rw [List.mapM_cons, List.mapM_cons, ih]
    cases f x with
    | error e => rfl
    | ok y => cases xs.mapM f <;> rfl

theorem range_eq_ofFn (n : Nat) : List.range n = List.ofFn fun i : Fin n => i.val := by
  apply List.ext_getElem <;> simp

theorem getElem?_ofFn_val (f : Fin n → β) (i : Fin n) : (List.ofFn f)[i.val]? = some (f i) := by
  simp

theorem mapM_ofFn_ok {xs : Fin n → β} {f : β → Except ε γ} {ys : Fin n → γ}
    (h : ∀ i, f (xs i) = .ok (ys i)) : (List.ofFn xs).mapM f = .ok (List.ofFn ys) := by
  induction n with
  | zero => simp
  | succ n ih =>
    rw [List.ofFn_succ, List.ofFn_succ, List.mapM_cons, h 0, ih fun i => h i.succ]
    rfl

end Lists

namespace Tasks

variable {count : Nat} {completion : List Nat} {task : Nat → Except ε β}

theorem failure?_eq_some_iff {x : Except ε β} {e : ε} : failure? x = some e ↔ x = .error e := by
  cases x <;> simp [failure?]

@[simp] theorem failure?_map (g : β → γ) (x : Except ε β) : failure? (g <$> x) = failure? x := by
  cases x <;> rfl

theorem inOrder_ok {value : Fin count → β} (h : ∀ i : Fin count, task i = .ok (value i)) :
    inOrder count task = .ok (List.ofFn value) := by
  rw [inOrder, range_eq_ofFn]
  exact mapM_ofFn_ok h

theorem length_of_inOrder {answers : List β} (h : inOrder count task = .ok answers) :
    answers.length = count := by
  rw [← (mapM_eq_ok h).length_eq, List.length_range]

theorem task_of_inOrder {answers : List β} (h : inOrder count task = .ok answers) {i : Nat}
    (hi : i < count) : ∃ answer, task i = .ok answer := by
  obtain ⟨j, hj, htask⟩ :=
    getElem?_of_mapM h (List.getElem?_eq_getElem ((length_of_inOrder h).symm ▸ hi))
  rw [List.getElem?_range hi] at hj
  cases hj
  exact ⟨_, htask⟩

/-- In whatever order its tasks are done, a pool has the answers there are without it. -/
theorem pooled_eq_ok_iff {answers : List β} :
    pooled completion count task = .ok answers ↔ inOrder count task = .ok answers := by
  have hall : ((List.range count).map task).mapM id = inOrder count task := by
    rw [List.mapM_map]
    rfl
  simp only [pooled, hall]
  split
  next e he =>
    refine ⟨fun h => (nomatch h), fun h => ?_⟩
    obtain ⟨i, -, hi⟩ := List.exists_of_findSome?_eq_some he
    obtain ⟨x, hx, hfailure⟩ := Option.bind_eq_some_iff.1 hi
    rw [List.getElem?_map] at hx
    obtain ⟨k, hk, rfl⟩ := Option.map_eq_some_iff.1 hx
    obtain ⟨_, htask⟩ := task_of_inOrder h (List.mem_range.1 (List.mem_of_getElem? hk))
    rw [failure?_eq_some_iff.1 hfailure] at htask
    cases htask
  next => rfl

/-- A change of every answer is a change of all of them, and no failure becomes another one. -/
theorem pooled_map {task' : Nat → Except ε γ} {g : β → γ}
    (h : ∀ i < count, task' i = g <$> task i) :
    pooled completion count task' = List.map g <$> pooled completion count task := by
  have hanswers : (List.range count).map task' = ((List.range count).map task).map (g <$> ·) := by
    rw [List.map_map]
    exact List.map_congr_left fun i hi => h i (List.mem_range.1 hi)
  have hfailure (i : Nat) : (((List.range count).map task).map (g <$> ·))[i]?.bind failure? =
      ((List.range count).map task)[i]?.bind failure? := by
    rw [List.getElem?_map, Option.bind_map]
    exact congrArg _ (funext fun x => failure?_map g x)
  simp only [pooled, hanswers, hfailure]
  split
  next => rfl
  next =>
    rw [List.mapM_map]
    exact mapM_map_eq g id _

section Run

variable [WorkerPool] {parallel : Bool}

theorem run_eq_ok_iff {answers : List β} :
    run parallel count task = .ok answers ↔ inOrder count task = .ok answers := by
  cases parallel with
  | true => exact pooled_eq_ok_iff
  | false => rfl

/-- With and without a pool, tasks that all succeed give all their answers. -/
theorem run_ok {value : Fin count → β} (parallel : Bool)
    (h : ∀ i : Fin count, task i = .ok (value i)) :
    run parallel count task = .ok (List.ofFn value) :=
  run_eq_ok_iff.2 (inOrder_ok h)

theorem run_map {task' : Nat → Except ε γ} {g : β → γ} (parallel : Bool)
    (h : ∀ i < count, task' i = g <$> task i) :
    run parallel count task' = List.map g <$> run parallel count task := by
  cases parallel with
  | true => exact pooled_map h
  | false =>
    refine Eq.trans ?_ (mapM_map_eq g task _)
    exact mapM_congr fun i hi => h i (List.mem_range.1 hi)

theorem length_of_run {answers : List β} (h : run parallel count task = .ok answers) :
    answers.length = count :=
  length_of_inOrder (run_eq_ok_iff.1 h)

/-- Tasks that all fail for one reason fail for this reason together. -/
theorem run_error {e : ε} (parallel : Bool) (hcount : 0 < count)
    (h : ∀ i < count, task i = .error e) : run parallel count task = .error e := by
  cases parallel with
  | true =>
    have horder := WorkerPool.perm_range count
    obtain ⟨first, rest, hfirst⟩ : ∃ first rest, WorkerPool.order count = first :: rest := by
      refine List.exists_cons_of_length_pos ?_
      rwa [horder.length_eq, List.length_range]
    have hlt : first < count := List.mem_range.1 (horder.mem_iff.1 (by simp [hfirst]))
    simp [run, pooled, hfirst, List.getElem?_range hlt, h first hlt, failure?]
  | false =>
    obtain ⟨n, rfl⟩ : ∃ n, count = n + 1 := ⟨count - 1, by omega⟩
    simp only [run, Bool.false_eq_true, ↓reduceIte, inOrder]
    rw [List.range_succ_eq_map, List.mapM_cons, h 0 hcount]
    rfl

/-- Answers that are all there are those of the tasks. -/
theorem run_eq_ok {answers : List β} (h : run parallel count task = .ok answers)
    {i : Nat} {answer : β} (hi : answers[i]? = some answer) : i < count ∧ task i = .ok answer := by
  obtain ⟨k, hk, hanswer⟩ := getElem?_of_mapM (run_eq_ok_iff.1 h) hi
  obtain ⟨hlt, rfl⟩ := List.getElem?_eq_some_iff.1 hk
  rw [List.length_range] at hlt
  rw [List.getElem_range] at hanswer
  exact ⟨hlt, hanswer⟩

end Run

end Tasks

end MultiViewDepth
