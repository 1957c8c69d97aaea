import MultiViewDepth.Proofs.Loading

/-!
What a load that fails leaves behind.

Parameters are filled in the order of their names, and nothing is taken back: a load that stops at
a name has filled the parameters of the smaller names, and no other one.
-/
namespace MultiViewDepth.NamedTensors

variable {α : Type} {convert : ElementKind → Tensor α → Tensor α}
  {table tensors : NamedTensors α} {nameMap : List (String × String)} {names : List String}
  {name : String} {parameter value : Tensor α}

section Filling

theorem names_fill : (table.fill convert tensors nameMap names).names = table.names := by
  simp [NamedTensors.names, fill]

/-- What is not among the names to be filled keeps its value. -/
theorem get?_fill_of_notMem (hname : name ∉ names) :
    (table.fill convert tensors nameMap names).get? name = table.get? name := by
  rw [fill, get?_map]
  simp [hname]

/-- What nothing was found for keeps its value. -/
theorem get?_fill_of_none (hfind : tensors.find nameMap name = none) :
    (table.fill convert tensors nameMap names).get? name = table.get? name := by
  rw [fill, get?_map]
  simp [filled, hfind]

theorem get?_fill_of_some (hname : name ∈ names) (hget : table.get? name = some parameter)
    (hfind : tensors.find nameMap name = some value) :
    (table.fill convert tensors nameMap names).get? name =
      some (convert parameter.kind value) := by
  rw [fill, get?_map, hget]
  simp [hname, filled, hfind]

/-- Filling what nothing was found for changes nothing. -/
theorem fill_of_none (h : ∀ name ∈ names, tensors.find nameMap name = none) :
    table.fill convert tensors nameMap names = table := by
  rw [fill]
  conv_rhs => rw [← List.map_id' table]
  refine List.map_congr_left fun entry _ => Prod.ext rfl ?_
  dsimp only
  split
  next hentry => simp [filled, h entry.1 hentry]
  next => rfl

end Filling

/-- A load that fails names the first parameter that something of another shape was found for. That
parameter and those of larger names are as before, and so is everything that nothing was found for;
the parameters of smaller names are filled as in a load that succeeds. -/
theorem load_stopped (table tensors : NamedTensors α) (nameMap : List (String × String))
    (hnames : table.names.Nodup) {failure : Failure}
    (h : (table.loadWith convert tensors nameMap).2 = .error failure) :
    let table' := (table.loadWith convert tensors nameMap).1
    ∃ name parameter value, table.get? name = some parameter ∧
      tensors.find nameMap name = some value ∧ value.shape ≠ parameter.shape ∧
      failure = .checkpoint (.wrongShape name parameter.shape value.shape) ∧
      (∀ other ∈ table.names, ¬ table.Fits tensors nameMap other → name ≤ other) ∧
      table'.names = table.names ∧
      (∀ other, name ≤ other ∨ tensors.find nameMap other = none →
        table'.get? other = table.get? other) ∧
      (∀ other < name, ∀ parameter value, table.get? other = some parameter →
        tensors.find nameMap other = some value →
        value.shape = parameter.shape ∧
          table'.get? other = some (convert parameter.kind value)) ∧
      ((∀ other ∈ table.names, other < name → tensors.find nameMap other = none) →
        table' = table) := by
  intro table'
  have hmisfit : ¬ ∀ name ∈ table.names, table.Fits tensors nameMap name := fun hfits => by
    cases h.symm.trans (congrArg Prod.snd (loadWith_of_fits hnames hfits))
  obtain ⟨name, parameter, value, before, hget, hfind, hshape, hleast, hsmaller, hrun⟩ :=
    loadWith_stopped convert hnames hmisfit
  have htable : table' = table.fill convert tensors nameMap before := congrArg Prod.fst hrun
  have hfailure : failure = _ := Except.error.inj (h.symm.trans (congrArg Prod.snd hrun))
  refine ⟨name, parameter, value, hget, hfind, hshape, hfailure, hleast, ?_, ?_, ?_, ?_⟩
  · rw [htable, names_fill]
  · rintro other (hle | hnone)
    · rw [htable, get?_fill_of_notMem]
      exact fun hother => ((hsmaller other).1 hother).2.not_ge hle
    · rw [htable, get?_fill_of_none hnone]
  · intro other hlt parameter value hget hfind
    have hother : other ∈ table.names := by
      by_contra habsent
      rw [get?_eq_none habsent] at hget
      cases hget
    have hfits : table.Fits tensors nameMap other := by
      by_contra hbad
      exact hlt.not_ge (hleast other hother hbad)
    refine ⟨hfits parameter value hget hfind, ?_⟩
    rw [htable, get?_fill_of_some ((hsmaller other).2 ⟨hother, hlt⟩) hget hfind]
  · intro hnone
    rw [htable, fill_of_none]
    intro other hother
    obtain ⟨hother, hlt⟩ := (hsmaller other).1 hother
    exact hnone other hother hlt

section Examples

noncomputable def twoZeros : NamedTensors ℝ :=
  [("bias", .ofFn [1] fun _ => 0), ("weight", .ofFn [1] fun _ => 0)]

/-- Ones for both parameters, but too many for the second one. -/
noncomputable def onesTooMany : NamedTensors ℝ :=
  [("bias", .ofFn [1] fun _ => 1), ("weight", .ofFn [2] fun _ => 1)]

theorem sortedNames_twoZeros : twoZeros.sortedNames = ["bias", "weight"] := by
  refine List.mergeSort_of_pairwise ?_
  decide

theorem load_onesTooMany : twoZeros.load onesTooMany [] =
    ([("bias", .ofFn [1] fun _ => 1), ("weight", .ofFn [1] fun _ => 0)],
      .error (.checkpoint (.wrongShape "weight" [1] [2]))) := by
  have hsingle (shape : List Nat) (f : List Nat → ℝ) :
      (Tensor.ofFn shape f).toSingle = Tensor.ofFn shape f := Tensor.toSingle_of_single rfl
  rw [NamedTensors.load, loadWith, sortedNames_twoZeros]
  simp +decide [loadNames, find, get?, twoZeros, onesTooMany, NamedTensors.set, hsingle,
    Except.map, List.lookup_cons, List.lookup_nil]

/-- A load that fails does not leave all parameters as they were. -/
theorem load_stopped_not_undone : ¬ ∀ (table tensors : NamedTensors ℝ)
    (nameMap : List (String × String)) (failure : Failure), table.names.Nodup →
      (table.load tensors nameMap).2 = .error failure →
      ∀ name, (table.load tensors nameMap).1.get? name = table.get? name := by
  intro h
  have hkept := h twoZeros onesTooMany [] _ (by decide) (congrArg Prod.snd load_onesTooMany) "bias"
  rw [load_onesTooMany] at hkept
  have hvalue : (Tensor.ofFn [1] fun _ => 1 : Tensor ℝ) = .ofFn [1] fun _ => 0 :=
    Option.some.inj hkept
  have hin : Within [0] [1] := ⟨Nat.one_pos, trivial⟩
  have hentry := congrArg (fun t : Tensor ℝ => t.get [0]) hvalue
  simp only [Tensor.get_ofFn hin] at hentry
  exact one_ne_zero hentry

/-- The second parameter stops the load: it is as before, and the first one is filled. -/
theorem load_stopped_onesTooMany :
    let failure := Failure.checkpoint (.wrongShape "weight" [1] [2])
    let result := twoZeros.load onesTooMany []
    twoZeros.names.Nodup ∧ result.2 = .error failure ∧
      result.1.get? "weight" = twoZeros.get? "weight" ∧
      result.1.get? "bias" = some (.ofFn [1] fun _ => 1) := by
  intro failure result
  have hnames : twoZeros.names.Nodup := by decide
  have hfailure : result.2 = .error failure := congrArg Prod.snd load_onesTooMany
  obtain ⟨name, _, _, -, -, -, heq, -, -, hkept, hfilled, -⟩ :=
    load_stopped twoZeros onesTooMany [] hnames hfailure
  obtain rfl : "weight" = name := by
    injection heq with heq
    injection heq
  refine ⟨hnames, hfailure, hkept _ (.inl le_rfl), ?_⟩
  obtain ⟨-, hbias⟩ := hfilled "bias" (by decide) (.ofFn [1] fun _ => 0) (.ofFn [1] fun _ => 1)
    rfl rfl
  exact hbias.trans (congrArg some (Tensor.toSingle_of_single rfl))

end Examples

end MultiViewDepth.NamedTensors
