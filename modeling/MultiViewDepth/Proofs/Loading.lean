import MultiViewDepth.Parameters.Table
import MultiViewDepth.Proofs.Assembly
import MultiViewDepth.Proofs.Exact
import Mathlib.Data.List.Sort
import Mathlib.Data.String.Basic

/-!
What a load does to a table of parameters.

A load is a function of the tables: of what is found under each name, not of the order in which the
entries stand. It fills every parameter that something of its shape was found for, and it fails at
the first name, in order, whose parameter has another shape.
-/
namespace MultiViewDepth.NamedTensors

variable {α : Type} {convert : ElementKind → Tensor α → Tensor α}
  {table table' tensors tensors' : NamedTensors α} {nameMap nameMap' : List (String × String)}
  {name other : String} {value parameter : Tensor α}

section Entries

theorem get?_of_mem (h : table.names.Nodup) {entry : String × Tensor α} (hentry : entry ∈ table) :
    table.get? entry.1 = some entry.2 :=
  lookup_of_mem h hentry

theorem exists_get? (h : table.names.Nodup) (hname : name ∈ table.names) :
    ∃ parameter, (name, parameter) ∈ table ∧ table.get? name = some parameter := by
  obtain ⟨entry, hentry, rfl⟩ := List.mem_map.1 hname
  exact ⟨entry.2, hentry, get?_of_mem h hentry⟩

theorem get?_eq_none (hname : name ∉ table.names) : table.get? name = none := by
  rw [get?, List.lookup_eq_none_iff]
  intro entry hentry
  have hne : name ≠ entry.1 := by
    rintro rfl
    exact hname (List.mem_map_of_mem hentry)
  simpa using hne

/-- A change of values that keeps the names, read at a name. -/
theorem get?_map (f : String × Tensor α → Tensor α) (name : String) :
    get? (table.map fun entry => (entry.1, f entry)) name =
      (table.get? name).map fun parameter => f (name, parameter) := by
  induction table with
  | nil => rfl
  | cons entry table ih =>
    obtain ⟨key, value⟩ := entry
    simp only [get?] at ih
    simp only [get?, List.map_cons, List.lookup_cons]
    by_cases hkey : name = key
    · simp [hkey]
    · rw [beq_false_of_ne hkey]
      exact ih

theorem get?_set_of_ne (h : other ≠ name) : (table.set name value).get?
    other = table.get? other := by
  induction table with
  | nil => rfl
  | cons entry table ih =>
    obtain ⟨key, kept⟩ := entry
    simp only [get?, set] at ih
    simp only [get?, set, List.map_cons]
    by_cases hkey : key = name
    · have hne : other ≠ key := by rw [hkey]; exact h
      rw [if_pos hkey, List.lookup_cons, List.lookup_cons, beq_false_of_ne h, beq_false_of_ne hne]
      exact ih
    · rw [if_neg hkey, List.lookup_cons, List.lookup_cons, ih]

/-- Tables with the same entries hold the same under every name. -/
theorem get?_perm (h : table.names.Nodup) (hperm : table'.Perm table) (name : String) :
    table'.get? name = table.get? name := by
  have hnames : table'.names.Perm table.names := hperm.map _
  by_cases hname : name ∈ table.names
  · obtain ⟨parameter, hmem, hget⟩ := exists_get? h hname
    rw [hget]
    exact get?_of_mem (hnames.nodup_iff.2 h) (hperm.mem_iff.2 hmem)
  · rw [get?_eq_none hname, get?_eq_none (mt hnames.mem_iff.1 hname)]

end Entries

section Names

theorem sortedNames_perm : table.sortedNames.Perm table.names := List.mergeSort_perm _ _

theorem sortedNames_pairwise : table.sortedNames.Pairwise (· ≤ ·) := by
  refine (List.pairwise_mergeSort ?_ ?_ table.names).imp of_decide_eq_true
  · intro a b c hab hbc
    rw [decide_eq_true_eq] at *
    exact le_trans hab hbc
  · intro a b
    simpa using le_total a b

theorem sortedNames_nodup (h : table.names.Nodup) : table.sortedNames.Nodup :=
  sortedNames_perm.nodup_iff.2 h

/-- Distinct names are strictly sorted. -/
theorem sortedNames_lt (h : table.names.Nodup) : table.sortedNames.Pairwise (· < ·) := by
  have hne : table.sortedNames.Pairwise (· ≠ ·) := sortedNames_nodup h
  exact (sortedNames_pairwise.and hne).imp fun hab => lt_of_le_of_ne hab.1 hab.2

/-- The sorted names do not depend on the order of the table. -/
theorem sortedNames_eq (hperm : table'.Perm table) : table'.sortedNames = table.sortedNames := by
  have hnames : table'.names.Perm table.names := hperm.map _
  refine List.Perm.eq_of_pairwise (fun a b _ _ hab hba => le_antisymm hab hba)
    sortedNames_pairwise sortedNames_pairwise ?_
  exact sortedNames_perm.trans (hnames.trans sortedNames_perm.symm)

end Names

def Fits (table tensors : NamedTensors α) (nameMap : List (String × String)) (name : String) :
    Prop :=
  ∀ parameter value, table.get? name = some parameter → tensors.find nameMap name = some value →
    value.shape = parameter.shape

/-- A parameter after a load: what was found for it, or else its own value. -/
def filled (convert : ElementKind → Tensor α → Tensor α) (tensors : NamedTensors α)
    (nameMap : List (String × String)) (entry : String × Tensor α) : Tensor α :=
  match tensors.find nameMap entry.1 with
  | some value => convert entry.2.kind value
  | none => entry.2

def fill (convert : ElementKind → Tensor α → Tensor α) (table tensors : NamedTensors α)
    (nameMap : List (String × String)) (names : List String) : NamedTensors α :=
  table.map fun entry =>
    (entry.1, if entry.1 ∈ names then filled convert tensors nameMap entry else entry.2)

/-- Those of some names that something was found for, and the others, before those of a summary. -/
def summarize (tensors : NamedTensors α) (nameMap : List (String × String)) (names : List String)
    (summary : LoadSummary) : LoadSummary :=
  ⟨(names.filter fun name => (tensors.find nameMap name).isSome) ++ summary.loaded,
    (names.filter fun name => (tensors.find nameMap name).isNone) ++ summary.missing⟩

section Runs

variable {names rest : List String}

theorem Fits.of_shape (hget : table.get? name = some parameter)
    (hfind : tensors.find nameMap name = some value) (hshape : value.shape = parameter.shape) :
    table.Fits tensors nameMap name := by
  intro parameter' value' hget' hfind'
  cases hget.symm.trans hget'
  cases hfind.symm.trans hfind'
  exact hshape

theorem Fits.of_find_eq_none (hfind : tensors.find nameMap name = none) :
    table.Fits tensors nameMap name := by
  intro _ value _ hfind'
  cases hfind.symm.trans hfind'

theorem Fits.set (h : table.Fits tensors nameMap other) (hne : other ≠ name) :
    (table.set name value).Fits tensors nameMap other := by
  intro parameter found hget hfind
  rw [get?_set_of_ne hne] at hget
  exact h parameter found hget hfind

theorem fill_nil : table.fill convert tensors nameMap [] = table := by
  simp [fill]

theorem fill_cons_of_none (hfind : tensors.find nameMap name = none) :
    table.fill convert tensors nameMap (name :: names) =
      table.fill convert tensors nameMap names := by
  refine List.map_congr_left fun entry _ => ?_
  by_cases hentry : entry.1 = name
  · simp [hentry, filled, hfind]
  · simp [hentry]

theorem fill_cons_of_some (h : table.names.Nodup) (hname : name ∉ names)
    (hget : table.get? name = some parameter) (hfind : tensors.find nameMap name = some value) :
    table.fill convert tensors nameMap (name :: names) =
      (table.set name (convert parameter.kind value)).fill convert tensors nameMap names := by
  rw [fill, fill, NamedTensors.set, List.map_map]
  refine List.map_congr_left fun entry hentry => ?_
  by_cases heq : entry.1 = name
  · have hown := get?_of_mem h hentry
    rw [heq, hget] at hown
    obtain rfl : parameter = entry.2 := Option.some.inj hown
    simp [heq, hname, filled, hfind]
  · simp [heq]

/-- Names whose parameters have the shapes found are filled, and the load goes on from there. -/
theorem loadNames_append (h : table.names.Nodup) (hnames : names.Nodup)
    (hsub : ∀ name ∈ names, name ∈ table.names)
    (hfits : ∀ name ∈ names, table.Fits tensors nameMap name) :
    loadNames convert tensors nameMap (names ++ rest) table =
      Prod.map id (Except.map (summarize tensors nameMap names))
        (loadNames convert tensors nameMap rest (table.fill convert tensors nameMap names)) := by
  induction names generalizing table with
  | nil =>
    rw [fill_nil, List.nil_append]
    generalize loadNames convert tensors nameMap rest table = later
    obtain ⟨_, _ | _⟩ := later <;> simp [Except.map, summarize]
  | cons name names ih =>
    obtain ⟨hnot, hrest⟩ := List.nodup_cons.1 hnames
    obtain ⟨parameter, -, hget⟩ := exists_get? h (hsub name (by simp))
    cases hfind : tensors.find nameMap name with
    | none =>
      have hrun := ih h hrest (fun other hother => hsub other (by simp [hother]))
        (fun other hother => hfits other (by simp [hother]))
      simp only [List.cons_append, loadNames, hfind, hget, hrun, fill_cons_of_none hfind]
      generalize loadNames convert tensors nameMap rest _ = later
      obtain ⟨_, _ | _⟩ := later <;>
        simp [Except.map, summarize, hfind, LoadSummary.withMissing]
    | some value =>
      have hshape := hfits name (by simp) parameter value hget hfind
      have hne : ∀ other ∈ names, other ≠ name := by
        rintro other hother rfl
        exact hnot hother
      have hset : (table.set name (convert parameter.kind value)).names.Nodup := by
        rw [names_set]
        exact h
      have hrun := ih hset hrest
        (fun other hother => by rw [names_set]; exact hsub other (by simp [hother]))
        (fun other hother => (hfits other (by simp [hother])).set (hne other hother))
      simp only [List.cons_append, loadNames, hfind, hget, if_pos hshape, hrun,
        fill_cons_of_some h hnot hget hfind]
      generalize loadNames convert tensors nameMap rest _ = later
      obtain ⟨_, _ | _⟩ := later <;>
        simp [Except.map, summarize, hfind, LoadSummary.withLoaded]

/-- A load reads the tables only through what they hold under each name. -/
theorem loadNames_perm (h : table.names.Nodup) (hperm : table'.Perm table)
    (hfind : ∀ name, tensors'.find nameMap' name = tensors.find nameMap name) :
    (loadNames convert tensors' nameMap' names table').1.Perm
        (loadNames convert tensors nameMap names table).1 ∧
      (loadNames convert tensors' nameMap' names table').2 =
        (loadNames convert tensors nameMap names table).2 := by
  induction names generalizing table table' with
  | nil => exact ⟨hperm, rfl⟩
  | cons name names ih =>
    simp only [loadNames, hfind name, get?_perm h hperm name]
    cases hvalue : tensors.find nameMap name with
    | none =>
      obtain ⟨htable, hsummary⟩ := ih h hperm
      dsimp only
      rw [hsummary]
      exact ⟨htable, rfl⟩
    | some value =>
      cases hget : table.get? name with
      | none => exact ih h hperm
      | some parameter =>
        by_cases hshape : value.shape = parameter.shape
        · have hset : (table'.set name (convert parameter.kind value)).Perm
              (table.set name (convert parameter.kind value)) := hperm.map _
          have hnodup : (table.set name (convert parameter.kind value)).names.Nodup := by
            rw [names_set]
            exact h
          obtain ⟨htable, hsummary⟩ := ih hnodup hset
          simp only [if_pos hshape, hsummary]
          exact ⟨htable, trivial⟩
        · simp only [if_neg hshape]
          exact ⟨hperm, trivial⟩

/-- A table that everything fits is filled in one pass, whatever the order of its entries. -/
theorem loadWith_of_fits (h : table.names.Nodup)
    (hfits : ∀ name ∈ table.names, table.Fits tensors nameMap name) :
    table.loadWith convert tensors nameMap =
      (table.map fun entry => (entry.1, filled convert tensors nameMap entry),
        .ok (tensors.summarize nameMap table.sortedNames .empty)) := by
  have hmem : ∀ name ∈ table.sortedNames, name ∈ table.names := fun name hname =>
    sortedNames_perm.mem_iff.1 hname
  rw [loadWith, ← List.append_nil table.sortedNames, loadNames_append h (sortedNames_nodup h) hmem
    fun name hname => hfits name (hmem name hname), List.append_nil]
  refine Prod.ext (List.map_congr_left fun entry hentry => ?_) rfl
  have hin : entry.1 ∈ table.sortedNames :=
    sortedNames_perm.mem_iff.2 (List.mem_map_of_mem hentry)
  rw [if_pos hin]

/-- The sorted names up to the first one that does not fit, and those behind it. -/
theorem exists_first_misfit (hmisfit : ¬ ∀ name ∈ table.names, table.Fits tensors nameMap name) :
    ∃ name before after, table.sortedNames = before ++ name :: after ∧
      ¬ table.Fits tensors nameMap name ∧
      (∀ other ∈ before, table.Fits tensors nameMap other) ∧
      ∀ other ∈ table.names, ¬ table.Fits tensors nameMap other → name ≤ other := by
  classical
  simp only [not_forall] at hmisfit
  obtain ⟨bad, hbad, hbad'⟩ := hmisfit
  have hfound : (table.sortedNames.find?
      fun name => decide (¬ table.Fits tensors nameMap name)).isSome := by
    rw [List.find?_isSome]
    exact ⟨bad, sortedNames_perm.mem_iff.2 hbad, by simpa using hbad'⟩
  obtain ⟨name, hname⟩ := Option.isSome_iff_exists.1 hfound
  obtain ⟨hname, before, after, hsplit, hbefore⟩ := List.find?_eq_some_iff_append.1 hname
  have hfits : ∀ other ∈ before, table.Fits tensors nameMap other := by simpa using hbefore
  have hsorted : (before ++ name :: after).Pairwise (· ≤ ·) := hsplit ▸ sortedNames_pairwise
  refine ⟨name, before, after, hsplit, by simpa using hname, hfits, fun other hother hmisfit => ?_⟩
  have hin : other ∈ before ++ name :: after := hsplit ▸ sortedNames_perm.mem_iff.2 hother
  rcases List.mem_append.1 hin with hin | hin
  · exact absurd (hfits other hin) hmisfit
  · rcases List.mem_cons.1 hin with rfl | hin
    · exact le_rfl
    · exact (List.pairwise_cons.1 (List.pairwise_append.1 hsorted).2.1).1 other hin

/-- The names before one of the sorted names are the smaller ones. -/
theorem mem_before_iff (h : table.names.Nodup) {before after : List String}
    (hsplit : table.sortedNames = before ++ name :: after) :
    other ∈ before ↔ other ∈ table.names ∧ other < name := by
  have hsorted : (before ++ name :: after).Pairwise (· < ·) := hsplit ▸ sortedNames_lt h
  obtain ⟨-, hrest, hacross⟩ := List.pairwise_append.1 hsorted
  have hmem : other ∈ table.names ↔ other ∈ before ++ name :: after := by
    rw [← hsplit, sortedNames_perm.mem_iff]
  rw [hmem, List.mem_append, List.mem_cons]
  constructor
  · exact fun hother => ⟨.inl hother, hacross other hother name (by simp)⟩
  · rintro ⟨hother | rfl | hother, hlt⟩
    · exact hother
    · exact absurd hlt (lt_irrefl _)
    · exact absurd hlt ((List.pairwise_cons.1 hrest).1 other hother).not_gt

/-- A load that meets a parameter of another shape stops at the first one and has filled the
parameters whose names are smaller. -/
theorem loadWith_stopped (convert : ElementKind → Tensor α → Tensor α) (h : table.names.Nodup)
    (hmisfit : ¬ ∀ name ∈ table.names, table.Fits tensors nameMap name) :
    ∃ name parameter value before, table.get? name = some parameter ∧
      tensors.find nameMap name = some value ∧ value.shape ≠ parameter.shape ∧
      (∀ other ∈ table.names, ¬ table.Fits tensors nameMap other → name ≤ other) ∧
      (∀ other, other ∈ before ↔ other ∈ table.names ∧ other < name) ∧
      table.loadWith convert tensors nameMap = (table.fill convert tensors nameMap before,
        .error (.checkpoint (.wrongShape name parameter.shape value.shape))) := by
  obtain ⟨name, before, after, hsplit, hbad, hbefore, hleast⟩ := exists_first_misfit hmisfit
  have hsmaller (other : String) : other ∈ before ↔ other ∈ table.names ∧ other < name :=
    mem_before_iff h hsplit
  have hnodup : (before ++ name :: after).Nodup := hsplit ▸ sortedNames_nodup h
  have hnot : name ∉ before := fun hin => lt_irrefl _ ((hsmaller name).1 hin).2
  simp only [Fits, not_forall] at hbad
  obtain ⟨parameter, value, hparameter, hvalue, hshape⟩ := hbad
  -- The names before it change nothing about its parameter.
  have hget : (table.fill convert tensors nameMap before).get? name = some parameter := by
    rw [fill, get?_map, hparameter]
    simp [hnot]
  refine ⟨name, parameter, value, before, hparameter, hvalue, hshape, hleast, hsmaller, ?_⟩
  rw [loadWith, hsplit, loadNames_append h (List.nodup_append.1 hnodup).1
    (fun other hother => ((hsmaller other).1 hother).1) hbefore]
  simp [loadNames, hvalue, hget, hshape, Except.map]

/-- The error is about the smallest name that does not fit. -/
theorem loadWith_of_misfit (h : table.names.Nodup)
    (hmisfit : ¬ ∀ name ∈ table.names, table.Fits tensors nameMap name) :
    ∃ name parameter value, table.get? name = some parameter ∧
      tensors.find nameMap name = some value ∧ value.shape ≠ parameter.shape ∧
      (∀ other ∈ table.names, ¬ table.Fits tensors nameMap other → name ≤ other) ∧
      (table.loadWith convert tensors nameMap).2 =
        .error (.checkpoint (.wrongShape name parameter.shape value.shape)) := by
  obtain ⟨name, parameter, value, before, hget, hfind, hshape, hleast, -, hrun⟩ :=
    loadWith_stopped convert h hmisfit
  exact ⟨name, parameter, value, hget, hfind, hshape, hleast, congrArg Prod.snd hrun⟩

/-- What was found for the parameters has their shapes after a load too. -/
theorem fits_of_shapes (h : table.names.Nodup) (h' : table'.names.Nodup)
    (hshapes : table'.map (fun entry => (entry.1, entry.2.shape)) =
      table.map fun entry => (entry.1, entry.2.shape))
    (hfits : ∀ name ∈ table.names, table.Fits tensors nameMap name) :
    ∀ name ∈ table'.names, table'.Fits tensors nameMap name := by
  intro name hname parameter value hget hfind
  obtain ⟨parameter', hmem, hget'⟩ := exists_get? h' hname
  obtain rfl : parameter' = parameter := by simpa [hget'] using hget
  have hin : (name, parameter'.shape) ∈ table'.map fun entry => (entry.1, entry.2.shape) :=
    List.mem_map.2 ⟨_, hmem, rfl⟩
  rw [hshapes] at hin
  obtain ⟨entry, hentry, heq⟩ := List.mem_map.1 hin
  obtain ⟨rfl, hshape⟩ := Prod.mk.inj heq
  rw [← hshape]
  exact hfits entry.1 (List.mem_map_of_mem hentry) entry.2 value (get?_of_mem h hentry) hfind

theorem shapes_filled (h : table.names.Nodup) (hshape : ∀ kind t, (convert kind t).shape = t.shape)
    (hfits : ∀ name ∈ table.names, table.Fits tensors nameMap name) :
    (table.map fun entry => (entry.1, filled convert tensors nameMap entry)).map
        (fun entry => (entry.1, entry.2.shape)) =
      table.map fun entry => (entry.1, entry.2.shape) := by
  rw [List.map_map]
  refine List.map_congr_left fun entry hentry => Prod.ext rfl ?_
  simp only [Function.comp, filled]
  split
  next value hfind =>
    rw [hshape]
    exact hfits entry.1 (List.mem_map_of_mem hentry) entry.2 value (get?_of_mem h hentry) hfind
  next => rfl

/-- A second load of the same tables finds everything filled. -/
theorem loadWith_again (h : table.names.Nodup) (hshape : ∀ kind t, (convert kind t).shape = t.shape)
    (hkind : ∀ entry ∈ table, ∀ t, (convert entry.2.kind t).kind = entry.2.kind)
    (hfits : ∀ name ∈ table.names, table.Fits tensors nameMap name) :
    (table.loadWith convert tensors nameMap).1.loadWith convert tensors nameMap =
      table.loadWith convert tensors nameMap := by
  rw [loadWith_of_fits h hfits]
  have hkeys : names (table.map fun entry => (entry.1, filled convert tensors nameMap entry)) =
      table.names := by
    simp [names, Function.comp_def]
  have hnodup := hkeys ▸ h
  rw [loadWith_of_fits hnodup (fits_of_shapes h hnodup (shapes_filled h hshape hfits) hfits)]
  refine Prod.ext ?_ ?_
  · rw [List.map_map]
    refine List.map_congr_left fun entry hentry => Prod.ext rfl ?_
    simp only [Function.comp, filled]
    cases hfind : tensors.find nameMap entry.1 with
    | none => rfl
    | some value => simp only [hkind entry hentry value]
  · simp only [sortedNames, hkeys]

end Runs

/-- The summary of a whole load lists every name once, in order. -/
theorem summarize_sorted (tensors : NamedTensors α) (nameMap : List (String × String))
    (h : table.names.Nodup) :
    let summary := tensors.summarize nameMap table.sortedNames .empty
    (summary.loaded.Pairwise (· < ·) ∧ ∀ name, name ∈ summary.loaded ↔
        name ∈ table.names ∧ ∃ value, tensors.find nameMap name = some value) ∧
      (summary.missing.Pairwise (· < ·) ∧ ∀ name, name ∈ summary.missing ↔
        name ∈ table.names ∧ tensors.find nameMap name = none) ∧
      (summary.loaded ++ summary.missing).Perm table.names := by
  have hmem : ∀ {name}, name ∈ table.sortedNames ↔ name ∈ table.names := sortedNames_perm.mem_iff
  simp only [summarize, LoadSummary.empty, List.append_nil, List.mem_filter, hmem,
    Option.isSome_iff_exists, Option.isNone_iff_eq_none, implies_true, and_true]
  refine ⟨(sortedNames_lt h).filter _, (sortedNames_lt h).filter _, ?_⟩
  have hsplit := List.filter_append_perm (fun name => (tensors.find nameMap name).isSome)
    table.sortedNames
  simp only [Option.not_isSome] at hsplit
  exact hsplit.trans sortedNames_perm

/-- A load is determined by the tables. It succeeds just when everything found has the shape of its
parameter; it then fills what something was found for, lists each parameter once, in order, and
would change nothing if repeated. Otherwise it names the first parameter of another shape. -/
theorem load_determined (table tensors : NamedTensors α) (nameMap : List (String × String))
    (hnames : table.names.Nodup) (hshape : ∀ kind t, (convert kind t).shape = t.shape)
    (hkind : ∀ entry ∈ table, ∀ t, (convert entry.2.kind t).kind = entry.2.kind) :
    let result := table.loadWith convert tensors nameMap
    ((∃ summary, result.2 = .ok summary) ↔
        ∀ name ∈ table.names, table.Fits tensors nameMap name) ∧
      (∀ summary, result.2 = .ok summary →
        (summary.loaded.Pairwise (· < ·) ∧ ∀ name, name ∈ summary.loaded ↔
          name ∈ table.names ∧ ∃ value, tensors.find nameMap name = some value) ∧
        (summary.missing.Pairwise (· < ·) ∧ ∀ name, name ∈ summary.missing ↔
          name ∈ table.names ∧ tensors.find nameMap name = none) ∧
        (summary.loaded ++ summary.missing).Perm table.names ∧
        (∀ name parameter value, table.get? name = some parameter →
          tensors.find nameMap name = some value →
          result.1.get? name = some (convert parameter.kind value)) ∧
        (∀ name, tensors.find nameMap name = none → result.1.get? name = table.get? name) ∧
        result.1.map (fun entry => (entry.1, entry.2.shape)) =
          table.map (fun entry => (entry.1, entry.2.shape)) ∧
        result.1.loadWith convert tensors nameMap = result) ∧
      ((¬ ∀ name ∈ table.names, table.Fits tensors nameMap name) →
        ∃ name parameter value, table.get? name = some parameter ∧
          tensors.find nameMap name = some value ∧ value.shape ≠ parameter.shape ∧
          (∀ other ∈ table.names, ¬ table.Fits tensors nameMap other → name ≤ other) ∧
          result.2 = .error (.checkpoint (.wrongShape name parameter.shape value.shape))) ∧
      ∀ table' tensors' nameMap', table'.Perm table →
        (∀ name, get? tensors' name = tensors.get? name) →
        (∀ name, List.lookup name nameMap' = nameMap.lookup name) →
        (loadWith convert table' tensors' nameMap').1.Perm result.1 ∧
          (loadWith convert table' tensors' nameMap').2 = result.2 := by
  intro result
  have hiff : (∃ summary, result.2 = .ok summary) ↔
      ∀ name ∈ table.names, table.Fits tensors nameMap name := by
    constructor
    · rintro ⟨summary, hsummary⟩
      by_contra hmisfit
      obtain ⟨_, _, _, -, -, -, -, herror⟩ := loadWith_of_misfit hnames hmisfit
      cases hsummary.symm.trans herror
    · intro hfits
      exact ⟨_, congrArg Prod.snd (loadWith_of_fits hnames hfits)⟩
  refine ⟨hiff, ?_, loadWith_of_misfit hnames, ?_⟩
  · intro summary hsummary
    have hfits := hiff.1 ⟨summary, hsummary⟩
    have hrun : result = _ := loadWith_of_fits hnames hfits
    have htable : result.1 =
        table.map fun entry => (entry.1, filled convert tensors nameMap entry) :=
      congrArg Prod.fst hrun
    obtain rfl : tensors.summarize nameMap table.sortedNames .empty = summary := by
      have hok := hsummary.symm.trans (congrArg Prod.snd hrun)
      exact (Except.ok.inj hok).symm
    obtain ⟨hloaded, hmissing, hperm⟩ := summarize_sorted tensors nameMap hnames
    refine ⟨hloaded, hmissing, hperm, ?_, ?_, ?_, loadWith_again hnames hshape hkind hfits⟩
    · intro name parameter value hget hfind
      rw [htable, get?_map, hget]
      simp only [Option.map, filled, hfind]
    · intro name hfind
      rw [htable, get?_map]
      simp only [filled, hfind, Option.map_id']
    · rw [htable]
      exact shapes_filled hnames hshape hfits
  · intro table' tensors' nameMap' hperm hget hlookup
    rw [loadWith, sortedNames_eq hperm]
    refine loadNames_perm hnames hperm fun name => ?_
    have hgets : tensors'.get? = tensors.get? := funext hget
    simp only [find, hlookup, hgets]

/-- Two parameters, of which one is found under another name and the other is not found. -/
theorem load_determined_renamed :
    let zeros : Tensor ℝ := .ofFn [2] fun _ => 0
    let ones : Tensor ℝ := .ofFn [2] fun _ => 1
    let table : NamedTensors ℝ := [("weight", zeros), ("bias", zeros)]
    let result := table.load [("kernel", ones)] [("weight", "kernel")]
    table.names.Nodup ∧ (∃ summary, result.2 = .ok summary) ∧
      result.1.get? "weight" = some ones ∧ result.1.get? "bias" = some zeros := by
  intro zeros ones table result
  have hnames : table.names.Nodup := by decide
  have hkind : ∀ entry ∈ table, ∀ t : Tensor ℝ, t.toSingle.kind = entry.2.kind := by
    intro entry hentry t
    rw [Tensor.kind_toSingle]
    simp only [table, List.mem_cons, List.not_mem_nil, or_false] at hentry
    rcases hentry with rfl | rfl <;> rfl
  have hfits : ∀ name ∈ table.names, table.Fits [("kernel", ones)] [("weight", "kernel")] name := by
    intro name hname parameter value hget hfind
    simp only [table, names, List.map, List.mem_cons, List.not_mem_nil, or_false] at hname
    rcases hname with rfl | rfl
    · obtain rfl : zeros = parameter := Option.some.inj hget
      obtain rfl : ones = value := Option.some.inj hfind
      rfl
    · cases hfind
  obtain ⟨hiff, hok, -, -⟩ := load_determined table [("kernel", ones)] [("weight", "kernel")]
    hnames (fun _ => Tensor.shape_toSingle) hkind
  obtain ⟨summary, hsummary⟩ := hiff.2 hfits
  obtain ⟨-, -, -, hfilled, hkept, -, -⟩ := hok summary hsummary
  refine ⟨hnames, ⟨summary, hsummary⟩, ?_, ?_⟩
  · exact hfilled "weight" zeros ones rfl rfl
  · exact hkept "bias" rfl

end MultiViewDepth.NamedTensors
