import MultiViewDepth.Parameters.Storage
import MultiViewDepth.Proofs.VariedScenes
import MultiViewDepth.Proofs.Loading

/-!
Parameters written to a file and read back.

An estimator that is restored from the file asks for the names that were saved and for no other one,
and none of them is the name that a file keeps for itself. So everything is found, whatever values
the parameters start from, and the restored estimator is the saved one.
-/
namespace MultiViewDepth

variable {α δ : Type}

namespace NamedTensors

variable {convert : ElementKind → Tensor α → Tensor α} {table tensors : NamedTensors α}
  {nameMap : List (String × String)} {name : String}

/-- Names that are mapped to names the tensors lack, or to themselves, are found as if unmapped. -/
theorem find_eq_get?
    (h : ∀ target, nameMap.lookup name = some target → target ∉ tensors.names ∨ target = name) :
    tensors.find nameMap name = tensors.get? name := by
  unfold find
  cases htarget : nameMap.lookup name with
  | none => rfl
  | some target =>
    rcases h target htarget with habsent | rfl
    · simp [get?_eq_none habsent]
    · simp

/-- A load that finds something for every parameter lists all of them. -/
theorem summarize_of_found
    (h : ∀ name ∈ table.names, ∃ value, tensors.find nameMap name = some value) :
    tensors.summarize nameMap table.sortedNames .empty = ⟨table.sortedNames, []⟩ := by
  have hfound : ∀ name ∈ table.sortedNames, (tensors.find nameMap name).isSome := fun name hname =>
    Option.isSome_iff_exists.2 (h name (sortedNames_perm.mem_iff.1 hname))
  have hnone : ∀ name ∈ table.sortedNames, ¬ (tensors.find nameMap name).isNone := by
    intro name hname
    simp [Option.isNone_eq_false_iff.2 (hfound name hname)]
  simp only [summarize, LoadSummary.empty, List.append_nil, List.filter_eq_self.2 hfound,
    List.filter_eq_nil_iff.2 hnone]

/-- The table has one value in single precision for each request, and nothing else. -/
structure Fulfils (table : NamedTensors α) (requests : List ParameterRequest) : Prop where
  names : table.names.Perm (requests.map (·.name))
  value : ∀ request ∈ requests, ∃ t, table.get? request.name = some t ∧ t.shape = request.shape ∧
    t.kind = .single

section Requests

variable [Scalar α] [Scalar δ] [Precision α δ] {requests : List ParameterRequest}
  {initial : ParameterRequest → Tensor α}

omit [Scalar α] in
/-- A table with an entry for each request. -/
theorem names_of_requests :
    names (requests.map fun request => (request.name, initial request)) =
      requests.map (·.name) := by
  simp [NamedTensors.names, Function.comp_def]

/-- Parameters of the same requests, whatever they hold, take all values of the table. -/
theorem Fulfils.load (h : table.Fulfils requests) (hnodup : (requests.map (·.name)).Nodup)
    (hshape : ∀ request, (initial request).shape = request.shape)
    (hmap : ∀ name target, nameMap.lookup name = some target →
      target ∉ table.names ∨ target = name) :
    let fresh : NamedTensors α := requests.map fun request => (request.name, initial request)
    ∃ table', fresh.load table nameMap = (table', .ok ⟨fresh.sortedNames, []⟩) ∧
      table'.names = requests.map (·.name) ∧ ∀ name, table'.get? name = table.get? name := by
  intro fresh
  have hkeys : fresh.names = requests.map (·.name) := names_of_requests
  have hnames : fresh.names.Nodup := hkeys ▸ hnodup
  have hfind (name : String) : table.find nameMap name = table.get? name :=
    find_eq_get? (hmap name)
  have hvalue : ∀ name ∈ fresh.names, ∃ parameter value, fresh.get? name = some parameter ∧
      table.get? name = some value ∧ value.shape = parameter.shape ∧ value.kind = .single := by
    intro name hname
    rw [hkeys] at hname
    obtain ⟨request, hrequest, rfl⟩ := List.mem_map.1 hname
    obtain ⟨value, hget, hsize, hkind⟩ := h.value request hrequest
    have hin : (request.name, initial request) ∈ fresh := List.mem_map_of_mem hrequest
    exact ⟨_, value, get?_of_mem hnames hin, hget, hsize.trans (hshape request).symm, hkind⟩
  have hfits : ∀ name ∈ fresh.names, fresh.Fits table nameMap name := by
    intro name hname
    obtain ⟨_, _, hparameter, hget, hsize, -⟩ := hvalue name hname
    exact .of_shape hparameter ((hfind name).trans hget) hsize
  have hfound : ∀ name ∈ fresh.names, ∃ value, table.find nameMap name = some value := by
    intro name hname
    obtain ⟨_, value, -, hget, -⟩ := hvalue name hname
    exact ⟨value, (hfind name).trans hget⟩
  refine ⟨_, (loadWith_of_fits hnames hfits).trans (by rw [summarize_of_found hfound]), ?_, ?_⟩
  · simp [NamedTensors.names, fresh, Function.comp_def]
  · intro name
    rw [get?_map]
    by_cases hname : name ∈ fresh.names
    · obtain ⟨_, value, hparameter, hget, -, hkind⟩ := hvalue name hname
      simp only [hparameter, Option.map, filled, hfind, hget, Tensor.toSingle_of_single hkind]
    · have habsent : name ∉ table.names := by
        rw [h.names.mem_iff, ← hkeys]
        exact hname
      rw [get?_eq_none hname, get?_eq_none habsent]
      rfl

end Requests

end NamedTensors

section Restoring

variable [Scalar α] [Scalar δ] [Precision α δ] {settings : Settings δ}

omit [Precision α δ] in
/-- No parameter of an estimator has the name that a file keeps for itself. -/
theorem Estimator.reservedName_notMem {b : Blueprint α (Estimator α δ)}
    (h : Estimator.blueprint settings = .ok b) :
    Storage.reservedName ∉ b.requests.map (·.name) := by
  intro hname
  obtain ⟨request, hrequest, heq⟩ := List.mem_map.1 hname
  exact Estimator.name_ne h hrequest (by decide) heq

/-- Values for all parameters of an estimator, written to a file and read back under any map that
hides none of them, give the estimator that was saved: nothing is missing, the parameters have their
values again, and every scene is estimated as before. -/
theorem Storage.restore_saved [WorkerPool] (hvalid : settings.validate = .ok ()) :
    ∃ b : Blueprint α (Estimator α δ), Estimator.blueprint settings = .ok b ∧
      ∀ table : NamedTensors α, table.Fulfils b.requests →
      ∀ (storage saved : Storage α) (path : Location) (nameMap : List (String × String))
        (initial : ParameterRequest → Tensor α), storage.save path table = .ok saved →
      (∀ name target, nameMap.lookup name = some target →
        target ∉ table.names ∨ target = name) →
      (∀ request, (initial request).shape = request.shape) →
      ∃ (estimator restored : Estimator α δ) (table' : NamedTensors α) (summary : LoadSummary),
        Estimator.build settings table.source = .ok estimator ∧
        saved.restore path settings nameMap initial = .ok (restored, table', summary) ∧
        summary.complete = true ∧ summary.loaded.Pairwise (· < ·) ∧
        summary.loaded.Perm table.names ∧ table'.names.Perm table.names ∧
        (∀ name, table'.get? name = table.get? name) ∧
        ∀ {σ : Type} [RandomSource σ α] (scene : Scene α δ) (rng : σ),
          restored.estimate scene rng = estimator.estimate scene rng := by
  obtain ⟨b, hb⟩ := Estimator.exists_blueprint (α := α) hvalid
  refine ⟨b, hb, fun table htable storage saved path nameMap initial hsave hmap hshape => ?_⟩
  have hnodup := Estimator.names_nodup hb
  have hreserved : reservedName ∉ table.names := by
    rw [htable.names.mem_iff]
    exact Estimator.reservedName_notMem hb
  obtain ⟨table', hload, hnames, hget⟩ := htable.load (δ := δ) hnodup hshape hmap
  have hsource : table'.source = table.source := funext fun request => hget request.name
  obtain ⟨estimator, hbuild⟩ : ∃ estimator, b.build table.source = .ok estimator := by
    refine Blueprint.exists_build fun request hrequest => ?_
    obtain ⟨t, ht, hsize, -⟩ := htable.value request hrequest
    exact ⟨t, ht, hsize⟩
  set fresh : NamedTensors α := b.requests.map fun request => (request.name, initial request)
    with hfresh
  have hkeys : fresh.names = b.requests.map (·.name) := NamedTensors.names_of_requests
  have hrestore : saved.restore path settings nameMap initial =
      .ok (estimator, table', ⟨fresh.sortedNames, []⟩) := by
    simp only [restore, hb, ok_bind, Storage.load, read_of_save hreserved hsave, ← hfresh, hload,
      hsource, hbuild]
    rfl
  refine ⟨estimator, estimator, table', _, ?_, hrestore, rfl,
    NamedTensors.sortedNames_lt (hkeys ▸ hnodup), ?_, ?_, hget, fun _ _ => rfl⟩
  · simp only [Estimator.build, hb, ok_bind, hbuild]
  · exact NamedTensors.sortedNames_perm.trans (hkeys ▸ htable.names.symm)
  · exact hnames ▸ htable.names.symm

end Restoring

section Examples

noncomputable def evenTable (value : ℝ) (requests : List ParameterRequest) : NamedTensors ℝ :=
  requests.map fun request => (request.name, .ofFn request.shape fun _ => value)

theorem evenTable_fulfils (value : ℝ) {requests : List ParameterRequest}
    (h : (requests.map (·.name)).Nodup) : (evenTable value requests).Fulfils requests := by
  have hnames : (evenTable value requests).names = requests.map (·.name) :=
    NamedTensors.names_of_requests
  refine ⟨.of_eq hnames, fun request hrequest => ?_⟩
  have hin : (request.name, Tensor.ofFn request.shape fun _ => value) ∈ evenTable value requests :=
    List.mem_map_of_mem hrequest
  exact ⟨_, NamedTensors.get?_of_mem (hnames ▸ h) hin, rfl, rfl⟩

attribute [local instance] WorkerPool.inTurn

/-- Parameters that are all one come back in place of zeros, though one of them is mapped to a name
that was not saved. -/
theorem Storage.restore_saved_ones :
    let path : Location := ⟨"checkpoints", "ones"⟩
    let nameMap := [("feature.inner1.weight", "weight")]
    ∃ (b : Blueprint ℝ (Estimator ℝ ℝ)) (saved : Storage ℝ) (estimator restored : Estimator ℝ ℝ)
      (table' : NamedTensors ℝ) (summary : LoadSummary),
      (Settings.default : Settings ℝ).validate = .ok () ∧
      Estimator.blueprint Settings.default = .ok b ∧ (evenTable 1 b.requests).Fulfils b.requests ∧
      (Storage.withFolder "checkpoints").save path (evenTable 1 b.requests) = .ok saved ∧
      Estimator.build Settings.default (evenTable 1 b.requests).source = .ok estimator ∧
      saved.restore path Settings.default nameMap
        (fun request => .ofFn request.shape fun _ => 0) = .ok (restored, table', summary) ∧
      summary.missing = [] ∧
      ∀ name, table'.get? name = (evenTable 1 b.requests).get? name := by
  intro path nameMap
  have hvalid : (Settings.default : Settings ℝ).validate = .ok () := Settings.validate_default
  obtain ⟨b, hb, hall⟩ := restore_saved (α := ℝ) hvalid
  have htable := evenTable_fulfils 1 (Estimator.names_nodup hb)
  have hmap : ∀ name target, nameMap.lookup name = some target →
      target ∉ (evenTable 1 b.requests).names ∨ target = name := by
    intro name target htarget
    obtain rfl : target = "weight" := by
      simp only [nameMap, List.lookup_cons, List.lookup_nil] at htarget
      split at htarget
      · exact (Option.some.inj htarget).symm
      · cases htarget
    refine .inl ?_
    rw [htable.names.mem_iff]
    intro hname
    obtain ⟨request, hrequest, heq⟩ := List.mem_map.1 hname
    exact Estimator.name_ne hb hrequest (by decide) heq
  obtain ⟨estimator, restored, table', summary, hbuild, hrestore, hcomplete, -, -, -, hget, -⟩ :=
    hall (evenTable 1 b.requests) htable (.withFolder "checkpoints") _ path nameMap
      (fun request => .ofFn request.shape fun _ => 0) rfl hmap fun _ => rfl
  exact ⟨b, _, estimator, restored, table', summary, hvalid, hb, htable, rfl,
    hbuild, hrestore, List.isEmpty_iff.1 hcomplete, hget⟩

end Examples

end MultiViewDepth
