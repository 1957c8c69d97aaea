import MultiViewDepth.Proofs.Rounds
import MultiViewDepth.Proofs.SavedEstimators

/-!
Parameters of one estimator in another one whose settings differ in how it searches.

What an estimator asks for depends on the channels, groups and neighbors of its stages. The other
settings count in one place only: a stage in which neighbors never lend their depth has no predictor
for their offsets. Lending never happens in the last iteration of the final stage, so the number of
its iterations decides there, and only there, whether the predictor is missing.
-/
namespace MultiViewDepth

section Settings

variable {δ : Type}

/-- Settings of a stage that give its parameters the same shapes. -/
structure StageSettings.SameShapes (settings settings' : StageSettings δ) : Prop where
  features : settings'.features = settings.features
  groups : settings'.groups = settings.groups
  lenders : settings'.lenders = settings.lenders
  supporters : settings'.supporters = settings.supporters

structure Settings.SameShapes (settings settings' : Settings δ) : Prop where
  coarse : settings.coarse.SameShapes settings'.coarse
  middle : settings.middle.SameShapes settings'.middle
  fine : settings.fine.SameShapes settings'.fine

end Settings

section Requests

def Stage.predictorRequests (scope : String) (features neighbors : Nat) : List ParameterRequest :=
  [⟨dotted scope "weight", [2 * neighbors, features, 3, 3]⟩, ⟨dotted scope "bias", [2 * neighbors]⟩]

variable {α δ : Type} [Scalar α] [Scalar δ]

def StageSettings.lendingRequests (settings : StageSettings δ) (final : Bool) (scope : String) :
    List ParameterRequest :=
  if settings.lends final then
    Stage.predictorRequests (dotted scope "propagation_conv") settings.features settings.lenders
  else []

namespace StageSettings.SameShapes

variable {settings settings' : StageSettings δ}

omit [Scalar α] [Scalar δ] in
theorem lendingRequests_eq (h : settings.SameShapes settings') {final : Bool}
    (hlends : settings'.lends final = settings.lends final) (scope : String) :
    settings'.lendingRequests final scope = settings.lendingRequests final scope := by
  rw [lendingRequests, lendingRequests, hlends, h.features, h.lenders]

omit [Scalar α] [Scalar δ] in
theorem lendingRequests_subset (h : settings.SameShapes settings') {final : Bool}
    (hlends : settings'.lends final = true → settings.lends final = true) (scope : String) :
    settings'.lendingRequests final scope ⊆ settings.lendingRequests final scope := by
  by_cases hlend : settings'.lends final = true
  · rw [h.lendingRequests_eq (hlend.trans (hlends hlend).symm)]
    exact List.Subset.refl _
  · rw [lendingRequests, if_neg hlend]
    exact List.nil_subset _

omit [Scalar α] in
/-- A stage that is not the final one asks for the same whatever its iterations are. -/
theorem lendingRequests_early (h : settings.SameShapes settings') (hvalid : settings.Valid)
    (hvalid' : settings'.Valid) (scope : String) :
    settings'.lendingRequests false scope = settings.lendingRequests false scope := by
  refine h.lendingRequests_eq ?_ scope
  rw [lends_of_lt hvalid'.iterations_pos (by simp), lends_of_lt hvalid.iterations_pos (by simp),
    h.lenders]

end StageSettings.SameShapes

omit [Scalar δ] in
theorem Stage.requests_offsetPredictor (scope : String) (features neighbors range : Nat) :
    (offsetPredictor scope features neighbors range : Blueprint α _).requests =
      predictorRequests scope features neighbors := rfl

omit [Scalar δ] in
/-- Behind the requests for its lenders, a stage asks for the same under other such settings. -/
theorem Stage.exists_requests {settings settings' : StageSettings δ}
    (h : settings.SameShapes settings') (patterns : settings.Patterns)
    (patterns' : settings'.Patterns) (index : Nat) (final parallel parallel' : Bool)
    (scope : String) :
    ∃ common, (parts patterns index final parallel scope : Blueprint α _).requests =
        settings.lendingRequests final scope ++ common ∧
      (parts patterns' index final parallel' scope : Blueprint α _).requests =
        settings'.lendingRequests final scope ++ common := by
  refine ⟨predictorRequests (dotted scope "evaluation_conv") settings.features
      settings.supporters ++
    (Matcher.blueprint (dotted scope "evaluation") settings.groups (index == 0) parallel :
      Blueprint α _).requests ++
    (costNetwork (dotted scope "feature_weight_net.feature_weight") settings.groups .sigmoid :
      Blueprint α _).requests, ?_, ?_⟩
  · simp only [parts, Blueprint.requests_seq, Blueprint.requests_map, Blueprint.onlyIf_requests,
      requests_offsetPredictor, StageSettings.lendingRequests, List.append_assoc]
  · simp only [parts, Blueprint.requests_seq, Blueprint.requests_map, Blueprint.onlyIf_requests,
      requests_offsetPredictor, StageSettings.lendingRequests, List.append_assoc, h.features,
      h.groups, h.supporters, Matcher.blueprint]

/-- The requests of estimators under such settings differ at most in those for the lenders of the
final stage. -/
theorem Estimator.exists_requests {settings settings' : Settings δ}
    (h : settings.SameShapes settings') {b b' : Blueprint α (Estimator α δ)}
    (hb : blueprint settings = .ok b) (hb' : blueprint settings' = .ok b') :
    ∃ before after,
      b.requests = before ++ (settings.fine.lendingRequests true "patch_match_1" ++ after) ∧
      b'.requests = before ++ (settings'.fine.lendingRequests true "patch_match_1" ++ after) := by
  obtain ⟨hvalid, coarse, middle, fine, rfl⟩ := blueprint_eq_ok hb
  obtain ⟨hvalid', coarse', middle', fine', rfl⟩ := blueprint_eq_ok hb'
  obtain ⟨hvalidCoarse, hvalidMiddle, -⟩ := Settings.validate_eq_ok.1 hvalid
  obtain ⟨hvalidCoarse', hvalidMiddle', -⟩ := Settings.validate_eq_ok.1 hvalid'
  have hcoarse : settings'.coarse.lendingRequests false "patch_match_3" =
      settings.coarse.lendingRequests false "patch_match_3" :=
    h.coarse.lendingRequests_early hvalidCoarse hvalidCoarse' _
  have hmiddle : settings'.middle.lendingRequests false "patch_match_2" =
      settings.middle.lendingRequests false "patch_match_2" :=
    h.middle.lendingRequests_early hvalidMiddle hvalidMiddle' _
  obtain ⟨inCoarse, hc, hc'⟩ := Stage.exists_requests (α := α) h.coarse coarse coarse' 0 false
    settings.parallel settings'.parallel "patch_match_3"
  obtain ⟨inMiddle, hm, hm'⟩ := Stage.exists_requests (α := α) h.middle middle middle' 1 false
    settings.parallel settings'.parallel "patch_match_2"
  obtain ⟨inFine, hf, hf'⟩ := Stage.exists_requests (α := α) h.fine fine fine' 2 true
    settings.parallel settings'.parallel "patch_match_1"
  refine ⟨(FeatureExtractor.blueprint "feature" settings.coarse.features settings.middle.features
      settings.fine.features : Blueprint α _).requests ++
    (settings.coarse.lendingRequests false "patch_match_3" ++ inCoarse ++
      (settings.middle.lendingRequests false "patch_match_2" ++ inMiddle)),
    inFine ++ (Refiner.blueprint "refinement" : Blueprint α _).requests, ?_, ?_⟩
  · simp [Estimator.parts, hc, hm, hf]
  · simp [Estimator.parts, hc', hm', hf', hcoarse, hmiddle, h.coarse.features, h.middle.features,
      h.fine.features]

end Requests

namespace NamedTensors

variable {α δ : Type} [Scalar α] [Scalar δ] [Precision α δ] {table tensors : NamedTensors α}
  {requests requests' : List ParameterRequest}

/-- Values for some requests, loaded into parameters of others that may share any of them. -/
theorem Fulfils.load_shared (h : tensors.Fulfils requests) (h' : table.Fulfils requests')
    (hnodup : (requests'.map (·.name)).Nodup)
    (hshared : ∀ request ∈ requests', request.name ∈ requests.map (·.name) → request ∈ requests) :
    ∃ table' summary, table.load tensors [] = (table', .ok summary) ∧
      summary.missing.Pairwise (· < ·) ∧
      ∀ name, name ∈ summary.missing ↔
        name ∈ requests'.map (·.name) ∧ name ∉ requests.map (·.name) := by
  have hnames : table.names.Nodup := h'.names.nodup_iff.2 hnodup
  have habsent {name : String} (hname : name ∉ requests.map (·.name)) :
      tensors.find [] name = none := get?_eq_none (mt h.names.mem_iff.1 hname)
  have hfound {request : ParameterRequest} (hrequest : request ∈ requests) :
      ∃ value, tensors.find [] request.name = some value ∧ value.shape = request.shape := by
    obtain ⟨value, hget, hshape, -⟩ := h.value request hrequest
    exact ⟨value, hget, hshape⟩
  have hfits : ∀ name ∈ table.names, table.Fits tensors [] name := by
    intro name hname
    obtain ⟨request, hrequest, rfl⟩ := List.mem_map.1 (h'.names.mem_iff.1 hname)
    by_cases hin : request.name ∈ requests.map (·.name)
    · obtain ⟨value, hvalue, hshape⟩ := hfound (hshared request hrequest hin)
      obtain ⟨parameter, hparameter, hshape', -⟩ := h'.value request hrequest
      exact .of_shape hparameter hvalue (hshape.trans hshape'.symm)
    · exact .of_find_eq_none (habsent hin)
  obtain ⟨-, ⟨hsorted, hmissing⟩, -⟩ := summarize_sorted tensors [] hnames
  refine ⟨_, _, loadWith_of_fits hnames hfits, hsorted, fun name => ?_⟩
  rw [hmissing, h'.names.mem_iff]
  refine and_congr_right fun _ => ⟨fun hnone hname => ?_, habsent⟩
  obtain ⟨request, hrequest, rfl⟩ := List.mem_map.1 hname
  obtain ⟨value, hvalue, -⟩ := hfound hrequest
  rw [hnone] at hvalue
  cases hvalue

/-- Nothing is missing where everything asked for was saved. -/
theorem Fulfils.load_fewer (h : tensors.Fulfils requests) (h' : table.Fulfils requests')
    (hnodup : (requests'.map (·.name)).Nodup) (hsub : requests' ⊆ requests) :
    ∃ table' summary, table.load tensors [] = (table', .ok summary) ∧ summary.missing = [] := by
  obtain ⟨table', summary, hload, -, hmissing⟩ :=
    h.load_shared h' hnodup fun request hrequest _ => hsub hrequest
  refine ⟨table', summary, hload, List.eq_nil_iff_forall_not_mem.2 fun name hname => ?_⟩
  obtain ⟨hin, hnot⟩ := (hmissing name).1 hname
  exact hnot (List.map_subset _ hsub hin)

/-- Requests added to those that were saved are what is missing. -/
theorem Fulfils.load_more {before part after : List ParameterRequest}
    (h : tensors.Fulfils (before ++ after)) (h' : table.Fulfils (before ++ (part ++ after)))
    (hnodup : ((before ++ (part ++ after)).map (·.name)).Nodup) :
    ∃ table' summary, table.load tensors [] = (table', .ok summary) ∧
      summary.missing.Pairwise (· < ·) ∧ summary.missing.Perm (part.map (·.name)) := by
  -- The added part first, so that one statement keeps its names apart from all others.
  have hmoved : (part ++ (before ++ after)).Perm (before ++ (part ++ after)) :=
    List.perm_append_comm_assoc part before after
  have hapart := (hmoved.map (·.name)).nodup_iff.2 hnodup
  rw [List.map_append, List.nodup_append] at hapart
  obtain ⟨hpart, -, hapart⟩ := hapart
  have hshared : ∀ request ∈ before ++ (part ++ after),
      request.name ∈ (before ++ after).map (·.name) → request ∈ before ++ after := by
    intro request hrequest hname
    rcases List.mem_append.1 (hmoved.mem_iff.2 hrequest) with hrequest | hrequest
    · exact absurd rfl (hapart _ (List.mem_map_of_mem hrequest) _ hname)
    · exact hrequest
  obtain ⟨table', summary, hload, hsorted, hmissing⟩ := h.load_shared h' hnodup hshared
  refine ⟨table', summary, hload, hsorted, ?_⟩
  have hne : summary.missing.Nodup := hsorted.imp ne_of_lt
  refine (List.perm_ext_iff_of_nodup hne hpart).2 fun name => ?_
  rw [hmissing, ← (hmoved.map (·.name)).mem_iff, List.map_append, List.mem_append]
  constructor
  · rintro ⟨hin, hnot⟩
    exact hin.resolve_right hnot
  · intro hin
    exact ⟨.inl hin, fun hother => hapart name hin name hother rfl⟩

end NamedTensors

section Portability

variable {α δ : Type} [Scalar α] [Scalar δ] [Precision α δ] {settings settings' : Settings δ}

/-- The parameters of an estimator can be loaded into every estimator whose stages have the same
channels, groups and neighbors. What may be missing is the predictor of the final stage: it is,
just when that stage has lenders, used to have a single iteration and now has more. -/
theorem Estimator.load_portable (h : settings.SameShapes settings')
    (hvalid : settings.validate = .ok ()) (hvalid' : settings'.validate = .ok ()) :
    ∃ b b' : Blueprint α (Estimator α δ),
      blueprint settings = .ok b ∧ blueprint settings' = .ok b' ∧
      ∀ saved fresh : NamedTensors α, saved.Fulfils b.requests → fresh.Fulfils b'.requests →
        ∃ table summary, fresh.load saved [] = (table, .ok summary) ∧
          summary.missing =
            if 0 < settings.fine.lenders ∧ settings.fine.iterations = 1 ∧
                2 ≤ settings'.fine.iterations then
              ["patch_match_1.propagation_conv.bias", "patch_match_1.propagation_conv.weight"]
            else [] := by
  obtain ⟨b, hb⟩ := exists_blueprint (α := α) hvalid
  obtain ⟨b', hb'⟩ := exists_blueprint (α := α) hvalid'
  refine ⟨b, b', hb, hb', fun saved fresh hsaved hfresh => ?_⟩
  obtain ⟨before, after, hrequests, hrequests'⟩ := exists_requests h hb hb'
  have hnodup := names_nodup hb'
  obtain ⟨-, -, hfine⟩ := Settings.validate_eq_ok.1 hvalid
  obtain ⟨-, -, hfine'⟩ := Settings.validate_eq_ok.1 hvalid'
  have hpos := hfine.iterations_pos
  have hlends := StageSettings.lends_iff true hpos
  have hlends' := StageSettings.lends_iff true hfine'.iterations_pos
  simp only [forall_const, h.fine.lenders] at hlends hlends'
  split_ifs with hnew
  · obtain ⟨hlenders, hone, htwo⟩ := hnew
    have hwithout : settings.fine.lends true = false := by
      rw [← Bool.not_eq_true, hlends]
      omega
    rw [StageSettings.lendingRequests, hwithout] at hrequests
    rw [StageSettings.lendingRequests, hlends'.2 ⟨hlenders, htwo⟩] at hrequests'
    simp only [Bool.false_eq_true, if_false, if_true, List.nil_append] at hrequests hrequests'
    rw [hrequests] at hsaved
    rw [hrequests'] at hfresh hnodup
    obtain ⟨table, summary, hload, hsorted, hperm⟩ := hsaved.load_more hfresh hnodup
    refine ⟨table, summary, hload, ?_⟩
    refine List.Perm.eq_of_pairwise (fun a b _ _ hab hba => absurd hba hab.asymm) hsorted ?_
      (hperm.trans (.swap ..))
    decide
  · refine hsaved.load_fewer hfresh hnodup fun request hrequest => ?_
    have hlend : settings'.fine.lends true = true → settings.fine.lends true = true := by
      rw [hlends, hlends']
      omega
    have hkept := h.fine.lendingRequests_subset hlend "patch_match_1"
    rw [hrequests', List.mem_append, List.mem_append] at hrequest
    rw [hrequests, List.mem_append, List.mem_append]
    exact hrequest.imp_right (Or.imp_left (@hkept request))

end Portability

section Examples

/-- The default settings, but for some lenders in the final stage and for how it searches. -/
noncomputable def Settings.lendingLast (iterations samples range : Nat) : Settings ℝ :=
  let fine : StageSettings ℝ := .fine
  let lending := { fine with iterations, samples, range, lenders := 8 }
  { (Settings.default : Settings ℝ) with fine := lending }

theorem Settings.validate_lendingLast {iterations samples range : Nat}
    (hiterations : 0 < iterations) (hsamples : 0 < samples) (hrange : 0 < range) :
    (lendingLast iterations samples range).validate = .ok () := by
  obtain ⟨hcoarse, hmiddle, hfine⟩ := Settings.validate_eq_ok.1 Settings.validate_default
  exact Settings.validate_eq_ok.2 ⟨hcoarse, hmiddle, hiterations, hsamples, hfine.interval_pos,
    hfine.interval_finite, hrange, hfine.groups_ne_zero, hfine.features_mod, ⟨_, _, rfl, rfl⟩⟩

/-- The predictor of the final stage is missing when a second iteration is added. -/
theorem Estimator.load_portable_lendingLast :
    ∃ (b b' : Blueprint ℝ (Estimator ℝ ℝ)) (table : NamedTensors ℝ) (summary : LoadSummary),
      (Settings.lendingLast 1 8 6).SameShapes (.lendingLast 2 5 3) ∧
      (Settings.lendingLast 1 8 6).validate = .ok () ∧
      (Settings.lendingLast 2 5 3).validate = .ok () ∧
      blueprint (Settings.lendingLast 1 8 6) = .ok b ∧
      blueprint (Settings.lendingLast 2 5 3) = .ok b' ∧
      (evenTable 1 b.requests).Fulfils b.requests ∧
      (evenTable 0 b'.requests).Fulfils b'.requests ∧
      (evenTable 0 b'.requests).load (evenTable 1 b.requests) [] = (table, .ok summary) ∧
      summary.missing =
        ["patch_match_1.propagation_conv.bias", "patch_match_1.propagation_conv.weight"] := by
  have hsame : (Settings.lendingLast 1 8 6).SameShapes (.lendingLast 2 5 3) :=
    ⟨⟨rfl, rfl, rfl, rfl⟩, ⟨rfl, rfl, rfl, rfl⟩, ⟨rfl, rfl, rfl, rfl⟩⟩
  have hvalid : (Settings.lendingLast 1 8 6).validate = .ok () :=
    Settings.validate_lendingLast (by decide) (by decide) (by decide)
  have hvalid' : (Settings.lendingLast 2 5 3).validate = .ok () :=
    Settings.validate_lendingLast (by decide) (by decide) (by decide)
  obtain ⟨b, b', hb, hb', hload⟩ := load_portable (α := ℝ) hsame hvalid hvalid'
  have hsaved := evenTable_fulfils 1 (names_nodup hb)
  have hfresh := evenTable_fulfils 0 (names_nodup hb')
  obtain ⟨table, summary, hrun, hmissing⟩ := hload _ _ hsaved hfresh
  refine ⟨b, b', table, summary, hsame, hvalid, hvalid', hb, hb', hsaved, hfresh, hrun, ?_⟩
  rw [hmissing, if_pos]
  decide

end Examples

end MultiViewDepth
