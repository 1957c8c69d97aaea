import MultiViewDepth.Proofs.Assembly

/-!
Parts that are built from the same parameters.

A part depends only on the answers to its own requests. Where two parts ask one source, the one
that asks for less finds what the other found.
-/
namespace MultiViewDepth

namespace Blueprint

section Local

variable {α β γ : Type}

/-- The part depends only on the answers to its own requests. -/
def Local (b : Blueprint α β) : Prop :=
  ∀ answers answers' : String → Tensor α,
    (∀ request ∈ b.requests, answers request.name = answers' request.name) →
      b.assemble answers = b.assemble answers'

namespace Local

theorem parameter (name : String) (shape : List Nat) :
    (Blueprint.parameter name shape : Blueprint α (Tensor α)).Local := by
  intro answers answers' h
  exact h ⟨name, shape⟩ (by simp)

theorem map {b : Blueprint α β} (h : b.Local) (f : β → γ) : (f <$> b).Local := by
  intro answers answers' hagree
  exact congrArg f (h answers answers' hagree)

theorem seq {f : Blueprint α (β → γ)} {x : Blueprint α β} (hf : f.Local) (hx : x.Local) :
    (f <*> x).Local := by
  intro answers answers' hagree
  simp only [requests_seq, List.mem_append] at hagree
  rw [assemble_seq, assemble_seq, hf _ _ fun request hr => hagree request (.inl hr),
    hx _ _ fun request hr => hagree request (.inr hr)]

theorem onlyIf {b : Blueprint α β} (h : b.Local) (condition : Bool) :
    (Blueprint.onlyIf condition b).Local := by
  cases condition with
  | false => exact fun _ _ _ => rfl
  | true => exact h.map some

end Local

end Local

end Blueprint

section Layers

open Blueprint

variable {α : Type} [Scalar α]

omit [Scalar α] in
theorem normalization_local (scope : String) (channels : Nat) :
    (Normalization.blueprint scope channels : Blueprint α _).Local :=
  ((((Local.parameter _ _).map _).seq (.parameter _ _)).seq (.parameter _ _)).seq (.parameter _ _)

theorem convolutionWithBias_local (scope : String) (inputs outputs kernel : Nat)
    (stride : Stride) :
    (Convolution.blueprintWithBias scope inputs outputs kernel stride : Blueprint α _).Local :=
  ((Local.parameter _ _).map _).seq (.parameter _ _)

theorem voxelwiseBlock_local (scope : String) (inputs outputs : Nat) :
    (Voxelwise.block scope inputs outputs : Blueprint α _).Local :=
  (((Local.parameter _ _).map Voxelwise.apply).map _).seq (normalization_local _ _)

theorem costNetwork_local (scope : String) (groups : Nat) (activation : Activation) :
    (costNetwork scope groups activation : Blueprint α _).Local :=
  (((voxelwiseBlock_local _ _ _).map _).seq (voxelwiseBlock_local _ _ _)).seq
    (((Local.parameter _ _).map _).seq (.parameter _ _))

theorem matcher_local (scope : String) (groups : Nat) (ratesViews parallel : Bool) :
    (Matcher.blueprint scope groups ratesViews parallel : Blueprint α _).Local :=
  (((costNetwork_local _ _ _).onlyIf _).map _).seq (costNetwork_local _ _ _)

end Layers

section Build

variable {α β γ δ : Type} [Scalar α] [Scalar δ] [Precision α δ] {source : ParameterSource α}

/-- One source gives every request one answer. -/
theorem AnsweredBy.agree {requests requests' : List ParameterRequest}
    {answers answers' : String → Tensor α} (h : AnsweredBy source requests answers)
    (h' : AnsweredBy source requests' answers') {request : ParameterRequest}
    (hr : request ∈ requests) (hr' : request ∈ requests') :
    answers request.name = answers' request.name := by
  obtain ⟨t, ht, -, heq⟩ := h request hr
  obtain ⟨t', ht', -, heq'⟩ := h' request hr'
  rw [heq, heq', Option.some.inj (ht.symm.trans ht')]

/-- A part that asks for no more than is answered is put together from the same answers. -/
theorem Blueprint.build_of_answered {b : Blueprint α β} {requests : List ParameterRequest}
    {answers : String → Tensor α} (h : AnsweredBy source requests answers)
    (hsub : b.requests ⊆ requests) (hlocal : b.Local)
    (hnames : (b.requests.map (·.name)).Nodup) : b.build source = .ok (b.assemble answers) := by
  obtain ⟨part, hpart⟩ : ∃ part, b.build source = .ok part := by
    refine Blueprint.exists_build fun request hr => ?_
    obtain ⟨t, ht, hshape, -⟩ := h request (hsub hr)
    exact ⟨t, ht, hshape⟩
  obtain ⟨answers', h', rfl⟩ := Blueprint.exists_answers hnames hpart
  rw [hpart, hlocal answers answers' fun request hr => h.agree h' (hsub hr) hr]

/-- Parts with the same requests fail alike. -/
theorem Blueprint.build_error {b : Blueprint α β} {b' : Blueprint α γ}
    (hrequests : b'.requests = b.requests) {failure : Failure}
    (h : b.build source = .error failure) : b'.build source = .error failure := by
  simp only [Blueprint.build, hrequests] at h ⊢
  cases hanswers : b.requests.mapM (answer source) with
  | error e =>
    rw [hanswers] at h
    cases h
    rfl
  | ok entries =>
    rw [hanswers] at h
    cases h

end Build

end MultiViewDepth
