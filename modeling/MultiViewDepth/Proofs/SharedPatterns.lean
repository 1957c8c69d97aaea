import MultiViewDepth.Neighbors.PatternTable
import Mathlib.Logic.Function.Basic
import Mathlib.Logic.Relation

/-!
Threads that share a table of patterns.

A thread holds the table while it looks a pattern up or builds it, so requests come one after
another, in an order that nobody knows. Whatever was asked before, a request is answered as if its
pattern were built anew, and the table only grows.
-/
namespace MultiViewDepth

structure PatternRequest where
  role : NeighborUse
  count : Nat
  dilation : Nat

namespace PatternRequest

def key (r : PatternRequest) : PatternKey := ⟨r.role, r.count, Int32.ofNat r.dilation⟩

def build (r : PatternRequest) : Result Pattern := Pattern.build r.role r.count r.dilation

def ask (r : PatternRequest) (table : PatternTable) : Result Pattern × PatternTable :=
  table.request r.role r.count r.dilation

variable {r : PatternRequest} {table : PatternTable} {key : PatternKey} {pattern : Pattern}
  {failure : Failure}

theorem ask_eq (r : PatternRequest) (table : PatternTable) :
    r.ask table = match table.lookup r.key with
      | some pattern => (.ok pattern, table)
      | none => match r.build with
        | .ok pattern => (.ok pattern, ⟨(r.key, pattern) :: table.entries⟩)
        | .error failure => (.error failure, table) :=
  rfl

/-- A pattern is found, or it is built and entered, or it cannot be built. -/
theorem ask_cases (r : PatternRequest) (table : PatternTable) :
    (∃ pattern, table.lookup r.key = some pattern ∧ r.ask table = (.ok pattern, table)) ∨
      (∃ pattern, table.lookup r.key = none ∧ r.build = .ok pattern ∧
        r.ask table = (.ok pattern, ⟨(r.key, pattern) :: table.entries⟩)) ∨
      ∃ failure, table.lookup r.key = none ∧ r.build = .error failure ∧
        r.ask table = (.error failure, table) := by
  rw [ask_eq]
  cases hfound : table.lookup r.key with
  | some pattern => exact .inl ⟨pattern, rfl, rfl⟩
  | none =>
    cases hbuilt : r.build with
    | ok pattern => exact .inr (.inl ⟨pattern, rfl, rfl, rfl⟩)
    | error failure => exact .inr (.inr ⟨failure, rfl, rfl, rfl⟩)

theorem answer_eq (h : table.Faithful) (r : PatternRequest) : (r.ask table).1 = r.build :=
  PatternTable.request_fst h r.role r.count r.dilation

/-- Where a table has an entry, it keeps this entry. -/
theorem lookup_ask (h : table.lookup key = some pattern) (r : PatternRequest) :
    (r.ask table).2.lookup key = some pattern := by
  obtain ⟨found, -, heq⟩ | ⟨built, hnone, -, heq⟩ | ⟨failure, -, -, heq⟩ := r.ask_cases table
  · rwa [heq]
  · have hne : key ≠ r.key := by
      rintro rfl
      rw [h] at hnone
      cases hnone
    rw [heq, PatternTable.lookup, List.lookup_cons, beq_false_of_ne hne]
    exact h
  · rwa [heq]

theorem faithful_ask (h : table.Faithful) (r : PatternRequest) : (r.ask table).2.Faithful := by
  obtain ⟨found, -, heq⟩ | ⟨built, -, hbuilt, heq⟩ | ⟨failure, -, -, heq⟩ := r.ask_cases table
  · rwa [heq]
  · intro key pattern hkey
    rw [heq, PatternTable.lookup, List.lookup_cons] at hkey
    split at hkey
    next hsame =>
      obtain rfl : key = r.key := eq_of_beq hsame
      obtain rfl : built = pattern := Option.some.inj hkey
      exact hbuilt
    next => exact h key pattern hkey
  · rwa [heq]

/-- What cannot be built is not entered. -/
theorem table_of_refused (hrefused : r.build = .error failure) : (r.ask table).2 = table := by
  obtain ⟨found, -, heq⟩ | ⟨built, -, hbuilt, -⟩ | ⟨failure, -, -, heq⟩ := r.ask_cases table
  · rw [heq]
  · rw [hbuilt] at hrefused
    cases hrefused
  · rw [heq]

/-- What can be built has an entry from then on. -/
theorem lookup_of_built (h : table.Faithful) (hbuilt : r.build = .ok pattern) :
    (r.ask table).2.lookup r.key = some pattern := by
  have hanswer := answer_eq h r
  rw [hbuilt] at hanswer
  obtain ⟨found, hfound, heq⟩ | ⟨built, -, -, heq⟩ | ⟨failure, -, -, heq⟩ := r.ask_cases table
  · rw [heq] at hanswer ⊢
    obtain rfl : found = pattern := Except.ok.inj hanswer
    exact hfound
  · rw [heq] at hanswer ⊢
    obtain rfl : built = pattern := Except.ok.inj hanswer
    rw [PatternTable.lookup, List.lookup_cons_self]
  · rw [heq] at hanswer
    cases hanswer

end PatternRequest

/-- Threads with the requests that they have yet to make and the answers that they got. -/
structure PatternThreads (ι : Type) where
  table : PatternTable
  waiting : ι → List PatternRequest
  answers : ι → List (Result Pattern)

namespace PatternThreads

variable {ι : Type} [DecidableEq ι]

def start (programs : ι → List PatternRequest) : PatternThreads ι :=
  ⟨.empty, programs, fun _ => []⟩

/-- Thread `i` holds the table and makes its next request. -/
def serve (s : PatternThreads ι) (i : ι) (r : PatternRequest) (rest : List PatternRequest) :
    PatternThreads ι where
  table := (r.ask s.table).2
  waiting := Function.update s.waiting i rest
  answers := Function.update s.answers i (s.answers i ++ [(r.ask s.table).1])

inductive Step : PatternThreads ι → PatternThreads ι → Prop
  | serve {s : PatternThreads ι} {i : ι} {r : PatternRequest} {rest : List PatternRequest}
      (h : s.waiting i = r :: rest) : Step s (s.serve i r rest)

variable {programs : ι → List PatternRequest} {s s' : PatternThreads ι}

/-- The table is faithful, and every answer so far is what building the pattern anew gives. -/
structure Transparent (programs : ι → List PatternRequest) (s : PatternThreads ι) : Prop where
  faithful : s.table.Faithful
  answered : ∀ i, ∃ made, programs i = made ++ s.waiting i ∧
    s.answers i = made.map PatternRequest.build

omit [DecidableEq ι] in
theorem transparent_start (programs : ι → List PatternRequest) :
    Transparent programs (start programs) :=
  ⟨PatternTable.faithful_empty, fun _ => ⟨[], rfl, rfl⟩⟩

theorem Transparent.step (h : Transparent programs s) (hstep : Step s s') :
    Transparent programs s' := by
  cases hstep with
  | @serve i r rest hnext =>
    refine ⟨PatternRequest.faithful_ask h.faithful r, fun j => ?_⟩
    obtain ⟨made, hprogram, hanswers⟩ := h.answered j
    by_cases hj : j = i
    · subst hj
      refine ⟨made ++ [r], ?_, ?_⟩
      · rw [hprogram, hnext]
        simp [serve]
      · simp [serve, hanswers, PatternRequest.answer_eq h.faithful]
    · exact ⟨made, by simpa [serve, hj] using hprogram, by simpa [serve, hj] using hanswers⟩

theorem Transparent.run (h : Transparent programs s) (hrun : Relation.ReflTransGen Step s s') :
    Transparent programs s' := by
  induction hrun with
  | refl => exact h
  | tail _ hstep ih => exact ih.step hstep

/-- Entries stay as they are, whatever is asked later. -/
theorem lookup_run (hrun : Relation.ReflTransGen Step s s') {key : PatternKey} {pattern : Pattern}
    (h : s.table.lookup key = some pattern) : s'.table.lookup key = some pattern := by
  induction hrun with
  | refl => exact h
  | tail _ hstep ih =>
    cases hstep with
    | serve => exact PatternRequest.lookup_ask ih _

/-- However the requests of the threads interleave, every answer is what building the pattern anew
gives, and no thread is kept waiting. A request that fails leaves the table as it is, one that
succeeds has an entry afterwards, and entries stay as they are. -/
theorem requests_transparent (programs : ι → List PatternRequest)
    (hrun : Relation.ReflTransGen Step (start programs) s) :
    (∀ i, ∃ made, programs i = made ++ s.waiting i ∧
      s.answers i = made.map PatternRequest.build) ∧
    (∀ i, s.waiting i ≠ [] → ∃ s', Step s s' ∧ s'.waiting i = (s.waiting i).tail) ∧
    (∀ s', Step s s' → ∃ i r, s.waiting i = r :: s'.waiting i ∧
      s'.answers i = s.answers i ++ [r.build] ∧
      (∀ failure, r.build = .error failure → s'.table = s.table) ∧
      ∀ pattern, r.build = .ok pattern → s'.table.lookup r.key = some pattern) ∧
    ∀ s', Relation.ReflTransGen Step s s' → ∀ key pattern,
      s.table.lookup key = some pattern → s'.table.lookup key = some pattern := by
  have htransparent := (transparent_start programs).run hrun
  have hfaithful := htransparent.faithful
  refine ⟨htransparent.answered, fun i hwaiting => ?_, fun s' hstep => ?_,
    fun s' hlater key pattern hkey => lookup_run hlater hkey⟩
  · obtain ⟨r, rest, hnext⟩ := List.exists_cons_of_ne_nil hwaiting
    exact ⟨s.serve i r rest, .serve hnext, by simp [serve, hnext]⟩
  · cases hstep with
    | @serve i r rest hnext =>
      refine ⟨i, r, by simpa [serve] using hnext, ?_,
        fun failure hrefused => PatternRequest.table_of_refused hrefused,
        fun pattern hbuilt => PatternRequest.lookup_of_built hfaithful hbuilt⟩
      simp [serve, PatternRequest.answer_eq hfaithful]

/-- One thread asks for a distance that 32 bits do not tell from 1 and for a pattern that there is
not, the other one for neighbors at distance 1. -/
def crossing : Bool → List PatternRequest
  | false => [⟨.propagation, 8, 4294967297⟩, ⟨.propagation, 6, 1⟩]
  | true => [⟨.propagation, 8, 1⟩]

theorem requests_transparent_crossing :
    ∃ s, Relation.ReflTransGen Step (start crossing) s ∧ (∀ i, s.waiting i = []) ∧
      s.answers false =
        [.ok (Pattern.ring 1), .error (.unsupportedNeighbors .propagation 6)] ∧
      s.answers true = [.ok (Pattern.ring 1)] := by
  have hfirst : Relation.ReflTransGen Step (start crossing) _ := .single (.serve (i := false) rfl)
  have hsecond := hfirst.tail (.serve (i := true) rfl)
  have hrun := hsecond.tail (.serve (i := false) rfl)
  obtain ⟨hanswered, -⟩ := requests_transparent crossing hrun
  obtain ⟨made, hprogram, hanswers⟩ := hanswered false
  obtain ⟨made', hprogram', hanswers'⟩ := hanswered true
  obtain rfl : crossing false = made := hprogram.trans (List.append_nil made)
  obtain rfl : crossing true = made' := hprogram'.trans (List.append_nil made')
  exact ⟨_, hrun, Bool.rec rfl rfl, hanswers, hanswers'⟩

end PatternThreads

end MultiViewDepth
