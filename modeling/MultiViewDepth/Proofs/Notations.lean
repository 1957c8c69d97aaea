import MultiViewDepth.Proofs.Exact
import MultiViewDepth.Settings.Json

/-!
The notations of settings and depth ranges.

An object gives settings by name, in any order and among fields of other names; a list gives them
by place. What is read depends on the given values alone, and what is written is read back.
-/
namespace MultiViewDepth

variable {δ : Type}

namespace Json

variable {fields : List (String × Json δ)} {name : String} {value : Json δ} {β : Type}
  {missing x : β} {type : Json δ → Option β}

section Values

@[simp] theorem values_nil : values ([] : List (String × Json δ)) name = [] := rfl

theorem values_cons_self : values ((name, value) :: fields) name = value :: values fields name := by
  simp [values]

theorem values_cons_of_ne {other : String} (h : other ≠ name) :
    values ((other, value) :: fields) name = values fields name := by
  simp [values, h]

theorem values_perm {fields' : List (String × Json δ)} (h : fields.Perm fields') :
    (values fields name).Perm (values fields' name) :=
  h.filterMap _

/-- Fields of other names make no difference. -/
theorem values_filter {p : String → Bool} (h : p name = true) :
    values (fields.filter fun entry => p entry.1) name = values fields name := by
  rw [values, List.filterMap_filter]
  refine List.filterMap_congr fun entry _ => ?_
  by_cases hname : entry.1 = name
  · simp [hname, h]
  · simp [hname]

theorem values_of_notMem (h : name ∉ fields.map Prod.fst) : values fields name = [] := by
  refine List.filterMap_eq_nil_iff.2 fun entry hentry => if_neg ?_
  rintro rfl
  exact h (List.mem_map_of_mem hentry)

/-- A field of an object without repeated names. -/
theorem values_of_mem (hnodup : (fields.map Prod.fst).Nodup) (h : (name, value) ∈ fields) :
    values fields name = [value] := by
  induction fields with
  | nil => cases h
  | cons entry fields ih =>
    obtain ⟨hnot, hrest⟩ := List.nodup_cons.1 hnodup
    rcases List.mem_cons.1 h with rfl | hmem
    · rw [values_cons_self, values_of_notMem hnot]
    · have hne : entry.1 ≠ name := by
        rintro rfl
        exact hnot (List.mem_map.2 ⟨_, hmem, rfl⟩)
      exact (values_cons_of_ne hne).trans (ih hrest hmem)

/-- Values given by place are those of the names in these places. -/
theorem values_zip {names : List String} (hnodup : names.Nodup) {place : Nat}
    (hplace : names[place]? = some name) (items : List (Json δ)) :
    values (names.zip items) name = items[place]?.toList := by
  induction names generalizing place items with
  | nil => simp at hplace
  | cons first names ih =>
    obtain ⟨hnot, hrest⟩ := List.nodup_cons.1 hnodup
    cases items with
    | nil => simp
    | cons item items =>
      cases place with
      | zero =>
        obtain rfl : first = name := by simpa using hplace
        have habsent : first ∉ (names.zip items).map Prod.fst := by
          intro hmem
          obtain ⟨entry, hentry, rfl⟩ := List.mem_map.1 hmem
          exact hnot (List.of_mem_zip hentry).1
        simp [values_cons_self, values_of_notMem habsent]
      | succ place =>
        have hplace : names[place]? = some name := by simpa using hplace
        have hne : first ≠ name := by
          rintro rfl
          exact hnot (List.mem_of_getElem? hplace)
        simpa [values_cons_of_ne hne] using ih hrest hplace items

end Values

section Fields

def known (names : List String) (fields : List (String × Json δ)) : List (String × Json δ) :=
  fields.filter fun entry => decide (entry.1 ∈ names)

/-- A field of an object that has the chosen ones of some fields, and others of other names. -/
theorem field_chosen {chosen : String → Bool} (all : List (String × Json δ))
    (hnodup : (all.map Prod.fst).Nodup)
    (h : (known (all.map Prod.fst) fields).Perm (all.filter fun entry => chosen entry.1))
    (hmem : (name, value) ∈ all) (hread : type value = some x) :
    field fields name missing type = some (if chosen name then x else missing) := by
  have hname : name ∈ all.map Prod.fst := List.mem_map.2 ⟨_, hmem, rfl⟩
  have hknown : values (known (all.map Prod.fst) fields) name = values fields name :=
    values_filter (p := fun name => decide (name ∈ all.map Prod.fst)) (decide_eq_true hname)
  have hperm : (values fields name).Perm
      (values (all.filter fun entry => chosen entry.1) name) := hknown ▸ values_perm h
  by_cases hchosen : chosen name = true
  · rw [values_filter hchosen, values_of_mem hnodup hmem] at hperm
    simp only [field, List.perm_singleton.1 hperm, hread, if_pos hchosen]
  · have habsent : name ∉ (all.filter fun entry => chosen entry.1).map Prod.fst := by
      intro hin
      obtain ⟨entry, hentry, rfl⟩ := List.mem_map.1 hin
      exact hchosen (List.mem_filter.1 hentry).2
    rw [values_of_notMem habsent] at hperm
    simp only [field, hperm.eq_nil, if_neg hchosen]

theorem field_zip {names : List String} (hnodup : names.Nodup) {place : Nat}
    (hplace : names[place]? = some name) (items : List (Json δ)) (missing : β)
    (type : Json δ → Option β) :
    field (names.zip items) name missing type = item items place missing type := by
  rw [field, item, values_zip hnodup hplace]
  cases items[place]? <;> rfl

theorem known_self (fields : List (String × Json δ)) :
    known (fields.map Prod.fst) fields = fields.filter fun _ => true :=
  List.filter_congr fun _ hentry => decide_eq_true (List.mem_map_of_mem hentry)

theorem required?_eq_some : required? fields name = some value ↔ values fields name = [value] := by
  unfold required?
  split
  next h => simp [h]
  next h =>
    simp only [reduceCtorEq, false_iff]
    exact h value

end Fields

section Numbers

theorem natural?_integer {n : Nat} (h : n < 2 ^ 64) : natural? (integer n : Json δ) = some n := by
  have hbounds : (0 : Int) ≤ n ∧ (n : Int) < 18446744073709551616 := by omega
  simp only [natural?, if_pos hbounds, Int.toNat_natCast]

theorem number?_ofNumber [Scalar δ] {x : δ} (h : Scalar.isFinite x = true) :
    number? (ofNumber x) = some x := by
  simp [ofNumber, h, number?]

end Numbers

end Json

namespace StageSettings

variable {settings : StageSettings δ} {interval : Json δ} {fields : List (String × Json δ)}

def fieldNames : List String :=
  ["iterations", "num_samples", "interval_scale", "propagation_range", "propagation_neighbors",
    "evaluation_neighbors", "num_features", "group_correlations"]

theorem fieldNames_nodup : fieldNames.Nodup := by decide

def naturals (settings : StageSettings δ) : List Nat :=
  [settings.iterations, settings.samples, settings.range, settings.lenders, settings.supporters,
    settings.features, settings.groups]

/-- The settings with chosen names, and those of `base` for the others. -/
def select (chosen : String → Bool) (settings base : StageSettings δ) : StageSettings δ where
  iterations := if chosen "iterations" then settings.iterations else base.iterations
  samples := if chosen "num_samples" then settings.samples else base.samples
  interval := if chosen "interval_scale" then settings.interval else base.interval
  range := if chosen "propagation_range" then settings.range else base.range
  lenders := if chosen "propagation_neighbors" then settings.lenders else base.lenders
  supporters := if chosen "evaluation_neighbors" then settings.supporters else base.supporters
  features := if chosen "num_features" then settings.features else base.features
  groups := if chosen "group_correlations" then settings.groups else base.groups

variable [Scalar δ]

/-- Some of the settings, in any order and among other fields, are read over the defaults. -/
theorem ofJson?_object (chosen : String → Bool)
    (hnaturals : ∀ n ∈ settings.naturals, n < 2 ^ 64)
    (hinterval : interval.number? = some settings.interval)
    (hfields : (Json.known fieldNames fields).Perm
      ((settings.fields interval).filter fun entry => chosen entry.1)) :
    ofJson? (.object fields) = some (settings.select chosen middle) := by
  have hnatural (name : String) (n : Nat) (hn : n ∈ settings.naturals)
      (hmem : (name, .integer n) ∈ settings.fields interval) (missing : Nat) :
      Json.field fields name missing Json.natural? = some (if chosen name then n else missing) := by
    have hread := Json.natural?_integer (δ := δ) (hnaturals n hn)
    exact Json.field_chosen (settings.fields interval) fieldNames_nodup hfields hmem hread
  have hnumber (missing : δ) : Json.field fields "interval_scale" missing Json.number? =
      some (if chosen "interval_scale" then settings.interval else missing) :=
    Json.field_chosen (settings.fields interval) fieldNames_nodup hfields
      (by simp [StageSettings.fields]) hinterval
  have hiterations := hnatural "iterations" settings.iterations (by simp [naturals])
    (by simp [StageSettings.fields])
  have hsamples := hnatural "num_samples" settings.samples (by simp [naturals])
    (by simp [StageSettings.fields])
  have hrange := hnatural "propagation_range" settings.range (by simp [naturals])
    (by simp [StageSettings.fields])
  have hlenders := hnatural "propagation_neighbors" settings.lenders (by simp [naturals])
    (by simp [StageSettings.fields])
  have hsupporters := hnatural "evaluation_neighbors" settings.supporters (by simp [naturals])
    (by simp [StageSettings.fields])
  have hfeatures := hnatural "num_features" settings.features (by simp [naturals])
    (by simp [StageSettings.fields])
  have hgroups := hnatural "group_correlations" settings.groups (by simp [naturals])
    (by simp [StageSettings.fields])
  simp only [ofJson?, read, hiterations, hsamples, hnumber, hrange, hlenders, hsupporters,
    hfeatures, hgroups]
  rfl

/-- A list of settings is read as an object that has them under their names. -/
theorem ofJson?_list {items : List (Json δ)} (h : items.length ≤ 8) :
    ofJson? (.list items) = ofJson? (.object (fieldNames.zip items)) := by
  have hfield {β : Type} (place : Nat) {name : String} (hplace : fieldNames[place]? = some name)
      (missing : β) (type : Json δ → Option β) :
      Json.field (fieldNames.zip items) name missing type = Json.item items place missing type :=
    Json.field_zip fieldNames_nodup hplace items missing type
  simp only [ofJson?, if_pos h, read, hfield 0 rfl, hfield 1 rfl, hfield 2 rfl, hfield 3 rfl,
    hfield 4 rfl, hfield 5 rfl, hfield 6 rfl, hfield 7 rfl]

theorem ofJson?_toJson (hnaturals : ∀ n ∈ settings.naturals, n < 2 ^ 64)
    (hfinite : Scalar.isFinite settings.interval = true) :
    ofJson? settings.toJson = some settings := by
  have hknown := Json.known_self (settings.fields (.ofNumber settings.interval))
  exact ofJson?_object (fun _ => true) hnaturals (Json.number?_ofNumber hfinite) (.of_eq hknown)

end StageSettings

namespace Settings

variable {settings : Settings δ} {coarse middle fine : Json δ} {fields : List (String × Json δ)}

def fieldNames : List String := ["stages", "parallel"]

theorem fieldNames_nodup : fieldNames.Nodup := by decide

/-- The stages if they are chosen, and the flag if it is; what is left comes from `base`. -/
def select (chosen : String → Bool) (settings base : Settings δ) : Settings δ :=
  let origin := if chosen "stages" then settings else base
  ⟨origin.coarse, origin.middle, origin.fine,
    if chosen "parallel" then settings.parallel else base.parallel⟩

variable [Scalar δ]

/-- Notations of the three stages of some settings. -/
structure Stages (settings : Settings δ) (coarse middle fine : Json δ) : Prop where
  coarse : StageSettings.ofJson? coarse = some settings.coarse
  middle : StageSettings.ofJson? middle = some settings.middle
  fine : StageSettings.ofJson? fine = some settings.fine

/-- Some of the settings, in any order and among other fields, are read over the defaults. -/
theorem ofJson?_object (chosen : String → Bool) (hstages : settings.Stages coarse middle fine)
    (hfields : (Json.known fieldNames fields).Perm
      ((settings.fields coarse middle fine).filter fun entry => chosen entry.1)) :
    ofJson? (.object fields) = some (settings.select chosen default) := by
  have hthree : stages? (.list [coarse, middle, fine]) =
      some (settings.coarse, settings.middle, settings.fine) := by
    simp [stages?, hstages.coarse, hstages.middle, hstages.fine]
  have hread (missing) : Json.field fields "stages" missing stages? =
      some (if chosen "stages" then (settings.coarse, settings.middle, settings.fine)
        else missing) :=
    Json.field_chosen (settings.fields coarse middle fine) fieldNames_nodup hfields
      (by simp [Settings.fields]) hthree
  have hbool : Json.bool? (.bool settings.parallel : Json δ) = some settings.parallel := rfl
  have hflag (missing) : Json.field fields "parallel" missing Json.bool? =
      some (if chosen "parallel" then settings.parallel else missing) :=
    Json.field_chosen (settings.fields coarse middle fine) fieldNames_nodup hfields
      (by simp [Settings.fields]) hbool
  simp only [ofJson?, read, hread, hflag, select]
  cases chosen "stages" <;> rfl

/-- A list of the stages and the flag is read as an object that has them under their names. -/
theorem ofJson?_list {items : List (Json δ)} (h : items.length ≤ 2) :
    ofJson? (.list items) = ofJson? (.object (fieldNames.zip items)) := by
  have hfield {β : Type} (place : Nat) {name : String} (hplace : fieldNames[place]? = some name)
      (missing : β) (type : Json δ → Option β) :
      Json.field (fieldNames.zip items) name missing type = Json.item items place missing type :=
    Json.field_zip fieldNames_nodup hplace items missing type
  simp only [ofJson?, if_pos h, read, hfield 0 rfl, hfield 1 rfl]

theorem ofJson?_toJson (hnaturals : ∀ stage ∈ settings.stages, ∀ n ∈ stage.naturals, n < 2 ^ 64)
    (hfinite : ∀ stage ∈ settings.stages, Scalar.isFinite stage.interval = true) :
    ofJson? settings.toJson = some settings := by
  have hstage (stage : StageSettings δ) (hstage : stage ∈ settings.stages) :
      StageSettings.ofJson? stage.toJson = some stage :=
    StageSettings.ofJson?_toJson (hnaturals stage hstage) (hfinite stage hstage)
  have hstages : settings.Stages settings.coarse.toJson settings.middle.toJson
      settings.fine.toJson :=
    ⟨hstage _ (by simp [stages]), hstage _ (by simp [stages]), hstage _ (by simp [stages])⟩
  have hknown := Json.known_self (settings.fields settings.coarse.toJson settings.middle.toJson
    settings.fine.toJson)
  exact ofJson?_object (fun _ => true) hstages (.of_eq hknown)

end Settings

section Ranges

variable [Scalar δ]

/-- Finite numbers are ordered, and zero is one of them. -/
structure FinitelyOrdered (δ : Type) [Scalar δ] : Prop where
  zero : Scalar.isFinite (0 : δ) = true
  not_le : ∀ x y : δ, Scalar.isFinite x = true → Scalar.isFinite y = true → (¬ x ≤ y ↔ y < x)

theorem admissibleBounds_iff (h : FinitelyOrdered δ) {near far : δ} :
    AdmissibleBounds near far ↔ (Scalar.isFinite near = true ∧ Scalar.isFinite far = true) ∧
      0 < near ∧ near < far := by
  unfold AdmissibleBounds
  constructor
  · rintro ⟨hnear, hfar, hpos, hlt⟩
    exact ⟨⟨hnear, hfar⟩, (h.not_le _ _ hnear h.zero).1 hpos, (h.not_le _ _ hfar hnear).1 hlt⟩
  · rintro ⟨⟨hnear, hfar⟩, hpos, hlt⟩
    exact ⟨hnear, hfar, (h.not_le _ _ hnear h.zero).2 hpos, (h.not_le _ _ hfar hnear).2 hlt⟩

namespace DepthRange

def GivenBy (near far : δ) : Json δ → Prop
  | .object fields => ∃ low high, Json.values fields "min" = [low] ∧
      Json.values fields "max" = [high] ∧ low.number? = some near ∧ high.number? = some far
  | .list items => ∃ low high, items = [low, high] ∧ low.number? = some near ∧
      high.number? = some far
  | _ => False

theorem of?_eq_some {near far : δ} {range : DepthRange δ} :
    of? near far = some range ↔ range.near = near ∧ range.far = far := by
  rw [← of_eq_ok, of]
  split <;> simp [*]

/-- A range is read from the bounds that a value gives, and from nothing else. -/
theorem ofJson?_eq_some {json : Json δ} {range : DepthRange δ} :
    ofJson? json = some range ↔ GivenBy range.near range.far json := by
  cases json with
  | object fields =>
    simp only [ofJson?, Option.bind_eq_bind, Option.bind_eq_some_iff, Json.required?_eq_some,
      of?_eq_some, GivenBy]
    constructor
    · rintro ⟨low, hlow, _, hnear, high, hhigh, _, hfar, rfl, rfl⟩
      exact ⟨low, high, hlow, hhigh, hnear, hfar⟩
    · rintro ⟨low, high, hlow, hhigh, hnear, hfar⟩
      exact ⟨low, hlow, _, hnear, high, hhigh, _, hfar, rfl, rfl⟩
  | list items =>
    unfold ofJson? GivenBy
    split
    next fields h => cases h
    next low high h =>
      obtain rfl : items = [low, high] := Json.list.inj h
      simp only [Option.bind_eq_bind, Option.bind_eq_some_iff, of?_eq_some]
      constructor
      · rintro ⟨_, hnear, _, hfar, rfl, rfl⟩
        exact ⟨low, high, rfl, hnear, hfar⟩
      · rintro ⟨_, _, heq, hnear, hfar⟩
        cases heq
        exact ⟨_, hnear, _, hfar, rfl, rfl⟩
    next hother =>
      simp only [reduceCtorEq, false_iff]
      rintro ⟨low, high, rfl, -⟩
      exact hother low high rfl
  | _ => simp [ofJson?, GivenBy]

theorem ofJson?_toJson (range : DepthRange δ) : ofJson? range.toJson = some range := by
  obtain ⟨hnear, hfar, -⟩ := range.admissible
  rw [ofJson?_eq_some]
  exact ⟨_, _, by simp [Json.values], by simp [Json.values], Json.number?_ofNumber hnear,
    Json.number?_ofNumber hfar⟩

end DepthRange

end Ranges

section Agreement

variable [Scalar δ]

/-- What is written is read back. Settings may be given by name, in any order and among other
fields, or by place; what is left out is that of the middle stage, and of the default settings for
a whole estimator. A depth range is read from two bounds that are finite and in order, and there is
no other one. -/
theorem notations_agree (h : FinitelyOrdered δ) :
    (∀ settings : Settings δ,
      (∀ stage ∈ settings.stages, ∀ n ∈ stage.naturals, n < 2 ^ 64) →
      (∀ stage ∈ settings.stages, Scalar.isFinite stage.interval = true) →
      Settings.ofJson? settings.toJson = some settings) ∧
    (∀ (settings : StageSettings δ) (interval : Json δ) (chosen : String → Bool)
      (fields : List (String × Json δ)), (∀ n ∈ settings.naturals, n < 2 ^ 64) →
      interval.number? = some settings.interval →
      (Json.known StageSettings.fieldNames fields).Perm
        ((settings.fields interval).filter fun entry => chosen entry.1) →
      StageSettings.ofJson? (.object fields) = some (settings.select chosen .middle)) ∧
    (∀ items : List (Json δ), items.length ≤ 8 →
      StageSettings.ofJson? (.list items) =
        StageSettings.ofJson? (.object (StageSettings.fieldNames.zip items))) ∧
    (∀ (settings : Settings δ) (coarse middle fine : Json δ) (chosen : String → Bool)
      (fields : List (String × Json δ)), settings.Stages coarse middle fine →
      (Json.known Settings.fieldNames fields).Perm
        ((settings.fields coarse middle fine).filter fun entry => chosen entry.1) →
      Settings.ofJson? (.object fields) = some (settings.select chosen .default)) ∧
    (∀ items : List (Json δ), items.length ≤ 2 →
      Settings.ofJson? (.list items) =
        Settings.ofJson? (.object (Settings.fieldNames.zip items))) ∧
    (∀ (json : Json δ) (near far : δ),
      (∃ range, DepthRange.ofJson? json = some range ∧ range.near = near ∧ range.far = far) ↔
        DepthRange.GivenBy near far json ∧
          (Scalar.isFinite near = true ∧ Scalar.isFinite far = true) ∧ 0 < near ∧ near < far) ∧
    ∀ range : DepthRange δ,
      (Scalar.isFinite range.near = true ∧ Scalar.isFinite range.far = true) ∧
        0 < range.near ∧ range.near < range.far ∧
        DepthRange.ofJson? range.toJson = some range := by
  refine ⟨fun _ => Settings.ofJson?_toJson, fun _ _ chosen _ => StageSettings.ofJson?_object chosen,
    fun _ => StageSettings.ofJson?_list, fun _ _ _ _ chosen _ => Settings.ofJson?_object chosen,
    fun _ => Settings.ofJson?_list, fun json near far => ?_, fun range => ?_⟩
  · constructor
    · rintro ⟨range, hread, rfl, rfl⟩
      exact ⟨DepthRange.ofJson?_eq_some.1 hread, (admissibleBounds_iff h).1 range.admissible⟩
    · rintro ⟨hgiven, hbounds⟩
      exact ⟨⟨near, far, (admissibleBounds_iff h).2 hbounds⟩,
        DepthRange.ofJson?_eq_some.2 hgiven, rfl, rfl⟩
  · obtain ⟨hfinite, hpos, hlt⟩ := (admissibleBounds_iff h).1 range.admissible
    exact ⟨hfinite, hpos, hlt, range.ofJson?_toJson⟩

theorem finitelyOrdered_real : FinitelyOrdered ℝ := ⟨rfl, fun _ _ _ _ => not_le⟩

/-- Two settings of a stage in an order of their own and among a field of another name, or by their
places; stages without any settings; a range from two whole numbers. -/
theorem notations_agree_real :
    let stage : StageSettings ℝ := { StageSettings.middle with iterations := 3, samples := 4 }
    FinitelyOrdered ℝ ∧
      Settings.ofJson? (Settings.default : Settings ℝ).toJson = some .default ∧
      StageSettings.ofJson? (.object [("num_samples", .integer 4), ("comment", .null),
        ("iterations", .integer 3)]) = some stage ∧
      StageSettings.ofJson? (.list [.integer 3, .integer 4]) = some stage ∧
      Settings.ofJson? (.list [.list [.object [], .list [], .object []], .bool true] : Json ℝ) =
        some ⟨.middle, .middle, .middle, true⟩ ∧
      ∃ range : DepthRange ℝ, DepthRange.ofJson? (.list [.integer 1, .integer 2]) = some range ∧
        range.near = 1 ∧ range.far = 2 := by
  intro stage
  obtain ⟨hround, hobject, hlist, hstages, hpair, hrange, -⟩ := notations_agree finitelyOrdered_real
  have hstage : stage.select (fun name => name == "iterations" || name == "num_samples") .middle =
      stage := by
    simp [StageSettings.select, stage]
  have hnaturals : ∀ n ∈ stage.naturals, n < 2 ^ 64 := by decide
  have hempty : StageSettings.ofJson? (.object [] : Json ℝ) = some .middle :=
    hobject stage (.decimal stage.interval) (fun _ => false) [] hnaturals rfl
      (by simp [Json.known])
  have hdefault : ∀ stage ∈ (Settings.default : Settings ℝ).stages, ∀ n ∈ stage.naturals,
      n < 2 ^ 64 := by
    simp [Settings.default, Settings.stages, StageSettings.naturals, StageSettings.coarse,
      StageSettings.middle, StageSettings.fine]
  refine ⟨finitelyOrdered_real, hround .default hdefault fun _ _ => rfl, ?_, ?_, ?_, ?_⟩
  · refine (hobject stage (.decimal stage.interval) _ _ hnaturals rfl ?_).trans
      (congrArg some hstage)
    simpa [Json.known, StageSettings.fieldNames, StageSettings.fields, stage] using
      List.Perm.swap ("iterations", Json.integer 3) ("num_samples", Json.integer 4) []
  · refine (hlist [.integer 3, .integer 4] (by simp)).trans ?_
    refine (hobject stage (.decimal stage.interval) _ _ hnaturals rfl (.of_eq ?_)).trans
      (congrArg some hstage)
    simp [Json.known, StageSettings.fieldNames, StageSettings.fields, stage]
  · have hmiddle : (⟨.middle, .middle, .middle, true⟩ : Settings ℝ).Stages (.object []) (.list [])
        (.object []) :=
      ⟨hempty, (hlist [] (by simp)).trans hempty, hempty⟩
    refine (hpair _ (by simp)).trans
      ((hstages _ _ _ _ (fun _ => true) _ hmiddle (.of_eq ?_)).trans ?_)
    · simp [Json.known, Settings.fieldNames, Settings.fields]
    · simp [Settings.select]
  · refine (hrange (.list [.integer 1, .integer 2]) 1 2).2
      ⟨⟨_, _, rfl, ?_, ?_⟩, ⟨rfl, rfl⟩, one_pos, one_lt_two⟩
    · exact congrArg some Int.cast_one
    · exact congrArg some (Int.cast_ofNat 2)

end Agreement

end MultiViewDepth
