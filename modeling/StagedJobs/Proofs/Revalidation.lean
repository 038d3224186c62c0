import StagedJobs.Proofs.Conversion
import StagedJobs.Proofs.LayeredValidation

namespace StagedJobs

open Outcomes

theorem ParamType.coerce_eq_ok_iff {type : ParamType} {name : String} {v w : Value} :
    type.coerce name v = .ok w ↔ type.convert? v = some w := by
  rw [coerce]
  split
  · rename_i hconvert
    simp [hconvert]
  · rename_i hconvert
    split <;> simp [hconvert]

theorem ParameterDraft.conform_eq_ok_iff {name : String} {type : ParamType} {c : Constraints}
    {v w : Value} :
    conform name type c v = .ok w ↔ type.convert? v = some w ∧ c.firstViolated? w = none := by
  rw [conform, bind_eq_ok]
  constructor
  · rintro ⟨converted, hconverted, h⟩
    obtain ⟨_, hcheck, hw⟩ := bind_eq_ok.mp h
    obtain rfl := Except.ok.inj hw
    unfold Constraints.check at hcheck
    refine ⟨ParamType.coerce_eq_ok_iff.mp hconverted, ?_⟩
    split at hcheck
    · simp at hcheck
    · assumption
  · rintro ⟨hconvert, hnone⟩
    refine ⟨w, ParamType.coerce_eq_ok_iff.mpr hconvert, ?_⟩
    rw [Constraints.check, hnone]
    rfl

theorem ParameterDraft.conform_of_conform {name : String} {type : ParamType} {c : Constraints}
    {v w : Value} (h : conform name type c v = .ok w) : conform name type c w = .ok w := by
  obtain ⟨hconvert, hmeets⟩ := conform_eq_ok_iff.mp h
  exact conform_eq_ok_iff.mpr ⟨ParamType.convert?_of_convert? hconvert, hmeets⟩

namespace ParameterSpec

/-- The default is one that a caller could have supplied with the same result. -/
def Settled (s : ParameterSpec) : Prop :=
  ∀ v ∈ s.default, ParameterDraft.conform s.name s.type s.constraints v = .ok v

theorem Built.settled {s : ParameterSpec} (hs : s.Built) : s.Settled := by
  obtain ⟨name, type, settings, hbuild⟩ := hs
  generalize ParameterDraft.ofSettings name type settings = d at hbuild
  obtain ⟨-, -, -, allowed, -, default, hdefault, rfl⟩ :=
    ParameterDraft.build_eq_ok_iff.mp hbuild
  intro v hv
  obtain rfl : default = some v := hv
  rw [ParameterDraft.coerceDefault] at hdefault
  split at hdefault
  · simp at hdefault
  · split at hdefault
    · rename_i hconform
      obtain rfl := Option.some.inj (Except.ok.inj hdefault)
      exact ParameterDraft.conform_of_conform hconform
    · simp at hdefault

/-- The draft of what was built. -/
def redraft (s : ParameterSpec) : ParameterDraft :=
  ⟨s.name, s.type, s.required, s.default, s.description, s.constraints⟩

theorem coerceAllowed_redraft {d : ParameterDraft} {s : ParameterSpec} (hname : s.name = d.name)
    (htype : s.type = d.type) (h : d.coerceAllowed = .ok s.constraints.allowedValues) :
    s.redraft.coerceAllowed = .ok s.constraints.allowedValues := by
  rw [ParameterDraft.coerceAllowed] at h
  simp only [ParameterDraft.coerceAllowed, redraft]
  cases hallowed : s.constraints.allowedValues with
  | none => rfl
  | some values =>
      rw [hallowed] at h
      split at h
      · simp at h
      · split at h
        · rename_i raw _ _ converted hconverted
          obtain rfl : converted = values := by simpa using h
          have hself : ∀ v ∈ converted, s.type.coerce s.name v = .ok v := by
            intro v hv
            obtain ⟨u, -, hu⟩ := exists_of_mem_mapM hconverted hv
            rw [hname, htype, ParamType.coerce_eq_ok_iff]
            exact ParamType.convert?_of_convert? (ParamType.coerce_eq_ok_iff.mp hu)
          simp only [mapM_eq_ok_self hself]
        · simp at h

theorem Settled.coerceDefault_redraft {s : ParameterSpec} (hs : s.Settled) :
    s.redraft.coerceDefault s.constraints = .ok s.default := by
  simp only [ParameterDraft.coerceDefault, redraft]
  cases hdefault : s.default with
  | none => rfl
  | some v => simp only [hs v hdefault]

/-- Building once more what was built gives the same. -/
theorem Built.build_redraft {s : ParameterSpec} (hs : s.Built) : s.redraft.build = .ok s := by
  have hdefault := hs.settled.coerceDefault_redraft
  obtain ⟨name, type, settings, hbuild⟩ := hs
  generalize ParameterDraft.ofSettings name type settings = d at hbuild
  obtain ⟨hname, hvalue, hlength, allowed, hallowed, default, -, rfl⟩ :=
    ParameterDraft.build_eq_ok_iff.mp hbuild
  exact ParameterDraft.build_eq_ok_iff.mpr ⟨hname, hvalue, hlength, allowed,
    coerceAllowed_redraft rfl rfl hallowed, default, hdefault, rfl⟩

variable {s : ParameterSpec} {input result : Option Value}

theorem validate_eq_fallback (h : input.getD .null = .null) : s.validate input = s.fallback := by
  cases input with
  | none => rfl
  | some v =>
      obtain rfl : v = .null := h
      rfl

theorem validate_of_ne_null {v : Value} (h : v ≠ .null) :
    s.validate (some v) =
      (ParameterDraft.conform s.name s.type s.constraints v).map some := by
  cases v with
  | null => exact absurd rfl h
  | bool b => rfl
  | number n => rfl
  | string t => rfl
  | list items => rfl
  | object fields => rfl

theorem validate_getD (input : Option Value) :
    s.validate (some (input.getD .null)) = s.validate input := by
  cases input with
  | none => rfl
  | some v => rfl

theorem validate_of_conform {v : Value} (h : v ≠ .null)
    (hv : ParameterDraft.conform s.name s.type s.constraints v = .ok v) :
    s.validate (some v) = .ok (some v) := by
  rw [validate_of_ne_null h, hv]
  rfl

theorem validate_of_fallback (hs : s.Settled) (h : s.fallback = .ok result) :
    s.validate result = .ok result := by
  by_cases hnull : result.getD .null = .null
  · rw [validate_eq_fallback hnull, h]
  · rw [fallback] at h
    split at h
    case h_1 v hv =>
      obtain rfl := Except.ok.inj h
      exact validate_of_conform hnull (hs v hv)
    case h_2 =>
      split at h
      · simp at h
      · obtain rfl := Except.ok.inj h
        exact absurd rfl hnull

theorem validate_of_validate (hs : s.Settled) (h : s.validate input = .ok result) :
    s.validate result = .ok result := by
  by_cases hnull : input.getD .null = .null
  · rw [validate_eq_fallback hnull] at h
    exact validate_of_fallback hs h
  · cases input with
    | none => exact absurd rfl hnull
    | some v =>
        have hv : v ≠ .null := hnull
        rw [validate_of_ne_null hv] at h
        obtain ⟨w, hw, rfl⟩ := map_eq_ok.mp h
        obtain ⟨hconvert, -⟩ := ParameterDraft.conform_eq_ok_iff.mp hw
        exact validate_of_conform (ParamType.ne_null_of_convert? hv hconvert)
          (ParameterDraft.conform_of_conform hw)

/-- What an accepted value produces is accepted as the value of the same parameter. -/
theorem validate_produced (hs : s.Settled) (h : s.validate input = .ok result) :
    s.validate (some (s.produced input)) = .ok result := by
  rw [produced_eq_of_validate h, validate_getD]
  exact validate_of_validate hs h

theorem produced_produced (hs : s.Settled) (h : s.validate input = .ok result) :
    s.produced (some (s.produced input)) = s.produced input := by
  rw [produced_eq_of_validate (validate_produced hs h), produced_eq_of_validate h]

variable {specs : List ParameterSpec} {known : String → Option Value}

theorem afterPass_afterPass (hsettled : ∀ s ∈ specs, s.Settled)
    (haccept : AllAccept (inputs specs known)) :
    afterPass specs (afterPass specs known) = afterPass specs known := by
  funext key
  simp only [afterPass]
  cases hfind : specs.find? (·.name = key) with
  | none => rfl
  | some s =>
      have hs : s ∈ specs := List.mem_of_find?_eq_some hfind
      have hname : s.name = key := by simpa using List.find?_some hfind
      obtain ⟨result, hresult⟩ := haccept (s, known s.name) (List.mem_map.mpr ⟨s, hs, rfl⟩)
      rw [hname] at hresult
      simp only [produced_produced (hsettled s hs) hresult]

theorem allAccept_afterPass (hsettled : ∀ s ∈ specs, s.Settled)
    (hdistinct : (specs.map (·.name)).Nodup) (haccept : AllAccept (inputs specs known)) :
    AllAccept (inputs specs (afterPass specs known)) := by
  intro input hinput
  obtain ⟨s, hs, rfl⟩ := List.mem_map.mp hinput
  obtain ⟨result, hresult⟩ := haccept (s, known s.name) (List.mem_map.mpr ⟨s, hs, rfl⟩)
  refine ⟨result, ?_⟩
  rw [afterPass_of_mem hdistinct hs]
  exact validate_produced (hsettled s hs) hresult

theorem validateAll_of_validateAll (hsettled : ∀ s ∈ specs, s.Settled)
    (hdistinct : (specs.map (·.name)).Nodup) {raw m : Params}
    (h : validateAll specs raw = .ok m) : validateAll specs m = .ok m := by
  obtain ⟨haccept, hget⟩ := (validateAll_eq_ok_iff hdistinct).mp h
  rw [validateAll_eq_ok_iff hdistinct, hget]
  exact ⟨allAccept_afterPass hsettled hdistinct haccept,
    (afterPass_afterPass hsettled haccept).symm⟩

end ParameterSpec

theorem StageSpec.Built.validateParameters_validateParameters {s : StageSpec} (hs : s.Built)
    {raw m : Params} (h : s.validateParameters raw = .ok m) : s.validateParameters m = .ok m :=
  ParameterSpec.validateAll_of_validateAll (fun p hp => (hs.params_built p hp).settled)
    hs.params_nodup h

theorem WorkflowSpec.Built.validateJobParameters_validateJobParameters {w : WorkflowSpec}
    (hw : w.Built) {raw m : Params} (h : w.validateJobParameters raw = .ok m) :
    w.validateJobParameters m = .ok m :=
  ParameterSpec.validateAll_of_validateAll (fun p hp => (hw.params_built p hp).settled)
    hw.wellStaged.sharedDistinct h

/-- Validation leaves its own results as they are: those of one parameter, those of a list of
parameters of distinct names, and so those of a workflow and of a stage. -/
theorem revalidation_unchanged :
    (∀ s : ParameterSpec, s.Built → ∀ input result,
      s.validate input = .ok result → s.validate result = .ok result) ∧
    (∀ specs : List ParameterSpec, (∀ s ∈ specs, s.Built) → (specs.map (·.name)).Nodup →
      ∀ raw m, ParameterSpec.validateAll specs raw = .ok m →
        ParameterSpec.validateAll specs m = .ok m) ∧
    (∀ w : WorkflowSpec, w.Built → ∀ raw m,
      w.validateJobParameters raw = .ok m → w.validateJobParameters m = .ok m) ∧
    ∀ s : StageSpec, s.Built → ∀ raw m,
      s.validateParameters raw = .ok m → s.validateParameters m = .ok m := by
  refine ⟨?_, ?_, ?_, ?_⟩
  · intro s hs input result h
    exact ParameterSpec.validate_of_validate hs.settled h
  · intro specs hspecs hdistinct raw m h
    exact ParameterSpec.validateAll_of_validateAll (fun s hs => (hspecs s hs).settled) hdistinct h
  · intro w hw raw m h
    exact hw.validateJobParameters_validateJobParameters h
  · intro s hs raw m h
    exact hs.validateParameters_validateParameters h

/-- A parameter of any type whose default is null. -/
def ParameterSpec.note : ParameterSpec where
  name := "note"
  type := .any
  required := false
  default := some .null
  description := ""
  constraints := {}

def ParameterSpec.label : ParameterSpec where
  name := "label"
  type := .string
  required := false
  default := none
  description := ""
  constraints := { maxLength := some 9 }

def ParameterSpec.count : ParameterSpec where
  name := "count"
  type := .integer
  required := true
  default := none
  description := ""
  constraints := {}

theorem ParameterSpec.note_built : ParameterSpec.note.Built :=
  ⟨"note", .any, [.default .null], by cbv⟩

theorem ParameterSpec.label_built : ParameterSpec.label.Built :=
  ⟨"label", .string, [.maxLength 9], by cbv⟩

theorem ParameterSpec.count_built : ParameterSpec.count.Built :=
  ⟨"count", .integer, [.required true], by cbv⟩

/-- Text for a whole number, and a value that no parameter declares. -/
def suppliedValues : Params := KeyMap.ofList [("count", .string " 7 "), ("extra", .bool true)]

def validatedValues : Params :=
  KeyMap.ofList [("count", .ofInt64 7), ("extra", .bool true), ("label", .null), ("note", .null)]

theorem validatedValues_unchanged :
    (∀ s ∈ [ParameterSpec.note, .label, .count], s.Built) ∧
      (["note", "label", "count"] : List String).Nodup ∧
      ParameterSpec.validateAll [.note, .label, .count] suppliedValues = .ok validatedValues ∧
      ParameterSpec.validateAll [.note, .label, .count] validatedValues = .ok validatedValues := by
  have hbuilt : ∀ s ∈ [ParameterSpec.note, .label, .count], s.Built := by
    simp [ParameterSpec.note_built, ParameterSpec.label_built, ParameterSpec.count_built]
  have hdistinct : (["note", "label", "count"] : List String).Nodup := by decide
  have hvalid :
      ParameterSpec.validateAll [.note, .label, .count] suppliedValues = .ok validatedValues := by
    rfl
  exact ⟨hbuilt, hdistinct, hvalid,
    revalidation_unchanged.2.1 _ hbuilt hdistinct suppliedValues validatedValues hvalid⟩

namespace WorkflowSpec

/-- Values validated for a job are for each stage what the values supplied are, and where they are
rejected for the job they are rejected for every stage in the same way. -/
theorem validateStageParameters_of_validateJobParameters {w : WorkflowSpec} (hw : w.Built)
    (raw : Params) :
    (∀ m, w.validateJobParameters raw = .ok m →
      ∀ n, w.validateStageParameters n m = w.validateStageParameters n raw) ∧
    ∀ e, w.validateJobParameters raw = .error e →
      ∀ stage ∈ w.stages, w.validateStageParameters stage.number raw = .error e := by
  constructor
  · intro m hm n
    have hagain : w.validateJobParameters m = .ok m :=
      hw.validateJobParameters_validateJobParameters hm
    rw [validateStageParameters, validateStageParameters, hagain, hm]
  · intro e he stage hstage
    have hlookup : w.stage? stage.number = some stage :=
      hw.wellStaged.stage?_eq_some_iff.mpr ⟨hstage, rfl⟩
    rw [validateStageParameters_of_stage hlookup, he]
    rfl

/-- The shared parameter declared anew by a stage, as a string. -/
def countText : ParameterSpec where
  name := "count"
  type := .string
  required := false
  default := none
  description := ""
  constraints := {}

def recountingStage : StageSpec :=
  (StageDraft.ofSettings 1 "recount" [.final true, .param countText]).finish

def recounting : WorkflowSpec :=
  (WorkflowDraft.ofSettings "recounting" [.param .count, .stage recountingStage]).finish 0

theorem recounting_built : recounting.Built := by
  have htext : countText.Built := ⟨"count", .string, [], by cbv⟩
  have hstage : recountingStage.Built := by
    refine ⟨1, "recount", [.final true, .param countText], ?_, by cbv⟩
    intro p hp
    obtain rfl : p = countText := by simpa using hp
    exact htext
  refine ⟨"recounting", [.param .count, .stage recountingStage], ?_, ?_, by cbv⟩
  · intro s hs
    obtain rfl : s = recountingStage := by simpa using hs
    exact hstage
  · intro p hp
    obtain rfl : p = .count := by simpa using hp
    exact ParameterSpec.count_built

theorem recounting_agrees :
    recounting.Built ∧
      (∃ m, recounting.validateJobParameters suppliedValues = .ok m ∧
        recounting.validateStageParameters 1 m =
          recounting.validateStageParameters 1 suppliedValues) ∧
      recounting.validateJobParameters KeyMap.empty = .error (.missingRequired "count") ∧
      recounting.validateStageParameters 1 KeyMap.empty = .error (.missingRequired "count") := by
  have hvalid : recounting.validateJobParameters suppliedValues =
      .ok (KeyMap.ofList [("count", .ofInt64 7), ("extra", .bool true)]) := by rfl
  have hmissing : recounting.validateJobParameters KeyMap.empty =
      .error (.missingRequired "count") := by rfl
  have hstages : recounting.stages = [recountingStage] := by cbv
  have hmem : recountingStage ∈ recounting.stages := by simp [hstages]
  obtain ⟨hsame, -⟩ :=
    validateStageParameters_of_validateJobParameters recounting_built suppliedValues
  obtain ⟨-, herror⟩ :=
    validateStageParameters_of_validateJobParameters recounting_built KeyMap.empty
  exact ⟨recounting_built, ⟨_, hvalid, hsame _ hvalid 1⟩, hmissing,
    herror _ hmissing recountingStage hmem⟩

end WorkflowSpec

end StagedJobs
