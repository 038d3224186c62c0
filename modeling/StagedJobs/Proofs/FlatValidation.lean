import StagedJobs.Proofs.Revalidation

namespace StagedJobs

open Outcomes

namespace ParameterSpec

variable {first second : List ParameterSpec} {known : String → Option Value}

theorem inputs_append (known : String → Option Value) :
    inputs (first ++ second) known = inputs first known ++ inputs second known :=
  List.map_append

/-- An earlier pass is not noticed by parameters that it has none of the names of. -/
theorem inputs_afterPass (hdisjoint : (first.map (·.name)).Disjoint (second.map (·.name))) :
    inputs second (afterPass first known) = inputs second known := by
  apply List.map_congr_left
  intro s hs
  have hnot : s.name ∉ first.map (·.name) :=
    fun hmem => hdisjoint hmem (List.mem_map.mpr ⟨s, hs, rfl⟩)
  rw [afterPass_of_notMem hnot]

theorem afterPass_append (hdisjoint : (first.map (·.name)).Disjoint (second.map (·.name))) :
    afterPass (first ++ second) known = afterPass second (afterPass first known) := by
  funext key
  by_cases hkey : key ∈ second.map (·.name)
  · have hnot : key ∉ first.map (·.name) := fun hmem => hdisjoint hmem hkey
    rw [afterPass, afterPass, List.find?_append, find?_eq_none_of_notMem hnot, Option.none_or,
      afterPass_of_notMem hnot]
  · rw [afterPass_of_notMem hkey, afterPass, afterPass, List.find?_append,
      find?_eq_none_of_notMem hkey, Option.or_none]

theorem nodup_append (hfirst : (first.map (·.name)).Nodup) (hsecond : (second.map (·.name)).Nodup)
    (hdisjoint : (first.map (·.name)).Disjoint (second.map (·.name))) :
    ((first ++ second).map (·.name)).Nodup := by
  rw [List.map_append]
  exact hfirst.append hsecond hdisjoint

theorem validateAll_append (hfirst : (first.map (·.name)).Nodup)
    (hsecond : (second.map (·.name)).Nodup)
    (hdisjoint : (first.map (·.name)).Disjoint (second.map (·.name))) (raw : Params) :
    (validateAll first raw >>= validateAll second) = validateAll (first ++ second) raw := by
  have hboth := nodup_append hfirst hsecond hdisjoint
  apply eq_of_error_iff
  · intro e
    rw [bind_eq_error, validateAll_eq_error_iff, validateAll_eq_error_iff, inputs_append,
      firstRejection_append_iff]
    refine or_congr Iff.rfl ⟨?_, ?_⟩
    · rintro ⟨shared, hshared, hreject⟩
      obtain ⟨haccept, hget⟩ := (validateAll_eq_ok_iff hfirst).mp hshared
      rw [validateAll_eq_error_iff, hget, inputs_afterPass hdisjoint] at hreject
      exact ⟨haccept, hreject⟩
    · rintro ⟨haccept, hreject⟩
      obtain ⟨shared, hshared⟩ := exists_validateAll_iff.mpr haccept
      refine ⟨shared, hshared, ?_⟩
      rw [validateAll_eq_error_iff, get?_of_validateAll hfirst hshared, inputs_afterPass hdisjoint]
      exact hreject
  · intro m m' hm hm'
    obtain ⟨shared, hshared, hm⟩ := bind_eq_ok.mp hm
    apply KeyMap.eq_of_get?
    intro key
    rw [get?_of_validateAll hsecond hm, get?_of_validateAll hfirst hshared,
      get?_of_validateAll hboth hm', afterPass_append hdisjoint]

/-- A parameter that a caller has to supply. -/
def mustBeSupplied (s : ParameterSpec) : Bool := s.required && s.default.isNone

theorem validate_none_eq_error_iff {s : ParameterSpec} {e : ValidationError} :
    s.validate none = .error e ↔ s.mustBeSupplied = true ∧ e = .missingRequired s.name := by
  rw [validate_eq_fallback rfl, fallback, mustBeSupplied]
  cases s.default with
  | some v => simp
  | none => cases s.required <;> simp [eq_comm]

theorem firstRejection_none_iff {specs : List ParameterSpec} {e : ValidationError} :
    FirstRejection (inputs specs fun _ => none) e ↔
      ∃ s, specs.find? mustBeSupplied = some s ∧ e = .missingRequired s.name := by
  induction specs with
  | nil => simp [inputs, not_firstRejection_nil]
  | cons s specs ih =>
      have hcons : inputs (s :: specs) (fun _ => none) =
          (s, none) :: inputs specs fun _ => none := rfl
      rw [hcons, firstRejection_cons_iff, ih, validate_none_eq_error_iff, List.find?_cons]
      cases hs : s.mustBeSupplied with
      | true =>
          have hreject : s.validate none = .error (.missingRequired s.name) :=
            validate_none_eq_error_iff.mpr ⟨hs, rfl⟩
          simp [hreject]
      | false =>
          have haccept : ∃ result, s.validate none = .ok result := by
            cases hresult : s.validate none with
            | ok result => exact ⟨result, rfl⟩
            | error e =>
                rw [validate_none_eq_error_iff, hs] at hresult
                simp at hresult
          simp [haccept]

end ParameterSpec

namespace WorkflowSpec

open ParameterSpec

/-- Where a stage declares no shared parameter anew, validation for it is one pass over the shared
parameters and then its own. It leaves its own results as they are, and without any values it rejects
only for the first parameter that has to be supplied. -/
theorem validateStageParameters_eq_validateAll {w : WorkflowSpec} (hw : w.Built)
    {stage : StageSpec} (hstage : stage ∈ w.stages)
    (hdisjoint : (w.params.map (·.name)).Disjoint (stage.params.map (·.name))) :
    (∀ raw, w.validateStageParameters stage.number raw =
      validateAll (w.params ++ stage.params) raw) ∧
    (∀ raw m, w.validateStageParameters stage.number raw = .ok m →
      w.validateStageParameters stage.number m = .ok m) ∧
    ∀ e, w.validateStageParameters stage.number KeyMap.empty = .error e ↔
      ∃ s, (w.params ++ stage.params).find? mustBeSupplied = some s ∧
        e = .missingRequired s.name := by
  have hstaged := hw.wellStaged
  have hlookup : w.stage? stage.number = some stage :=
    hstaged.stage?_eq_some_iff.mpr ⟨hstage, rfl⟩
  have hown := hstaged.stageDistinct stage hstage
  have hflat : ∀ raw, w.validateStageParameters stage.number raw =
      validateAll (w.params ++ stage.params) raw := by
    intro raw
    rw [validateStageParameters_of_stage hlookup]
    exact validateAll_append hstaged.sharedDistinct hown hdisjoint raw
  have hsettled : ∀ s ∈ w.params ++ stage.params, s.Settled := by
    intro s hs
    rcases List.mem_append.mp hs with hs | hs
    · exact (hw.params_built s hs).settled
    · exact ((hw.stages_built stage hstage).params_built s hs).settled
  refine ⟨hflat, ?_, ?_⟩
  · intro raw m hm
    rw [hflat] at hm ⊢
    exact validateAll_of_validateAll hsettled
      (nodup_append hstaged.sharedDistinct hown hdisjoint) hm
  · intro e
    rw [hflat, validateAll_eq_error_iff]
    exact firstRejection_none_iff

def tallyingStage : StageSpec :=
  (StageDraft.ofSettings 1 "tally" [.final true, .param .label, .param .count]).finish

def tallying : WorkflowSpec :=
  (WorkflowDraft.ofSettings "tallying" [.param .note, .stage tallyingStage]).finish 0

theorem tallying_built : tallying.Built := by
  have hstage : tallyingStage.Built := by
    refine ⟨1, "tally", [.final true, .param .label, .param .count], ?_, by cbv⟩
    intro p hp
    obtain rfl | rfl : p = .label ∨ p = .count := by simpa using hp
    · exact label_built
    · exact count_built
  refine ⟨"tallying", [.param .note, .stage tallyingStage], ?_, ?_, by cbv⟩
  · intro s hs
    obtain rfl : s = tallyingStage := by simpa using hs
    exact hstage
  · intro p hp
    obtain rfl : p = .note := by simpa using hp
    exact note_built

/-- The shared parameter has a default, so that the parameter to be supplied is one of the stage. -/
theorem tallying_flat :
    tallying.Built ∧ tallyingStage ∈ tallying.stages ∧
      (tallying.params.map (·.name)).Disjoint (tallyingStage.params.map (·.name)) ∧
      tallying.validateStageParameters 1 suppliedValues = .ok validatedValues ∧
      tallying.validateStageParameters 1 validatedValues = .ok validatedValues ∧
      tallying.validateStageParameters 1 KeyMap.empty = .error (.missingRequired "count") := by
  have hstages : tallying.stages = [tallyingStage] := by cbv
  have hmem : tallyingStage ∈ tallying.stages := by simp [hstages]
  have hdisjoint :
      (tallying.params.map (·.name)).Disjoint (tallyingStage.params.map (·.name)) := by
    have hshared : tallying.params.map (·.name) = ["note"] := by cbv
    have hown : tallyingStage.params.map (·.name) = ["label", "count"] := by cbv
    simp [hshared, hown]
  obtain ⟨hflat, hagain, hmissing⟩ :=
    validateStageParameters_eq_validateAll tallying_built hmem hdisjoint
  have hvalid : tallying.validateStageParameters 1 suppliedValues = .ok validatedValues := by
    refine (hflat suppliedValues).trans ?_
    rfl
  refine ⟨tallying_built, hmem, hdisjoint, hvalid, hagain _ _ hvalid, ?_⟩
  exact (hmissing _).mpr ⟨.count, by cbv, rfl⟩

end WorkflowSpec

end StagedJobs
