import Mathlib
import StagedJobs.Proofs.StageGraph

/-!
What validation does key by key. A pass over declared parameters is described by what is known of each
key before and after it; validation for a stage is the pass over the shared parameters followed by the
pass over the stage's own.
-/

namespace StagedJobs

open Outcomes

namespace KeyMap

variable {α : Type}

theorem find?_isSome_iff {key : String} {es : List (String × α)} :
    (find? key es).isSome ↔ key ∈ es.map (·.1) := by
  induction es with
  | nil => simp [find?]
  | cons e rest ih =>
      obtain ⟨k, u⟩ := e
      rw [find?]
      split
      · rename_i hkey
        simp [hkey]
      · rename_i hkey
        simp only [ih, List.map_cons, List.mem_cons]
        constructor
        · exact .inr
        · rintro (rfl | hmem)
          · exact absurd rfl hkey
          · exact hmem

theorem mem_keys_iff {m : KeyMap α} {key : String} : key ∈ m.keys ↔ (m.get? key).isSome :=
  find?_isSome_iff.symm

theorem isEmpty_iff {m : KeyMap α} : m.isEmpty = true ↔ ∀ key, key ∉ m.keys := by
  rw [← List.eq_nil_iff_forall_not_mem, keys, List.map_eq_nil_iff, isEmpty, List.isEmpty_iff]

end KeyMap

namespace ParameterSpec

/-- The value of a parameter after its validation: null where it produced none. -/
def produced (s : ParameterSpec) (input : Option Value) : Value :=
  match s.validate input with
  | .ok (some v) => v
  | _ => .null

theorem produced_eq_of_validate {s : ParameterSpec} {input result : Option Value}
    (h : s.validate input = .ok result) : s.produced input = result.getD .null := by
  rw [produced, h]
  cases result <;> rfl

/-- The parameters of a pass, each with the value it is validated for. -/
def inputs (specs : List ParameterSpec) (known : String → Option Value) :
    List (ParameterSpec × Option Value) :=
  specs.map fun s => (s, known s.name)

/-- What is known of a key after a pass, given what was known before. -/
def afterPass (specs : List ParameterSpec) (known : String → Option Value) (key : String) :
    Option Value :=
  match specs.find? (·.name = key) with
  | some s => some (s.produced (known key))
  | none => known key

def AllAccept (inputs : List (ParameterSpec × Option Value)) : Prop :=
  ∀ input ∈ inputs, ∃ result, input.1.validate input.2 = .ok result

/-- The error is that of the first parameter that rejects the value it is validated for. -/
def FirstRejection (inputs : List (ParameterSpec × Option Value)) (e : ValidationError) : Prop :=
  ∃ before s input after,
    inputs = before ++ (s, input) :: after ∧ AllAccept before ∧ s.validate input = .error e

theorem not_firstRejection_nil (e : ValidationError) : ¬ FirstRejection [] e := by
  rintro ⟨before, s, input, after, h, -⟩
  simp at h

theorem firstRejection_cons_iff {s : ParameterSpec} {input : Option Value}
    {rest : List (ParameterSpec × Option Value)} {e : ValidationError} :
    FirstRejection ((s, input) :: rest) e ↔
      s.validate input = .error e ∨
        (∃ result, s.validate input = .ok result) ∧ FirstRejection rest e := by
  constructor
  · rintro ⟨before, t, other, after, heq, hbefore, hreject⟩
    cases before with
    | nil =>
        obtain ⟨⟨rfl, rfl⟩, rfl⟩ : (s = t ∧ input = other) ∧ rest = after := by simpa using heq
        exact .inl hreject
    | cons first before =>
        obtain ⟨rfl, rfl⟩ : (s, input) = first ∧ rest = before ++ (t, other) :: after := by
          simpa using heq
        exact .inr ⟨hbefore (s, input) (by simp), before, t, other, after, rfl,
          fun q hq => hbefore q (by simp [hq]), hreject⟩
  · rintro (hreject | ⟨haccept, before, t, other, after, rfl, hbefore, hreject⟩)
    · exact ⟨[], s, input, rest, rfl, by simp [AllAccept], hreject⟩
    · refine ⟨(s, input) :: before, t, other, after, rfl, ?_, hreject⟩
      intro q hq
      rcases List.mem_cons.mp hq with rfl | hq
      · exact haccept
      · exact hbefore q hq

theorem firstRejection_append_iff {xs ys : List (ParameterSpec × Option Value)}
    {e : ValidationError} :
    FirstRejection (xs ++ ys) e ↔ FirstRejection xs e ∨ AllAccept xs ∧ FirstRejection ys e := by
  induction xs with
  | nil => simp [not_firstRejection_nil, AllAccept]
  | cons x xs ih =>
      obtain ⟨s, input⟩ := x
      rw [List.cons_append, firstRejection_cons_iff, firstRejection_cons_iff, ih]
      simp only [AllAccept, List.mem_cons, forall_eq_or_imp]
      tauto

theorem exists_firstRejection_iff {inputs : List (ParameterSpec × Option Value)} :
    (∃ e, FirstRejection inputs e) ↔
      ∃ input ∈ inputs, ∃ e, input.1.validate input.2 = .error e := by
  induction inputs with
  | nil => simp [not_firstRejection_nil]
  | cons x xs ih =>
      obtain ⟨s, input⟩ := x
      simp only [firstRejection_cons_iff, exists_or, exists_and_left, ih, List.mem_cons,
        exists_eq_or_imp]
      constructor
      · rintro (h | ⟨-, h⟩)
        · exact .inl h
        · exact .inr h
      · rintro (h | h)
        · exact .inl h
        · cases hresult : s.validate input with
          | error e => exact .inl ⟨e, rfl⟩
          | ok result => exact .inr ⟨⟨result, rfl⟩, h⟩

theorem allAccept_iff {inputs : List (ParameterSpec × Option Value)} :
    AllAccept inputs ↔ ∀ e, ¬ FirstRejection inputs e := by
  rw [← not_exists, exists_firstRejection_iff, not_exists]
  refine forall_congr' fun input => ?_
  cases hresult : input.1.validate input.2 with
  | error e => simp
  | ok result => simp

variable {raw results : Params} {specs : List ParameterSpec}

theorem validateNext_eq_ok_iff {s : ParameterSpec} {results' : Params} :
    validateNext raw results s = .ok results' ↔
      ∃ result, s.validate (raw.get? s.name) = .ok result ∧
        results.insert s.name (result.getD .null) = results' := by
  simp [validateNext, bind_eq_ok, pure, Except.pure]

theorem validateNext_eq_error_iff {s : ParameterSpec} {e : ValidationError} :
    validateNext raw results s = .error e ↔ s.validate (raw.get? s.name) = .error e := by
  simp [validateNext, bind_eq_error, pure, Except.pure]

theorem foldlM_validateNext_eq_error_iff {e : ValidationError} :
    specs.foldlM (validateNext raw) results = .error e ↔
      FirstRejection (inputs specs raw.get?) e := by
  induction specs generalizing results with
  | nil => simp [inputs, not_firstRejection_nil, pure, Except.pure]
  | cons s specs ih =>
      rw [List.foldlM_cons, bind_eq_error, validateNext_eq_error_iff]
      have hcons : inputs (s :: specs) raw.get? =
          (s, raw.get? s.name) :: inputs specs raw.get? := rfl
      rw [hcons, firstRejection_cons_iff]
      refine or_congr Iff.rfl ⟨?_, ?_⟩
      · rintro ⟨results', hnext, hrest⟩
        obtain ⟨result, hresult, -⟩ := validateNext_eq_ok_iff.mp hnext
        exact ⟨⟨result, hresult⟩, ih.mp hrest⟩
      · rintro ⟨⟨result, hresult⟩, hrest⟩
        exact ⟨_, validateNext_eq_ok_iff.mpr ⟨result, hresult, rfl⟩, ih.mpr hrest⟩

theorem find?_eq_none_of_notMem {key : String} (h : key ∉ specs.map (·.name)) :
    specs.find? (·.name = key) = none := by
  rw [List.find?_eq_none]
  intro s hs hname
  exact h (List.mem_map.mpr ⟨s, hs, by simpa using hname⟩)

theorem find?_eq_some_of_mem (hdistinct : (specs.map (·.name)).Nodup) {s : ParameterSpec}
    (hs : s ∈ specs) : specs.find? (·.name = s.name) = some s := by
  induction specs with
  | nil => simp at hs
  | cons t specs ih =>
      obtain ⟨hfirst, hrest⟩ := List.nodup_cons.mp hdistinct
      rcases List.mem_cons.mp hs with rfl | hs
      · simp
      · have hne : t.name ≠ s.name := by
          intro heq
          exact hfirst (List.mem_map.mpr ⟨s, hs, heq.symm⟩)
        rw [List.find?_cons_of_neg (by simpa using hne)]
        exact ih hrest hs

theorem get?_of_foldlM_validateNext (hdistinct : (specs.map (·.name)).Nodup) {m : Params}
    (h : specs.foldlM (validateNext raw) results = .ok m) (key : String) :
    m.get? key =
      match specs.find? (·.name = key) with
      | some s => some (s.produced (raw.get? key))
      | none => results.get? key := by
  induction specs generalizing results with
  | nil =>
      obtain rfl : results = m := by simpa [pure, Except.pure] using h
      rfl
  | cons s specs ih =>
      obtain ⟨hfirst, hrest⟩ := List.nodup_cons.mp hdistinct
      rw [List.foldlM_cons] at h
      obtain ⟨results', hnext, h⟩ := bind_eq_ok.mp h
      obtain ⟨result, hresult, rfl⟩ := validateNext_eq_ok_iff.mp hnext
      rw [ih hrest h]
      by_cases hkey : s.name = key
      · subst hkey
        rw [find?_eq_none_of_notMem hfirst, List.find?_cons_of_pos (by simp)]
        simp [produced_eq_of_validate hresult]
      · rw [List.find?_cons_of_neg (by simpa using hkey)]
        simp [hkey]

theorem get?_foldl_passThrough {es : List (String × Value)} (hes : es.Pairwise (·.1 < ·.1))
    (key : String) :
    (es.foldl (passThrough specs) results).get? key =
      if specs.any (·.name = key) then results.get? key
      else (KeyMap.find? key es).or (results.get? key) := by
  induction es generalizing results with
  | nil => simp [KeyMap.find?]
  | cons e es ih =>
      obtain ⟨k, v⟩ := e
      obtain ⟨hk, hes⟩ := List.pairwise_cons.mp hes
      rw [List.foldl_cons, ih hes]
      by_cases hkey : k = key
      · subst hkey
        have hlater : KeyMap.find? k es = none := by
          rw [← Option.not_isSome_iff_eq_none, KeyMap.find?_isSome_iff]
          intro hmem
          obtain ⟨e, he, hname⟩ := List.mem_map.mp hmem
          exact String.lt_irrefl k (hname ▸ hk e he)
        by_cases hdeclared : specs.any (·.name = k) <;>
          simp [passThrough, hdeclared, hlater, KeyMap.find?]
      · have hsame : (passThrough specs results (k, v)).get? key = results.get? key := by
          rw [passThrough]
          split
          · rfl
          · simp [hkey]
        rw [hsame, KeyMap.find?, if_neg hkey]

theorem validateAll_eq_error_iff {e : ValidationError} :
    validateAll specs raw = .error e ↔ FirstRejection (inputs specs raw.get?) e := by
  have hdeclared := @foldlM_validateNext_eq_error_iff raw KeyMap.empty specs e
  rw [← hdeclared]
  simp [validateAll, validateDeclared, bind_eq_error, pure, Except.pure]

theorem get?_of_validateAll (hdistinct : (specs.map (·.name)).Nodup) {m : Params}
    (h : validateAll specs raw = .ok m) : m.get? = afterPass specs raw.get? := by
  obtain ⟨declared, hdeclared, hm⟩ := bind_eq_ok.mp h
  obtain rfl := Except.ok.inj hm
  funext key
  rw [get?_foldl_passThrough raw.ascending, get?_of_foldlM_validateNext hdistinct hdeclared,
    afterPass]
  cases hfind : specs.find? (·.name = key) with
  | none =>
      have hany : ¬ specs.any (·.name = key) := by
        rw [List.any_eq_true]
        rintro ⟨s, hs, hname⟩
        exact List.find?_eq_none.mp hfind s hs hname
      rw [if_neg hany]
      exact Option.or_none
  | some s =>
      have hany : specs.any (·.name = key) :=
        List.any_eq_true.mpr
          ⟨s, List.mem_of_find?_eq_some hfind, by simpa using List.find?_some hfind⟩
      rw [if_pos hany]

theorem exists_validateAll_iff :
    (∃ m, validateAll specs raw = .ok m) ↔ AllAccept (inputs specs raw.get?) := by
  rw [allAccept_iff]
  simp only [← validateAll_eq_error_iff]
  cases validateAll specs raw with
  | error e => simp
  | ok m => simp

/-- A pass succeeds where every parameter accepts, with the map that holds what is known then. -/
theorem validateAll_eq_ok_iff (hdistinct : (specs.map (·.name)).Nodup) {m : Params} :
    validateAll specs raw = .ok m ↔
      AllAccept (inputs specs raw.get?) ∧ m.get? = afterPass specs raw.get? := by
  constructor
  · intro h
    exact ⟨exists_validateAll_iff.mp ⟨m, h⟩, get?_of_validateAll hdistinct h⟩
  · rintro ⟨haccept, hget⟩
    obtain ⟨m', hm'⟩ := exists_validateAll_iff.mpr haccept
    have hsame : m' = m := by
      apply KeyMap.eq_of_get?
      intro key
      rw [get?_of_validateAll hdistinct hm', hget]
    rw [hm', hsame]

theorem afterPass_of_mem (hdistinct : (specs.map (·.name)).Nodup) {s : ParameterSpec}
    (hs : s ∈ specs) (known : String → Option Value) :
    afterPass specs known s.name = some (s.produced (known s.name)) := by
  rw [afterPass, find?_eq_some_of_mem hdistinct hs]

theorem afterPass_of_notMem {key : String} (h : key ∉ specs.map (·.name))
    (known : String → Option Value) : afterPass specs known key = known key := by
  rw [afterPass, find?_eq_none_of_notMem h]

theorem afterPass_isSome_iff {known : String → Option Value} {key : String} :
    (afterPass specs known key).isSome ↔ (known key).isSome ∨ key ∈ specs.map (·.name) := by
  rw [afterPass]
  cases hfind : specs.find? (·.name = key) with
  | none =>
      have hnot : key ∉ specs.map (·.name) := by
        rintro hmem
        obtain ⟨s, hs, rfl⟩ := List.mem_map.mp hmem
        exact List.find?_eq_none.mp hfind s hs (by simp)
      simp [hnot]
  | some s =>
      have hmem : key ∈ specs.map (·.name) :=
        List.mem_map.mpr ⟨s, List.mem_of_find?_eq_some hfind, by simpa using List.find?_some hfind⟩
      simp [hmem]

end ParameterSpec

namespace WorkflowSpec

open ParameterSpec

/-- The value that a parameter of a stage is validated for: what the shared parameter of its name
produced, or else what was supplied. -/
def stageInput (w : WorkflowSpec) (raw : Params) (name : String) : Option Value :=
  match w.params.find? (·.name = name) with
  | some g => some (g.produced (raw.get? name))
  | none => raw.get? name

theorem stageInput_eq_afterPass (w : WorkflowSpec) (raw : Params) :
    w.stageInput raw = afterPass w.params raw.get? := rfl

/-- All parameters that validation for a stage looks at, the shared ones first. -/
def layeredInputs (w : WorkflowSpec) (stage : StageSpec) (raw : Params) :
    List (ParameterSpec × Option Value) :=
  inputs w.params raw.get? ++ inputs stage.params (w.stageInput raw)

theorem validateStageParameters_of_stage {w : WorkflowSpec} {n : Nat} {stage : StageSpec}
    (h : w.stage? n = some stage) (raw : Params) :
    w.validateStageParameters n raw =
      (w.validateJobParameters raw >>= stage.validateParameters) := by
  rw [validateStageParameters, h]

theorem validateStageParameters_eq_error_iff {w : WorkflowSpec} (hw : w.WellStaged) {n : Nat}
    {stage : StageSpec} (h : w.stage? n = some stage) {raw : Params} {e : ValidationError} :
    w.validateStageParameters n raw = .error e ↔
      FirstRejection (w.layeredInputs stage raw) e := by
  rw [validateStageParameters_of_stage h, bind_eq_error, layeredInputs, firstRejection_append_iff,
    validateJobParameters, validateAll_eq_error_iff]
  refine or_congr Iff.rfl ⟨?_, ?_⟩
  · rintro ⟨shared, hshared, hstage⟩
    obtain ⟨haccept, hknown⟩ := (validateAll_eq_ok_iff hw.sharedDistinct).mp hshared
    refine ⟨haccept, ?_⟩
    rw [stageInput_eq_afterPass, ← hknown]
    exact validateAll_eq_error_iff.mp hstage
  · rintro ⟨haccept, hfirst⟩
    obtain ⟨shared, hshared⟩ := exists_validateAll_iff.mpr haccept
    refine ⟨shared, hshared, validateAll_eq_error_iff.mpr ?_⟩
    rw [get?_of_validateAll hw.sharedDistinct hshared, ← stageInput_eq_afterPass]
    exact hfirst

theorem get?_of_validateStageParameters {w : WorkflowSpec} (hw : w.WellStaged) {n : Nat}
    {stage : StageSpec} (h : w.stage? n = some stage) {raw m : Params}
    (hm : w.validateStageParameters n raw = .ok m) :
    m.get? = afterPass stage.params (w.stageInput raw) := by
  rw [validateStageParameters_of_stage h] at hm
  obtain ⟨shared, hshared, hstage⟩ := bind_eq_ok.mp hm
  have hmem := (hw.stage?_eq_some_iff.mp h).1
  rw [get?_of_validateAll (hw.stageDistinct stage hmem) hstage,
    get?_of_validateAll hw.sharedDistinct hshared]
  rfl

/-- Validation for a stage, key by key: which parameter rejects, which keys come out, and what each of
them holds. -/
theorem validateStageParameters_layered {w : WorkflowSpec} (hw : w.Built) (n : Nat)
    (raw : Params) :
    ((∀ s ∈ w.stages, s.number ≠ n) →
      w.validateStageParameters n raw = .error (.unknownStage w.jobType n)) ∧
    ∀ stage ∈ w.stages, stage.number = n →
      ((∃ e, w.validateStageParameters n raw = .error e) ↔
        ∃ input ∈ w.layeredInputs stage raw, ∃ e, input.1.validate input.2 = .error e) ∧
      (∀ e, w.validateStageParameters n raw = .error e ↔
        FirstRejection (w.layeredInputs stage raw) e) ∧
      ∀ m, w.validateStageParameters n raw = .ok m →
        (∀ key, key ∈ m.keys ↔
          key ∈ raw.keys ∨ key ∈ w.params.map (·.name) ∨ key ∈ stage.params.map (·.name)) ∧
        (∀ s ∈ stage.params, m.get? s.name = some (s.produced (w.stageInput raw s.name))) ∧
        (∀ g ∈ w.params, g.name ∉ stage.params.map (·.name) →
          m.get? g.name = some (g.produced (raw.get? g.name))) ∧
        ∀ key, key ∉ w.params.map (·.name) → key ∉ stage.params.map (·.name) →
          m.get? key = raw.get? key := by
  have hstaged := hw.wellStaged
  constructor
  · intro hnone
    have hlookup : w.stage? n = none := by
      rw [Option.eq_none_iff_forall_ne_some]
      intro s hs
      obtain ⟨hmem, hnumber⟩ := hstaged.stage?_eq_some_iff.mp hs
      exact hnone s hmem hnumber
    rw [validateStageParameters, hlookup]
  · intro stage hstage hnumber
    have hlookup : w.stage? n = some stage := hstaged.stage?_eq_some_iff.mpr ⟨hstage, hnumber⟩
    have hdistinct := hstaged.stageDistinct stage hstage
    have herror : ∀ e, w.validateStageParameters n raw = .error e ↔
        FirstRejection (w.layeredInputs stage raw) e :=
      fun e => validateStageParameters_eq_error_iff hstaged hlookup
    refine ⟨?_, herror, ?_⟩
    · rw [← exists_firstRejection_iff]
      exact exists_congr herror
    intro m hm
    have hget := get?_of_validateStageParameters hstaged hlookup hm
    refine ⟨?_, ?_, ?_, ?_⟩
    · intro key
      rw [KeyMap.mem_keys_iff, KeyMap.mem_keys_iff, hget, afterPass_isSome_iff,
        stageInput_eq_afterPass, afterPass_isSome_iff, or_assoc]
    · intro s hs
      rw [hget, afterPass_of_mem hdistinct hs]
    · intro g hg hnot
      rw [hget, afterPass_of_notMem hnot, stageInput_eq_afterPass,
        afterPass_of_mem hstaged.sharedDistinct hg]
    · intro key hshared hown
      rw [hget, afterPass_of_notMem hown, stageInput_eq_afterPass, afterPass_of_notMem hshared]

def sharedMode : ParameterSpec where
  name := "mode"
  type := .string
  required := false
  default := some (.string "fast")
  description := ""
  constraints := {}

/-- A parameter of a stage under the same name, under a constraint that the shared default violates. -/
def ownMode : ParameterSpec where
  name := "mode"
  type := .string
  required := false
  default := none
  description := ""
  constraints := { maxLength := some 2 }

def shadowingStage : StageSpec :=
  (StageDraft.ofSettings 1 "run" [.final true, .param ownMode]).finish

/-- A workflow one of whose stages declares a shared parameter anew. -/
def shadowing : WorkflowSpec :=
  (WorkflowDraft.ofSettings "shadowing" [.stage shadowingStage, .param sharedMode]).finish 0

theorem shadowing_built : shadowing.Built := by
  have hshared : sharedMode.Built := ⟨"mode", .string, [.default (.string "fast")], by cbv⟩
  have hown : ownMode.Built := ⟨"mode", .string, [.maxLength 2], by cbv⟩
  have hstage : shadowingStage.Built := by
    refine ⟨1, "run", [.final true, .param ownMode], ?_, by cbv⟩
    intro p hp
    obtain rfl : p = ownMode := by simpa using hp
    exact hown
  refine ⟨"shadowing", [.stage shadowingStage, .param sharedMode], ?_, ?_, by cbv⟩
  · intro s hs
    obtain rfl : s = shadowingStage := by simpa using hs
    exact hstage
  · intro p hp
    obtain rfl : p = sharedMode := by simpa using hp
    exact hshared

theorem shadowing_layered :
    shadowing.Built ∧ ∃ e, shadowing.validateStageParameters 1 KeyMap.empty = .error e := by
  refine ⟨shadowing_built, ?_⟩
  have hstages : shadowing.stages = [shadowingStage] := by cbv
  have hmem : shadowingStage ∈ shadowing.stages := by simp [hstages]
  obtain ⟨hfails, -, -⟩ :=
    (validateStageParameters_layered shadowing_built 1 KeyMap.empty).2 shadowingStage hmem rfl
  have hinputs : shadowing.layeredInputs shadowingStage KeyMap.empty =
      [(sharedMode, none), (ownMode, some (.string "fast"))] := by cbv
  refine hfails.mpr ⟨(ownMode, some (.string "fast")), by simp [hinputs], ?_⟩
  exact ⟨.constraintViolation "mode" (.maxLength 2) (.string "fast"), by cbv⟩

end WorkflowSpec

end StagedJobs
