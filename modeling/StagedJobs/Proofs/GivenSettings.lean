import Mathlib.Data.List.Induction
import StagedJobs.Proofs.Construction

namespace StagedJobs

section LastGiven

variable {σ β : Type} {value? : σ → Option β} {settings : List σ} {otherwise : β}

/-- The value that is given last, or another one if none of the settings gives any. -/
def lastGiven (value? : σ → Option β) (settings : List σ) (otherwise : β) : β :=
  (settings.filterMap value?).getLast?.getD otherwise

theorem lastGiven_concat (x : σ) :
    lastGiven value? (settings ++ [x]) otherwise =
      (value? x).getD (lastGiven value? settings otherwise) := by
  rw [lastGiven, List.filterMap_append]
  cases hx : value? x with
  | none => simp [hx, lastGiven]
  | some b => simp [hx]

theorem lastGiven_of_forall_none (h : ∀ x ∈ settings, value? x = none) :
    lastGiven value? settings otherwise = otherwise := by
  rw [lastGiven, List.filterMap_eq_nil_iff.mpr h]
  rfl

theorem lastGiven_append_cons {before after : List σ} {x : σ} {b : β} (hx : value? x = some b)
    (hafter : ∀ y ∈ after, value? y = none) :
    lastGiven value? (before ++ x :: after) otherwise = b := by
  rw [lastGiven, List.filterMap_append, List.filterMap_cons_some hx,
    List.filterMap_eq_nil_iff.mpr hafter, List.getLast?_concat]
  rfl

/-- What holds of every value given, and of the one without any, holds of the one in force. -/
theorem lastGiven_induction {P : β → Prop} (hotherwise : P otherwise)
    (hgiven : ∀ x ∈ settings, ∀ b, value? x = some b → P b) :
    P (lastGiven value? settings otherwise) := by
  rw [lastGiven]
  cases hlast : (settings.filterMap value?).getLast? with
  | none => exact hotherwise
  | some b =>
      obtain ⟨x, hx, hb⟩ := List.mem_filterMap.mp (List.mem_of_getLast? hlast)
      exact hgiven x hx b hb

end LastGiven

namespace ParameterDraft

/-- The draft that settings describe. Constraints given as a whole give each of them, or give that it is
absent. -/
def described (name : String) (type : ParamType) (settings : List Setting) : ParameterDraft where
  name
  type
  required := lastGiven (fun | .required b => some b | _ => none) settings false
  default := lastGiven (fun | .default v => some (some v) | _ => none) settings none
  description := lastGiven (fun | .description s => some s | _ => none) settings ""
  constraints :=
    { minValue := lastGiven
        (fun | .minValue b => some (some b) | .constraints c => some c.minValue | _ => none)
        settings none
      maxValue := lastGiven
        (fun | .maxValue b => some (some b) | .constraints c => some c.maxValue | _ => none)
        settings none
      minLength := lastGiven
        (fun | .minLength n => some (some n) | .constraints c => some c.minLength | _ => none)
        settings none
      maxLength := lastGiven
        (fun | .maxLength n => some (some n) | .constraints c => some c.maxLength | _ => none)
        settings none
      allowedValues := lastGiven
        (fun | .allowedValues vs => some (some vs) | .constraints c => some c.allowedValues
             | _ => none)
        settings none }

theorem ofSettings_eq_described (name : String) (type : ParamType) (settings : List Setting) :
    ofSettings name type settings = described name type settings := by
  induction settings using List.reverseRecOn with
  | nil => rfl
  | append_singleton settings x ih =>
      have hset : ofSettings name type (settings ++ [x]) = (ofSettings name type settings).set x :=
        List.foldl_concat ..
      rw [hset, ih]
      cases x <;> simp only [described, set, lastGiven_concat, Option.getD_some, Option.getD_none]

end ParameterDraft

namespace StageDraft

/-- The draft that settings describe. -/
def described (number : Nat) (taskType : String) (settings : List Setting) : StageDraft where
  number
  taskType
  name := lastGiven (fun | .name s => some (some s) | _ => none) settings none
  isFinal := lastGiven (fun | .final b => some b | _ => none) settings false
  dependsOn := settings.flatMap fun | .dependsOn ns => ns | _ => []
  parallelism := lastGiven (fun | .parallelism p => some p | _ => none) settings .unlimited
  timeoutMinutes := lastGiven (fun | .timeoutMinutes n => some n | _ => none) settings 60
  maxRetries := lastGiven (fun | .maxRetries n => some n | _ => none) settings 3
  retryDelaySeconds := lastGiven (fun | .retryDelaySeconds n => some n | _ => none) settings 60
  params := settings.filterMap fun | .param p => some p | _ => none

theorem ofSettings_eq_described (number : Nat) (taskType : String) (settings : List Setting) :
    ofSettings number taskType settings = described number taskType settings := by
  induction settings using List.reverseRecOn with
  | nil => rfl
  | append_singleton settings x ih =>
      have hset : ofSettings number taskType (settings ++ [x]) =
          (ofSettings number taskType settings).set x := List.foldl_concat ..
      rw [hset, ih]
      cases x <;> simp [described, set, lastGiven_concat]

end StageDraft

namespace WorkflowDraft

/-- The draft that settings describe. -/
def described (jobType : String) (settings : List Setting) : WorkflowDraft where
  jobType
  name := lastGiven (fun | .name s => some (some s) | _ => none) settings none
  description := lastGiven (fun | .description s => some s | _ => none) settings ""
  version := lastGiven (fun | .version s => some s | _ => none) settings "1.0"
  stages := settings.filterMap fun | .stage s => some s | _ => none
  params := settings.filterMap fun | .param p => some p | _ => none
  maxTotalDurationMinutes :=
    lastGiven (fun | .maxTotalDurationMinutes n => some n | _ => none) settings 1440
  allowPartialFailure := lastGiven (fun | .allowPartialFailure b => some b | _ => none) settings false

theorem ofSettings_eq_described (jobType : String) (settings : List Setting) :
    ofSettings jobType settings = described jobType settings := by
  induction settings using List.reverseRecOn with
  | nil => rfl
  | append_singleton settings x ih =>
      have hset : ofSettings jobType (settings ++ [x]) = (ofSettings jobType settings).set x :=
        List.foldl_concat ..
      rw [hset, ih]
      cases x <;> simp [described, set, lastGiven_concat]

end WorkflowDraft

end StagedJobs
