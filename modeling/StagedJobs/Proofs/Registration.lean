import StagedJobs.Proofs.LayeredValidation
import StagedJobs.Proofs.LoadedWorkflows

/-!
Registries over time. Calls that register workflows run one after the other, and any of them may fail;
what every run leaves behind is told from the workflows that it came to add, in whatever order.
-/

namespace StagedJobs

open Outcomes

namespace KeyMap

variable {α : Type} {m : KeyMap α} {key : String}

theorem pairwise_keys (m : KeyMap α) : m.keys.Pairwise (· < ·) :=
  List.pairwise_map.mpr m.ascending

theorem nodup_keys (m : KeyMap α) : m.keys.Nodup := by
  refine m.pairwise_keys.imp ?_
  intro a b hab heq
  exact String.lt_irrefl a (heq ▸ hab)

theorem length_keys (m : KeyMap α) : m.keys.length = m.size := by
  rw [keys, List.length_map, size]

theorem mergeSort_eq_keys {names : List String} (h : names.Perm m.keys) :
    names.mergeSort (· ≤ ·) = m.keys := by
  have hsorted : (names.mergeSort (· ≤ ·)).Pairwise fun a b => a ≤ b :=
    List.pairwise_mergeSort' (· ≤ ·) names
  refine List.Perm.eq_of_pairwise (fun a b _ _ => String.le_antisymm) hsorted ?_
    ((List.mergeSort_perm names _).trans h)
  exact m.pairwise_keys.imp fun hab => Std.le_of_lt hab

private theorem length_put {value : α} {es : List (String × α)} (h : find? key es = none) :
    (put key value es).length = es.length + 1 := by
  induction es with
  | nil => rfl
  | cons e rest ih =>
      obtain ⟨k, v⟩ := e
      rw [find?] at h
      split at h
      case isTrue => simp at h
      case isFalse hne =>
        rw [put]
        split
        · rfl
        · rw [if_neg (Ne.symm hne), List.length_cons, ih h, List.length_cons]

theorem size_insert (h : m.get? key = none) (value : α) :
    (m.insert key value).size = m.size + 1 :=
  length_put h

end KeyMap

namespace Registry

/-- A call that is to add a workflow: one at hand, or one that a factory makes if it can. -/
inductive Call where
  | register (w : WorkflowSpec)
  | registerWith (factory : Except DefinitionError WorkflowSpec)

/-- The workflow that a call comes with, or the failure of its factory. -/
def Call.workflow : Call → Except DefinitionError WorkflowSpec
  | .register w => .ok w
  | .registerWith factory => factory

def call (r : Registry) : Call → Except DefinitionError Registry
  | .register w => r.register w
  | .registerWith factory => r.registerWith factory

/-- The registry after a call, whether the call succeeds or not. -/
def after (r : Registry) (c : Call) : Registry :=
  match r.call c with
  | .ok r' => r'
  | .error _ => r

/-- The registry after calls, from the empty one on. -/
def run (calls : List Call) : Registry := calls.foldl after empty

/-- The workflows that calls come to add, one for each call that succeeds. -/
def added (r : Registry) : List Call → List WorkflowSpec
  | [] => []
  | c :: rest =>
    match c.workflow, r.call c with
    | .ok w, .ok r' => w :: added r' rest
    | _, _ => added r rest

variable {r r' : Registry} {c : Call} {e : DefinitionError}

theorem call_eq_bind (r : Registry) (c : Call) : r.call c = c.workflow >>= r.register := by
  cases c with
  | register w => rfl
  | registerWith factory => rfl

theorem call_eq_ok_iff :
    r.call c = .ok r' ↔
      ∃ w, c.workflow = .ok w ∧ r.contains w.jobType = false ∧
        r' = ⟨r.workflows.insert w.jobType w⟩ := by
  rw [call_eq_bind, bind_eq_ok]
  refine exists_congr fun w => and_congr Iff.rfl ?_
  rw [register]
  cases r.contains w.jobType with
  | true => simp
  | false => simp [eq_comm]

theorem call_eq_error_iff :
    r.call c = .error e ↔
      c.workflow = .error e ∨
        ∃ w, c.workflow = .ok w ∧ r.contains w.jobType = true ∧
          e = .duplicateRegistration w.jobType := by
  rw [call_eq_bind, bind_eq_error]
  refine or_congr Iff.rfl (exists_congr fun w => and_congr Iff.rfl ?_)
  rw [register]
  cases r.contains w.jobType with
  | true => simp [eq_comm]
  | false => simp

theorem after_of_ok (h : r.call c = .ok r') : r.after c = r' := by
  rw [after, h]

theorem after_of_error (h : r.call c = .error e) : r.after c = r := by
  rw [after, h]

theorem contains_eq_false_iff {jobType : String} :
    r.contains jobType = false ↔ r.workflows.get? jobType = none := by
  rw [contains, KeyMap.contains, Option.isSome_eq_false_iff, Option.isNone_iff_eq_none]

theorem get_eq_ok_iff {jobType : String} {w : WorkflowSpec} :
    r.get jobType = .ok w ↔ r.workflows.get? jobType = some w := by
  rw [get]
  cases r.workflows.get? jobType with
  | none => simp
  | some v => simp

theorem get?_of_call_eq_ok (h : r.call c = .ok r') {w : WorkflowSpec} (hw : c.workflow = .ok w)
    {jobType : String} {v : WorkflowSpec} :
    r'.workflows.get? jobType = some v ↔
      jobType = w.jobType ∧ v = w ∨ r.workflows.get? jobType = some v := by
  obtain ⟨w', hw', hnew, rfl⟩ := call_eq_ok_iff.mp h
  obtain rfl : w = w' := Except.ok.inj (hw.symm.trans hw')
  rw [contains_eq_false_iff] at hnew
  rw [KeyMap.get?_insert]
  by_cases hkey : w.jobType = jobType
  · subst hkey
    simp [hnew, eq_comm]
  · simp [hkey, Ne.symm hkey]

/-- What is found after more calls was there before, or is one of the workflows that they added. -/
theorem get?_foldl_after (r : Registry) (calls : List Call) {jobType : String} {v : WorkflowSpec} :
    (calls.foldl after r).workflows.get? jobType = some v ↔
      r.workflows.get? jobType = some v ∨ v ∈ r.added calls ∧ v.jobType = jobType := by
  induction calls generalizing r with
  | nil => simp [added]
  | cons c calls ih =>
      rw [List.foldl_cons, ih, added]
      cases hcall : r.call c with
      | error e =>
          rw [after_of_error hcall]
          cases c.workflow <;> simp
      | ok r' =>
          obtain ⟨w, hw, -⟩ := call_eq_ok_iff.mp hcall
          rw [after_of_ok hcall, get?_of_call_eq_ok hcall hw, hw]
          simp only [List.mem_cons]
          constructor
          · rintro ((⟨rfl, rfl⟩ | hold) | ⟨hv, htype⟩)
            · exact .inr ⟨.inl rfl, rfl⟩
            · exact .inl hold
            · exact .inr ⟨.inr hv, htype⟩
          · rintro (hold | ⟨rfl | hv, htype⟩)
            · exact .inl (.inr hold)
            · exact .inl (.inl ⟨htype.symm, rfl⟩)
            · exact .inr ⟨hv, htype⟩

theorem get?_run {calls : List Call} {jobType : String} {v : WorkflowSpec} :
    (run calls).workflows.get? jobType = some v ↔
      v ∈ empty.added calls ∧ v.jobType = jobType := by
  rw [run, get?_foldl_after]
  simp [empty]

theorem eq_of_get? (h : ∀ jobType v, r.workflows.get? jobType = some v ↔
    r'.workflows.get? jobType = some v) : r = r' := by
  have hmaps : r.workflows = r'.workflows := by
    apply KeyMap.eq_of_get?
    intro jobType
    exact Option.ext (h jobType)
  cases r
  cases r'
  exact congrArg _ hmaps

/-- All that can be asked of a registry agrees: what is found, what is known and how much there is. -/
structure Coherent (r : Registry) : Prop where
  named : ∀ jobType w, r.get jobType = .ok w → w.jobType = jobType
  found : ∀ jobType, (∃ w, r.get jobType = .ok w) ↔ r.contains jobType = true
  listed : ∀ jobType, r.contains jobType = true ↔ jobType ∈ r.jobTypes
  unknown : ∀ jobType, r.contains jobType = false →
    r.get jobType = .error (.unknownJobType jobType r.jobTypes)
  ascending : r.jobTypes.Pairwise (· < ·)
  /-- The order in which the entries are met does not show. -/
  sorted : ∀ names : List String, names.Perm r.jobTypes → names.mergeSort (· ≤ ·) = r.jobTypes
  counted : r.jobTypes.length = r.size
  isEmpty_iff : r.isEmpty = true ↔ r.size = 0

theorem coherent_run (calls : List Call) : (run calls).Coherent where
  named jobType w h := (get?_run.mp (get_eq_ok_iff.mp h)).2
  found jobType := by
    rw [contains, KeyMap.contains, Option.isSome_iff_exists]
    exact exists_congr fun w => get_eq_ok_iff
  listed jobType := by
    rw [contains, KeyMap.contains, jobTypes, KeyMap.mem_keys_iff]
  unknown jobType h := by
    rw [get, contains_eq_false_iff.mp h]
  ascending := KeyMap.pairwise_keys _
  sorted names h := KeyMap.mergeSort_eq_keys h
  counted := KeyMap.length_keys _
  isEmpty_iff := by
    rw [isEmpty, KeyMap.isEmpty, size, KeyMap.size, List.isEmpty_iff, List.length_eq_zero_iff]

/-- Every run of calls that register workflows leaves a coherent registry. A call fails where there is
no workflow to add or its type is taken, and then changes nothing; a call that succeeds adds one
workflow, which stays; and the order of what is added does not matter. -/
theorem run_lawful (calls : List Call) :
    (run calls).Coherent ∧
    (∀ c e, (run calls).call c = .error e ↔
      c.workflow = .error e ∨
        ∃ w, c.workflow = .ok w ∧ (run calls).contains w.jobType = true ∧
          e = .duplicateRegistration w.jobType) ∧
    (∀ c e, (run calls).call c = .error e → run (calls ++ [c]) = run calls) ∧
    (∀ c r', (run calls).call c = .ok r' →
      run (calls ++ [c]) = r' ∧ r'.size = (run calls).size + 1 ∧
        ∃ w, c.workflow = .ok w ∧ ∀ jobType v,
          r'.get jobType = .ok v ↔
            jobType = w.jobType ∧ v = w ∨ (run calls).get jobType = .ok v) ∧
    (∀ more jobType w, (run calls).get jobType = .ok w →
      (run (calls ++ more)).get jobType = .ok w) ∧
    ∀ calls', (empty.added calls).Perm (empty.added calls') → run calls = run calls' := by
  have happend : ∀ more, run (calls ++ more) = more.foldl after (run calls) :=
    fun more => List.foldl_append
  refine ⟨coherent_run calls, ?_, ?_, ?_, ?_, ?_⟩
  · intro c e
    exact call_eq_error_iff
  · intro c e h
    rw [happend]
    exact after_of_error h
  · intro c r' h
    obtain ⟨w, hw, hnew, rfl⟩ := call_eq_ok_iff.mp h
    refine ⟨?_, ?_, w, hw, ?_⟩
    · rw [happend]
      exact after_of_ok h
    · exact KeyMap.size_insert (contains_eq_false_iff.mp hnew) w
    · intro jobType v
      rw [get_eq_ok_iff, get_eq_ok_iff]
      exact get?_of_call_eq_ok h hw
  · intro more jobType w h
    rw [happend, get_eq_ok_iff, get?_foldl_after]
    exact .inl (get_eq_ok_iff.mp h)
  · intro calls' hperm
    apply eq_of_get?
    intro jobType v
    rw [get?_run, get?_run, hperm.mem_iff]

/-- Two workflows, one of them offered twice, and a factory that fails in between. -/
def busyCalls : List Call :=
  [.register .shadowing, .registerWith (.error (.stageNumberOutOfRange 0)), .register .shadowing,
    .registerWith (.ok .greeting)]

def plainCalls : List Call := [.register .greeting, .register .shadowing]

theorem busyCalls_as_plainCalls :
    (run busyCalls).call (.register .shadowing) =
        .error (.duplicateRegistration "shadowing") ∧
      run (busyCalls ++ [.register .shadowing]) = run busyCalls ∧
      (empty.added busyCalls).Perm (empty.added plainCalls) ∧ run busyCalls = run plainCalls := by
  obtain ⟨-, -, hfailed, -, -, hsame⟩ := run_lawful busyCalls
  have hcall : (run busyCalls).call (.register .shadowing) =
      .error (.duplicateRegistration "shadowing") := by rfl
  have hbusy : empty.added busyCalls = [.shadowing, .greeting] := by rfl
  have hplain : empty.added plainCalls = [.greeting, .shadowing] := by rfl
  have hperm : (empty.added busyCalls).Perm (empty.added plainCalls) := by
    rw [hbusy, hplain]
    exact .swap _ _ _
  exact ⟨hcall, hfailed _ _ hcall, hperm, hsame _ hperm⟩

end Registry

end StagedJobs
