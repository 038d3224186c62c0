import Mathlib.Data.List.Nodup
import Mathlib.Logic.Unique
import StagedJobs.Proofs.Outcomes
import StagedJobs.Catalogue.Loading

namespace StagedJobs

open Outcomes

/-- A parameter that comes out of some sequence of settings. -/
def ParameterSpec.Built (p : ParameterSpec) : Prop :=
  ∃ name type settings, (ParameterDraft.ofSettings name type settings).build = .ok p

/-- A stage that comes out of some sequence of settings, its parameters having been built before. -/
def StageSpec.Built (s : StageSpec) : Prop :=
  ∃ number taskType settings,
    (∀ p, StageDraft.Setting.param p ∈ settings → p.Built) ∧
      (StageDraft.ofSettings number taskType settings).build = .ok s

/-- A workflow that comes out of some sequence of settings, its stages and its parameters having been
built before. -/
def WorkflowSpec.Built (w : WorkflowSpec) : Prop :=
  ∃ jobType settings,
    (∀ s, WorkflowDraft.Setting.stage s ∈ settings → s.Built) ∧
      (∀ p, WorkflowDraft.Setting.param p ∈ settings → p.Built) ∧
        (WorkflowDraft.ofSettings jobType settings).build = .ok w

theorem ParameterDraft.exists_ofSettings (d : ParameterDraft) :
    ∃ settings, ofSettings d.name d.type settings = d := by
  refine ⟨[.required d.required, .description d.description, .constraints d.constraints] ++
    (d.default.map Setting.default).toList, ?_⟩
  cases d with
  | mk name type required default description constraints =>
      cases default <;> rfl

theorem ParameterSpec.built_of_build {d : ParameterDraft} {p : ParameterSpec}
    (h : d.build = .ok p) : p.Built := by
  obtain ⟨settings, hd⟩ := d.exists_ofSettings
  exact ⟨d.name, d.type, settings, by rw [hd]; exact h⟩

theorem mem_foldl_of_mem_set {δ σ α : Type} {set : δ → σ → δ} (items : δ → List α)
    {adding : α → σ}
    (hset : ∀ d setting x, x ∈ items (set d setting) → x ∈ items d ∨ setting = adding x)
    {settings : List σ} {d : δ} {x : α} (h : x ∈ items (settings.foldl set d)) :
    x ∈ items d ∨ adding x ∈ settings := by
  induction settings generalizing d with
  | nil => exact .inl h
  | cons setting settings ih =>
      rcases ih h with hd | hx
      · rcases hset d setting x hd with hd | rfl
        · exact .inl hd
        · exact .inr List.mem_cons_self
      · exact .inr (List.mem_cons_of_mem _ hx)

theorem WorkflowDraft.mem_stages_ofSettings {jobType : String} {settings : List Setting}
    {s : StageSpec} (h : s ∈ (ofSettings jobType settings).stages) :
    Setting.stage s ∈ settings := by
  have hset : ∀ (d : WorkflowDraft) setting t, t ∈ (d.set setting).stages →
      t ∈ d.stages ∨ setting = .stage t := by
    intro d setting t ht
    cases setting <;> simp_all [set]
    tauto
  rcases mem_foldl_of_mem_set stages hset h with hstart | hmem
  · simp [start] at hstart
  · exact hmem

theorem WorkflowDraft.mem_orderedStages {d : WorkflowDraft} {s : StageSpec} :
    s ∈ d.orderedStages ↔ s ∈ d.stages :=
  List.mem_mergeSort

theorem WorkflowDraft.mem_params_ofSettings {jobType : String} {settings : List Setting}
    {p : ParameterSpec} (h : p ∈ (ofSettings jobType settings).params) :
    Setting.param p ∈ settings := by
  have hset : ∀ (d : WorkflowDraft) setting q, q ∈ (d.set setting).params →
      q ∈ d.params ∨ setting = .param q := by
    intro d setting q hq
    cases setting <;> simp_all [set]
    tauto
  rcases mem_foldl_of_mem_set params hset h with hstart | hmem
  · simp [start] at hstart
  · exact hmem

theorem StageDraft.mem_params_ofSettings {number : Nat} {taskType : String}
    {settings : List Setting} {p : ParameterSpec}
    (h : p ∈ (ofSettings number taskType settings).params) : Setting.param p ∈ settings := by
  have hset : ∀ (d : StageDraft) setting q, q ∈ (d.set setting).params →
      q ∈ d.params ∨ setting = .param q := by
    intro d setting q hq
    cases setting <;> simp_all [set]
    tauto
  rcases mem_foldl_of_mem_set params hset h with hstart | hmem
  · simp [start] at hstart
  · exact hmem

namespace ParameterSpec

/-- Looking for a repeated name finds none exactly where the names are new and distinct. -/
theorem firstRepeated?_go_eq_none_iff {seen : List String} {specs : List ParameterSpec} :
    firstRepeated?.go seen specs = none ↔
      (specs.map (·.name)).Nodup ∧ ∀ s ∈ specs, s.name ∉ seen := by
  induction specs generalizing seen with
  | nil => simp [firstRepeated?.go]
  | cons s rest ih =>
      rw [firstRepeated?.go]
      by_cases hseen : s.name ∈ seen
      · simp [hseen]
      · have hcontains : seen.contains s.name = false := by simpa using hseen
        rw [hcontains]
        simp only [Bool.false_eq_true, if_false, ih, List.map_cons, List.nodup_cons,
          List.mem_map, List.mem_cons, not_exists, not_and]
        constructor
        · rintro ⟨hdistinct, hnew⟩
          refine ⟨⟨?_, hdistinct⟩, ?_⟩
          · intro t ht hname
            exact hnew t ht (.inl hname)
          · rintro t (rfl | ht) hmem
            · exact hseen hmem
            · exact hnew t ht (.inr hmem)
        · rintro ⟨⟨hfirst, hdistinct⟩, hnew⟩
          refine ⟨hdistinct, ?_⟩
          rintro t ht (hname | hmem)
          · exact hfirst t ht hname
          · exact hnew t (.inr ht) hmem

theorem checkUnique_eq_ok_iff {scope : Scope} {specs : List ParameterSpec} :
    checkUnique scope specs = .ok () ↔ (specs.map (·.name)).Nodup := by
  have hgo : firstRepeated? specs = none ↔ (specs.map (·.name)).Nodup := by
    rw [firstRepeated?, firstRepeated?_go_eq_none_iff]
    simp only [List.not_mem_nil, not_false_eq_true, implies_true, and_true]
  rw [checkUnique, ← hgo]
  split
  · rename_i hname
    simp [hname]
  · rename_i hnone
    simp [hnone]

end ParameterSpec

theorem checkIdentifier_eq_ok_iff {kind : IdentifierKind} {name : String} :
    checkIdentifier kind name = .ok () ↔ isIdentifier name = true := by
  rw [checkIdentifier]
  split
  · simp_all
  · simp_all

theorem ParameterDraft.build_eq_ok_iff {d : ParameterDraft} {p : ParameterSpec} :
    d.build = .ok p ↔
      checkIdentifier .parameterName d.name = .ok () ∧ d.checkValueRange = .ok () ∧
        d.checkLengthRange = .ok () ∧
          ∃ allowed, d.coerceAllowed = .ok allowed ∧
            ∃ default, d.coerceDefault { d.constraints with allowedValues := allowed } =
                .ok default ∧
              ⟨d.name, d.type, d.required, default, d.description,
                { d.constraints with allowedValues := allowed }⟩ = p := by
  simp [build, bind_eq_ok, Unique.exists_iff, pure, Except.pure]

theorem StageDraft.build_eq_ok_iff {d : StageDraft} {s : StageSpec} :
    d.build = .ok s ↔
      checkIdentifier .taskType d.taskType = .ok () ∧ d.checkNumber = .ok () ∧
        d.checkDependencies = .ok () ∧ d.checkPolicies = .ok () ∧
          ParameterSpec.checkUnique (.stage d.number) d.params = .ok () ∧ d.finish = s := by
  simp [build, bind_eq_ok, Unique.exists_iff, pure, Except.pure]

theorem WorkflowDraft.build_eq_ok_iff {d : WorkflowDraft} {w : WorkflowSpec} :
    d.build = .ok w ↔
      checkIdentifier .jobType d.jobType = .ok () ∧
        checkPolicy (.workflow d.jobType) .maxTotalDurationMinutes d.maxTotalDurationMinutes =
            .ok () ∧
          ParameterSpec.checkUnique (.workflow d.jobType) d.params = .ok () ∧
            d.checkNumbering = .ok () ∧
              ∃ place, d.checkFinal = .ok place ∧ d.checkDependencies = .ok () ∧
                d.finish place = w := by
  simp [build, bind_eq_ok, Unique.exists_iff, pure, Except.pure]

theorem StageSpec.Built.params_built {s : StageSpec} (hs : s.Built) : ∀ p ∈ s.params, p.Built := by
  obtain ⟨number, taskType, settings, hparams, hbuild⟩ := hs
  obtain ⟨-, -, -, -, -, rfl⟩ := StageDraft.build_eq_ok_iff.mp hbuild
  intro p hp
  exact hparams p (StageDraft.mem_params_ofSettings hp)

theorem WorkflowSpec.Built.params_built {w : WorkflowSpec} (hw : w.Built) :
    ∀ p ∈ w.params, p.Built := by
  obtain ⟨jobType, settings, -, hparams, hbuild⟩ := hw
  obtain ⟨-, -, -, -, place, -, -, rfl⟩ := WorkflowDraft.build_eq_ok_iff.mp hbuild
  intro p hp
  exact hparams p (WorkflowDraft.mem_params_ofSettings hp)

theorem WorkflowSpec.Built.stages_built {w : WorkflowSpec} (hw : w.Built) :
    ∀ s ∈ w.stages, s.Built := by
  obtain ⟨jobType, settings, hstages, -, hbuild⟩ := hw
  obtain ⟨-, -, -, -, place, -, -, rfl⟩ := WorkflowDraft.build_eq_ok_iff.mp hbuild
  intro s hs
  exact hstages s (WorkflowDraft.mem_stages_ofSettings (WorkflowDraft.mem_orderedStages.mp hs))

end StagedJobs
