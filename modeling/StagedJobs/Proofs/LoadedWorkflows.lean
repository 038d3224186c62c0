import Mathlib
import StagedJobs.Proofs.StageGraph

namespace StagedJobs

open Outcomes

namespace Catalogue

theorem ParamEntry.built_of_build {e : ParamEntry} {p : ParameterSpec} (h : e.build = .ok p) :
    p.Built := by
  obtain ⟨draft, -, hbuild⟩ := bind_eq_ok.mp h
  exact ParameterSpec.built_of_build (mapError_eq_ok.mp hbuild)

theorem param_of_stageSetting {e : Entry} {p : ParameterSpec}
    (h : stageSetting e = .ok (.param p)) : p.Built := by
  cases e with
  | property property =>
      have hproperty := mapError_eq_ok.mp h
      rw [stageProperty] at hproperty
      split at hproperty <;> simp [map_eq_ok] at hproperty
  | param entry =>
      obtain ⟨built, hbuild, heq⟩ := map_eq_ok.mp h
      obtain rfl : built = p := by simpa using heq
      exact entry.built_of_build hbuild
  | stage number taskType entries => simp [stageSetting] at h

section Settings

variable {number : Nat} {taskType : String} {entries : List Entry} {s : StageSpec}
  {block : WorkflowBlock} {w : WorkflowSpec}

theorem exists_settings_of_buildStage (h : buildStage number taskType entries = .ok s) :
    ∃ settings, entries.mapM stageSetting = .ok settings ∧
      (StageDraft.ofSettings number taskType settings).build = .ok s := by
  rw [buildStage] at h
  split at h
  · simp [bind, Except.bind] at h
  · obtain ⟨settings, hsettings, hbuild⟩ := bind_eq_ok.mp h
    exact ⟨settings, hsettings, mapError_eq_ok.mp hbuild⟩

theorem exists_settings_of_buildWorkflow (h : buildWorkflow block = .ok w) :
    ∃ settings, block.entries.mapM workflowSetting = .ok settings ∧
      (WorkflowDraft.ofSettings block.jobType settings).build = .ok w := by
  obtain ⟨settings, hsettings, hbuild⟩ := bind_eq_ok.mp h
  exact ⟨settings, hsettings, mapError_eq_ok.mp hbuild⟩

end Settings

theorem built_of_buildStage {number : Nat} {taskType : String} {entries : List Entry}
    {s : StageSpec} (h : buildStage number taskType entries = .ok s) : s.Built := by
  obtain ⟨settings, hsettings, hbuild⟩ := exists_settings_of_buildStage h
  refine ⟨number, taskType, settings, ?_, hbuild⟩
  intro p hp
  obtain ⟨e, -, he⟩ := exists_of_mem_mapM hsettings hp
  exact param_of_stageSetting he

theorem param_of_workflowSetting {e : Entry} {p : ParameterSpec}
    (h : workflowSetting e = .ok (.param p)) : p.Built := by
  cases e with
  | property property =>
      have hproperty := mapError_eq_ok.mp h
      rw [workflowProperty] at hproperty
      split at hproperty <;> simp [map_eq_ok] at hproperty
  | param entry =>
      obtain ⟨built, hbuild, heq⟩ := map_eq_ok.mp h
      obtain rfl : built = p := by simpa using heq
      exact entry.built_of_build hbuild
  | stage number taskType entries => simp [workflowSetting, map_eq_ok] at h

theorem stage_of_workflowSetting {e : Entry} {s : StageSpec}
    (h : workflowSetting e = .ok (.stage s)) : s.Built := by
  cases e with
  | property property =>
      have hproperty := mapError_eq_ok.mp h
      rw [workflowProperty] at hproperty
      split at hproperty <;> simp [map_eq_ok] at hproperty
  | param entry => simp [workflowSetting, map_eq_ok] at h
  | stage number taskType entries =>
      obtain ⟨built, hbuild, heq⟩ := map_eq_ok.mp h
      obtain rfl : built = s := by simpa using heq
      exact built_of_buildStage (mapError_eq_ok.mp hbuild)

theorem built_of_buildWorkflow {block : WorkflowBlock} {w : WorkflowSpec}
    (h : buildWorkflow block = .ok w) : w.Built := by
  obtain ⟨settings, hsettings, hbuild⟩ := exists_settings_of_buildWorkflow h
  refine ⟨block.jobType, settings, ?_, ?_, hbuild⟩
  · intro s hs
    obtain ⟨e, -, he⟩ := exists_of_mem_mapM hsettings hs
    exact stage_of_workflowSetting he
  · intro p hp
    obtain ⟨e, -, he⟩ := exists_of_mem_mapM hsettings hp
    exact param_of_workflowSetting he

end Catalogue

/-- All workflows are built ones, and are found under their own types of job. -/
def Registry.AllBuilt (r : Registry) : Prop :=
  ∀ jobType w, r.workflows.get? jobType = some w → w.Built ∧ w.jobType = jobType

theorem Registry.AllBuilt.empty : Registry.empty.AllBuilt := by
  intro jobType w h
  simp [Registry.empty] at h

theorem Registry.AllBuilt.register {r r' : Registry} {w : WorkflowSpec} (hr : r.AllBuilt)
    (hw : w.Built) (h : r.register w = .ok r') : r'.AllBuilt := by
  rw [Registry.register] at h
  split at h
  · simp at h
  · obtain rfl := Except.ok.inj h
    intro jobType v hv
    rw [KeyMap.get?_insert] at hv
    split at hv
    case isTrue hkey => exact Option.some.inj hv ▸ ⟨hw, hkey⟩
    case isFalse => exact hr jobType v hv

namespace Catalogue

theorem Progress.allBuilt_step {s : Progress} (hs : s.registry.AllBuilt) (block : WorkflowBlock) :
    (s.step block).registry.AllBuilt := by
  rw [step]
  split
  · exact hs
  · rename_i w hw
    split
    · rename_i registry hregister
      exact hs.register (built_of_buildWorkflow hw) hregister
    · exact hs

theorem Progress.allBuilt_foldl {s : Progress} (hs : s.registry.AllBuilt)
    (blocks : List WorkflowBlock) : (blocks.foldl step s).registry.AllBuilt := by
  induction blocks generalizing s with
  | nil => exact hs
  | cons block blocks ih => exact ih (allBuilt_step hs block)

theorem allBuilt_of_load {blocks : List WorkflowBlock} {r : Registry} (h : load blocks = .ok r) :
    r.AllBuilt := by
  simp only [load] at h
  split at h
  · obtain rfl := Except.ok.inj h
    exact Progress.allBuilt_foldl Registry.AllBuilt.empty blocks
  · simp at h

section Text

variable {text : String} {registry : Registry}

theorem loadText_eq_ok_iff :
    loadText text = .ok registry ↔ ∃ blocks, parse text = .ok blocks ∧ load blocks = .ok registry := by
  simp only [loadText, bind_eq_ok, mapError_eq_ok]

theorem loadText_eq_parse_iff {e : ParseError} :
    loadText text = .error (.parse e) ↔ parse text = .error e := by
  simp [loadText, bind_eq_error, mapError_eq_error]

theorem loadText_eq_invalid_iff {e : AggregatedErrors} :
    loadText text = .error (.invalid e) ↔
      ∃ blocks, parse text = .ok blocks ∧ load blocks = .error e := by
  simp [loadText, bind_eq_error, mapError_eq_error, mapError_eq_ok]

theorem built_of_loadText (h : loadText text = .ok registry) {jobType : String} {w : WorkflowSpec}
    (hget : registry.get jobType = .ok w) : w.Built ∧ w.jobType = jobType := by
  obtain ⟨blocks, -, hload⟩ := loadText_eq_ok_iff.mp h
  rw [Registry.get] at hget
  split at hget
  case h_1 v hv =>
    obtain rfl := Except.ok.inj hget
    exact allBuilt_of_load hload jobType _ hv
  case h_2 => simp at hget

end Text

end Catalogue

/-- A workflow that a loaded catalogue gives for some type of job. -/
def WorkflowSpec.Loaded (w : WorkflowSpec) : Prop :=
  ∃ text r jobType, Catalogue.loadText text = .ok r ∧ r.get jobType = .ok w

theorem WorkflowSpec.Loaded.built {w : WorkflowSpec} (hw : w.Loaded) : w.Built := by
  obtain ⟨text, r, jobType, hload, hget⟩ := hw
  exact (Catalogue.built_of_loadText hload hget).1

/-- However a workflow was made, in code or from a catalogue, its stages form a graph that number
order sorts, and looking up stages by number and going from each to the next is exact. -/
theorem WorkflowSpec.stageGraph_of_built_or_loaded {w : WorkflowSpec} (hw : w.Built ∨ w.Loaded) :
    w.WellStaged ∧
      (∀ n m, w.DependsOn n m → m < n) ∧
      (∀ n, ¬ Relation.TransGen w.DependsOn n n) ∧
      (∀ n, ((∃ s, w.stage? n = some s) ↔ 1 ≤ n ∧ n ≤ w.stages.length) ∧
        (∀ s, w.stage? n = some s → s.number = n) ∧
        w.nextStage? n = w.stage? (n + 1)) ∧
      ∀ visited, w.Visits 0 visited ↔ visited = w.stages := by
  have hstaged : w.WellStaged := by
    rcases hw with hbuilt | hloaded
    · exact hbuilt.wellStaged
    · exact hloaded.built.wellStaged
  refine ⟨hstaged, ?_, ?_, ?_, ?_⟩
  · intro n m h
    exact hstaged.lt_of_dependsOn h
  · intro n h
    exact Nat.lt_irrefl n (hstaged.lt_of_transGen h)
  · intro n
    refine ⟨stage?_isSome_iff, ?_, hstaged.nextStage?_eq n⟩
    intro s h
    exact (hstaged.stage?_eq_some_iff.mp h).2
  · intro visited
    have hall : w.Visits 0 w.stages := hstaged.visits_drop (Nat.zero_le _)
    constructor
    · intro h
      exact h.unique hall
    · rintro rfl
      exact hall

def StageSpec.greet : StageSpec := (StageDraft.start 1 "greet").finish

def StageSpec.reply : StageSpec :=
  (StageDraft.ofSettings 2 "reply" [.final true, .dependsOn [1, 1]]).finish

def WorkflowSpec.greeting : WorkflowSpec where
  jobType := "greeting"
  name := "greeting"
  description := ""
  version := "1.0"
  stages := [StageSpec.greet, StageSpec.reply]
  finalIndex := 1
  params := []
  maxTotalDurationMinutes := 1440
  allowPartialFailure := false

theorem WorkflowSpec.greeting_built : greeting.Built := by
  refine ⟨"greeting", [.stage StageSpec.reply, .stage StageSpec.greet], ?_, by simp, by cbv⟩
  intro s hs
  simp only [List.mem_cons, WorkflowDraft.Setting.stage.injEq, List.not_mem_nil, or_false] at hs
  rcases hs with rfl | rfl
  · exact ⟨2, "reply", [.final true, .dependsOn [1, 1]], by simp, by cbv⟩
  · exact ⟨1, "greet", [], by simp, by cbv⟩

theorem WorkflowSpec.greeting_stageGraph :
    greeting.Built ∧ greeting.WellStaged ∧ (∀ n, ¬ Relation.TransGen greeting.DependsOn n n) ∧
      greeting.Visits 0 greeting.stages := by
  obtain ⟨hstaged, -, hacyclic, -, hvisits⟩ := stageGraph_of_built_or_loaded (.inl greeting_built)
  exact ⟨greeting_built, hstaged, hacyclic, (hvisits _).mpr rfl⟩

end StagedJobs
