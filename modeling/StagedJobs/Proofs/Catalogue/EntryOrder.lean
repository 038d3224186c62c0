import Mathlib
import StagedJobs.Catalogue.Loading
import StagedJobs.Proofs.SettingOrder

namespace StagedJobs

open Outcomes

section Reorders

variable {ε α β γ : Type} [DecidableEq γ] {group : α → Option γ} {group' : β → Option γ}
  {f : α → Except ε β} {xs mid ys : List α}

theorem outcomes_reorders (hgroup : ∀ x y, f x = .ok y → group' y = group x)
    (h : Reorders group xs ys) : Reorders group' (outcomes f xs) (outcomes f ys) where
  perm := h.perm.filterMap _
  kept g := by
    have hfilter : ∀ zs : List α, (outcomes f zs).filter (group' · = some g) =
        outcomes f (zs.filter (group · = some g)) := by
      intro zs
      induction zs with
      | nil => rfl
      | cons z zs ih =>
          cases hz : f z with
          | error e =>
              rw [outcomes_cons_of_error hz, ih, List.filter_cons]
              split
              · rw [outcomes_cons_of_error hz]
              · rfl
          | ok y =>
              rw [outcomes_cons_of_ok hz, List.filter_cons, List.filter_cons, hgroup z y hz, ih]
              split
              · rw [outcomes_cons_of_ok hz]
              · rfl
    rw [hfilter, hfilter, h.kept g]

theorem mapM_bind_agree {δ : Type} {k : List β → Except ε δ}
    (hgroup : ∀ x y, f x = .ok y → group' y = group x)
    (hk : ∀ bs cs, Reorders group' bs cs → k bs = k cs)
    (hinner : List.Forall₂ (fun x y => Agree (f x) (f y)) xs mid) (houter : Reorders group mid ys) :
    Agree (xs.mapM f >>= k) (ys.mapM f >>= k) := by
  have hmem : (∀ x ∈ mid, ∃ y, f x = .ok y) ↔ ∀ x ∈ ys, ∃ y, f x = .ok y :=
    forall_congr' fun x => by rw [houter.perm.mem_iff]
  have hsame := hk _ _ (outcomes_reorders hgroup houter)
  intro c
  simp only [bind_eq_ok, mapM_agree hinner _, mapM_eq_ok_iff, hmem, and_assoc, exists_and_left,
    exists_eq_left', hsame]

end Reorders

theorem StageDraft.build_eq_of_reorders {number : Nat} {taskType : String} {xs ys : List Setting}
    (h : Reorders Setting.group xs ys) :
    (ofSettings number taskType xs).build = (ofSettings number taskType ys).build := by
  refine Alike.build_eq (h.foldl alike_equivalence (fun _ _ x hd => hd.set x) ?_ _)
  exact related_of_mayPass alike_equivalence (fun d _ _ => set_comm d) fun d _ _ => alike_set_set d

theorem WorkflowDraft.build_eq_of_reorders {jobType : String} {xs ys : List Setting}
    (h : Reorders Setting.group xs ys) :
    (ofSettings jobType xs).build = (ofSettings jobType ys).build := by
  refine Alike.build_eq (h.foldl alike_equivalence (fun _ _ x hd => hd.set x) ?_ _)
  exact related_of_mayPass alike_equivalence (fun d _ _ => set_comm d) fun d _ _ => alike_set_set d

namespace Catalogue

/-- What an entry keeps its order about: parameters among each other, properties among those of their
key, where `parallel` and `sequential` are one key. Lists of dependencies and stages may go
anywhere. -/
def Entry.group : Entry → Option SettingGroup
  | .property p =>
    if p.key = "depends" then none
    else if p.key = "sequential" then some (.property "parallel")
    else some (.property p.key)
  | .param _ => some .params
  | .stage .. => none

/-- An entry and what it may become: the entries of a stage may change places, and so, at any depth,
may the entries of those that are stages. -/
inductive Entry.Reordered : Entry → Entry → Prop
  | property (p : Property) : Reordered (.property p) (.property p)
  | param (p : ParamEntry) : Reordered (.param p) (.param p)
  | stage (number : Nat) (taskType : String) {es mid fs : List Entry}
      (inner : List.Forall₂ Reordered es mid) (outer : Reorders Entry.group mid fs) :
      Reordered (.stage number taskType es) (.stage number taskType fs)

/-- A block and one with the same entries in another order, in it and in its stages. -/
structure WorkflowBlock.Reordered (b b' : WorkflowBlock) : Prop where
  jobType : b.jobType = b'.jobType
  entries : ∃ mid, List.Forall₂ Entry.Reordered b.entries mid ∧
    Reorders Entry.group mid b'.entries

theorem group_of_stageSetting (e : Entry) (x : StageDraft.Setting) (h : stageSetting e = .ok x) :
    x.group = e.group := by
  cases e with
  | property p =>
      have hproperty := mapError_eq_ok.mp h
      rw [stageProperty] at hproperty
      split at hproperty
      case h_9 => simp at hproperty
      all_goals
        rename_i hkey
        obtain ⟨_, -, rfl⟩ := map_eq_ok.mp hproperty
        simp [StageDraft.Setting.group, Entry.group, hkey]
  | param p =>
      obtain ⟨_, -, rfl⟩ := map_eq_ok.mp h
      rfl
  | stage number taskType entries => simp [stageSetting] at h

theorem group_of_workflowSetting (e : Entry) (x : WorkflowDraft.Setting)
    (h : workflowSetting e = .ok x) : x.group = e.group := by
  cases e with
  | property p =>
      have hproperty := mapError_eq_ok.mp h
      rw [workflowProperty] at hproperty
      split at hproperty
      case h_6 => simp at hproperty
      all_goals
        rename_i hkey
        obtain ⟨_, -, rfl⟩ := map_eq_ok.mp hproperty
        simp [WorkflowDraft.Setting.group, Entry.group, hkey]
  | param p =>
      obtain ⟨_, -, rfl⟩ := map_eq_ok.mp h
      rfl
  | stage number taskType entries =>
      obtain ⟨_, -, rfl⟩ := map_eq_ok.mp h
      rfl

theorem stageSetting_agree {e e' : Entry} (h : e.Reordered e') :
    Agree (stageSetting e) (stageSetting e') := by
  cases h with
  | property p => exact fun _ => Iff.rfl
  | param p => exact fun _ => Iff.rfl
  | stage number taskType inner outer => exact fun _ => Iff.rfl

theorem buildStage_agree (number : Nat) (taskType : String) {es mid fs : List Entry}
    (hinner : List.Forall₂ Entry.Reordered es mid) (houter : Reorders Entry.group mid fs) :
    Agree (buildStage number taskType es) (buildStage number taskType fs) := by
  have hbuild : ∀ xs ys, Reorders StageDraft.Setting.group xs ys →
      ((StageDraft.ofSettings number taskType xs).build.mapError .ofDefinition :
        Except LoadError StageSpec) =
      (StageDraft.ofSettings number taskType ys).build.mapError .ofDefinition := by
    intro xs ys h
    rw [StageDraft.build_eq_of_reorders h]
  have hsettings := mapM_bind_agree group_of_stageSetting hbuild
    (hinner.imp fun _ _ => stageSetting_agree) houter
  rw [buildStage, buildStage]
  split
  · exact fun _ => Iff.rfl
  · exact hsettings

theorem workflowSetting_agree {e e' : Entry} (h : e.Reordered e') :
    Agree (workflowSetting e) (workflowSetting e') := by
  cases h with
  | property p => exact fun _ => Iff.rfl
  | param p => exact fun _ => Iff.rfl
  | stage number taskType inner outer =>
      exact ((buildStage_agree number taskType inner outer).mapError _).map _

/-- Entries may be written in another order: as long as parameters and properties of one key keep
theirs, a block builds the same workflow, or none as before. -/
theorem buildWorkflow_of_reordered {b b' : WorkflowBlock} (h : b.Reordered b') :
    (∃ w, buildWorkflow b = .ok w ∧ buildWorkflow b' = .ok w) ∨
      ∃ e e', buildWorkflow b = .error e ∧ buildWorkflow b' = .error e' := by
  obtain ⟨mid, hinner, houter⟩ := h.entries
  have hbuild : ∀ xs ys, Reorders WorkflowDraft.Setting.group xs ys →
      ((WorkflowDraft.ofSettings b.jobType xs).build.mapError .ofDefinition :
        Except LoadError WorkflowSpec) =
      (WorkflowDraft.ofSettings b.jobType ys).build.mapError .ofDefinition := by
    intro xs ys hxs
    rw [WorkflowDraft.build_eq_of_reorders hxs]
  have hsettings := mapM_bind_agree group_of_workflowSetting hbuild
    (hinner.imp fun _ _ => workflowSetting_agree) houter
  refine agree_iff.mp ?_
  rw [buildWorkflow, buildWorkflow, ← h.jobType]
  exact hsettings

def plainParam (name type : String) : Entry := .param ⟨name, type, false, none, [], none⟩

/-- Two parameters and a caption before two stages, the second of which says first what it comes
after. -/
def captionFirst : WorkflowBlock where
  jobType := "orders"
  entries := [plainParam "from" "integer", plainParam "to" "integer",
    .property ⟨"name", [.quoted "All orders"]⟩] ++
    [.stage 1 "fetch" [.property ⟨"parallel", [.int 4]⟩, .property ⟨"sequential", []⟩],
      .stage 2 "pack" ([.property ⟨"depends", [.int 1]⟩] ++
        [.property ⟨"final", []⟩, .property ⟨"retries", [.int 2]⟩])]

def captionLast : WorkflowBlock where
  jobType := "orders"
  entries := [.stage 1 "fetch" [.property ⟨"parallel", [.int 4]⟩, .property ⟨"sequential", []⟩],
      .stage 2 "pack" ([.property ⟨"final", []⟩, .property ⟨"retries", [.int 2]⟩] ++
        [.property ⟨"depends", [.int 1]⟩])] ++
    [plainParam "from" "integer", plainParam "to" "integer",
      .property ⟨"name", [.quoted "All orders"]⟩]

theorem captionLast_agrees : captionFirst.Reordered captionLast ∧
    ∃ w, buildWorkflow captionFirst = .ok w ∧ buildWorkflow captionLast = .ok w := by
  have hreordered : captionFirst.Reordered captionLast := by
    refine ⟨rfl, _, ?_, Reorders.append_comm ?_⟩
    · refine .cons (.param _) (.cons (.param _) (.cons (.property _) (.cons ?_ (.cons ?_ .nil))))
      · refine .stage 1 "fetch" ?_ ⟨.refl _, fun _ => rfl⟩
        exact .cons (.property _) (.cons (.property _) .nil)
      · refine .stage 2 "pack" ?_ (Reorders.append_comm ?_)
        · exact .cons (.property _) (.cons (.property _) (.cons (.property _) .nil))
        · simp [MayPass, Entry.group]
    · simp [MayPass, Entry.group, plainParam]
  refine ⟨hreordered, ?_⟩
  rcases buildWorkflow_of_reordered hreordered with hok | ⟨e, -, he, -⟩
  · exact hok
  · have hgood : (buildWorkflow captionFirst).isOk = true := by cbv
    simp [he, Except.isOk, Except.toBool] at hgood

end Catalogue

end StagedJobs
