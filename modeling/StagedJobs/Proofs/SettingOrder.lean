import Mathlib.Data.List.Sort
import StagedJobs.Proofs.StageGraph

/-!
The order of settings. What a list of steps leads to does not change when steps that do not get in
each other's way change places; of the settings of a draft only those of one thing do, and what they
leave open, the order in which stages or dependencies were added, does not outlive the build.
-/

namespace StagedJobs

open Outcomes

section Reorders

variable {α γ σ : Type}

/-- Members that may change places: they are not of one group. A member need not be of any. -/
def MayPass (g h : Option γ) : Prop := g = none ∨ g ≠ h

variable {group : α → Option γ} {R : σ → σ → Prop} {step : σ → α → σ} {xs before : List α} {a : α}

/-- Steps of different groups have to commute, and steps of no group up to the relation only. -/
theorem related_of_mayPass (hR : Equivalence R)
    (hcomm : ∀ s a b, group a ≠ group b → step (step s a) b = step (step s b) a)
    (hfree : ∀ s a b, group a = none → group b = none →
      R (step (step s b) a) (step (step s a) b))
    (s : σ) (a b : α) (h : MayPass (group a) (group b)) :
    R (step (step s b) a) (step (step s a) b) := by
  by_cases hgroup : group a = group b
  · have hnone : group a = none := h.resolve_right fun hne => hne hgroup
    exact hfree s a b hnone (hgroup.symm.trans hnone)
  · rw [hcomm s a b hgroup]
    exact hR.refl _

theorem foldl_related (hstep : ∀ s t a, R s t → R (step s a) (step t a)) {s t : σ} (h : R s t) :
    R (xs.foldl step s) (xs.foldl step t) := by
  induction xs generalizing s t with
  | nil => exact h
  | cons a xs ih => exact ih (hstep s t a h)

theorem foldl_passed (hR : Equivalence R) (hstep : ∀ s t a, R s t → R (step s a) (step t a))
    (hswap : ∀ s a b, MayPass (group a) (group b) → R (step (step s b) a) (step (step s a) b))
    (hpass : ∀ b ∈ before, MayPass (group a) (group b)) (s : σ) :
    R (step (before.foldl step s) a) (before.foldl step (step s a)) := by
  induction before generalizing s with
  | nil => exact hR.refl _
  | cons b before ih =>
      have hrest := ih (fun c hc => hpass c (List.mem_cons_of_mem b hc)) (step s b)
      exact hR.trans hrest (foldl_related hstep (hswap s a b (hpass b (by simp))))

variable [DecidableEq γ]

/-- One list in another order, in which the members of each group follow each other as before. -/
structure Reorders (group : α → Option γ) (xs ys : List α) : Prop where
  perm : xs.Perm ys
  kept : ∀ g, xs.filter (group · = some g) = ys.filter (group · = some g)

variable {ys after : List α}

theorem Reorders.mayPass (h : Reorders group (a :: xs) (before ++ a :: after)) (ha : a ∉ before) :
    ∀ b ∈ before, MayPass (group a) (group b) := by
  intro b hb
  by_contra hnot
  rw [MayPass, not_or, ne_eq, not_not] at hnot
  obtain ⟨hsome, hgroup⟩ := hnot
  obtain ⟨g, hg⟩ := Option.ne_none_iff_exists'.mp hsome
  have hkept := h.kept g
  rw [List.filter_cons_of_pos (by simpa using hg), List.filter_append] at hkept
  have hmem : b ∈ before.filter (group · = some g) :=
    List.mem_filter.mpr ⟨hb, by simpa using hgroup.symm.trans hg⟩
  obtain ⟨c, rest, hcons⟩ := List.exists_cons_of_ne_nil (List.ne_nil_of_mem hmem)
  rw [hcons, List.cons_append] at hkept
  have hc : a ∈ before.filter (group · = some g) := by
    rw [hcons, (List.cons.inj hkept).1]
    exact List.mem_cons_self
  exact ha (List.mem_filter.mp hc).1

theorem Reorders.tail (h : Reorders group (a :: xs) (before ++ a :: after)) (ha : a ∉ before) :
    Reorders group xs (before ++ after) where
  perm := (h.perm.trans List.perm_middle).cons_inv
  kept g := by
    have hkept := h.kept g
    rw [List.filter_append] at hkept ⊢
    by_cases hg : group a = some g
    · have hnil : before.filter (group · = some g) = [] := by
        rw [List.filter_eq_nil_iff]
        intro b hb hmember
        have hbg : group b = some g := by simpa using hmember
        rcases h.mayPass ha b hb with hnone | hne
        · simp [hg] at hnone
        · exact hne (hg.trans hbg.symm)
      rw [hnil] at hkept ⊢
      rw [List.filter_cons_of_pos (by simpa using hg),
        List.filter_cons_of_pos (by simpa using hg)] at hkept
      exact (List.cons.inj hkept).2
    · rwa [List.filter_cons_of_neg (by simpa using hg),
        List.filter_cons_of_neg (by simpa using hg)] at hkept

/-- Steps in another order lead to the same, up to a relation up to which steps may pass each
other. -/
theorem Reorders.foldl (hR : Equivalence R) (hstep : ∀ s t a, R s t → R (step s a) (step t a))
    (hswap : ∀ s a b, MayPass (group a) (group b) → R (step (step s b) a) (step (step s a) b))
    (h : Reorders group xs ys) (s : σ) : R (xs.foldl step s) (ys.foldl step s) := by
  induction xs generalizing ys s with
  | nil =>
      obtain rfl := h.perm.nil_eq
      exact hR.refl s
  | cons a xs ih =>
      obtain ⟨before, after, rfl, ha⟩ :=
        List.eq_append_cons_of_mem (h.perm.mem_iff.mp (List.mem_cons_self))
      have hrest := ih (h.tail ha) (step s a)
      rw [List.foldl_append] at hrest ⊢
      refine hR.trans hrest (foldl_related hstep ?_)
      exact hR.symm (foldl_passed hR hstep hswap (h.mayPass ha) s)

theorem Reorders.append_comm (h : ∀ a ∈ xs, ∀ b ∈ ys, MayPass (group a) (group b)) :
    Reorders group (xs ++ ys) (ys ++ xs) where
  perm := List.perm_append_comm
  kept g := by
    rw [List.filter_append, List.filter_append]
    by_cases hnil : ys.filter (group · = some g) = []
    · rw [hnil, List.append_nil, List.nil_append]
    · obtain ⟨b, hb⟩ := List.exists_mem_of_ne_nil _ hnil
      obtain ⟨hb, hbg⟩ := List.mem_filter.mp hb
      have hxs : xs.filter (group · = some g) = [] := by
        rw [List.filter_eq_nil_iff]
        intro a ha hag
        rcases h a ha b hb with hnone | hne
        · simp [hnone] at hag
        · exact hne ((of_decide_eq_true hag).trans (of_decide_eq_true hbg).symm)
      rw [hxs, List.append_nil, List.nil_append]

end Reorders

/-- Two states that agree but for the order of a list that they hold. -/
def AlikeUpTo {δ ρ α : Type} (rest : δ → ρ) (items : δ → List α) (d d' : δ) : Prop :=
  rest d = rest d' ∧ (items d).Perm (items d')

theorem alikeUpTo_equivalence {δ ρ α : Type} (rest : δ → ρ) (items : δ → List α) :
    Equivalence (AlikeUpTo rest items) where
  refl _ := ⟨rfl, .refl _⟩
  symm h := ⟨h.1.symm, h.2.symm⟩
  trans h h' := ⟨h.1.trans h'.1, h.2.trans h'.2⟩

/-- The things that settings, and the entries that are settings, keep their order about. -/
inductive SettingGroup where
  | params
  | property (key : String)
deriving DecidableEq

namespace StageDraft

/-- Drafts that differ in the order of their dependencies at most. -/
def Alike : StageDraft → StageDraft → Prop :=
  AlikeUpTo (fun d : StageDraft => ({ d with dependsOn := [] } : StageDraft)) dependsOn

def Setting.group : Setting → Option SettingGroup
  | .name _ => some (.property "name")
  | .final _ => some (.property "final")
  | .dependsOn _ => none
  | .parallelism _ => some (.property "parallel")
  | .timeoutMinutes _ => some (.property "timeout")
  | .maxRetries _ => some (.property "retries")
  | .retryDelaySeconds _ => some (.property "retry_delay")
  | .param _ => some .params

theorem alike_equivalence : Equivalence Alike :=
  alikeUpTo_equivalence _ dependsOn

theorem Alike.set {d d' : StageDraft} (h : d.Alike d') (x : Setting) :
    (d.set x).Alike (d'.set x) := by
  have hrest := congrArg (fun e : StageDraft => e.set x) h.1
  cases x with
  | dependsOn stages => exact ⟨h.1, h.2.append_right stages⟩
  | _ => exact ⟨hrest, h.2⟩

theorem set_comm (d : StageDraft) {x y : Setting} (h : x.group ≠ y.group) :
    (d.set x).set y = (d.set y).set x := by
  cases x <;> cases y <;> first | rfl | exact absurd rfl h

theorem alike_set_set (d : StageDraft) {x y : Setting} (hx : x.group = none)
    (hy : y.group = none) :
    Alike ((d.set y).set x) ((d.set x).set y) := by
  cases x <;> cases y <;> simp [Setting.group] at hx hy
  refine ⟨rfl, ?_⟩
  simp only [set, List.append_assoc]
  exact List.perm_append_comm.append_left _

end StageDraft

theorem ascending_eq_of_perm {ns ms : List Nat} (h : ns.Perm ms) : ascending ns = ascending ms := by
  have hnodup : ∀ ks, (ascending ks).Nodup :=
    fun ks => (pairwise_ascending ks).imp Nat.ne_of_lt
  have hperm : (ascending ns).Perm (ascending ms) := by
    rw [List.perm_ext_iff_of_nodup (hnodup ns) (hnodup ms)]
    intro n
    rw [mem_ascending, mem_ascending, h.mem_iff]
  exact hperm.eq_of_pairwise (fun a b _ _ hab hba => absurd hab (Nat.lt_asymm hba))
    (pairwise_ascending ns) (pairwise_ascending ms)

theorem StageDraft.Alike.build_eq {d d' : StageDraft} (h : d.Alike d') : d.build = d'.build := by
  obtain ⟨hrest, hperm⟩ := h
  cases d
  cases d'
  simp only [mk.injEq] at hrest
  simp_all only [build, checkNumber, checkDependencies, checkPolicies, finish,
    ascending_eq_of_perm hperm]

namespace WorkflowDraft

/-- Drafts that differ in the order of their stages at most. -/
def Alike : WorkflowDraft → WorkflowDraft → Prop :=
  AlikeUpTo (fun d : WorkflowDraft => ({ d with stages := [] } : WorkflowDraft)) stages

def Setting.group : Setting → Option SettingGroup
  | .name _ => some (.property "name")
  | .description _ => some (.property "description")
  | .version _ => some (.property "version")
  | .stage _ => none
  | .param _ => some .params
  | .maxTotalDurationMinutes _ => some (.property "max_duration")
  | .allowPartialFailure _ => some (.property "partial_failure")

theorem alike_equivalence : Equivalence Alike :=
  alikeUpTo_equivalence _ stages

theorem Alike.set {d d' : WorkflowDraft} (h : d.Alike d') (x : Setting) :
    (d.set x).Alike (d'.set x) := by
  have hrest := congrArg (fun e : WorkflowDraft => e.set x) h.1
  cases x with
  | stage s => exact ⟨h.1, h.2.append_right [s]⟩
  | _ => exact ⟨hrest, h.2⟩

theorem set_comm (d : WorkflowDraft) {x y : Setting} (h : x.group ≠ y.group) :
    (d.set x).set y = (d.set y).set x := by
  cases x <;> cases y <;> first | rfl | exact absurd rfl h

theorem alike_set_set (d : WorkflowDraft) {x y : Setting} (hx : x.group = none)
    (hy : y.group = none) :
    Alike ((d.set y).set x) ((d.set x).set y) := by
  cases x <;> cases y <;> simp [Setting.group] at hx hy
  refine ⟨rfl, ?_⟩
  simp only [set, List.append_assoc]
  exact List.perm_append_comm.append_left _

variable {d d' : WorkflowDraft}

theorem pairwise_orderedStages (d : WorkflowDraft) :
    d.orderedStages.Pairwise fun s t => s.number ≤ t.number :=
  List.pairwise_mergeSort' (Order.Preimage StageSpec.number (· ≤ ·)) d.stages

theorem Alike.orderedStages_perm (h : d.Alike d') : d.orderedStages.Perm d'.orderedStages :=
  (List.mergeSort_perm _ _).trans (h.2.trans (List.mergeSort_perm _ _).symm)

theorem Alike.numbers_eq (h : d.Alike d') :
    d.orderedStages.map (·.number) = d'.orderedStages.map (·.number) := by
  have hsorted : ∀ d : WorkflowDraft, (d.orderedStages.map (·.number)).Pairwise (· ≤ ·) :=
    fun d => List.pairwise_map.mpr d.pairwise_orderedStages
  exact (h.orderedStages_perm.map _).eq_of_pairwise (fun a b _ _ => Nat.le_antisymm)
    (hsorted d) (hsorted d')

theorem Alike.orderedStages_eq (h : d.Alike d')
    (hdistinct : (d.orderedStages.map (·.number)).Nodup) :
    d.orderedStages = d'.orderedStages := by
  refine h.orderedStages_perm.eq_of_pairwise ?_ d.pairwise_orderedStages d'.pairwise_orderedStages
  intro s t hs ht hle hge
  exact List.inj_on_of_nodup_map hdistinct hs (h.orderedStages_perm.mem_iff.mpr ht)
    (Nat.le_antisymm hle hge)

theorem nodup_of_checkNumbering (h : d.checkNumbering = .ok ()) :
    (d.orderedStages.map (·.number)).Nodup := by
  rw [checkNumbering] at h
  split at h
  · rename_i hnumbers
    rw [hnumbers.2]
    exact List.nodup_range'
  · simp at h

/-- The whole outcome of a build, an error as well, is the same in whatever order stages are added. -/
theorem Alike.build_eq (h : d.Alike d') : d.build = d'.build := by
  have hnumbers := h.numbers_eq
  have hordered := h.orderedStages_eq
  obtain ⟨stages, rfl⟩ : ∃ stages, d' = { d with stages } := by
    refine ⟨d'.stages, ?_⟩
    cases d
    cases d'
    have hrest := h.1
    simp_all only [mk.injEq]
  have hnumbering : d.checkNumbering = ({ d with stages } : WorkflowDraft).checkNumbering := by
    rw [checkNumbering, checkNumbering, hnumbers]
  rw [build, build, ← hnumbering]
  refine bind_congr_of_ok fun _ _ => bind_congr_of_ok fun _ _ => bind_congr_of_ok fun _ _ => ?_
  refine bind_congr_of_ok fun _ hok => ?_
  have hsame := hordered (nodup_of_checkNumbering hok)
  simp only [checkFinal, finalPlaces, checkDependencies, finish, ← hsame]

end WorkflowDraft

end StagedJobs
