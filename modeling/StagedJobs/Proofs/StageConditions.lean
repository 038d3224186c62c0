import Mathlib.Order.Bounds.Basic
import StagedJobs.Proofs.GivenSettings
import StagedJobs.Proofs.OrderedConditions
import StagedJobs.Proofs.StageGraph

namespace StagedJobs

theorem isGreatest_of_getLast?_ascending {ns : List Nat} {greatest : Nat}
    (h : (ascending ns).getLast? = some greatest) : IsGreatest {n | n ∈ ns} greatest := by
  refine ⟨mem_ascending.mp (List.mem_of_getLast? h), ?_⟩
  intro n hn
  exact le_getLast_of_pairwise (pairwise_ascending ns) h (mem_ascending.mpr hn)

namespace StageDraft

/-- The conditions on a stage, in the order in which they are judged. Of the dependencies on later
stages the latest is reported. -/
def conditions (d : StageDraft) : List (Condition DefinitionError) :=
  [⟨isIdentifier d.taskType = true, (· = .invalidIdentifier .taskType d.taskType)⟩,
    ⟨1 ≤ d.number ∧ d.number ≤ 100, (· = .stageNumberOutOfRange d.number)⟩,
    ⟨d.number ∉ d.dependsOn, (· = .selfDependency d.number)⟩,
    ⟨∀ n ∈ d.dependsOn, n < d.number,
      fun e => ∃ n, IsGreatest {n | n ∈ d.dependsOn} n ∧ e = .forwardDependency d.number n⟩,
    ⟨1 ≤ d.timeoutMinutes ∧ d.timeoutMinutes ≤ 1440,
      (· = .policyOutOfRange (.stage d.number) .timeoutMinutes d.timeoutMinutes)⟩,
    ⟨0 ≤ d.maxRetries ∧ d.maxRetries ≤ 10,
      (· = .policyOutOfRange (.stage d.number) .maxRetries d.maxRetries)⟩,
    ⟨1 ≤ d.retryDelaySeconds ∧ d.retryDelaySeconds ≤ 3600,
      (· = .policyOutOfRange (.stage d.number) .retryDelaySeconds d.retryDelaySeconds)⟩,
    ⟨d.parallelism.cap? ≠ some 0, (· = .policyOutOfRange (.stage d.number) .maxParallelTasks 0)⟩,
    distinctNames (.stage d.number) d.params]

/-- A stage is what a draft describes. Its dependencies are those of the draft, put in order. -/
structure Describes (d : StageDraft) (s : StageSpec) : Prop where
  number : s.number = d.number
  taskType : s.taskType = d.taskType
  name : s.name = d.name.getD d.taskType
  isFinal : s.isFinal = d.isFinal
  ascending : s.dependsOn.Pairwise (· < ·)
  dependsOn : ∀ n, n ∈ s.dependsOn ↔ n ∈ d.dependsOn
  parallelism : s.parallelism = d.parallelism
  timeoutMinutes : s.timeoutMinutes = d.timeoutMinutes
  maxRetries : s.maxRetries = d.maxRetries
  retryDelaySeconds : s.retryDelaySeconds = d.retryDelaySeconds
  params : s.params = d.params

/-- Whether tasks may run at once, and up to how many, is what the last setting of the one or the other
leaves: a setting for tasks in sequence takes back a cap that was given before it. -/
structure LeavesParallelism (settings : List Setting) (s : StageSpec) : Prop where
  sequential : ∀ before after, settings = before ++ .parallelism .sequential :: after →
    (∀ p, .parallelism p ∉ after) → s.parallelism.isParallel = false ∧ s.parallelism.cap? = none
  parallel : ∀ before cap after, settings = before ++ .parallelism (.ofCap cap) :: after →
    (∀ p, .parallelism p ∉ after) → s.parallelism.isParallel = true ∧ s.parallelism.cap? = cap
  unset : (∀ p, .parallelism p ∉ settings) →
    s.parallelism.isParallel = true ∧ s.parallelism.cap? = none

variable {d : StageDraft}

theorem describes_finish (d : StageDraft) : d.Describes d.finish where
  number := rfl
  taskType := rfl
  name := rfl
  isFinal := rfl
  ascending := pairwise_ascending d.dependsOn
  dependsOn _ := mem_ascending
  parallelism := rfl
  timeoutMinutes := rfl
  maxRetries := rfl
  retryDelaySeconds := rfl
  params := rfl

theorem checkDependencies_judgedBy (d : StageDraft) :
    JudgedBy d.checkDependencies
      [⟨d.number ∉ d.dependsOn, (· = .selfDependency d.number)⟩,
        ⟨∀ n ∈ d.dependsOn, n < d.number,
          fun e => ∃ n, IsGreatest {n | n ∈ d.dependsOn} n ∧ e = .forwardDependency d.number n⟩] := by
  rw [checkDependencies]
  by_cases hself : d.number ∈ d.dependsOn
  · rw [if_pos (List.contains_iff_mem.mpr (mem_ascending.mpr hself))]
    exact .fault (not_not.mpr hself) (fun _ => Iff.rfl) _
  rw [if_neg fun hmem => hself (mem_ascending.mp (List.contains_iff_mem.mp hmem))]
  refine .passed hself ?_
  cases hlast : (ascending d.dependsOn).getLast? with
  | none =>
      refine .passed ?_ (.pure ())
      intro n hn
      rw [← mem_ascending, List.getLast?_eq_none_iff.mp hlast] at hn
      simp at hn
  | some greatest =>
      have hgreatest := isGreatest_of_getLast?_ascending hlast
      by_cases hlater : d.number < greatest
      · simp only [if_pos hlater]
        refine .fault ?_ ?_ []
        · intro hearlier
          exact Nat.lt_asymm hlater (hearlier greatest hgreatest.1)
        · intro e
          constructor
          · rintro ⟨n, hn, rfl⟩
            rw [hn.unique hgreatest]
          · rintro rfl
            exact ⟨greatest, hgreatest, rfl⟩
      · simp only [if_neg hlater]
        refine .passed ?_ (.pure ())
        intro n hn
        have hle : n ≤ greatest := hgreatest.2 hn
        have hne : n ≠ d.number := fun heq => hself (heq ▸ hn)
        omega

theorem checkCap_judgedBy {scope : Scope} {cap : Option Nat}
    (hcap : ∀ tasks, cap = some tasks → tasks < UInt32.size) :
    JudgedBy (match cap with
      | some tasks => checkPolicy scope .maxParallelTasks tasks
      | none => .ok ())
      [⟨cap ≠ some 0, (· = .policyOutOfRange scope .maxParallelTasks 0)⟩] := by
  cases cap with
  | none => exact .passed (by simp) (.pure ())
  | some tasks =>
      simp only [ne_eq, Option.some.injEq]
      exact checkPolicy_judgedBy_ne_zero rfl rfl (hcap tasks rfl)

theorem checkPolicies_judgedBy (hcap : ∀ tasks, d.parallelism.cap? = some tasks → tasks < UInt32.size) :
    JudgedBy d.checkPolicies
      [⟨1 ≤ d.timeoutMinutes ∧ d.timeoutMinutes ≤ 1440,
          (· = .policyOutOfRange (.stage d.number) .timeoutMinutes d.timeoutMinutes)⟩,
        ⟨0 ≤ d.maxRetries ∧ d.maxRetries ≤ 10,
          (· = .policyOutOfRange (.stage d.number) .maxRetries d.maxRetries)⟩,
        ⟨1 ≤ d.retryDelaySeconds ∧ d.retryDelaySeconds ≤ 3600,
          (· = .policyOutOfRange (.stage d.number) .retryDelaySeconds d.retryDelaySeconds)⟩,
        ⟨d.parallelism.cap? ≠ some 0,
          (· = .policyOutOfRange (.stage d.number) .maxParallelTasks 0)⟩] :=
  (checkPolicy_judgedBy _ _ _).bind fun _ _ => (checkPolicy_judgedBy _ _ _).bind fun _ _ =>
    (checkPolicy_judgedBy _ _ _).bind fun _ _ => checkCap_judgedBy hcap

theorem build_judgedBy (hcap : ∀ tasks, d.parallelism.cap? = some tasks → tasks < UInt32.size) :
    JudgedBy d.build d.conditions := by
  have hend : JudgedBy (do ParameterSpec.checkUnique (.stage d.number) d.params; return d.finish)
      [distinctNames (.stage d.number) d.params] :=
    (checkUnique_judgedBy _ _).bind fun _ _ => .pure d.finish
  exact (checkIdentifier_judgedBy _ _).bind fun _ _ => judgedBy_ite.bind fun _ _ =>
    (checkDependencies_judgedBy d).bind fun _ _ => (checkPolicies_judgedBy hcap).bind fun _ _ => hend

/-- The cap in force is one that was given. -/
theorem cap_described_lt {number : Nat} {taskType : String} {settings : List Setting}
    (hcap : ∀ tasks, .parallelism (.atMost tasks) ∈ settings → tasks < UInt32.size) (tasks : Nat)
    (h : (described number taskType settings).parallelism.cap? = some tasks) :
    tasks < UInt32.size := by
  revert h
  refine lastGiven_induction (P := fun p => Parallelism.cap? p = some tasks → tasks < UInt32.size)
    (by simp [Parallelism.cap?]) ?_
  intro x hx p hp htasks
  cases x with
  | parallelism q =>
      obtain rfl := Option.some.inj hp
      cases q with
      | atMost cap =>
          obtain rfl := Option.some.inj htasks
          exact hcap cap hx
      | sequential => simp [Parallelism.cap?] at htasks
      | unlimited => simp [Parallelism.cap?] at htasks
  | _ => simp at hp

theorem leavesParallelism_of_describes {number : Nat} {taskType : String} {settings : List Setting}
    {s : StageSpec} (h : (described number taskType settings).Describes s) :
    LeavesParallelism settings s := by
  have hlast : ∀ before p after, settings = before ++ .parallelism p :: after →
      (∀ q, .parallelism q ∉ after) → s.parallelism = p := by
    rintro before p after rfl hafter
    refine h.parallelism.trans (lastGiven_append_cons rfl ?_)
    intro x hx
    cases x with
    | parallelism q => exact absurd hx (hafter q)
    | _ => rfl
  constructor
  · intro before after hsettings hafter
    rw [hlast before _ after hsettings hafter]
    exact ⟨rfl, rfl⟩
  · intro before cap after hsettings hafter
    rw [hlast before _ after hsettings hafter]
    cases cap with
    | none => exact ⟨rfl, rfl⟩
    | some tasks => exact ⟨rfl, rfl⟩
  · intro hunset
    have hdefault : s.parallelism = .unlimited := by
      refine h.parallelism.trans (lastGiven_of_forall_none ?_)
      intro x hx
      cases x with
      | parallelism q => exact absurd hx (hunset q)
      | _ => rfl
    rw [hdefault]
    exact ⟨rfl, rfl⟩

/-- A build from settings, with caps of 32 bits, is judged by the conditions on what the settings
describe, and a stage that comes out of it is just that, with the parallelism that the last setting of
it leaves. -/
theorem judgedBy_conditions_and_describes (number : Nat) (taskType : String) (settings : List Setting)
    (hcap : ∀ tasks, .parallelism (.atMost tasks) ∈ settings → tasks < UInt32.size) :
    JudgedBy (ofSettings number taskType settings).build
        (described number taskType settings).conditions ∧
      ∀ s, (ofSettings number taskType settings).build = .ok s →
        (described number taskType settings).Describes s ∧ LeavesParallelism settings s := by
  rw [ofSettings_eq_described]
  refine ⟨build_judgedBy (cap_described_lt hcap), ?_⟩
  intro s hs
  obtain ⟨-, -, -, -, -, rfl⟩ := build_eq_ok_iff.mp hs
  have hdescribes := describes_finish (described number taskType settings)
  exact ⟨hdescribes, leavesParallelism_of_describes hdescribes⟩

/-- Dependencies from two calls, on later stages among others, and a policy out of its range. -/
def packSettings : List Setting :=
  [.dependsOn [5, 1], .maxRetries 20, .parallelism (.atMost 4), .dependsOn [7, 1], .name "Pack"]

theorem packSettings_build :
    (∀ tasks, .parallelism (.atMost tasks) ∈ packSettings → tasks < UInt32.size) ∧
      (ofSettings 3 "pack" packSettings).build = .error (.forwardDependency 3 7) := by
  have hcap : ∀ tasks, .parallelism (.atMost tasks) ∈ packSettings → tasks < UInt32.size := by
    intro tasks htasks
    obtain rfl : tasks = 4 := by simpa [packSettings] using htasks
    decide
  obtain ⟨hjudged, -⟩ := judgedBy_conditions_and_describes 3 "pack" packSettings hcap
  refine ⟨hcap, (hjudged.error _).mpr ⟨[_, _, _], _, _, rfl, ?_, ?_, 7, ?_, rfl⟩⟩
  · have hname : isIdentifier "pack" = true := by decide
    simpa [described, packSettings] using hname
  · simp [described, packSettings]
  · simp [described, packSettings, IsGreatest, upperBounds]

end StageDraft

end StagedJobs
