import StagedJobs.Proofs.Catalogue.EntryOrder
import StagedJobs.Proofs.GivenSettings
import StagedJobs.Proofs.OrderedConditions

namespace StagedJobs

open Outcomes

/-- Numbers in ascending order are those of a permutation of them that is in ascending order too. -/
theorem eq_of_perm_of_ascending {ns ms : List Nat} (h : ns.Perm ms) (hns : ns.Pairwise (· ≤ ·))
    (hms : ms.Pairwise (· ≤ ·)) : ns = ms :=
  h.eq_of_pairwise (fun _ _ _ _ => Nat.le_antisymm) hns hms

theorem eq_range'_iff_perm {ns : List Nat} (hns : ns.Pairwise (· ≤ ·)) :
    (ns ≠ [] ∧ ns = List.range' 1 ns.length) ↔ ∃ count ≥ 1, ns.Perm (List.range' 1 count) := by
  constructor
  · rintro ⟨hne, hrange⟩
    exact ⟨ns.length, List.length_pos_iff.mpr hne, .of_eq hrange⟩
  · rintro ⟨count, hcount, hperm⟩
    have hlength : ns.length = count := by rw [hperm.length_eq, List.length_range']
    refine ⟨List.length_pos_iff.mp (by omega), ?_⟩
    rw [hlength]
    exact eq_of_perm_of_ascending hperm hns (List.pairwise_le_range' ..)

namespace WorkflowDraft

/-- The numbers of the stages, in the order in which the stages were given. -/
def numbers (d : WorkflowDraft) : List Nat := d.stages.map (·.number)

/-- A stage that depends on a number that no stage has. -/
def Dangles (d : WorkflowDraft) (s : StageSpec) : Prop := ∃ n ∈ s.dependsOn, n ∉ d.numbers

/-- The conditions on a workflow, in the order in which they are judged. Of the stages with a dependency
on no stage that of the lowest number is reported. -/
def conditions (d : WorkflowDraft) : List (Condition DefinitionError) :=
  [⟨isIdentifier d.jobType = true, (· = .invalidIdentifier .jobType d.jobType)⟩,
    ⟨d.maxTotalDurationMinutes ≠ 0,
      (· = .policyOutOfRange (.workflow d.jobType) .maxTotalDurationMinutes 0)⟩,
    distinctNames (.workflow d.jobType) d.params,
    ⟨∃ count ≥ 1, d.numbers.Perm (List.range' 1 count),
      fun e => ∃ found, found.Perm d.numbers ∧ found.Pairwise (· ≤ ·) ∧
        e = .nonContiguousStageNumbering d.jobType found⟩,
    ⟨d.stages.countP (·.isFinal) = 1,
      (· = .invalidFinalStageCount d.jobType (d.stages.countP (·.isFinal)))⟩,
    ⟨∀ s ∈ d.stages, ¬ d.Dangles s,
      fun e => ∃ s ∈ d.stages, d.Dangles s ∧
        (∀ t ∈ d.stages, d.Dangles t → s.number ≤ t.number) ∧
          e = .danglingDependency d.jobType s.number 0⟩]

variable {d : WorkflowDraft}

theorem map_number_orderedStages_perm (d : WorkflowDraft) :
    (d.orderedStages.map (·.number)).Perm d.numbers :=
  (List.mergeSort_perm _ _).map _

theorem map_number_orderedStages_ascending (d : WorkflowDraft) :
    (d.orderedStages.map (·.number)).Pairwise (· ≤ ·) :=
  List.pairwise_map.mpr d.pairwise_orderedStages

theorem checkNumbering_judgedBy (d : WorkflowDraft) :
    JudgedBy d.checkNumbering
      [⟨∃ count ≥ 1, d.numbers.Perm (List.range' 1 count),
        fun e => ∃ found, found.Perm d.numbers ∧ found.Pairwise (· ≤ ·) ∧
          e = .nonContiguousStageNumbering d.jobType found⟩] := by
  have hperm := d.map_number_orderedStages_perm
  have hascending := d.map_number_orderedStages_ascending
  rw [checkNumbering]
  generalize d.orderedStages.map (·.number) = found at *
  have hiff : (found ≠ [] ∧ found = List.range' 1 found.length) ↔
      ∃ count ≥ 1, d.numbers.Perm (List.range' 1 count) := by
    simp only [eq_range'_iff_perm hascending, hperm.congr_left]
  by_cases hnumbers : ∃ count ≥ 1, d.numbers.Perm (List.range' 1 count)
  · simp only [if_pos (hiff.mpr hnumbers)]
    exact .passed hnumbers (.pure ())
  · simp only [if_neg (mt hiff.mp hnumbers)]
    refine .fault hnumbers (fun e => ⟨?_, ?_⟩) []
    · rintro ⟨found', hperm', hascending', rfl⟩
      rw [eq_of_perm_of_ascending (hperm'.trans hperm.symm) hascending' hascending]
    · rintro rfl
      exact ⟨found, hperm, hascending, rfl⟩

theorem length_finalPlaces (d : WorkflowDraft) :
    d.finalPlaces.length = d.stages.countP (·.isFinal) := by
  have hordered : d.orderedStages.countP (·.isFinal) = d.stages.countP (·.isFinal) :=
    (List.mergeSort_perm d.stages _).countP_eq _
  rw [finalPlaces, List.length_map, ← List.countP_eq_length_filter, ← hordered]
  conv_rhs => rw [← List.zipIdx_map_fst 0 d.orderedStages, List.countP_map]
  rfl

theorem checkFinal_judgedBy (d : WorkflowDraft) :
    JudgedBy d.checkFinal
      [⟨d.stages.countP (·.isFinal) = 1,
        (· = .invalidFinalStageCount d.jobType (d.stages.countP (·.isFinal)))⟩] := by
  rw [← length_finalPlaces, checkFinal]
  split
  · rename_i hplaces
    exact .passed (by simp [hplaces]) (.pure _)
  · rename_i places hnot
    refine .fault ?_ (fun _ => Iff.rfl) []
    intro hlength
    obtain ⟨place, hplaces⟩ := List.length_eq_one_iff.mp hlength
    exact hnot place hplaces

theorem mem_numbers_iff {n : Nat} : n ∈ d.orderedStages.map (·.number) ↔ n ∈ d.numbers :=
  d.map_number_orderedStages_perm.mem_iff

theorem find?_eq_none_iff_not_dangles {s : StageSpec} :
    s.dependsOn.find? (fun n => !(d.orderedStages.map (·.number)).contains n) = none ↔
      ¬ d.Dangles s := by
  simp only [List.find?_eq_none, Bool.not_eq_true', Bool.not_eq_false, List.contains_iff_mem,
    mem_numbers_iff, Dangles, not_exists, not_and, not_not]

theorem eq_zero_of_notMem_numbers (hbuilt : ∀ s ∈ d.stages, s.Built) {count : Nat}
    (hnumbers : d.numbers.Perm (List.range' 1 count)) {s : StageSpec} (hs : s ∈ d.stages) {n : Nat}
    (hn : n ∈ s.dependsOn) (hnot : n ∉ d.numbers) : n = 0 := by
  have hlt : n < s.number := (hbuilt s hs).lt_number n hn
  have hnumber : s.number ∈ d.numbers := List.mem_map.mpr ⟨s, hs, rfl⟩
  rw [hnumbers.mem_iff, List.mem_range'_1] at hnumber hnot
  omega

theorem lowest_of_dangling? {k n : Nat} (h : dangling? d.orderedStages = some (k, n)) :
    ∃ s ∈ d.stages, s.number = k ∧ n ∈ s.dependsOn ∧ n ∉ d.numbers ∧
      ∀ t ∈ d.stages, d.Dangles t → k ≤ t.number := by
  obtain ⟨before, s, after, hordered, hfound, hbefore⟩ := List.findSome?_eq_some_iff.mp h
  obtain ⟨m, hm, hpair⟩ := Option.map_eq_some_iff.mp hfound
  obtain ⟨rfl, rfl⟩ := Prod.mk.inj hpair
  have hs : s ∈ d.orderedStages := by simp [hordered]
  have hnot : m ∉ d.numbers := by
    rw [← mem_numbers_iff]
    simpa using List.find?_some hm
  refine ⟨s, mem_orderedStages.mp hs, rfl, List.mem_of_find?_eq_some hm, hnot, ?_⟩
  intro t ht hdangles
  have hascending := d.pairwise_orderedStages
  rw [hordered, List.pairwise_append, List.pairwise_cons] at hascending
  have htordered : t ∈ before ++ s :: after := hordered ▸ mem_orderedStages.mpr ht
  rcases List.mem_append.mp htordered with htbefore | htrest
  · have hnone := Option.map_eq_none_iff.mp (hbefore t htbefore)
    exact absurd hdangles (find?_eq_none_iff_not_dangles.mp hnone)
  · rcases List.mem_cons.mp htrest with rfl | htafter
    · exact Nat.le_refl _
    · exact hascending.2.1.1 t htafter

theorem checkDependencies_judgedBy (hbuilt : ∀ s ∈ d.stages, s.Built)
    (hnumbering : d.checkNumbering = .ok ()) :
    JudgedBy d.checkDependencies
      [⟨∀ s ∈ d.stages, ¬ d.Dangles s,
        fun e => ∃ s ∈ d.stages, d.Dangles s ∧
          (∀ t ∈ d.stages, d.Dangles t → s.number ≤ t.number) ∧
            e = .danglingDependency d.jobType s.number 0⟩] := by
  have hjudged := (checkNumbering_judgedBy d).ok.mp ⟨(), hnumbering⟩
  obtain ⟨count, -, hnumbers⟩ := hjudged _ (List.mem_singleton_self _)
  rw [checkDependencies]
  cases hdangling : dangling? d.orderedStages with
  | none =>
      refine .passed ?_ (.pure ())
      intro s hs
      have hnone := List.findSome?_eq_none_iff.mp hdangling s (mem_orderedStages.mpr hs)
      exact find?_eq_none_iff_not_dangles.mp (Option.map_eq_none_iff.mp hnone)
  | some pair =>
      obtain ⟨k, n⟩ := pair
      obtain ⟨s, hs, rfl, hn, hnot, hlowest⟩ := lowest_of_dangling? hdangling
      obtain rfl := eq_zero_of_notMem_numbers hbuilt hnumbers hs hn hnot
      have hdangles : d.Dangles s := ⟨0, hn, hnot⟩
      have hfault : ¬ ∀ s ∈ d.stages, ¬ d.Dangles s := fun hnone => hnone s hs hdangles
      refine .fault hfault (fun e => ⟨?_, ?_⟩) []
      · rintro ⟨t, ht, htdangles, htlowest, rfl⟩
        rw [Nat.le_antisymm (htlowest s hs hdangles) (hlowest t ht htdangles)]
      · rintro rfl
        exact ⟨s, hs, hdangles, hlowest, rfl⟩

theorem build_judgedBy (hbuilt : ∀ s ∈ d.stages, s.Built)
    (hduration : d.maxTotalDurationMinutes < UInt32.size) : JudgedBy d.build d.conditions := by
  have hend : ∀ place, d.checkNumbering = .ok () →
      JudgedBy (do d.checkDependencies; return d.finish place) _ := fun place hnumbering =>
    (checkDependencies_judgedBy hbuilt hnumbering).bind fun _ _ => .pure (d.finish place)
  exact (checkIdentifier_judgedBy _ _).bind fun _ _ =>
    (checkPolicy_judgedBy_ne_zero rfl rfl hduration).bind fun _ _ =>
      (checkUnique_judgedBy _ _).bind fun _ _ =>
        (checkNumbering_judgedBy d).bind fun _ hnumbering =>
          (checkFinal_judgedBy d).bind fun place _ => hend place hnumbering

def Setting.isStage : Setting → Bool
  | .stage _ => true
  | _ => false

/-- The same settings with the stages in another order or at other places among the rest. -/
structure StagesMoved (xs ys : List Setting) : Prop where
  perm : xs.Perm ys
  others : xs.filter (!·.isStage) = ys.filter (!·.isStage)

theorem StagesMoved.reorders {xs ys : List Setting} (h : StagesMoved xs ys) :
    Reorders Setting.group xs ys where
  perm := h.perm
  kept g := by
    have hfilter : ∀ zs : List Setting, zs.filter (·.group = some g) =
        (zs.filter (!·.isStage)).filter (·.group = some g) := by
      intro zs
      rw [List.filter_filter]
      refine List.filter_congr fun x _ => ?_
      cases x <;> simp [Setting.group, Setting.isStage]
    rw [hfilter xs, hfilter ys, h.others]

theorem duration_described_lt {jobType : String} {settings : List Setting}
    (hduration : ∀ n, .maxTotalDurationMinutes n ∈ settings → n < UInt32.size) :
    (described jobType settings).maxTotalDurationMinutes < UInt32.size := by
  refine lastGiven_induction (P := fun n => n < UInt32.size) (by decide) ?_
  intro x hx n hn
  cases x with
  | maxTotalDurationMinutes m =>
      obtain rfl := Option.some.inj hn
      exact hduration m hx
  | _ => simp at hn

/-- A build from settings, with stages that are built and durations of 32 bits, is judged by the
conditions on what the settings describe. Where among the settings the stages are, and in which order,
makes no difference to the workflow or the fault that comes out. -/
theorem judgedBy_conditions_and_eq_of_stagesMoved (jobType : String) (settings : List Setting)
    (hbuilt : ∀ s, .stage s ∈ settings → s.Built)
    (hduration : ∀ n, .maxTotalDurationMinutes n ∈ settings → n < UInt32.size) :
    JudgedBy (ofSettings jobType settings).build (described jobType settings).conditions ∧
      ∀ moved, StagesMoved settings moved →
        (ofSettings jobType moved).build = (ofSettings jobType settings).build := by
  constructor
  · rw [ofSettings_eq_described]
    refine build_judgedBy ?_ (duration_described_lt hduration)
    intro s hs
    rw [← ofSettings_eq_described] at hs
    exact hbuilt s (mem_stages_ofSettings hs)
  · intro moved hmoved
    exact (build_eq_of_reorders hmoved.reorders).symm

/-- Two stages that depend on number 0, which no stage has. -/
def fetchStage : StageSpec := (StageDraft.ofSettings 1 "fetch" [.dependsOn [0]]).finish

def packStage : StageSpec :=
  (StageDraft.ofSettings 2 "pack" [.final true, .dependsOn [1, 0]]).finish

def lastFirst : List Setting := [.stage packStage, .version "2.0", .stage fetchStage]

def firstFirst : List Setting := [.stage fetchStage, .stage packStage, .version "2.0"]

theorem lastFirst_build :
    (∀ s, .stage s ∈ lastFirst → s.Built) ∧
      (∀ n, .maxTotalDurationMinutes n ∈ lastFirst → n < UInt32.size) ∧
        (ofSettings "orders" lastFirst).build = .error (.danglingDependency "orders" 1 0) ∧
        (ofSettings "orders" firstFirst).build = .error (.danglingDependency "orders" 1 0) := by
  have hbuilt : ∀ s, .stage s ∈ lastFirst → s.Built := by
    intro s hs
    obtain rfl | rfl : s = packStage ∨ s = fetchStage := by simpa [lastFirst] using hs
    · exact ⟨2, "pack", [.final true, .dependsOn [1, 0]], by simp, by cbv⟩
    · exact ⟨1, "fetch", [.dependsOn [0]], by simp, by cbv⟩
  have hduration : ∀ n, .maxTotalDurationMinutes n ∈ lastFirst → n < UInt32.size := by
    simp [lastFirst]
  obtain ⟨hjudged, hmoved⟩ :=
    judgedBy_conditions_and_eq_of_stagesMoved "orders" lastFirst hbuilt hduration
  have herror : (ofSettings "orders" lastFirst).build =
      .error (.danglingDependency "orders" 1 0) := by
    have hzero : 0 ∉ (described "orders" lastFirst).numbers := by decide
    have hfetch : 0 ∈ fetchStage.dependsOn := by decide
    have hnumbers : (described "orders" lastFirst).numbers.Perm (List.range' 1 2) := .swap 1 2 []
    refine (hjudged.error _).mpr ⟨[_, _, _, _, _], _, [], rfl, ?_, ?_, ?_⟩
    · simp only [List.forall_mem_cons, List.not_mem_nil, false_imp_iff, implies_true, and_true]
      exact ⟨by decide, by decide, .nil, ⟨2, by decide, hnumbers⟩, by decide⟩
    · intro hnone
      exact hnone fetchStage (by simp [described, lastFirst]) ⟨0, hfetch, hzero⟩
    · refine ⟨fetchStage, by simp [described, lastFirst], ⟨0, hfetch, hzero⟩, ?_, rfl⟩
      intro t ht _
      obtain rfl | rfl : t = packStage ∨ t = fetchStage := by simpa [described, lastFirst] using ht
      · exact Nat.le_succ 1
      · exact Nat.le_refl 1
  have hsettings : StagesMoved lastFirst firstFirst :=
    ⟨((List.Perm.swap _ _ []).cons _).trans (.swap _ _ _), rfl⟩
  exact ⟨hbuilt, hduration, herror, (hmoved _ hsettings).trans herror⟩

end WorkflowDraft

end StagedJobs
