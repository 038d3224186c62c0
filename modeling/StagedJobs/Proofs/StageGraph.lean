import Mathlib.Logic.Relation
import StagedJobs.Proofs.Construction

namespace StagedJobs

open Outcomes

theorem mem_insertAscending {n m : Nat} {ns : List Nat} :
    m ∈ insertAscending n ns ↔ m = n ∨ m ∈ ns := by
  induction ns with
  | nil => simp [insertAscending]
  | cons k rest ih =>
      rw [insertAscending]
      split
      · simp
      · split
        · rename_i hnk
          simp [hnk]
        · simp only [List.mem_cons, ih]
          tauto

theorem pairwise_insertAscending {n : Nat} {ns : List Nat} (h : ns.Pairwise (· < ·)) :
    (insertAscending n ns).Pairwise (· < ·) := by
  induction ns with
  | nil => simp [insertAscending]
  | cons k rest ih =>
      obtain ⟨hk, hrest⟩ := List.pairwise_cons.mp h
      rw [insertAscending]
      split
      · rename_i hnk
        refine List.pairwise_cons.mpr ⟨?_, h⟩
        intro m hm
        rcases List.mem_cons.mp hm with rfl | hm
        · exact hnk
        · exact Nat.lt_trans hnk (hk m hm)
      · split
        · exact h
        · refine List.pairwise_cons.mpr ⟨?_, ih hrest⟩
          intro m hm
          rcases mem_insertAscending.mp hm with rfl | hm
          · omega
          · exact hk m hm

theorem mem_ascending {m : Nat} {ns : List Nat} : m ∈ ascending ns ↔ m ∈ ns := by
  induction ns with
  | nil => simp [ascending]
  | cons n ns ih =>
      have hcons : ascending (n :: ns) = insertAscending n (ascending ns) := rfl
      rw [hcons, mem_insertAscending, ih, List.mem_cons]

theorem pairwise_ascending (ns : List Nat) : (ascending ns).Pairwise (· < ·) := by
  induction ns with
  | nil => simp [ascending]
  | cons n ns ih => exact pairwise_insertAscending ih

theorem le_getLast_of_pairwise {ns : List Nat} {greatest : Nat} (h : ns.Pairwise (· < ·))
    (hlast : ns.getLast? = some greatest) {n : Nat} (hn : n ∈ ns) : n ≤ greatest := by
  obtain ⟨before, rfl⟩ := List.getLast?_eq_some_iff.mp hlast
  obtain ⟨-, -, hbefore⟩ := List.pairwise_append.mp h
  rcases List.mem_append.mp hn with hn | hn
  · exact Nat.le_of_lt (hbefore n hn greatest (by simp))
  · exact Nat.le_of_eq (List.mem_singleton.mp hn)

theorem StageDraft.lt_of_checkDependencies {d : StageDraft} (h : d.checkDependencies = .ok ())
    {n : Nat} (hn : n ∈ d.dependsOn) : n < d.number := by
  have hmem : n ∈ ascending d.dependsOn := mem_ascending.mpr hn
  simp only [checkDependencies] at h
  split at h
  · simp at h
  · rename_i hself
    have hne : n ≠ d.number := by
      rintro rfl
      exact hself (List.contains_iff_mem.mpr hmem)
    split at h
    · rename_i greatest hlast
      have hle := le_getLast_of_pairwise (pairwise_ascending _) hlast hmem
      split at h
      · simp at h
      · omega
    · rename_i hlast
      rw [List.getLast?_eq_none_iff.mp hlast] at hmem
      simp at hmem

namespace StageSpec.Built

variable {s : StageSpec}

theorem elim {P : StageSpec → Prop} (hs : s.Built)
    (h : ∀ d : StageDraft, d.checkNumber = .ok () → d.checkDependencies = .ok () →
      ParameterSpec.checkUnique (.stage d.number) d.params = .ok () → P d.finish) : P s := by
  obtain ⟨number, taskType, settings, -, hbuild⟩ := hs
  obtain ⟨-, hnumber, hdependencies, -, hunique, rfl⟩ := StageDraft.build_eq_ok_iff.mp hbuild
  exact h _ hnumber hdependencies hunique

theorem number_bounds (hs : s.Built) : 1 ≤ s.number ∧ s.number ≤ maxStageNumber := by
  apply hs.elim (P := fun s => 1 ≤ s.number ∧ s.number ≤ maxStageNumber)
  intro d hnumber _ _
  rw [StageDraft.checkNumber] at hnumber
  split at hnumber
  · assumption
  · simp at hnumber

theorem dependsOn_ascending (hs : s.Built) : s.dependsOn.Pairwise (· < ·) :=
  hs.elim (P := fun s => s.dependsOn.Pairwise (· < ·))
    fun d _ _ _ => pairwise_ascending d.dependsOn

theorem lt_number (hs : s.Built) : ∀ n ∈ s.dependsOn, n < s.number :=
  hs.elim (P := fun s => ∀ n ∈ s.dependsOn, n < s.number) fun _ _ hdependencies _ _ hn =>
    StageDraft.lt_of_checkDependencies hdependencies (mem_ascending.mp hn)

theorem params_nodup (hs : s.Built) : (s.params.map (·.name)).Nodup :=
  hs.elim (P := fun s => (s.params.map (·.name)).Nodup) fun _ _ _ hunique =>
    ParameterSpec.checkUnique_eq_ok_iff.mp hunique

end StageSpec.Built

namespace WorkflowSpec

/-- The stages are numbered and linked as those of a workflow have to be, and no parameter is
declared twice in one scope. -/
structure WellStaged (w : WorkflowSpec) : Prop where
  nonempty : 1 ≤ w.stages.length
  limit : w.stages.length ≤ maxStageNumber
  /-- The numbers, as stored, read 1, 2 and so on. -/
  numbering : w.stages.map (·.number) = List.range' 1 w.stages.length
  oneFinal : w.stages.countP (·.isFinal) = 1
  /-- The place kept for the final stage is that of a stage. -/
  finalStage : ∃ s ∈ w.stages, s.isFinal = true ∧ w.finalStage? = some s
  onlyFinal : ∀ s ∈ w.stages, s.isFinal = true → w.finalStage? = some s
  ascending : ∀ s ∈ w.stages, s.dependsOn.Pairwise (· < ·)
  earlier : ∀ s ∈ w.stages, ∀ n ∈ s.dependsOn, 1 ≤ n ∧ n < s.number
  sharedDistinct : (w.params.map (·.name)).Nodup
  stageDistinct : ∀ s ∈ w.stages, (s.params.map (·.name)).Nodup

def DependsOn (w : WorkflowSpec) (n m : Nat) : Prop :=
  ∃ s ∈ w.stages, s.number = n ∧ m ∈ s.dependsOn

/-- The stages met by going on to the next stage after number `n` until there is none. -/
inductive Visits (w : WorkflowSpec) : Nat → List StageSpec → Prop where
  | stop {n : Nat} : w.nextStage? n = none → Visits w n []
  | next {n : Nat} {s : StageSpec} {rest : List StageSpec} :
      w.nextStage? n = some s → Visits w s.number rest → Visits w n (s :: rest)

theorem stage?_isSome_iff {w : WorkflowSpec} {n : Nat} :
    (∃ s, w.stage? n = some s) ↔ 1 ≤ n ∧ n ≤ w.stages.length := by
  simp only [stage?]
  constructor
  · rintro ⟨s, h⟩
    split at h
    · simp at h
    · have hlt := (List.getElem?_eq_some_iff.mp h).1
      omega
  · rintro ⟨hpos, hle⟩
    rw [if_neg (by omega)]
    exact ⟨_, List.getElem?_eq_getElem (by omega)⟩

namespace WellStaged

variable {w : WorkflowSpec}

theorem number_eq_of_getElem? (hw : w.WellStaged) {i : Nat} {s : StageSpec}
    (h : w.stages[i]? = some s) : s.number = i + 1 := by
  have hi : i < w.stages.length := (List.getElem?_eq_some_iff.mp h).1
  have hnumbers := congrArg (·[i]?) hw.numbering
  simp only [List.getElem?_map, h, Option.map_some, List.getElem?_range' hi,
    Option.some.injEq] at hnumbers
  omega

theorem stage?_eq_some_iff (hw : w.WellStaged) {n : Nat} {s : StageSpec} :
    w.stage? n = some s ↔ s ∈ w.stages ∧ s.number = n := by
  rw [stage?]
  constructor
  · intro h
    split at h
    · simp at h
    · have hnumber := hw.number_eq_of_getElem? h
      exact ⟨List.mem_of_getElem? h, by omega⟩
  · rintro ⟨hs, rfl⟩
    obtain ⟨i, hi⟩ := List.mem_iff_getElem?.mp hs
    have hnumber := hw.number_eq_of_getElem? hi
    rw [if_neg (by omega), hnumber]
    exact hi

theorem nextStage?_eq (hw : w.WellStaged) (n : Nat) : w.nextStage? n = w.stage? (n + 1) := by
  rw [nextStage?]
  split
  · rfl
  · rename_i hlarge
    unfold UInt8.size at hlarge
    have hlimit : w.stages.length ≤ 100 := hw.limit
    cases h : w.stage? (n + 1) with
    | none => rfl
    | some s =>
        have hle := (stage?_isSome_iff.mp ⟨s, h⟩).2
        omega

theorem lt_of_dependsOn (hw : w.WellStaged) {n m : Nat} (h : w.DependsOn n m) : m < n := by
  obtain ⟨s, hs, rfl, hm⟩ := h
  exact (hw.earlier s hs m hm).2

theorem lt_of_transGen (hw : w.WellStaged) {n m : Nat} (h : Relation.TransGen w.DependsOn n m) :
    m < n := by
  induction h with
  | single h => exact hw.lt_of_dependsOn h
  | tail _ h ih => exact Nat.lt_trans (hw.lt_of_dependsOn h) ih

theorem visits_drop (hw : w.WellStaged) {n : Nat} (hn : n ≤ w.stages.length) :
    w.Visits n (w.stages.drop n) := by
  induction hk : w.stages.length - n generalizing n with
  | zero =>
      have hend : w.stages.length = n := by omega
      rw [List.drop_eq_nil_of_le (by omega)]
      refine .stop ?_
      rw [hw.nextStage?_eq, stage?, if_neg (by omega)]
      exact List.getElem?_eq_none (by omega)
  | succ k ih =>
      have hlt : n < w.stages.length := by omega
      have hget : w.stages[n]? = some w.stages[n] := List.getElem?_eq_getElem hlt
      have hnumber := hw.number_eq_of_getElem? hget
      rw [List.drop_eq_getElem_cons hlt]
      refine .next ?_ ?_
      · rw [hw.nextStage?_eq, stage?, if_neg (by omega)]
        exact hget
      · rw [hnumber]
        exact ih (by omega) (by omega)

end WellStaged

theorem Visits.unique {w : WorkflowSpec} {n : Nat} {visited visited' : List StageSpec}
    (h : w.Visits n visited) (h' : w.Visits n visited') : visited = visited' := by
  induction h generalizing visited' with
  | stop hnone =>
      cases h' with
      | stop _ => rfl
      | next hsome _ => rw [hnone] at hsome; simp at hsome
  | next hsome _ ih =>
      cases h' with
      | stop hnone => rw [hnone] at hsome; simp at hsome
      | next hsome' hrest =>
          obtain rfl := Option.some.inj (hsome.symm.trans hsome')
          rw [ih hrest]

end WorkflowSpec

namespace WorkflowDraft

variable {d : WorkflowDraft}

theorem final_of_checkFinal {place : Nat} (h : d.checkFinal = .ok place) :
    d.orderedStages.countP (·.isFinal) = 1 ∧
      ∃ s, d.orderedStages[place]? = some s ∧ s.isFinal = true ∧
        ∀ t ∈ d.orderedStages, t.isFinal = true → t = s := by
  rw [checkFinal] at h
  split at h
  · rename_i place' hplaces
    obtain rfl : place' = place := by simpa using h
    rw [finalPlaces, List.map_eq_singleton_iff] at hplaces
    obtain ⟨⟨s, i⟩, hfilter, rfl⟩ := hplaces
    have hmem : (s, i) ∈ d.orderedStages.zipIdx.filter (·.1.isFinal) := by simp [hfilter]
    obtain ⟨hzip, hfinal⟩ := List.mem_filter.mp hmem
    refine ⟨?_, s, List.mem_zipIdx_iff_getElem?.mp hzip, hfinal, ?_⟩
    · have hcount : d.orderedStages.zipIdx.countP (·.1.isFinal) = 1 := by
        rw [List.countP_eq_length_filter, hfilter]
        rfl
      rw [← hcount]
      conv_lhs => rw [← List.zipIdx_map_fst 0 d.orderedStages]
      rw [List.countP_map]
      rfl
    · intro t ht htfinal
      obtain ⟨j, hj⟩ := List.mem_iff_getElem?.mp ht
      have hother : (t, j) ∈ d.orderedStages.zipIdx.filter (·.1.isFinal) :=
        List.mem_filter.mpr ⟨List.mem_zipIdx_iff_getElem?.mpr hj, htfinal⟩
      rw [hfilter, List.mem_singleton] at hother
      exact (Prod.ext_iff.mp hother).1
  · simp at h

theorem mem_numbers_of_checkDependencies (h : d.checkDependencies = .ok ()) :
    ∀ s ∈ d.orderedStages, ∀ n ∈ s.dependsOn, n ∈ d.orderedStages.map (·.number) := by
  rw [checkDependencies] at h
  split at h
  · simp at h
  · rename_i hnone
    intro s hs n hn
    have hstage := List.findSome?_eq_none_iff.mp hnone s hs
    rw [Option.map_eq_none_iff] at hstage
    simpa using List.find?_eq_none.mp hstage n hn

end WorkflowDraft

/-- Checking stage by stage and then the workflow as a whole leaves well-numbered stages. -/
theorem WorkflowSpec.Built.wellStaged {w : WorkflowSpec} (hw : w.Built) : w.WellStaged := by
  have hbuilt := hw.stages_built
  obtain ⟨jobType, settings, -, -, hbuild⟩ := hw
  obtain ⟨-, -, hunique, hnumbering, place, hfinal, hdependencies, rfl⟩ :=
    WorkflowDraft.build_eq_ok_iff.mp hbuild
  generalize WorkflowDraft.ofSettings jobType settings = d at *
  rw [WorkflowDraft.checkNumbering] at hnumbering
  split at hnumbering
  case isFalse => simp at hnumbering
  rename_i hnumbers
  obtain ⟨hnonempty, hnumbers⟩ := hnumbers
  rw [List.length_map] at hnumbers
  have hpos : 1 ≤ d.orderedStages.length := by
    rw [Nat.one_le_iff_ne_zero, ne_eq, List.length_eq_zero_iff]
    rintro hnil
    simp [hnil] at hnonempty
  obtain ⟨hcount, last, hplace, hlast, honly⟩ := WorkflowDraft.final_of_checkFinal hfinal
  refine
    { nonempty := hpos
      limit := ?_
      numbering := hnumbers
      oneFinal := hcount
      finalStage := ⟨last, List.mem_of_getElem? hplace, hlast, hplace⟩
      onlyFinal := fun s hs hsfinal => honly s hs hsfinal ▸ hplace
      ascending := fun s hs => (hbuilt s hs).dependsOn_ascending
      earlier := fun s hs n hn => ⟨?_, (hbuilt s hs).lt_number n hn⟩
      sharedDistinct := ParameterSpec.checkUnique_eq_ok_iff.mp hunique
      stageDistinct := fun s hs => (hbuilt s hs).params_nodup }
  · have hgreatest : d.orderedStages.length ∈ d.orderedStages.map (·.number) := by
      rw [hnumbers]
      exact List.mem_range'_1.mpr ⟨hpos, by omega⟩
    obtain ⟨s, hs, hnumber⟩ := List.mem_map.mp hgreatest
    have hle := (hbuilt s hs).number_bounds.2
    rw [hnumber] at hle
    exact hle
  · have hmem := WorkflowDraft.mem_numbers_of_checkDependencies hdependencies s hs n hn
    rw [hnumbers] at hmem
    exact (List.mem_range'_1.mp hmem).1

end StagedJobs
