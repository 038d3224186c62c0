import StagedJobs.Proofs.Registration

namespace StagedJobs

open Outcomes

theorem WorkflowDraft.jobType_ofSettings (jobType : String) (settings : List Setting) :
    (ofSettings jobType settings).jobType = jobType := by
  have hset : ∀ d : WorkflowDraft, (settings.foldl set d).jobType = d.jobType := by
    induction settings with
    | nil => exact fun d => rfl
    | cons setting settings ih =>
        intro d
        rw [List.foldl_cons, ih]
        cases setting <;> rfl
  exact hset (start jobType)

namespace Catalogue

theorem jobType_of_buildWorkflow {block : WorkflowBlock} {w : WorkflowSpec}
    (h : buildWorkflow block = .ok w) : w.jobType = block.jobType := by
  obtain ⟨settings, -, hbuild⟩ := exists_settings_of_buildWorkflow h
  obtain ⟨-, -, -, -, place, -, -, rfl⟩ := WorkflowDraft.build_eq_ok_iff.mp hbuild
  exact WorkflowDraft.jobType_ofSettings block.jobType settings

/-- Whether a workflow comes out of a block. -/
def WorkflowBlock.isGood (b : WorkflowBlock) : Bool := (buildWorkflow b).isOk

theorem WorkflowBlock.isGood_iff {b : WorkflowBlock} :
    b.isGood = true ↔ ∃ w, buildWorkflow b = .ok w := by
  rw [isGood]
  cases buildWorkflow b with
  | error e => simp [Except.isOk, Except.toBool]
  | ok w => simp [Except.isOk, Except.toBool]

/-- Whether a workflow of some type of job comes out of one of the blocks. -/
def offers (blocks : List WorkflowBlock) (jobType : String) : Bool :=
  blocks.any fun b => b.isGood && b.jobType = jobType

/-- What is wrong with a block that comes after some others. -/
def faultAfter? (before : List WorkflowBlock) (b : WorkflowBlock) : Option LoadError :=
  match buildWorkflow b with
  | .error e => some (e.within (.workflow b.jobType))
  | .ok _ =>
    if offers before b.jobType then some (.ofDefinition (.duplicateRegistration b.jobType))
    else none

/-- What is wrong with blocks, in their order. -/
def faults (blocks : List WorkflowBlock) : List LoadError :=
  (List.range blocks.length).filterMap fun i => blocks[i]?.bind (faultAfter? (blocks.take i))

/-- Whether the block at a place is good and an earlier good block has its type of job. -/
def isDuplicate (blocks : List WorkflowBlock) (i : Nat) : Bool :=
  blocks[i]?.any fun b => b.isGood && offers (blocks.take i) b.jobType

/-- The number of blocks that are not good and of those that are duplicates. -/
def faultCount (blocks : List WorkflowBlock) : Nat :=
  blocks.countP (fun b => !b.isGood) + (List.range blocks.length).countP (isDuplicate blocks)

section Concat

variable {blocks : List WorkflowBlock} {b : WorkflowBlock}

theorem faults_concat :
    faults (blocks ++ [b]) = faults blocks ++ (faultAfter? blocks b).toList := by
  have hbefore : ∀ i ∈ List.range blocks.length,
      ((blocks ++ [b])[i]?.bind (faultAfter? ((blocks ++ [b]).take i))) =
        blocks[i]?.bind (faultAfter? (blocks.take i)) := by
    intro i hi
    have hlt := List.mem_range.mp hi
    rw [List.getElem?_append_left hlt, List.take_append_of_le_length (Nat.le_of_lt hlt)]
  rw [faults, List.length_append, List.length_singleton, List.range_succ, List.filterMap_append,
    List.filterMap_congr hbefore, ← faults]
  congr 1
  rw [List.filterMap_cons, List.filterMap_nil, List.getElem?_concat_length, List.take_left]
  cases h : faultAfter? blocks b <;> simp [h]

theorem isDuplicate_concat_of_lt {i : Nat} (h : i < blocks.length) :
    isDuplicate (blocks ++ [b]) i = isDuplicate blocks i := by
  rw [isDuplicate, isDuplicate, List.getElem?_append_left h,
    List.take_append_of_le_length (Nat.le_of_lt h)]

theorem isDuplicate_concat_length :
    isDuplicate (blocks ++ [b]) blocks.length = (b.isGood && offers blocks b.jobType) := by
  rw [isDuplicate, List.getElem?_concat_length, List.take_left]
  rfl

theorem faultCount_concat : faultCount (blocks ++ [b]) =
    faultCount blocks + (if b.isGood && !offers blocks b.jobType then 0 else 1) := by
  have hbefore : (List.range blocks.length).countP (isDuplicate (blocks ++ [b])) =
      (List.range blocks.length).countP (isDuplicate blocks) := by
    apply List.countP_congr
    intro i hi
    rw [isDuplicate_concat_of_lt (List.mem_range.mp hi)]
  rw [faultCount, faultCount, List.length_append, List.length_singleton, List.range_succ,
    List.countP_append, List.countP_append, hbefore, List.countP_singleton, List.countP_singleton,
    isDuplicate_concat_length]
  cases b.isGood <;> cases offers blocks b.jobType <;> simp <;> omega

theorem first_of_concat {i : Nat} {c : WorkflowBlock} (hc : (blocks ++ [b])[i]? = some c)
    (hfirst : isDuplicate (blocks ++ [b]) i = false) :
    blocks[i]? = some c ∧ isDuplicate blocks i = false ∨
      c = b ∧ (b.isGood && offers blocks b.jobType) = false := by
  rcases Nat.lt_or_ge i blocks.length with hi | hi
  · rw [List.getElem?_append_left hi] at hc
    rw [isDuplicate_concat_of_lt hi] at hfirst
    exact .inl ⟨hc, hfirst⟩
  · rw [List.getElem?_append_right hi, List.getElem?_singleton] at hc
    split at hc
    case isTrue hlast =>
      obtain rfl : i = blocks.length := by omega
      rw [isDuplicate_concat_length] at hfirst
      exact .inr ⟨(Option.some.inj hc).symm, hfirst⟩
    case isFalse => simp at hc

theorem offers_concat {jobType : String} : offers (blocks ++ [b]) jobType =
    (offers blocks jobType || (b.isGood && b.jobType = jobType)) := by
  simp [offers]

end Concat

theorem isGood_of_build {b : WorkflowBlock} {w : WorkflowSpec} (h : buildWorkflow b = .ok w) :
    b.isGood = true :=
  WorkflowBlock.isGood_iff.mpr ⟨w, h⟩

theorem isGood_of_error {b : WorkflowBlock} {e : LoadError} (h : buildWorkflow b = .error e) :
    b.isGood = false := by
  rw [WorkflowBlock.isGood, h]
  rfl

theorem length_faults (blocks : List WorkflowBlock) :
    (faults blocks).length = faultCount blocks := by
  induction blocks using List.reverseRecOn with
  | nil => rfl
  | append_singleton blocks b ih =>
      rw [faults_concat, List.length_append, ih, faultCount_concat, faultAfter?]
      cases h : buildWorkflow b with
      | error e => simp [isGood_of_error h]
      | ok w =>
          rw [isGood_of_build h]
          cases offers blocks b.jobType <;> simp

namespace Progress

/-- What loading has come to after some blocks. -/
structure Follows (s : Progress) (blocks : List WorkflowBlock) : Prop where
  errors : s.errors = faults blocks
  contains : ∀ jobType, s.registry.contains jobType = offers blocks jobType
  /-- The first good block of a type of job is the one that counts. -/
  first : ∀ i b w, blocks[i]? = some b → buildWorkflow b = .ok w → isDuplicate blocks i = false →
    s.registry.get b.jobType = .ok w
  /-- Every block has either been registered or left an error. -/
  accounts : s.registry.size + s.errors.length = blocks.length

variable {s : Progress} {blocks : List WorkflowBlock} {b : WorkflowBlock}

theorem step_of_error {e : LoadError} (h : buildWorkflow b = .error e) :
    s.step b = { s with errors := s.errors ++ [e.within (.workflow b.jobType)] } := by
  rw [step, h]

theorem step_of_contains {w : WorkflowSpec} (h : buildWorkflow b = .ok w)
    (hcontains : s.registry.contains b.jobType = true) :
    s.step b =
      { s with errors := s.errors ++ [.ofDefinition (.duplicateRegistration b.jobType)] } := by
  rw [step, h]
  simp only [Registry.register, jobType_of_buildWorkflow h, hcontains, if_true]

theorem step_of_new {w : WorkflowSpec} (h : buildWorkflow b = .ok w)
    (hnew : s.registry.contains b.jobType = false) :
    s.step b = { s with registry := ⟨s.registry.workflows.insert b.jobType w⟩ } := by
  rw [step, h]
  simp only [Registry.register, jobType_of_buildWorkflow h, hnew, Bool.false_eq_true, if_false]

theorem faultAfter?_eq_some_iff {e : LoadError} :
    faultAfter? blocks b = some e ↔
      (∃ cause, buildWorkflow b = .error cause ∧ cause.within (.workflow b.jobType) = e) ∨
        b.isGood = true ∧ offers blocks b.jobType = true ∧
          .ofDefinition (.duplicateRegistration b.jobType) = e := by
  rw [faultAfter?]
  cases h : buildWorkflow b with
  | error cause => simp [isGood_of_error h]
  | ok w => simp [isGood_of_build h]

namespace Follows

theorem start : Progress.start.Follows [] where
  errors := rfl
  contains jobType := rfl
  first i b w h := by simp at h
  accounts := rfl

theorem fault (hs : s.Follows blocks) {e : LoadError} (h : faultAfter? blocks b = some e) :
    Follows { s with errors := s.errors ++ [e] } (blocks ++ [b]) where
  errors := by
    rw [faults_concat, h, hs.errors]
    rfl
  contains jobType := by
    rw [offers_concat, hs.contains jobType]
    rcases faultAfter?_eq_some_iff.mp h with ⟨cause, hcause, -⟩ | ⟨-, hoffers, -⟩
    · simp [isGood_of_error hcause]
    · by_cases htype : b.jobType = jobType
      · subst htype
        simp [hoffers]
      · simp [htype]
  first i c w hc hw hfirst := by
    rcases first_of_concat hc hfirst with ⟨hc, hfirst⟩ | ⟨rfl, hfirst⟩
    · exact hs.first i c w hc hw hfirst
    · rcases faultAfter?_eq_some_iff.mp h with ⟨cause, hcause, -⟩ | ⟨hgood, hoffers, -⟩
      · simp [hcause] at hw
      · simp [hgood, hoffers] at hfirst
  accounts := by
    have haccounts := hs.accounts
    simp only [List.length_append, List.length_singleton]
    omega

theorem register (hs : s.Follows blocks) {w : WorkflowSpec} (h : buildWorkflow b = .ok w)
    (hnew : offers blocks b.jobType = false) :
    Follows { s with registry := ⟨s.registry.workflows.insert b.jobType w⟩ } (blocks ++ [b]) where
  errors := by
    have hnone : faultAfter? blocks b = none := by simp [faultAfter?, h, hnew]
    rw [faults_concat, hnone, hs.errors, Option.toList_none, List.append_nil]
  contains jobType := by
    rw [offers_concat, ← hs.contains jobType, isGood_of_build h]
    simp only [Registry.contains, KeyMap.contains, KeyMap.get?_insert]
    by_cases htype : b.jobType = jobType <;> simp [htype]
  first i c v hc hv hfirst := by
    rw [Registry.get_eq_ok_iff, KeyMap.get?_insert]
    rcases first_of_concat hc hfirst with ⟨hc, hfirst⟩ | ⟨rfl, -⟩
    · have hne : b.jobType ≠ c.jobType := by
        intro htype
        have hoffers : offers blocks c.jobType = true := by
          refine List.any_eq_true.mpr ⟨c, List.mem_of_getElem? hc, ?_⟩
          simp [isGood_of_build hv]
        rw [htype, hoffers] at hnew
        simp at hnew
      rw [if_neg hne]
      exact Registry.get_eq_ok_iff.mp (hs.first i c v hc hv hfirst)
    · rw [if_pos rfl, Except.ok.inj (h.symm.trans hv)]
  accounts := by
    have haccounts := hs.accounts
    have hsize : (s.registry.workflows.insert b.jobType w).size = s.registry.size + 1 := by
      refine KeyMap.size_insert ?_ w
      rw [← Registry.contains_eq_false_iff, hs.contains, hnew]
    simp only [Registry.size, List.length_append, List.length_singleton] at *
    omega

theorem step (hs : s.Follows blocks) (b : WorkflowBlock) : (s.step b).Follows (blocks ++ [b]) := by
  cases hbuild : buildWorkflow b with
  | error e =>
      rw [step_of_error hbuild]
      exact hs.fault (faultAfter?_eq_some_iff.mpr (.inl ⟨e, hbuild, rfl⟩))
  | ok w =>
      cases hoffers : offers blocks b.jobType with
      | true =>
          rw [step_of_contains hbuild (by rw [hs.contains, hoffers])]
          exact hs.fault
            (faultAfter?_eq_some_iff.mpr (.inr ⟨isGood_of_build hbuild, hoffers, rfl⟩))
      | false =>
          rw [step_of_new hbuild (by rw [hs.contains, hoffers])]
          exact hs.register hbuild hoffers

theorem foldl (blocks : List WorkflowBlock) :
    (blocks.foldl Progress.step .start).Follows blocks := by
  induction blocks using List.reverseRecOn with
  | nil => exact start
  | append_singleton blocks b ih =>
      rw [List.foldl_append]
      exact ih.step b

end Follows

/-- Where no block is at fault, the job types of the blocks are those registered. -/
theorem Follows.jobTypes_perm (hs : s.Follows blocks) (herrors : s.errors = []) :
    (blocks.map (·.jobType)).Perm s.registry.jobTypes := by
  have hsize : s.registry.size = blocks.length := by simpa [herrors] using hs.accounts
  have hsubset : s.registry.jobTypes ⊆ blocks.map (·.jobType) := by
    intro jobType hmem
    have hoffers : offers blocks jobType = true := by
      rw [← hs.contains]
      exact KeyMap.mem_keys_iff.mp hmem
    obtain ⟨b, hb, htype⟩ := List.any_eq_true.mp hoffers
    simp only [Bool.and_eq_true, decide_eq_true_eq] at htype
    exact List.mem_map.mpr ⟨b, hb, htype.2⟩
  have hlength : (blocks.map (·.jobType)).length ≤ s.registry.jobTypes.length := by
    rw [List.length_map, Registry.jobTypes, KeyMap.length_keys]
    exact Nat.le_of_eq hsize.symm
  exact (((KeyMap.nodup_keys _).subperm hsubset).perm_of_length_le hlength).symm

theorem Follows.get_eq_ok (hs : s.Follows blocks) (hcount : faultCount blocks = 0)
    {b : WorkflowBlock} (hb : b ∈ blocks) :
    ∃ w, buildWorkflow b = .ok w ∧ s.registry.get b.jobType = .ok w := by
  obtain ⟨hgood, hfirst⟩ := Nat.add_eq_zero_iff.mp hcount
  obtain ⟨i, hi⟩ := List.mem_iff_getElem?.mp hb
  obtain ⟨w, hw⟩ := WorkflowBlock.isGood_iff.mp (by simpa using List.countP_eq_zero.mp hgood b hb)
  have hlt : i < blocks.length := (List.getElem?_eq_some_iff.mp hi).1
  have hnot := List.countP_eq_zero.mp hfirst i (List.mem_range.mpr hlt)
  exact ⟨w, hw, hs.first i b w hi hw (by simpa using hnot)⟩

end Progress

/-- Blocks none of which is at fault load into a registry of exactly what they build; where any is at
fault, loading gives no registry but one error for each block at fault, in the order of the blocks. A
text that cannot be read gives the failure of reading it. -/
theorem load_all_or_nothing (blocks : List WorkflowBlock) :
    (faultCount blocks = 0 → ∃ r, load blocks = .ok r ∧
      r.size = blocks.length ∧
      r.jobTypes = (blocks.map (·.jobType)).mergeSort (· ≤ ·) ∧
      ∀ b ∈ blocks, ∃ w, buildWorkflow b = .ok w ∧ r.get b.jobType = .ok w) ∧
    (faultCount blocks ≠ 0 → ∃ a, load blocks = .error a ∧
      a.count = faultCount blocks ∧ a.errors = faults blocks) ∧
    (∀ text e, parse text = .error e → loadText text = .error (.parse e)) ∧
    ∀ text, parse text = .ok blocks → loadText text = (load blocks).mapError .invalid := by
  have hfollows := Progress.Follows.foldl blocks
  have hcount : (blocks.foldl Progress.step .start).errors.length = faultCount blocks := by
    rw [hfollows.errors, length_faults]
  refine ⟨?_, ?_, ?_, ?_⟩
  · intro hzero
    have hnil : (blocks.foldl Progress.step .start).errors = [] :=
      List.length_eq_zero_iff.mp (hcount.trans hzero)
    refine ⟨(blocks.foldl Progress.step .start).registry, ?_, ?_, ?_, ?_⟩
    · simp [load, hnil]
    · simpa [hnil] using hfollows.accounts
    · exact (KeyMap.mergeSort_eq_keys (hfollows.jobTypes_perm hnil)).symm
    · intro b hb
      exact hfollows.get_eq_ok hzero hb
  · intro hne
    have hnonempty : (blocks.foldl Progress.step .start).errors.isEmpty = false := by
      rw [List.isEmpty_eq_false_iff, ← List.length_pos_iff]
      omega
    refine ⟨⟨(blocks.foldl Progress.step .start).errors⟩, ?_, hcount, hfollows.errors⟩
    simp [load, hnonempty]
  · intro text e h
    rw [loadText, h]
    rfl
  · intro text h
    rw [loadText, h]
    rfl

/-- A block with one stage, which is final. -/
def oneStage (jobType : String) : WorkflowBlock :=
  ⟨jobType, [.stage 1 "step" [.property ⟨"final", []⟩]]⟩

/-- A broken block before two good ones of its type of job, and a good and a broken one of another. -/
def mixedBlocks : List WorkflowBlock :=
  [⟨"b", []⟩, oneStage "b", oneStage "b", oneStage "a", ⟨"a", []⟩]

theorem mixedBlocks_loading :
    faultCount mixedBlocks = 3 ∧ (∃ a, load mixedBlocks = .error a ∧ a.count = 3) ∧
      faultCount [oneStage "b", oneStage "a"] = 0 ∧
      ∃ r, load [oneStage "b", oneStage "a"] = .ok r ∧ r.size = 2 ∧ r.jobTypes = ["a", "b"] := by
  have hmixed : faultCount mixedBlocks = 3 := by cbv
  have hsound : faultCount [oneStage "b", oneStage "a"] = 0 := by cbv
  obtain ⟨-, hfails, -⟩ := load_all_or_nothing mixedBlocks
  obtain ⟨hloads, -⟩ := load_all_or_nothing [oneStage "b", oneStage "a"]
  obtain ⟨a, ha, hcount, -⟩ := hfails (by rw [hmixed]; decide)
  obtain ⟨r, hr, hsize, htypes, -⟩ := hloads hsound
  have hsorted : ["b", "a"].mergeSort (· ≤ ·) = ["a", "b"] := by cbv
  exact ⟨hmixed, ⟨a, ha, hcount.trans hmixed⟩, hsound, r, hr, hsize, htypes.trans hsorted⟩

end Catalogue

end StagedJobs
