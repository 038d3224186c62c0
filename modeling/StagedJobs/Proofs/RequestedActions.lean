import Mathlib.Data.List.Induction
import StagedJobs.CommandLine.Settings
import StagedJobs.Proofs.Json.Writing
import StagedJobs.Proofs.LayeredValidation

namespace StagedJobs.CommandLine

open Outcomes

/-- A flag is written as a key, the first equals sign in it, and a text behind that. -/
structure Assigns (flag key text : String) : Prop where
  eq : flag = key ++ "=" ++ text
  first : '=' ∉ key.toList
  key_ne : key ≠ ""

/-- A flag without an equals sign, or with nothing in front of the first one. -/
def Malformed (flag : String) : Prop := '=' ∉ flag.toList ∨ ∃ text, flag = "=" ++ text

theorem splitFlag?_eq_some_iff {flag key text : String} :
    splitFlag? flag = some (key, text) ↔ Assigns flag key text := by
  constructor
  · intro h
    rcases hspan : flag.toList.span (· ≠ '=') with ⟨run, rest⟩
    obtain ⟨hrun, hrest, hflag⟩ := Catalogue.span_eq_iff.mp hspan
    simp only [splitFlag?, hspan] at h
    cases rest with
    | nil => cases h
    | cons c value =>
        obtain rfl : c = '=' := by simpa using Catalogue.stops_cons_iff.mp hrest
        simp only [List.isEmpty_iff] at h
        split at h
        case isTrue => cases h
        case isFalse hne =>
          obtain ⟨rfl, rfl⟩ := Prod.mk.inj (Option.some.inj h)
          refine ⟨?_, ?_, ?_⟩
          · rw [← String.toList_inj]
            simp [hflag]
          · intro hmem
            rw [String.toList_ofList] at hmem
            simpa using hrun _ hmem
          · simpa using hne
  · rintro ⟨rfl, hfirst, hne⟩
    have hspan : (key ++ "=" ++ text).toList.span (· ≠ '=') = (key.toList, '=' :: text.toList) := by
      rw [Catalogue.span_eq_iff]
      refine ⟨?_, ?_, by simp⟩
      · intro c hc
        simpa using fun heq : c = '=' => hfirst (heq ▸ hc)
      · exact Catalogue.stops_cons_iff.mpr (by decide)
    have hkey : ¬ key.toList.isEmpty = true := by simpa using hne
    simp only [splitFlag?, hspan, if_neg hkey, String.ofList_toList]

/-- The value of a text: the one that it is as JSON, or else the text itself. -/
inductive StandsFor (text : String) : Value → Prop
  | json {v : Value} (h : Json.Denotes text v) : StandsFor text v
  | string (h : ∀ v, ¬ Json.Denotes text v) : StandsFor text (.string text)

theorem forall_not_denotes_iff {text : String} :
    (∀ v, ¬ Json.Denotes text v) ↔ Value.ofText? text = none := by
  simp only [← Json.ofText?_eq_some_iff, Option.eq_none_iff_forall_not_mem, Option.mem_def]

theorem flagValue_eq_iff {text : String} {v : Value} : flagValue text = v ↔ StandsFor text v := by
  rw [flagValue]
  constructor
  · rintro rfl
    cases htext : Value.ofText? text with
    | some v => exact .json (Json.ofText?_eq_some_iff.mp htext)
    | none => exact .string (forall_not_denotes_iff.mpr htext)
  · intro h
    cases h with
    | json h => rw [Json.ofText?_eq_some_iff.mpr h, Option.getD_some]
    | string h => rw [forall_not_denotes_iff.mp h, Option.getD_none]

/-- The value that the last flag for a key gives it. -/
def GivenLast (flags : List String) (key : String) (v : Value) : Prop :=
  ∃ before flag after text, flags = before ++ flag :: after ∧ Assigns flag key text ∧
    (∀ later ∈ after, ∀ text, ¬ Assigns later key text) ∧ StandsFor text v

section Flags

variable {flag key text : String} {flags : List String}

theorem Assigns.unique {key' text' : String} (h : Assigns flag key text)
    (h' : Assigns flag key' text') : key = key' ∧ text = text' := by
  have heq := (splitFlag?_eq_some_iff.mpr h).symm.trans (splitFlag?_eq_some_iff.mpr h')
  exact Prod.mk.inj (Option.some.inj heq)

theorem not_givenLast_nil {v : Value} : ¬ GivenLast [] key v := by
  rintro ⟨before, flag, after, text, h, -⟩
  simp at h

/-- One flag more gives its key a value, and leaves the values of all other keys as they are. -/
theorem givenLast_concat_iff (hflag : Assigns flag key text) {key' : String} {v : Value} :
    GivenLast (flags ++ [flag]) key' v ↔
      if key = key' then StandsFor text v else GivenLast flags key' v := by
  constructor
  · rintro ⟨before, given, after, text', heq, hgiven, hlater, hv⟩
    rcases List.eq_nil_or_concat after with rfl | ⟨after, last, rfl⟩
    · obtain ⟨rfl, rfl⟩ : flags = before ∧ flag = given := by simpa using heq
      obtain ⟨hkey, rfl⟩ := hflag.unique hgiven
      rw [if_pos hkey]
      exact hv
    · -- The flag that counts comes before the last one, which so is for another key.
      rw [List.concat_eq_append] at hlater heq
      rw [← List.cons_append, ← List.append_assoc] at heq
      obtain ⟨rfl, hlast⟩ := List.append_inj' heq rfl
      obtain rfl := List.singleton_inj.mp hlast
      have hkey : key ≠ key' := by
        rintro rfl
        exact hlater flag (by simp) text hflag
      rw [if_neg hkey]
      exact ⟨before, given, after, text', rfl, hgiven,
        fun later hmem => hlater later (List.mem_append_left _ hmem), hv⟩
  · split
    case isTrue hkey =>
      subst hkey
      intro hv
      exact ⟨flags, flag, [], text, rfl, hflag, by simp, hv⟩
    case isFalse hkey =>
      rintro ⟨before, given, after, text', rfl, hgiven, hlater, hv⟩
      refine ⟨before, given, after ++ [flag], text', by simp, hgiven, ?_, hv⟩
      intro later hmem
      rcases List.mem_append.mp hmem with hmem | hmem
      · exact hlater later hmem
      · obtain rfl := List.mem_singleton.mp hmem
        exact fun text' hflag' => hkey (hflag.unique hflag').1

theorem exists_assigns_iff : (∃ key text, Assigns flag key text) ↔ ¬ Malformed flag := by
  constructor
  · rintro ⟨key, text, rfl, hfirst, hne⟩ (hmem | ⟨text', heq⟩)
    · simp at hmem
    · rw [← String.toList_inj] at heq
      cases hkey : key.toList with
      | nil => exact hne (by simpa using hkey)
      | cons c cs =>
          obtain ⟨rfl, -⟩ : c = '=' ∧ _ := by simpa [hkey] using heq
          exact hfirst (by simp [hkey])
  · intro h
    rw [Malformed, not_or, not_not] at h
    obtain ⟨hmem, hfront⟩ := h
    obtain ⟨key, text, heq, hfirst⟩ := List.eq_append_cons_of_mem hmem
    refine ⟨String.ofList key, String.ofList text, ?_, by simpa using hfirst, ?_⟩
    · rw [← String.toList_inj]
      simp [heq]
    · intro hkey
      obtain rfl : key = [] := by simpa using hkey
      refine hfront ⟨String.ofList text, ?_⟩
      rw [← String.toList_inj]
      simp [heq]

theorem addFlag_of_assigns (h : Assigns flag key text) (params : Params) :
    addFlag params flag = .ok (params.insert key (flagValue text)) := by
  rw [addFlag, splitFlag?_eq_some_iff.mpr h]

theorem addFlag_of_malformed (h : Malformed flag) (params : Params) :
    addFlag params flag = .error (.invalidParamFlag flag) := by
  rw [addFlag]
  split
  case h_1 key text hsplit =>
    exact absurd h (exists_assigns_iff.mp ⟨key, text, splitFlag?_eq_some_iff.mp hsplit⟩)
  case h_2 => rfl

theorem exists_parseParams (h : ∀ flag ∈ flags, ¬ Malformed flag) :
    ∃ params, parseParams flags = .ok params ∧
      ∀ key v, params.get? key = some v ↔ GivenLast flags key v := by
  induction flags using List.reverseRecOn with
  | nil =>
      refine ⟨KeyMap.empty, rfl, ?_⟩
      intro key v
      simp [not_givenLast_nil]
  | append_singleton flags flag ih =>
      obtain ⟨params, hparams, hget⟩ := ih fun f hf => h f (List.mem_append_left _ hf)
      obtain ⟨key, text, hflag⟩ := exists_assigns_iff.mpr (h flag (by simp))
      have hadd := addFlag_of_assigns hflag params
      refine ⟨params.insert key (flagValue text), ?_, ?_⟩
      · rw [parseParams] at hparams ⊢
        rw [List.foldlM_append, hparams, ← hadd]
        exact bind_pure (addFlag params flag)
      · intro key' v
        rw [KeyMap.get?_insert, givenLast_concat_iff hflag]
        split
        · rw [Option.some.injEq, flagValue_eq_iff]
        · exact hget key' v

theorem parseParams_of_malformed {before after : List String}
    (hbefore : ∀ b ∈ before, ¬ Malformed b) (h : Malformed flag) :
    parseParams (before ++ flag :: after) = .error (.invalidParamFlag flag) := by
  obtain ⟨params, hparams, -⟩ := exists_parseParams hbefore
  rw [parseParams] at hparams ⊢
  rw [List.foldlM_append, hparams]
  simp only [bind, Except.bind, List.foldlM_cons, addFlag_of_malformed h]

theorem exists_givenLast_iff (h : ∀ flag ∈ flags, ¬ Malformed flag) :
    (∃ v, GivenLast flags key v) ↔ ∃ flag ∈ flags, ∃ text, Assigns flag key text := by
  induction flags using List.reverseRecOn with
  | nil => simp [not_givenLast_nil]
  | append_singleton flags flag ih =>
      have hflags := ih fun f hf => h f (List.mem_append_left _ hf)
      obtain ⟨key', text, hflag⟩ := exists_assigns_iff.mpr (h flag (by simp))
      simp only [givenLast_concat_iff hflag, List.mem_append, List.mem_singleton, or_and_right,
        exists_or, exists_eq_left, ← hflags]
      by_cases hkey : key' = key
      · subst hkey
        simp only [if_true]
        exact iff_of_true ⟨_, flagValue_eq_iff.mp rfl⟩ (.inr ⟨text, hflag⟩)
      · have hnot : ¬ ∃ text', Assigns flag key text' := by
          rintro ⟨text', hflag'⟩
          exact hkey (hflag.unique hflag').1
        simp only [if_neg hkey, hnot, or_false]

end Flags

/-- What a type of job, a stage and values ask for together. -/
inductive AsksOfJob (a : Arguments) (params : Params) : Except SettingsError Action → Prop
  | describe {job : String} (hjob : a.job = some job) (hstage : a.stage = none)
      (hflags : a.params = []) : AsksOfJob a params (.ok (.describe job))
  | validate {job : String} (hjob : a.job = some job) (h : a.stage ≠ none ∨ a.params ≠ []) :
      AsksOfJob a params (.ok (.validate job a.stage params))
  | stageWithoutJob (hjob : a.job = none) (hstage : a.stage ≠ none) :
      AsksOfJob a params (.error .stageWithoutJob)
  | paramsWithoutJob (hjob : a.job = none) (hstage : a.stage = none) (hflags : a.params ≠ []) :
      AsksOfJob a params (.error .paramsWithoutJob)
  | nothing (hjob : a.job = none) (hstage : a.stage = none) (hflags : a.params = []) :
      AsksOfJob a params (.ok .list)

/-- What arguments ask for, of which the values have been read. -/
inductive Asks (a : Arguments) (params : Params) : Except SettingsError Action → Prop
  | list (hlist : a.list = true) : Asks a params (.ok .list)
  | check (hlist : a.list = false) (hcheck : a.check = true) : Asks a params (.ok .check)
  | job {asked : Except SettingsError Action} (hlist : a.list = false) (hcheck : a.check = false)
      (h : AsksOfJob a params asked) : Asks a params asked

theorem asks_iff {a : Arguments} {params : Params} (hempty : params.isEmpty = true ↔ a.params = [])
    {asked : Except SettingsError Action} : Asks a params asked ↔ chooseAction a params = asked := by
  have hbare : (params.isEmpty && a.stage.isNone) = true ↔ a.params = [] ∧ a.stage = none := by
    rw [Bool.and_eq_true, hempty, Option.isNone_iff_eq_none]
  constructor
  · intro h
    cases h with
    | list hlist => simp [chooseAction, hlist]
    | check hlist hcheck => simp [chooseAction, hlist, hcheck]
    | job hlist hcheck h =>
        cases h with
        | describe hjob hstage hflags =>
            simp [chooseAction, hlist, hcheck, hjob, hstage, hempty.mpr hflags]
        | validate hjob h =>
            have hnot : ¬ (params.isEmpty && a.stage.isNone) = true :=
              mt hbare.mp (not_and_or.mpr h.symm)
            simp only [chooseAction, hlist, hcheck, hjob, if_neg hnot, Bool.false_eq_true, if_false]
        | stageWithoutJob hjob hstage =>
            simp [chooseAction, hlist, hcheck, hjob, Option.isSome_iff_ne_none.mpr hstage]
        | paramsWithoutJob hjob hstage hflags =>
            simp [chooseAction, hlist, hcheck, hjob, hstage, mt hempty.mp hflags]
        | nothing hjob hstage hflags =>
            simp [chooseAction, hlist, hcheck, hjob, hstage, hempty.mpr hflags]
  · rintro rfl
    rw [chooseAction]
    split
    case isTrue hlist => exact .list hlist
    case isFalse hlist =>
      split
      case isTrue hcheck => exact .check (by simpa using hlist) hcheck
      case isFalse hcheck =>
        apply Asks.job (by simpa using hlist) (by simpa using hcheck)
        split
        case h_1 job hjob =>
          split
          case isTrue h => exact .describe hjob (hbare.mp h).2 (hbare.mp h).1
          case isFalse h => exact .validate hjob (not_and_or.mp (mt hbare.mpr h)).symm
        case h_2 hjob =>
          split
          case isTrue hstage =>
            exact .stageWithoutJob hjob (Option.isSome_iff_ne_none.mp hstage)
          case isFalse hstage =>
            have hnone : a.stage = none := by simpa using hstage
            split
            case isTrue hflags =>
              have hnot : ¬ params.isEmpty = true := by simpa using hflags
              exact .paramsWithoutJob hjob hnone (mt hempty.mpr hnot)
            case isFalse hflags =>
              have hno : params.isEmpty = true := by simpa using hflags
              exact .nothing hjob hnone (hempty.mp hno)

theorem ofArguments_of_parseParams {a : Arguments} {params : Params}
    (h : parseParams a.params = .ok params) :
    Settings.ofArguments a = (chooseAction a params).map
      (Settings.mk (a.catalogue.getD defaultCatalogue) a.verbose) := by
  simp only [Settings.ofArguments, h, bind, Except.bind, pure, Except.pure]
  cases chooseAction a params <;> rfl

/-- Arguments with a malformed flag are refused for the first such flag, whatever they ask for.
Otherwise the flags come to the map in which each of their keys has the value that its last flag gives
it, and what is done is what the arguments ask for with that map. A value that is given by its text is
that value, where reading gets it back. -/
theorem ofArguments_eq_iff (a : Arguments) :
    (∀ before flag after, a.params = before ++ flag :: after →
      (∀ b ∈ before, ¬ Malformed b) → Malformed flag →
        Settings.ofArguments a = .error (.invalidParamFlag flag)) ∧
    ((∀ flag ∈ a.params, ¬ Malformed flag) → ∃ params : Params,
      (∀ key, key ∈ params.keys ↔ ∃ flag ∈ a.params, ∃ text, Assigns flag key text) ∧
      (∀ key v, params.get? key = some v ↔ GivenLast a.params key v) ∧
      ∀ asked, Settings.ofArguments a =
          asked.map (Settings.mk (a.catalogue.getD defaultCatalogue) a.verbose) ↔
        Asks a params asked) ∧
    ∀ v : Value, v.Rereadable Json.maxDepth → StandsFor v.text v := by
  refine ⟨?_, ?_, fun v hv => .json (Json.ofText?_eq_some_iff.mp (Value.ofText?_text hv))⟩
  · intro before flag after hparams hbefore hflag
    rw [Settings.ofArguments, hparams, parseParams_of_malformed hbefore hflag]
    rfl
  · intro hflags
    obtain ⟨params, hparams, hget⟩ := exists_parseParams hflags
    have hkeys : ∀ key, key ∈ params.keys ↔ ∃ flag ∈ a.params, ∃ text, Assigns flag key text := by
      intro key
      rw [KeyMap.mem_keys_iff, Option.isSome_iff_exists, ← exists_givenLast_iff hflags]
      exact exists_congr fun v => hget key v
    have hempty : params.isEmpty = true ↔ a.params = [] := by
      rw [KeyMap.isEmpty_iff]
      constructor
      · intro h
        rw [List.eq_nil_iff_forall_not_mem]
        intro flag hmem
        obtain ⟨key, text, hflag⟩ := exists_assigns_iff.mpr (hflags flag hmem)
        exact h key ((hkeys key).mpr ⟨flag, hmem, text, hflag⟩)
      · intro h key
        simp [hkeys, h]
    refine ⟨params, hkeys, hget, ?_⟩
    intro asked
    rw [asks_iff hempty, ofArguments_of_parseParams hparams]
    constructor
    · cases chooseAction a params <;> cases asked <;> simp [Except.map]
    · rintro rfl
      rfl

def keyless : Arguments := { list := true, params := ["n=5", "=x"] }

def repeated : Arguments := { job := some "code", params := ["n=5", "eq=a=b", "n=true", "x=3e23"] }

theorem flags_filed :
    Settings.ofArguments keyless = .error (.invalidParamFlag "=x") ∧
    ∃ params : Params, params.get? "n" = some (.bool true) ∧
      params.get? "eq" = some (.string "a=b") ∧
      params.get? "x" = some (.number (.float Json.beforeNearest)) ∧
      Settings.ofArguments repeated =
        .ok ⟨defaultCatalogue, 0, .validate "code" none params⟩ := by
  have hfive : Assigns "n=5" "n" "5" := ⟨by decide, by decide, by decide⟩
  have heq : Assigns "eq=a=b" "eq" "a=b" := ⟨by decide, by decide, by decide⟩
  have htrue : Assigns "n=true" "n" "true" := ⟨by decide, by decide, by decide⟩
  have hpower : Assigns "x=3e23" "x" "3e23" := ⟨by decide, by decide, by decide⟩
  constructor
  · apply (ofArguments_eq_iff keyless).1 ["n=5"] "=x" [] rfl
    · intro flag hmem
      obtain rfl := List.mem_singleton.mp hmem
      exact exists_assigns_iff.mp ⟨_, _, hfive⟩
    · exact .inr ⟨"x", by decide⟩
  · have hflags : ∀ flag ∈ repeated.params, ¬ Malformed flag := by
      simp only [repeated, List.forall_mem_cons, ← exists_assigns_iff]
      exact ⟨⟨_, _, hfive⟩, ⟨_, _, heq⟩, ⟨_, _, htrue⟩, ⟨_, _, hpower⟩, by simp⟩
    have hjson : Json.Denotes "true" (.bool true) := Json.denotes_of_leaf .boolTrue
    have hthree : Json.WholeDigits ['3'] :=
      ⟨⟨by decide, Catalogue.forall_mem_of_all (by decide)⟩, fun _ => rfl⟩
    have hpowerDigits : Catalogue.Digits ['2', '3'] :=
      ⟨by decide, Catalogue.forall_mem_of_all (by decide)⟩
    have hmagnitude : Json.SpellsMagnitude false ['3', 'e', '2', '3'] (.float Json.beforeNearest) :=
      .decimal hthree .absent (@Json.SpellsPower.positive 'e' [] _ (by simp) (by simp) hpowerDigits)
        (by simp) Json.floatNumber?_beforeNearest.1
    have hrounded : Json.Denotes "3e23" (.number (.float Json.beforeNearest)) :=
      Json.denotes_of_leaf (.number ⟨false, _, hmagnitude, rfl⟩)
    have hno : ∀ v, ¬ Json.Denotes "a=b" v := forall_not_denotes_iff.mpr (by cbv)
    obtain ⟨params, -, hget, hasks⟩ := (ofArguments_eq_iff repeated).2.1 hflags
    refine ⟨params, ?_, ?_, ?_, ?_⟩
    · rw [hget]
      refine ⟨["n=5", "eq=a=b"], _, ["x=3e23"], _, rfl, htrue, ?_, .json hjson⟩
      intro later hmem text hlater
      obtain rfl := List.mem_singleton.mp hmem
      exact absurd (hpower.unique hlater).1 (by decide)
    · rw [hget]
      refine ⟨["n=5"], _, ["n=true", "x=3e23"], _, rfl, heq, ?_, .string hno⟩
      simp only [List.forall_mem_cons]
      refine ⟨fun text h => ?_, fun text h => ?_, by simp⟩
      · exact absurd (htrue.unique h).1 (by decide)
      · exact absurd (hpower.unique h).1 (by decide)
    · rw [hget]
      exact ⟨["n=5", "eq=a=b", "n=true"], _, [], _, rfl, hpower, by simp, .json hrounded⟩
    · exact (hasks _).mpr (.job rfl rfl (.validate rfl (.inr (by simp [repeated]))))

end StagedJobs.CommandLine
