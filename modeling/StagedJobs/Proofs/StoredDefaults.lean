import StagedJobs.Proofs.Catalogue.AllOrNothing
import StagedJobs.Proofs.Catalogue.Numerals
import StagedJobs.Proofs.GivenSettings
import StagedJobs.Proofs.Revalidation

namespace StagedJobs

open Outcomes

theorem StageDraft.parts_of_build {number : Nat} {taskType : String} {settings : List Setting}
    {s : StageSpec} (h : (ofSettings number taskType settings).build = .ok s) :
    s.number = number ∧ ∀ p, .param p ∈ settings → p ∈ s.params := by
  rw [ofSettings_eq_described] at h
  obtain ⟨-, -, -, -, -, rfl⟩ := build_eq_ok_iff.mp h
  exact ⟨rfl, fun p hp => List.mem_filterMap.mpr ⟨_, hp, rfl⟩⟩

theorem WorkflowDraft.parts_of_build {jobType : String} {settings : List Setting} {w : WorkflowSpec}
    (h : (ofSettings jobType settings).build = .ok w) :
    (∀ p, .param p ∈ settings → p ∈ w.params) ∧ ∀ s, .stage s ∈ settings → s ∈ w.stages := by
  rw [ofSettings_eq_described] at h
  obtain ⟨-, -, -, -, place, -, -, rfl⟩ := build_eq_ok_iff.mp h
  refine ⟨fun p hp => List.mem_filterMap.mpr ⟨_, hp, rfl⟩, fun s hs => ?_⟩
  exact mem_orderedStages.mpr (List.mem_filterMap.mpr ⟨_, hs, rfl⟩)

namespace Catalogue

/-- The value that is stored for a numeral. -/
inductive Numeral.StoredAs (n : Numeral) : Value → Prop
  | whole (i : Int64) : n.fraction = [] → i.toInt = n.integer → StoredAs n (.ofInt64 i)
  | text : n.fraction = [] →
      ¬ (-0x8000_0000_0000_0000 ≤ n.integer ∧ n.integer < 0x8000_0000_0000_0000) →
        StoredAs n (.string n.text)
  | float (x : Binary64.Finite) : n.fraction ≠ [] → n.nearest = .finite x →
      StoredAs n (.number (.float x))
  | null : n.fraction ≠ [] → (∀ x, n.nearest ≠ .finite x) → StoredAs n .null

theorem Numeral.text_ne (n : Numeral) {s : String} (hs : ∀ c ∈ s.toList, c.isDigit = false) :
    n.text ≠ s := by
  obtain ⟨c, rest, hcons⟩ := List.exists_cons_of_ne_nil n.whole_digits.1
  have hdigit : c.isDigit = true := n.whole_digits.2 c (by simp [hcons])
  rintro rfl
  have hnot := hs c (by simp [n.toList_text, hcons])
  rw [hdigit] at hnot
  simp at hnot

theorem Numeral.storedAs_toValue (n : Numeral) : n.StoredAs n.literal.toValue := by
  rw [literal]
  split
  · rename_i hfraction
    cases hint : int64? n.integer with
    | some i => exact .whole i hfraction (int64?_eq_some hint)
    | none =>
        -- The only words that are no strings are those of the booleans.
        have htrue : n.text ≠ "true" := n.text_ne (forall_mem_of_all (by decide))
        have hfalse : n.text ≠ "false" := n.text_ne (forall_mem_of_all (by decide))
        simp only [Literal.toValue, htrue, hfalse, if_false]
        refine .text hfraction fun hfits => ?_
        rw [int64?, if_pos hfits] at hint
        simp at hint
  · rename_i hfraction
    rw [Literal.toValue]
    cases hnearest : n.nearest with
    | finite x => exact .float x hfraction hnearest
    | infinite negative => exact .null hfraction (by simp [hnearest])
    | nan => exact .null hfraction (by simp [hnearest])

example : (Decimal.ofDigits false ('1' :: List.replicate 310 '0') ['5'] 0).toBinary64 =
    .infinite false := by decide +kernel

section Build

variable {number : Nat} {taskType : String} {entries : List Entry} {s : StageSpec}
  {b : WorkflowBlock} {w : WorkflowSpec} {p : ParamEntry}

theorem exists_param_of_buildStage (h : buildStage number taskType entries = .ok s)
    (hp : .param p ∈ entries) : ∃ spec ∈ s.params, p.build = .ok spec := by
  obtain ⟨settings, hsettings, hbuild⟩ := exists_settings_of_buildStage h
  obtain ⟨setting, hsetting, hparam⟩ := exists_mem_of_mapM hsettings hp
  obtain ⟨spec, hspec, rfl⟩ := map_eq_ok.mp hparam
  exact ⟨spec, (StageDraft.parts_of_build hbuild).2 spec hsetting, hspec⟩

theorem number_of_buildStage (h : buildStage number taskType entries = .ok s) :
    s.number = number := by
  obtain ⟨settings, -, hbuild⟩ := exists_settings_of_buildStage h
  exact (StageDraft.parts_of_build hbuild).1

theorem exists_param_of_buildWorkflow (h : buildWorkflow b = .ok w) (hp : .param p ∈ b.entries) :
    ∃ spec ∈ w.params, p.build = .ok spec := by
  obtain ⟨settings, hsettings, hbuild⟩ := exists_settings_of_buildWorkflow h
  obtain ⟨setting, hsetting, hparam⟩ := exists_mem_of_mapM hsettings hp
  obtain ⟨spec, hspec, rfl⟩ := map_eq_ok.mp hparam
  exact ⟨spec, (WorkflowDraft.parts_of_build hbuild).1 spec hsetting, hspec⟩

theorem exists_stage_of_buildWorkflow (h : buildWorkflow b = .ok w)
    (hs : .stage number taskType entries ∈ b.entries) :
    ∃ s ∈ w.stages, buildStage number taskType entries = .ok s := by
  obtain ⟨settings, hsettings, hbuild⟩ := exists_settings_of_buildWorkflow h
  obtain ⟨setting, hsetting, hstage⟩ := exists_mem_of_mapM hsettings hs
  obtain ⟨s, hspec, rfl⟩ := map_eq_ok.mp hstage
  exact ⟨s, (WorkflowDraft.parts_of_build hbuild).2 s hsetting, mapError_eq_ok.mp hspec⟩

end Build

/-- The default of a parameter of any type is stored without conversion. -/
theorem ParamEntry.default_of_build {p : ParamEntry} {spec : ParameterSpec} (h : p.build = .ok spec)
    (htype : p.type = "any") {x : Literal} (hdefault : p.default = some x) :
    spec.name = p.name ∧ spec.type = .any ∧ spec.default = some x.toValue := by
  obtain ⟨d, hdraft, hbuild⟩ := bind_eq_ok.mp h
  obtain ⟨type, hparamType, hdraft⟩ := bind_eq_ok.mp hdraft
  obtain ⟨constraints, -, hdraft⟩ := bind_eq_ok.mp hdraft
  obtain rfl := Except.ok.inj hdraft
  obtain rfl : type = .any := by
    rw [paramType, htype] at hparamType
    exact (Except.ok.inj hparamType).symm
  obtain ⟨-, -, -, allowed, -, default, hcoerced, rfl⟩ :=
    ParameterDraft.build_eq_ok_iff.mp (mapError_eq_ok.mp hbuild)
  refine ⟨rfl, rfl, ?_⟩
  rw [ParameterDraft.coerceDefault, hdefault] at hcoerced
  simp only [Option.map_some] at hcoerced
  split at hcoerced
  · rename_i converted hconform
    obtain rfl := Except.ok.inj hcoerced
    rw [Option.some.inj (ParameterDraft.conform_eq_ok_iff.mp hconform).1]
  · simp at hcoerced

theorem exists_get_of_load {blocks : List WorkflowBlock} {r : Registry} (h : load blocks = .ok r)
    {b : WorkflowBlock} (hb : b ∈ blocks) :
    ∃ w, buildWorkflow b = .ok w ∧ r.get b.jobType = .ok w := by
  have hfollows := Progress.Follows.foldl blocks
  rw [load] at h
  split at h
  · rename_i hempty
    obtain rfl := Except.ok.inj h
    refine hfollows.get_eq_ok ?_ hb
    rw [← length_faults, ← hfollows.errors, List.isEmpty_iff.mp hempty]
    rfl
  · simp at h

/-- A parameter with the numeral for its default keeps what is stored for the numeral. -/
def Keeps (specs : List ParameterSpec) (p : ParamEntry) (n : Numeral) : Prop :=
  ∃ spec ∈ specs, ∃ v, spec.name = p.name ∧ spec.type = .any ∧ spec.default = some v ∧ n.StoredAs v

theorem keeps_of_build {specs : List ParameterSpec} {p : ParamEntry} {n : Numeral}
    (htype : p.type = "any") (hdefault : p.default = some (.word n.text))
    (h : ∃ spec ∈ specs, p.asRead.build = .ok spec) : Keeps specs p n := by
  obtain ⟨spec, hspec, hbuild⟩ := h
  have hread : p.asRead.default = some n.literal := by
    rw [ParamEntry.asRead, hdefault, Option.map_some, Literal.asRead_numeral]
  obtain ⟨hname, hany, hstored⟩ := p.asRead.default_of_build hbuild htype hread
  exact ⟨spec, hspec, _, hname, hany, hstored, n.storedAs_toValue⟩

theorem exists_get_of_loadText {written : List WorkflowBlock} (hwell : ∀ b ∈ written, b.WellWritten)
    {text : String} (hwritten : Renders .free (write written) text.toList) {r : Registry}
    (hload : loadText text = .ok r) {b : WorkflowBlock} (hb : b ∈ written) :
    ∃ w, buildWorkflow b.asRead = .ok w ∧ r.get b.jobType = .ok w := by
  obtain ⟨read, hparse, hload⟩ := loadText_eq_ok_iff.mp hload
  rw [parse_of_wellWritten hwell hwritten] at hparse
  obtain rfl := Except.ok.inj hparse
  have hmem : b.asRead ∈ written.map (·.asRead) := List.mem_map.mpr ⟨b, hb, rfl⟩
  exact exists_get_of_load hload hmem

/-- In whatever layout a catalogue is written, if it loads, then each parameter of any type, shared or
of a stage, keeps what is stored for the numeral that is its default: a number where the numeral has a
place among the 64-bit or the finite binary64 ones, and else its text, or null. -/
theorem numeral_defaults_of_loadText {written : List WorkflowBlock}
    (hwell : ∀ b ∈ written, b.WellWritten) {text : String}
    (hwritten : Renders .free (write written) text.toList) {r : Registry}
    (hload : loadText text = .ok r) {b : WorkflowBlock} (hb : b ∈ written) :
    ∃ w, r.get b.jobType = .ok w ∧
      (∀ p n, .param p ∈ b.entries → p.type = "any" → p.default = some (.word n.text) →
        Keeps w.params p n) ∧
      ∀ number taskType entries, .stage number taskType entries ∈ b.entries →
        ∃ s ∈ w.stages, s.number = number ∧
          ∀ p n, .param p ∈ entries → p.type = "any" → p.default = some (.word n.text) →
            Keeps s.params p n := by
  obtain ⟨w, hw, hget⟩ := exists_get_of_loadText hwell hwritten hload hb
  refine ⟨w, hget, ?_, ?_⟩
  · intro p n hp htype hdefault
    apply keeps_of_build htype hdefault
    exact exists_param_of_buildWorkflow hw (asRead_mem_entriesAsRead hp)
  · intro number taskType entries hs
    obtain ⟨s, hmem, hstage⟩ := exists_stage_of_buildWorkflow hw (asRead_mem_entriesAsRead hs)
    refine ⟨s, hmem, number_of_buildStage hstage, ?_⟩
    intro p n hp htype hdefault
    apply keeps_of_build htype hdefault
    exact exists_param_of_buildStage hstage (asRead_mem_entriesAsRead hp)

/-- A numeral of a whole number one past those of 64 bits, and one with zeros in front. -/
def Numeral.beyond : Numeral :=
  ⟨false, "9223372036854775808".toList, [], ⟨by decide, forall_mem_of_all (by decide)⟩, by simp⟩

def Numeral.seven : Numeral :=
  ⟨true, "007".toList, [], ⟨by decide, forall_mem_of_all (by decide)⟩, by simp⟩

def sharedLimit : ParamEntry := ⟨"n", "any", false, some (.word Numeral.beyond.text), [], none⟩

def stageLimit : ParamEntry := ⟨"m", "any", false, some (.word Numeral.seven.text), [], none⟩

def limited : WorkflowBlock :=
  ⟨"a", [.param sharedLimit, .stage 1 "b" [.param stageLimit, .property ⟨"final", []⟩]]⟩

def limitedText : String :=
  "workflow a \x7b\nparam n: any = 9223372036854775808\n" ++
    "stage 1 b \x7b\nparam m: any = -007\nfinal\n\x7d\n\x7d\n"

def limitedParts : List String :=
  ["", "workflow", " ", "", "a", " ", "\x7b", "\n", "param", " ", "n", "", ":", " ", "any", " ", "=",
    " ", "9223372036854775808", "\n", "stage", " ", "1", " ", "b", " ", "\x7b", "\n", "param", " ", "m",
    "", ":", " ", "any", " ", "=", " ", "-007", "\n", "final", "\n", "\x7d", "\n", "\x7d", "\n", ""]

theorem limited_wellWritten : ∀ b ∈ [limited], b.WellWritten := by
  have hbeyond : (Literal.word Numeral.beyond.text).WellWritten := .inr ⟨Numeral.beyond, rfl⟩
  have hseven : (Literal.word Numeral.seven.text).WellWritten := .inr ⟨Numeral.seven, rfl⟩
  have hshared : sharedLimit.WellWritten := by
    constructor <;> simp [sharedLimit, IsName, hbeyond] <;> decide
  have hstage : stageLimit.WellWritten := by
    constructor <;> simp [stageLimit, IsName, hseven] <;> decide
  have hfinal : Property.WellWritten ⟨"final", []⟩ := by
    constructor <;> simp [IsName, ItemsWellWritten]
    decide
  intro b hb
  obtain rfl : b = limited := by simpa using hb
  have ha : IsName "a" := ⟨by decide, forall_mem_of_all (by decide)⟩
  have hb : IsName "b" := ⟨by decide, forall_mem_of_all (by decide)⟩
  exact ⟨ha, hshared, ⟨by decide, hb, hstage, hfinal, trivial⟩, trivial⟩

theorem limited_renders : Renders .free (write [limited]) limitedText.toList := by
  have htext : limitedText.toList = (limitedParts.map String.toList).flatten := by rfl
  have hspace : Blank [' '] := .space (by decide) .nil
  have hline : Blank ['\n'] := .space (by decide) .nil
  have hone : CountSpelledAs 1 ['1'] := ⟨⟨by decide, forall_mem_of_all (by decide)⟩, rfl⟩
  have hinline : isInlineBlank ' ' = true := by decide
  have hend : LineEnd ['\n'] := ⟨[], '\n', [], by simp [Inline], .inl rfl, hline, rfl⟩
  have hbeyond : Numeral.beyond.text = "9223372036854775808" := by rfl
  have hseven : Numeral.seven.text = "-007" := by rfl
  rw [htext]
  apply renders_flatten
  simp [write, limited, sharedLimit, stageLimit, hbeyond, hseven, WorkflowBlock.pieces, Entry.pieces,
    entryPieces, Property.pieces, ParamEntry.pieces, ParamEntry.requiredPieces,
    ParamEntry.defaultPieces, ParamEntry.constraintGroupPieces, ParamEntry.descriptionPieces,
    Literal.pieces, limitedParts, Piece.Admits, Piece.ofString, Style.free, Gap.Admits, Inline, hspace,
    hline, hone, hinline, hend, Blank.nil]

theorem exists_loadText_limitedText : ∃ r, loadText limitedText = .ok r := by
  have hparse := parse_of_wellWritten limited_wellWritten limited_renders
  have hok : (load [limited.asRead]).isOk = true := by decide +kernel
  cases hload : load [limited.asRead] with
  | error e => simp [hload, Except.isOk, Except.toBool] at hok
  | ok r => exact ⟨r, loadText_eq_ok_iff.mpr ⟨_, hparse, hload⟩⟩

theorem limitedText_defaults :
    (∀ b ∈ [limited], b.WellWritten) ∧ Renders .free (write [limited]) limitedText.toList ∧
      ∃ r w, loadText limitedText = .ok r ∧ limited ∈ [limited] ∧ r.get "a" = .ok w ∧
        Keeps w.params sharedLimit .beyond ∧
        ∃ s ∈ w.stages, s.number = 1 ∧ Keeps s.params stageLimit .seven := by
  obtain ⟨r, hload⟩ := exists_loadText_limitedText
  have hmem : limited ∈ [limited] := List.mem_singleton_self _
  obtain ⟨w, hget, hshared, hstages⟩ :=
    numeral_defaults_of_loadText limited_wellWritten limited_renders hload hmem
  obtain ⟨s, hs, hnumber, hstage⟩ :=
    hstages 1 "b" [.param stageLimit, .property ⟨"final", []⟩] (by simp [limited])
  refine ⟨limited_wellWritten, limited_renders, r, w, hload, hmem, hget, ?_, s, hs, hnumber, ?_⟩
  · exact hshared sharedLimit .beyond (by simp [limited]) rfl rfl
  · exact hstage stageLimit .seven (by simp) rfl rfl

/-- A numeral as a default is stored as a string. -/
theorem beyond_stored_as_text :
    ∃ r w spec, loadText limitedText = .ok r ∧ r.get "a" = .ok w ∧ spec ∈ w.params ∧
      spec.name = "n" ∧ spec.type = .any ∧
        spec.default = some (.string "9223372036854775808") := by
  obtain ⟨r, hload⟩ := exists_loadText_limitedText
  obtain ⟨w, hw, hget⟩ := exists_get_of_loadText limited_wellWritten limited_renders hload
    (List.mem_singleton_self limited)
  have hmem : .param sharedLimit ∈ limited.entries := by simp [limited]
  obtain ⟨spec, hspec, hbuild⟩ := exists_param_of_buildWorkflow hw (asRead_mem_entriesAsRead hmem)
  have hdefault : sharedLimit.asRead.default = some Numeral.beyond.literal :=
    congrArg some (Literal.asRead_numeral Numeral.beyond)
  obtain ⟨hname, hany, hstored⟩ := sharedLimit.asRead.default_of_build hbuild rfl hdefault
  have hliteral : Numeral.beyond.literal.toValue = .string "9223372036854775808" := by rfl
  exact ⟨r, w, spec, hload, hget, hspec, hname, hany, by rw [hstored, hliteral]⟩

end Catalogue

end StagedJobs
