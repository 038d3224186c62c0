import Mathlib
import StagedJobs.Proofs.Json.Lines
import StagedJobs.Proofs.Json.Writing
import StagedJobs.Proofs.LoadedWorkflows
import StagedJobs.Proofs.Registration

namespace StagedJobs

open Outcomes

namespace WorkflowSpec

variable {w : WorkflowSpec} {jobType : String}

/-- The record of a workflow in a list, which the end of a line follows. -/
def record (jobType : String) (w : WorkflowSpec) : String :=
  jobType ++ "\t" ++ w.name ++ " v" ++ w.version ++ " (" ++ toString w.stages.length ++ " stages)"

theorem summary_eq_record (jobType : String) (w : WorkflowSpec) :
    w.summary jobType = w.record jobType := rfl

theorem newline_notMem_of_isIdentifier {s : String} (h : isIdentifier s = true) :
    '\n' ∉ s.toList := by
  rw [isIdentifier] at h
  split at h
  case h_1 =>
    simp only [Bool.and_eq_true, List.all_eq_true] at h
    intro hmem
    exact absurd (h.2 '\n' hmem) (by decide)
  case h_2 => simp at h

theorem Built.isIdentifier_jobType (h : w.Built) : isIdentifier w.jobType = true := by
  obtain ⟨jobType, settings, -, -, hbuild⟩ := h
  obtain ⟨hname, -, -, -, place, -, -, rfl⟩ := WorkflowDraft.build_eq_ok_iff.mp hbuild
  exact checkIdentifier_eq_ok_iff.mp hname

theorem newline_notMem_record (hjobType : isIdentifier jobType = true) (hname : '\n' ∉ w.name.toList)
    (hversion : '\n' ∉ w.version.toList) : '\n' ∉ (w.record jobType).toList := by
  have hcount : '\n' ∉ Nat.toDigits 10 w.stages.length := by
    intro hmem
    exact absurd (Nat.isDigit_of_mem_toDigits (by decide) (by decide) hmem) (by decide)
  simp [record, newline_notMem_of_isIdentifier hjobType, hname, hversion, hcount]

end WorkflowSpec

namespace CommandLine

namespace Step

variable {ε α β : Type} {x : Step α} {f : α → Step β} {a : α} {text more : String}
  {outcome : Except RunError β} {e : RunError}

/-- Whatever has been said before it, a step adds `text` to the answer and comes to `outcome`. -/
def Comes (x : Step α) (text : String) (outcome : Except RunError α) : Prop :=
  ∀ said : Spoken, ∃ progress, x.run.run said = (outcome, ⟨said.answer ++ text, progress⟩)

theorem comes_pure (a : α) : Comes (pure a) "" (.ok a) := by
  intro said
  refine ⟨said.progress, ?_⟩
  rw [String.append_empty]
  rfl

theorem comes_throw (e : RunError) : Comes (throw e : Step α) "" (.error e) := by
  intro said
  refine ⟨said.progress, ?_⟩
  rw [String.append_empty]
  rfl

theorem comes_write (text : String) : Comes (write text) text (.ok ()) :=
  fun said => ⟨said.progress, rfl⟩

theorem comes_report (text : String) : Comes (report text) "" (.ok ()) := by
  intro said
  refine ⟨said.progress ++ text, ?_⟩
  rw [String.append_empty]
  rfl

theorem comes_require {outcome : Except ε α} {failure : ε → RunError} (h : outcome = .ok a) :
    Comes (require outcome failure) "" (.ok a) := by
  rw [h]
  exact comes_pure a

theorem comes_require_error {outcome : Except ε α} {failure : ε → RunError} {e : ε}
    (h : outcome = .error e) : Comes (require outcome failure) "" (.error (failure e)) := by
  rw [h]
  exact comes_throw (failure e)

theorem Comes.bind (hx : Comes x text (.ok a)) (hf : Comes (f a) more outcome) :
    Comes (x >>= f) (text ++ more) outcome := by
  intro said
  obtain ⟨progress, hx⟩ := hx said
  obtain ⟨progress', hf⟩ := hf ⟨said.answer ++ text, progress⟩
  refine ⟨progress', ?_⟩
  rw [← String.append_assoc, ← hf, ExceptT.run_bind, StateT.run_bind, hx]
  rfl

theorem Comes.bind_error (hx : Comes x text (.error e)) : Comes (x >>= f) text (.error e) := by
  intro said
  obtain ⟨progress, hx⟩ := hx said
  refine ⟨progress, ?_⟩
  rw [ExceptT.run_bind, StateT.run_bind, hx]
  rfl

theorem Comes.andThen (hx : Comes x "" (.ok a)) (hf : Comes (f a) text outcome) :
    Comes (x >>= f) text outcome := by
  have h := hx.bind hf
  rwa [String.empty_append] at h

theorem Comes.afterReport {f : Unit → Step β} (hf : Comes (f ()) text outcome) :
    Comes (report more >>= f) text outcome :=
  (comes_report more).andThen hf

theorem comes_forM {R : β → String → Prop} {g : β → Step Unit} {bs : List β} {ls : List String}
    (hlines : List.Forall₂ R bs ls)
    (hstep : ∀ b line, R b line → Comes (g b) (line ++ "\n") (.ok ())) :
    Comes (bs.forM g) (lines ls) (.ok ()) := by
  induction hlines with
  | nil => exact comes_pure ()
  | cons hline _ ih =>
      rw [lines, List.map_cons, String.join_cons]
      exact (hstep _ _ hline).bind ih

/-- A step writes the whole of an answer, or fails and writes nothing. -/
def Tells (x : Step Unit) : Except RunError String → Prop
  | .ok text => Comes x text (.ok ())
  | .error e => Comes x "" (.error e)

theorem Tells.after {f : α → Step Unit} {outcome : Except RunError String}
    (hx : Comes x "" (.ok a)) (hf : Tells (f a) outcome) : Tells (x >>= f) outcome := by
  cases outcome with
  | ok text => exact hx.andThen hf
  | error e => exact hx.andThen hf

end Step

open Step

/-- What the registry of a catalogue gives for a thing to do: all that is to be written, or why
nothing is. -/
inductive Answers (path : String) (registry : Registry) : Action → Except RunError String → Prop
  /-- A record for each type of job, the types in ascending order. -/
  | list {ls : List String} (hascending : registry.jobTypes.Pairwise (· < ·))
      (hrecords : List.Forall₂ (fun jobType record =>
        ∃ w, registry.get jobType = .ok w ∧ record = w.record jobType) registry.jobTypes ls) :
      Answers path registry .list (.ok (lines ls))
  | check : Answers path registry .check
      (.ok (Text.quoted path ++ ": " ++ toString registry.size ++ " workflows OK" ++ "\n"))
  | described {job : String} {w : WorkflowSpec} (h : registry.get job = .ok w) :
      Answers path registry (.describe job) (.ok (lines w.describe))
  | unknown {job : String} {e : ValidationError} (h : registry.get job = .error e) :
      Answers path registry (.describe job) (.error (.unknownJob e))
  | validForJob {job : String} {params results : Params}
      (h : registry.validateJobParameters job params = .ok results) :
      Answers path registry (.validate job none params)
        (.ok (lines (((Value.ofParams results).lines 0).map Line.written)))
  | validForStage {job : String} {n : Nat} {params results : Params}
      (h : registry.validateStageParameters job n params = .ok results) :
      Answers path registry (.validate job (some n) params)
        (.ok (lines (((Value.ofParams results).lines 0).map Line.written)))
  | rejectedForJob {job : String} {params : Params} {e : ValidationError}
      (h : registry.validateJobParameters job params = .error e) :
      Answers path registry (.validate job none params) (.error (.rejected job e))
  | rejectedForStage {job : String} {n : Nat} {params : Params} {e : ValidationError}
      (h : registry.validateStageParameters job n params = .error e) :
      Answers path registry (.validate job (some n) params) (.error (.rejected job e))

/-- What a command comes to, from the file of its catalogue on. -/
inductive Settles (path : String) (action : Action) :
    Except ReadFailure String → Except RunError String → Prop
  | unreadable {e : ReadFailure} : Settles path action (.error e) (.error (.unreadable path e))
  | unparsable {text : String} {e : Catalogue.ParseError}
      (h : Catalogue.loadText text = .error (.parse e)) :
      Settles path action (.ok text) (.error (.unparsable path e))
  | invalid {text : String} {e : Catalogue.AggregatedErrors}
      (h : Catalogue.loadText text = .error (.invalid e)) :
      Settles path action (.ok text) (.error (.invalid e))
  | loaded {text : String} {registry : Registry} {outcome : Except RunError String}
      (h : Catalogue.loadText text = .ok registry) (ha : Answers path registry action outcome) :
      Settles path action (.ok text) outcome

section CarryOut

variable {s : Settings} {registry : Registry} {job : String} {stage : Option Nat}
  {params results : Params} {e : ValidationError}

theorem comes_writeList {ls : List String}
    (hlines : List.Forall₂ (fun jobType line =>
      ∃ w, registry.get jobType = .ok w ∧ line = w.record jobType) registry.jobTypes ls) :
    Comes (writeList registry) (lines ls) (.ok ()) := by
  refine comes_forM hlines ?_
  rintro jobType line ⟨w, hw, rfl⟩
  rw [← WorkflowSpec.summary_eq_record]
  exact (comes_require hw).andThen (comes_write _)

theorem comes_writeDescription {w : WorkflowSpec} (h : registry.get job = .ok w) :
    Comes (writeDescription registry job) (lines w.describe) (.ok ()) := by
  refine (comes_require h).andThen (comes_forM (List.forall₂_same.mpr fun _ _ => rfl) ?_)
  rintro line _ rfl
  exact comes_write _

theorem comes_writeValidated
    (h : (registry.get job >>= fun w => validated w stage params) = .ok results) :
    Comes (writeValidated s registry job stage params)
      (lines (((Value.ofParams results).lines 0).map Line.written)) (.ok ()) := by
  rw [← Value.pretty_eq_lines]
  obtain ⟨w, hw, hresults⟩ := bind_eq_ok.mp h
  refine (comes_require hw).andThen ?_
  refine (comes_require hresults).andThen ?_
  refine .afterReport ?_
  exact (comes_write _).bind (comes_write _)

theorem comes_writeValidated_of_error
    (h : (registry.get job >>= fun w => validated w stage params) = .error e) :
    Comes (writeValidated s registry job stage params) "" (.error (.rejected job e)) := by
  rcases bind_eq_error.mp h with hw | ⟨w, hw, herror⟩
  · exact (comes_require_error hw).bind_error
  · exact (comes_require hw).andThen (comes_require_error herror).bind_error

theorem tells_carryOut {outcome : Except RunError String}
    (h : Answers s.catalogue registry s.action outcome) :
    Tells (carryOut s registry s.action) outcome := by
  generalize s.action = action at h
  cases h with
  | list _ hlines => exact comes_writeList hlines
  | check => exact comes_write _
  | described h => exact comes_writeDescription h
  | unknown h => exact (comes_require_error h).bind_error
  | validForJob h => exact comes_writeValidated h
  | validForStage h => exact comes_writeValidated h
  | rejectedForJob h => exact comes_writeValidated_of_error h
  | rejectedForStage h => exact comes_writeValidated_of_error h

theorem exists_get_of_mem_jobTypes {jobType : String} (h : jobType ∈ registry.jobTypes) :
    ∃ w, registry.get jobType = .ok w := by
  obtain ⟨w, hw⟩ := Option.isSome_iff_exists.mp (KeyMap.mem_keys_iff.mp h)
  exact ⟨w, Registry.get_eq_ok_iff.mpr hw⟩

private theorem exists_forall₂ {α β : Type} {R : α → β → Prop} {as : List α}
    (h : ∀ a ∈ as, ∃ b, R a b) : ∃ bs, List.Forall₂ R as bs := by
  induction as with
  | nil => exact ⟨[], .nil⟩
  | cons a as ih =>
      obtain ⟨b, hb⟩ := h a List.mem_cons_self
      obtain ⟨bs, hbs⟩ := ih fun a ha => h a (List.mem_cons_of_mem _ ha)
      exact ⟨b :: bs, .cons hb hbs⟩

theorem exists_answers (path : String) (registry : Registry) (action : Action) :
    ∃ outcome, Answers path registry action outcome := by
  cases action with
  | list =>
      have hline : ∀ jobType ∈ registry.jobTypes, ∃ line w,
          registry.get jobType = .ok w ∧ line = w.record jobType := by
        intro jobType h
        obtain ⟨w, hw⟩ := exists_get_of_mem_jobTypes h
        exact ⟨_, w, hw, rfl⟩
      obtain ⟨ls, hlines⟩ := exists_forall₂ hline
      exact ⟨_, .list registry.workflows.pairwise_keys hlines⟩
  | check => exact ⟨_, .check⟩
  | describe job =>
      cases h : registry.get job with
      | ok w => exact ⟨_, .described h⟩
      | error e => exact ⟨_, .unknown h⟩
  | validate job stage params =>
      cases stage with
      | none =>
          cases h : registry.validateJobParameters job params with
          | ok results => exact ⟨_, .validForJob h⟩
          | error e => exact ⟨_, .rejectedForJob h⟩
      | some n =>
          cases h : registry.validateStageParameters job n params with
          | ok results => exact ⟨_, .validForStage h⟩
          | error e => exact ⟨_, .rejectedForStage h⟩

end CarryOut

section Run

variable {s : Settings} {file : Except ReadFailure String} {elapsed : Phase → String}
  {text : String}

theorem comes_openCatalogue (s : Settings) (text : String) :
    Comes (openCatalogue s (.ok text)) "" (.ok text) := by
  refine .afterReport ?_
  refine (comes_require rfl).andThen ?_
  exact .afterReport (comes_pure text)

theorem comes_openCatalogue_of_error (s : Settings) (e : ReadFailure) :
    Comes (openCatalogue s (.error e)) "" (.error (.unreadable s.catalogue e)) :=
  .afterReport (comes_require_error rfl).bind_error

/-- Once the text is read into blocks, loading comes to what building comes to. -/
theorem comes_loadCatalogue_of_parse {blocks : List Catalogue.WorkflowBlock}
    {outcome : Except RunError Registry} (hblocks : Catalogue.parse text = .ok blocks)
    (hbuild : Comes (buildRegistry blocks) "" outcome) :
    Comes (loadCatalogue s elapsed text) "" outcome := by
  refine .afterReport ?_
  refine (comes_require hblocks).andThen ?_
  refine .afterReport ?_
  refine .afterReport ?_
  refine .afterReport ?_
  cases outcome with
  | error e => exact hbuild.bind_error
  | ok registry =>
      refine hbuild.andThen ?_
      refine .afterReport ?_
      refine .afterReport ?_
      exact .afterReport (comes_pure registry)

theorem comes_loadCatalogue {registry : Registry} (h : Catalogue.loadText text = .ok registry) :
    Comes (loadCatalogue s elapsed text) "" (.ok registry) := by
  obtain ⟨blocks, hblocks, hload⟩ := Catalogue.loadText_eq_ok_iff.mp h
  refine comes_loadCatalogue_of_parse hblocks ?_
  rw [buildRegistry, hload]
  exact comes_pure registry

theorem comes_loadCatalogue_of_unparsable {e : Catalogue.ParseError}
    (h : Catalogue.loadText text = .error (.parse e)) :
    Comes (loadCatalogue s elapsed text) "" (.error (.unparsable s.catalogue e)) := by
  refine .afterReport ?_
  exact (comes_require_error (Catalogue.loadText_eq_parse_iff.mp h)).bind_error

theorem comes_loadCatalogue_of_invalid {e : Catalogue.AggregatedErrors}
    (h : Catalogue.loadText text = .error (.invalid e)) :
    Comes (loadCatalogue s elapsed text) "" (.error (.invalid e)) := by
  obtain ⟨blocks, hblocks, hload⟩ := Catalogue.loadText_eq_invalid_iff.mp h
  refine comes_loadCatalogue_of_parse hblocks ?_
  rw [buildRegistry, hload]
  exact .afterReport (comes_throw _)

theorem tells_session {outcome : Except RunError String}
    (h : Settles s.catalogue s.action file outcome) : Tells (session s file elapsed) outcome := by
  cases h with
  | unreadable => exact (comes_openCatalogue_of_error s _).bind_error
  | unparsable h =>
      exact (comes_openCatalogue s _).andThen (comes_loadCatalogue_of_unparsable h).bind_error
  | invalid h =>
      exact (comes_openCatalogue s _).andThen (comes_loadCatalogue_of_invalid h).bind_error
  | loaded h ha =>
      exact .after (comes_openCatalogue s _) (.after (comes_loadCatalogue h) (tells_carryOut ha))

theorem exists_settles (path : String) (action : Action) (file : Except ReadFailure String) :
    ∃ outcome, Settles path action file outcome := by
  cases file with
  | error e => exact ⟨_, .unreadable⟩
  | ok text =>
      cases h : Catalogue.loadText text with
      | error failure =>
          cases failure with
          | parse e => exact ⟨_, .unparsable h⟩
          | invalid e => exact ⟨_, .invalid h⟩
      | ok registry =>
          obtain ⟨outcome, ha⟩ := exists_answers path registry action
          exact ⟨outcome, .loaded h ha⟩

/-- The answer of a run that succeeds, or the failure of one that does not. -/
def Transcript.outcome (t : Transcript) : Except RunError String :=
  match t.failure with
  | none => .ok t.answer
  | some e => .error e

/-- The transcript of a command that comes to `outcome`: a failure leaves the answer empty. -/
def Transcript.of (outcome : Except RunError String) (progress : String) : Transcript :=
  match outcome with
  | .ok answer => ⟨answer, progress, none⟩
  | .error e => ⟨"", progress, some e⟩

theorem run_of_settles {outcome : Except RunError String}
    (h : Settles s.catalogue s.action file outcome) (elapsed : Phase → String) :
    ∃ progress, run s file elapsed = .of outcome progress := by
  have htells : Tells (session s file elapsed) outcome := tells_session h
  cases outcome with
  | ok text =>
      obtain ⟨progress, hrun⟩ := htells {}
      rw [String.empty_append] at hrun
      exact ⟨progress, by rw [run, hrun]; rfl⟩
  | error e =>
      obtain ⟨progress, hrun⟩ := htells {}
      rw [String.append_empty] at hrun
      exact ⟨progress, by rw [run, hrun]; rfl⟩

theorem Transcript.outcome_of (outcome : Except RunError String) (progress : String) :
    (Transcript.of outcome progress).outcome = outcome := by
  cases outcome with
  | ok answer => rfl
  | error e => rfl

/-- A run that fails has written nothing. What a run comes to is what its catalogue gives for the
action, the whole answer or the failure, and how much is said beside it makes no difference. The records
of a list are single lines unless a name or a version is not, and the lines that values are laid out
over are JSON text for these values. -/
theorem run_writes_answer_or_nothing (s : Settings) (file : Except ReadFailure String)
    (elapsed : Phase → String) :
    (∀ e, (run s file elapsed).failure = some e → (run s file elapsed).answer = "") ∧
    (∀ outcome, (run s file elapsed).outcome = outcome ↔
      Settles s.catalogue s.action file outcome) ∧
    (∀ (verbose : Nat) (elapsed' : Phase → String),
      (run { s with verbose } file elapsed').failure = (run s file elapsed).failure ∧
        (run { s with verbose } file elapsed').answer = (run s file elapsed).answer) ∧
    (∀ text registry jobType w, Catalogue.loadText text = .ok registry →
      registry.get jobType = .ok w → '\n' ∉ w.name.toList → '\n' ∉ w.version.toList →
        '\n' ∉ (w.record jobType).toList) ∧
    ∀ results : Params, (Value.ofParams results).Rereadable Json.maxDepth →
      Json.Denotes (lines (((Value.ofParams results).lines 0).map Line.written))
        (Value.ofParams results) := by
  obtain ⟨outcome, hsettles⟩ := exists_settles s.catalogue s.action file
  obtain ⟨progress, hrun⟩ := run_of_settles hsettles elapsed
  refine ⟨?_, ?_, ?_, ?_, ?_⟩
  · intro e he
    rw [hrun] at he ⊢
    cases outcome with
    | ok answer => cases he
    | error e' => rfl
  · intro other
    constructor
    · rintro rfl
      rw [hrun, Transcript.outcome_of]
      exact hsettles
    · intro hother
      obtain ⟨progress', hrun'⟩ := run_of_settles hother elapsed
      rw [hrun', Transcript.outcome_of]
  · intro verbose elapsed'
    have hsettles' : Settles ({ s with verbose } : Settings).catalogue
        ({ s with verbose } : Settings).action file outcome := hsettles
    obtain ⟨progress', hrun'⟩ := run_of_settles hsettles' elapsed'
    rw [hrun, hrun']
    cases outcome with
    | ok answer => exact ⟨rfl, rfl⟩
    | error e => exact ⟨rfl, rfl⟩
  · intro text registry jobType w hload hget hname hversion
    obtain ⟨hbuilt, rfl⟩ := Catalogue.built_of_loadText hload hget
    exact WorkflowSpec.newline_notMem_record hbuilt.isIdentifier_jobType hname hversion
  · intro results hrereadable
    rw [← Value.pretty_eq_lines]
    exact Value.denotes_pretty hrereadable (by simp [Json.Spaces])

/-- A catalogue of one workflow, the name of which goes on in a second line. -/
def brokenName : String :=
  "workflow a \x7b\nname \"x\ny\"\nstage 1 b \x7b\nfinal\n\x7d\n\x7d\n"

theorem brokenName_loaded : ∃ registry w, Catalogue.loadText brokenName = .ok registry ∧
    registry.jobTypes = ["a"] ∧ registry.get "a" = .ok w ∧
      w.record "a" = "a\tx\ny v1.0 (1 stages)" := by
  have hread : (Catalogue.loadText brokenName).map (fun registry =>
      (registry.jobTypes, (registry.get "a").map (·.record "a"))) =
        .ok (["a"], .ok "a\tx\ny v1.0 (1 stages)") := by cbv
  obtain ⟨registry, hload, hregistry⟩ := map_eq_ok.mp hread
  obtain ⟨hjobTypes, hrecord⟩ := Prod.mk.inj hregistry
  obtain ⟨w, hget, hw⟩ := map_eq_ok.mp hrecord
  exact ⟨registry, w, hload, hjobTypes, hget, hw⟩

theorem outcome_of_loaded {registry : Registry} {outcome : Except RunError String}
    (hload : Catalogue.loadText text = .ok registry)
    (h : Answers s.catalogue registry s.action outcome) (elapsed : Phase → String) :
    (run s (.ok text) elapsed).outcome = outcome := by
  obtain ⟨progress, hrun⟩ := run_of_settles (.loaded hload h) elapsed
  rw [hrun, Transcript.outcome_of]

/-- The list of one type of job takes two lines. What is said of a registry that is fine differs with
the path of its catalogue. -/
theorem brokenName_listed :
    (∃ registry, Catalogue.loadText brokenName = .ok registry ∧ registry.jobTypes = ["a"]) ∧
      (run ⟨"c", 0, .list⟩ (.ok brokenName) fun _ => "").outcome =
        .ok "a\tx\ny v1.0 (1 stages)\n" ∧
      (run ⟨"c", 0, .check⟩ (.ok brokenName) fun _ => "").outcome = .ok "\"c\": 1 workflows OK\n" ∧
      (run ⟨"d", 0, .check⟩ (.ok brokenName) fun _ => "").outcome =
        .ok "\"d\": 1 workflows OK\n" := by
  obtain ⟨registry, w, hload, hjobTypes, hget, hrecord⟩ := brokenName_loaded
  have hsize : registry.size = 1 := by
    rw [Registry.size, ← KeyMap.length_keys]
    exact congrArg List.length hjobTypes
  refine ⟨⟨registry, hload, hjobTypes⟩, ?_, ?_, ?_⟩
  · have hrecords : List.Forall₂ (fun jobType record =>
        ∃ w, registry.get jobType = .ok w ∧ record = w.record jobType) registry.jobTypes
          ["a\tx\ny v1.0 (1 stages)"] := by
      rw [hjobTypes]
      exact .cons ⟨w, hget, hrecord.symm⟩ .nil
    exact outcome_of_loaded hload (.list registry.workflows.pairwise_keys hrecords) _
  · rw [outcome_of_loaded hload .check, hsize]
    rfl
  · rw [outcome_of_loaded hload .check, hsize]
    rfl

end Run

end CommandLine

end StagedJobs
