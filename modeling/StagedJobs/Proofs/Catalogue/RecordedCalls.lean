import Mathlib.Control.Monad.Writer
import Mathlib.Logic.Relation
import StagedJobs.Proofs.Catalogue.Places

/-!
The readers once more, as they call each other. These keep a record of every call of one part of the
grammar from within another, also of those that come to nothing, and they give no outcome at all when
the steps they were given run out.
-/

namespace StagedJobs.Catalogue

/-- The parts of the grammar whose readers call each other. -/
inductive Part where
  | text
  | workflow
  | body
  | entry
  | stage
  | constraint
  | value
  | list

/-- The reading of a part, by the text from where it starts. -/
structure Reading where
  part : Part
  start : List Char

/-- A reading that is started from within another. -/
structure Call where
  caller : Reading
  callee : Reading

/-- An outcome with the calls on the way to it, or none for want of steps. -/
abbrev Recorded (α : Type) : Type := WriterT (List Call) Option α

section Steps

variable {α : Type}

/-- No outcome at all, which is not the same as finding nothing. -/
def outOfSteps : Recorded α := WriterT.mk none

/-- Puts a call on record. -/
def called (caller callee : Reading) : Recorded Unit := tell [⟨caller, callee⟩]

/-- What a reader that calls no other has found. -/
def found? (x : Option α) : OptionT Recorded α := OptionT.mk (pure x)

/-- What has come of a reader that calls no other. -/
def outcome (x : Except Failure α) : ExceptT Failure Recorded α := ExceptT.mk (pure x)

end Steps

section Separated

variable {α : Type}

/-- Goes on behind an item, with a comma or with the bracket at the end. -/
def recordFurtherItems? (item : α) (others? : List Char → OptionT Recorded (List α × List Char)) :
    List Char → OptionT Recorded (List α × List Char)
  | ',' :: rest => do
    let (items, rest) ← others? rest
    pure (item :: items, rest)
  | ']' :: rest => pure ([item], rest)
  | _ => failure

/-- One item of several that commas stand between, and the others. -/
def recordSeparated? (caller : Reading) (part : Part)
    (item? : List Char → OptionT Recorded (α × List Char))
    (others? : List Char → OptionT Recorded (List α × List Char)) (cs : List Char) :
    OptionT Recorded (List α × List Char) := do
  called caller ⟨part, skipBlank cs⟩
  let (item, rest) ← item? (skipBlank cs)
  recordFurtherItems? item others? (skipBlank rest)

end Separated

mutual

def recordLiteral? : Nat → List Char → OptionT Recorded (Literal × List Char)
  | 0, _ => OptionT.lift outOfSteps
  | steps + 1, cs =>
    match cs with
    | '"' :: rest => found? ((quotedText? rest).map fun (s, rest) => (.quoted s, rest))
    | '[' :: rest => do
      called ⟨.value, '[' :: rest⟩ ⟨.list, '[' :: rest⟩
      match skipBlank rest with
      | ']' :: rest => pure (.list [], rest)
      | mid =>
        let (items, rest) ← recordItems? ⟨.list, '[' :: rest⟩ steps mid
        pure (.list items, rest)
    | cs => found? (scalar? cs)

def recordItems? (list : Reading) : Nat → List Char → OptionT Recorded (List Literal × List Char)
  | 0, _ => OptionT.lift outOfSteps
  | steps + 1, cs => recordSeparated? list .value (recordLiteral? steps) (recordItems? list steps) cs

end

theorem recordLiteral?_openingBracket (steps : Nat) {cs : List Char}
    (hcs : (skipBlank cs).head? ≠ some ']') :
    recordLiteral? (steps + 1) ('[' :: cs) = (do
      called ⟨.value, '[' :: cs⟩ ⟨.list, '[' :: cs⟩
      let (items, rest) ← recordItems? ⟨.list, '[' :: cs⟩ steps (skipBlank cs)
      pure (.list items, rest)) := by
  rw [recordLiteral?]
  split
  case h_1 rest heq => simp [heq] at hcs
  case h_2 => rfl

def recordValues (entry : Reading) : Nat → List Char → Recorded (List Literal × List Char)
  | 0, _ => outOfSteps
  | steps + 1, cs => do
    called entry ⟨.value, skipInline cs⟩
    match ← (recordLiteral? steps (skipInline cs)).run with
    | some (value, rest) =>
      let (values, rest) ← recordValues entry steps (skipInline rest)
      pure (value :: values, rest)
    | none => pure ([], cs)

/-- A part that is read nowhere but behind its mark. -/
def recordBehind? {α : Type} (mark : Char) (part : List Char → OptionT Recorded (α × List Char))
    (cs : List Char) : OptionT Recorded (α × List Char) :=
  match skipInline cs with
  | c :: rest => if c = mark then part rest else failure
  | [] => failure

def recordAssigned? (caller : Reading) (steps : Nat) :
    List Char → OptionT Recorded (Literal × List Char) :=
  recordBehind? '=' fun rest => do
    called caller ⟨.value, skipInline rest⟩
    recordLiteral? steps (skipInline rest)

def recordConstraint? (steps : Nat) (cs : List Char) :
    OptionT Recorded ((String × Literal) × List Char) := do
  let (name, rest) ← found? (identifier? cs)
  let (value, rest) ← recordAssigned? ⟨.constraint, cs⟩ steps rest
  pure ((name, value), rest)

def recordConstraints? (entry : Reading) :
    Nat → List Char → OptionT Recorded (List (String × Literal) × List Char)
  | 0, _ => OptionT.lift outOfSteps
  | steps + 1, cs =>
    recordSeparated? entry .constraint (recordConstraint? steps) (recordConstraints? entry steps) cs

def recordGroup? (entry : Reading) (steps : Nat) :
    List Char → OptionT Recorded (List (String × Literal) × List Char) :=
  recordBehind? '[' (recordConstraints? entry steps)

/-- The calls of a part that is left out in the end stay in the record. -/
def recordOptionally {α : Type} (part : List Char → OptionT Recorded (α × List Char))
    (cs : List Char) : Recorded (Option α × List Char) := do
  match ← (part cs).run with
  | some (x, rest) => pure (some x, rest)
  | none => pure (none, cs)

def recordParam (entry : Reading) (steps : Nat) (cs : List Char) :
    ExceptT Failure Recorded (ParamEntry × List Char) := do
  let (name, rest) ← outcome (readParamName cs)
  let (type, rest) ← outcome (readParamType (skipInline rest))
  let (required, rest) := readRequired rest
  let (default, rest) ← recordOptionally (recordAssigned? entry steps) rest
  let (constraints, rest) ← recordOptionally (recordGroup? entry steps) rest
  let (description, rest) ← recordOptionally (fun cs => found? (description? cs)) rest
  pure (⟨name, type, required, default, constraints.getD [], description⟩, rest)

def recordProperty (entry : Reading) (steps : Nat) (cs : List Char) :
    ExceptT Failure Recorded (Property × List Char) :=
  match identifier? cs with
  | none => throw ⟨.entryOrClosingBrace, cs⟩
  | some (key, rest) => do
    let (values, rest) ← recordValues entry steps rest
    pure (⟨key, values⟩, rest)

/-- A name, an opening brace and entries, as workflows and stages have them. -/
def recordBody (owner : Reading)
    (entries : Reading → List Char → ExceptT Failure Recorded (List Entry × List Char))
    (cs : List Char) : ExceptT Failure Recorded ((String × List Entry) × List Char) := do
  let (name, rest) ← outcome (readName cs)
  called owner ⟨.body, skipBlank rest⟩
  let start ← outcome (readOpening (skipBlank rest))
  let (entries, rest) ← entries ⟨.body, skipBlank rest⟩ (skipBlank start)
  pure ((name, entries), rest)

mutual

def recordEntries (body : Reading) :
    Nat → List Char → ExceptT Failure Recorded (List Entry × List Char)
  | 0, _ => ExceptT.lift outOfSteps
  | _ + 1, [] => throw ⟨.entryOrClosingBrace, []⟩
  | steps + 1, c :: rest =>
    if c = '\x7d' then pure ([], rest)
    else if isIdentifierChar c then do
      called body ⟨.entry, c :: rest⟩
      let (entry, rest) ← recordEntry steps (c :: rest)
      let rest ← outcome (readLineEnd (skipInline rest))
      let (entries, rest) ← recordEntries body steps rest
      pure (entry :: entries, rest)
    else throw ⟨.entryOrClosingBrace, c :: rest⟩

def recordEntry : Nat → List Char → ExceptT Failure Recorded (Entry × List Char)
  | 0, _ => ExceptT.lift outOfSteps
  | steps + 1, cs =>
    match keyword? "stage" cs, keyword? "param" cs with
    | some rest, _ => do
      called ⟨.entry, cs⟩ ⟨.stage, cs⟩
      let (number, rest) ← outcome (readStageNumber rest)
      let ((taskType, entries), rest) ←
        recordBody ⟨.stage, cs⟩ (fun body => recordEntries body steps) (skipInline rest)
      pure (.stage number taskType entries, rest)
    | none, some rest => do
      let (param, rest) ← recordParam ⟨.entry, cs⟩ steps rest
      pure (.param param, rest)
    | none, none => do
      let (property, rest) ← recordProperty ⟨.entry, cs⟩ steps cs
      pure (.property property, rest)

end

theorem recordEntry_stage {cs after : List Char} (h : keyword? "stage" cs = some after)
    (steps : Nat) :
    recordEntry (steps + 1) cs = (do
      called ⟨.entry, cs⟩ ⟨.stage, cs⟩
      let (number, rest) ← outcome (readStageNumber after)
      let ((taskType, entries), rest) ←
        recordBody ⟨.stage, cs⟩ (fun body => recordEntries body steps) (skipInline rest)
      pure (.stage number taskType entries, rest)) := by
  simp only [recordEntry, h]

theorem recordEntry_param {cs after : List Char} (hstage : keyword? "stage" cs = none)
    (h : keyword? "param" cs = some after) (steps : Nat) :
    recordEntry (steps + 1) cs = (do
      let (param, rest) ← recordParam ⟨.entry, cs⟩ steps after
      pure (.param param, rest)) := by
  rw [recordEntry, hstage, h]

theorem recordEntry_property {cs : List Char} (hstage : keyword? "stage" cs = none)
    (hparam : keyword? "param" cs = none) (steps : Nat) :
    recordEntry (steps + 1) cs = (do
      let (property, rest) ← recordProperty ⟨.entry, cs⟩ steps cs
      pure (.property property, rest)) := by
  rw [recordEntry, hstage, hparam]

/-- `start` is where the keyword of the workflow stands, and `cs` what follows the keyword. -/
def recordWorkflow (start : List Char) (steps : Nat) (cs : List Char) :
    ExceptT Failure Recorded (WorkflowBlock × List Char) := do
  let ((jobType, entries), rest) ←
    recordBody ⟨.workflow, start⟩ (fun body => recordEntries body steps) cs
  pure (⟨jobType, entries⟩, rest)

def recordWorkflows (text : Reading) :
    Nat → List Char → ExceptT Failure Recorded (List WorkflowBlock)
  | _, [] => pure []
  | 0, _ => ExceptT.lift outOfSteps
  | steps + 1, cs => do
    called text ⟨.workflow, cs⟩
    match keyword? "workflow" cs with
    | none => throw ⟨.workflow, cs⟩
    | some rest =>
      let (block, rest) ← recordWorkflow cs steps rest
      let blocks ← recordWorkflows text steps (skipBlank rest)
      pure (block :: blocks)

def recordText (steps : Nat) (text : List Char) : ExceptT Failure Recorded (List WorkflowBlock) :=
  recordWorkflows ⟨.text, text⟩ steps (skipBlank text)

/-- The first part may be nothing but the second one, or start with it. -/
inductive StartsWith : Part → Part → Prop where
  | text : StartsWith .text .workflow
  | entry : StartsWith .entry .stage
  | value : StartsWith .value .list

theorem StartsWith.not_startsWith {first second third : Part} (h : StartsWith first second) :
    ¬ StartsWith second third := by
  cases h <;> nofun

/-- A reading is called further on in the text, or it is of what its caller starts with. -/
def Reading.Precedes (r s : Reading) : Prop :=
  Past r.start s.start ∨ s.start = r.start ∧ StartsWith r.part s.part

theorem Reading.Precedes.trans {r s t : Reading} (h : r.Precedes s) (hst : s.Precedes t) :
    r.Precedes t := by
  rcases h with hpast | ⟨hstart, hfirst⟩
  · left
    rcases hst with hst | ⟨hst, -⟩
    · exact hpast.trans hst
    · rw [hst]
      exact hpast
  · rcases hst with hst | ⟨-, hsecond⟩
    · left
      rw [← hstart]
      exact hst
    · exact absurd hsecond hfirst.not_startsWith

/-- Some calls lead from one reading to another. -/
def Leads (calls : List Call) : Reading → Reading → Prop :=
  Relation.TransGen fun r s => ⟨r, s⟩ ∈ calls

theorem precedes_of_leads {calls : List Call}
    (hcalls : ∀ call ∈ calls, call.caller.Precedes call.callee) {r s : Reading}
    (h : Leads calls r s) : r.Precedes s := by
  induction h with
  | single h => exact hcalls _ h
  | tail _ h ih => exact ih.trans (hcalls _ h)

/-- A part that is read from within another reading of it is read further on in the text. -/
theorem past_of_leads {calls : List Call}
    (hcalls : ∀ call ∈ calls, call.caller.Precedes call.callee) {part : Part}
    {start within : List Char} (h : Leads calls ⟨part, start⟩ ⟨part, within⟩) :
    Past start within := by
  rcases precedes_of_leads hcalls h with hpast | ⟨-, hself⟩
  · exact hpast
  · exact absurd hself hself.not_startsWith

end StagedJobs.Catalogue
