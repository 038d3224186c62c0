import StagedJobs.Catalogue.Failure
import StagedJobs.Catalogue.Lexeme

/-!
Reading the text of a catalogue file into its workflow blocks. A reader either gives what it has read
and the text that follows it, or fails at a place that nothing can mend: which entry comes next is
always settled by the text ahead. Readers that repeat or nest do so within a budget of steps; two
steps for each character of the text, and two more, are always enough.
-/

namespace StagedJobs.Catalogue

/-- The name of a workflow or of a type of task, blanks and comments before it left out. Where there
are none, blanks are expected as well as a name. -/
def readName (cs : List Char) : Except Failure (String × List Char) :=
  let start := skipBlank cs
  match identifier? start with
  | some found => .ok found
  | none =>
    .error ⟨if start.length = cs.length then .blankOrIdentifier else .identifier, start⟩

def readOpening : List Char → Except Failure (List Char)
  | '\x7b' :: rest => .ok rest
  | cs => .error ⟨.openingBrace, cs⟩

/-- The end of a line that is not blank. A comment ends it too, and so does the closing brace of the
body, which is left where it is. -/
def readLineEnd : List Char → Except Failure (List Char)
  | [] => .ok []
  | c :: rest =>
    if c = '\n' || c = '#' then .ok (skipBlank (c :: rest))
    else if c = '\x7d' then .ok (c :: rest)
    else .error ⟨.endOfLine, c :: rest⟩

/-- The number of a stage, which has to fit in 32 bits here. -/
def readStageNumber (cs : List Char) : Except Failure (Nat × List Char) :=
  let (digits, rest) := spanDigits cs
  if digits.isEmpty then .error ⟨.stageNumber, cs⟩
  else if digitsValue digits < UInt32.size then .ok (digitsValue digits, rest)
  else .error ⟨.smallerStageNumber, cs⟩

/-- The name of a parameter and the colon behind it. -/
def readParamName (cs : List Char) : Except Failure (String × List Char) :=
  match identifier? cs with
  | none => .error ⟨.identifier, cs⟩
  | some (name, rest) =>
    match skipInline rest with
    | ':' :: rest => .ok (name, rest)
    | rest => .error ⟨.colon, rest⟩

/-- The word for the type of a parameter, whether there is such a type or not. -/
def readParamType (cs : List Char) : Except Failure (String × List Char) :=
  match identifier? cs with
  | some found => .ok found
  | none => .error ⟨.identifier, cs⟩

/-- Whether a parameter is marked as required. -/
def readRequired : List Char → Bool × List Char
  | '!' :: rest => (true, rest)
  | cs => (false, cs)

/-- The literal behind an equals sign. -/
def assigned? (steps : Nat) (cs : List Char) : Option (Literal × List Char) :=
  match skipInline cs with
  | '=' :: rest => readLiteral? steps (skipInline rest)
  | _ => none

def constraint? (steps : Nat) (cs : List Char) : Option ((String × Literal) × List Char) := do
  let (name, rest) ← identifier? cs
  let (value, rest) ← assigned? steps rest
  some ((name, value), rest)

/-- Constraints separated by commas, and the closing bracket. -/
def readConstraints? : Nat → List Char → Option (List (String × Literal) × List Char)
  | 0, _ => none
  | steps + 1, cs => do
    let (first, rest) ← constraint? steps (skipBlank cs)
    match skipBlank rest with
    | ',' :: rest =>
      let (others, rest) ← readConstraints? steps rest
      some (first :: others, rest)
    | ']' :: rest => some ([first], rest)
    | _ => none

/-- The constraints between two brackets, at least one. -/
def constraints? (steps : Nat) (cs : List Char) : Option (List (String × Literal) × List Char) :=
  match skipInline cs with
  | '[' :: rest => readConstraints? steps rest
  | _ => none

/-- The quoted text at the end of a parameter. -/
def description? (cs : List Char) : Option (String × List Char) := quoted? (skipInline cs)

/-- What a part that may be left out holds. Where it is left out, or is not well written, the text is
left as it is. -/
def optionally {α : Type} (part : List Char → Option (α × List Char)) (cs : List Char) :
    Option α × List Char :=
  match part cs with
  | some (x, rest) => (some x, rest)
  | none => (none, cs)

/-- A parameter, from behind its keyword. The parts behind its type may be left out, each by itself.
-/
def readParam (steps : Nat) (cs : List Char) : Except Failure (ParamEntry × List Char) := do
  let (name, rest) ← readParamName cs
  let (type, rest) ← readParamType (skipInline rest)
  let (required, rest) := readRequired rest
  let (default, rest) := optionally (assigned? steps) rest
  let (constraints, rest) := optionally (constraints? steps) rest
  let (description, rest) := optionally description? rest
  .ok (⟨name, type, required, default, constraints.getD [], description⟩, rest)

/-- A key and the values in its line. -/
def readProperty (steps : Nat) (cs : List Char) : Except Failure (Property × List Char) :=
  match identifier? cs with
  | none => .error ⟨.entryOrClosingBrace, cs⟩
  | some (key, rest) =>
    let (values, rest) := readValues steps rest
    .ok (⟨key, values⟩, rest)

mutual

/-- The entries of a body and its closing brace, from where an entry may start. -/
def readEntries : Nat → List Char → Except Failure (List Entry × List Char)
  | 0, cs => .error ⟨.entryOrClosingBrace, cs⟩
  | _ + 1, [] => .error ⟨.entryOrClosingBrace, []⟩
  | steps + 1, c :: rest =>
    if c = '\x7d' then .ok ([], rest)
    else if isIdentifierChar c then do
      let (entry, rest) ← readEntry steps (c :: rest)
      let rest ← readLineEnd (skipInline rest)
      let (entries, rest) ← readEntries steps rest
      .ok (entry :: entries, rest)
    else .error ⟨.entryOrClosingBrace, c :: rest⟩

/-- One entry. What is led by neither of the two keywords is a property. -/
def readEntry : Nat → List Char → Except Failure (Entry × List Char)
  | 0, cs => .error ⟨.entryOrClosingBrace, cs⟩
  | steps + 1, cs =>
    match keyword? "stage" cs, keyword? "param" cs with
    | some rest, _ => do
      let (number, rest) ← readStageNumber rest
      let (taskType, rest) ← readName (skipInline rest)
      let rest ← readOpening (skipBlank rest)
      let (entries, rest) ← readEntries steps (skipBlank rest)
      .ok (.stage number taskType entries, rest)
    | none, some rest => do
      let (param, rest) ← readParam steps rest
      .ok (.param param, rest)
    | none, none => do
      let (property, rest) ← readProperty steps cs
      .ok (.property property, rest)

end

/-- A workflow, from behind its keyword. -/
def readWorkflow (steps : Nat) (cs : List Char) : Except Failure (WorkflowBlock × List Char) := do
  let (jobType, rest) ← readName cs
  let rest ← readOpening (skipBlank rest)
  let (entries, rest) ← readEntries steps (skipBlank rest)
  .ok (⟨jobType, entries⟩, rest)

/-- All workflows up to the end of the text, from where one may start. -/
def readWorkflows : Nat → List Char → Except Failure (List WorkflowBlock)
  | _, [] => .ok []
  | 0, cs => .error ⟨.workflow, cs⟩
  | steps + 1, cs =>
    match keyword? "workflow" cs with
    | none => .error ⟨.workflow, cs⟩
    | some rest => do
      let (block, rest) ← readWorkflow steps rest
      let blocks ← readWorkflows steps (skipBlank rest)
      .ok (block :: blocks)

/-- The workflows of a text, read in at most `steps` steps. -/
def readTextWithin (steps : Nat) (text : List Char) : Except Failure (List WorkflowBlock) :=
  readWorkflows steps (skipBlank text)

/-- The workflows of a text. The budget is enough for any text. -/
def readText (text : List Char) : Except Failure (List WorkflowBlock) :=
  readTextWithin (2 * (text.length + 1)) text

/-- The workflows of a text, or the report of why it cannot be read. -/
def parse (text : String) : Except ParseError (List WorkflowBlock) :=
  (readText text.toList).mapError (.ofFailure text.toList)

end StagedJobs.Catalogue
