namespace StagedJobs.Catalogue

/-- What the text should have gone on with. -/
inductive Expectation where
  | workflow
  | blankOrIdentifier
  | identifier
  | openingBrace
  | entryOrClosingBrace
  | endOfLine
  | stageNumber
  | smallerStageNumber
  | colon
deriving DecidableEq

/-- A failure of reading: what was expected, and the text from the place on where it was. -/
structure Failure where
  expected : Expectation
  rest : List Char
deriving DecidableEq

/-- How many bytes characters take in UTF-8. -/
def byteCount (cs : List Char) : Nat := cs.foldl (fun n c => n + c.utf8Size) 0

/-- A failure of reading as it is reported: the place in bytes from the start of the text, the line
around the place, what was expected there and the character found, if the text had not ended. -/
structure ParseError where
  offset : Nat
  line : String
  expected : Expectation
  found : Option Char
deriving DecidableEq

namespace ParseError

/-- The report of a failure of reading `text`. -/
def ofFailure (text : List Char) (f : Failure) : ParseError :=
  let before := text.take (text.length - f.rest.length)
  { offset := byteCount before
    line := String.ofList ((before.reverse.takeWhile (· ≠ '\n')).reverse
      ++ f.rest.takeWhile (· ≠ '\n'))
    expected := f.expected
    found := f.rest.head? }

def token (c : Char) : String := "`" ++ c.toString ++ "`"

/-- What may end a line that is not blank. -/
def lineEnds : List String := ["end of input", token '\n', token '#', token '\x7d']

/-- The things that were expected. A text that starts with something else than a workflow is told of
no more than what is skipped. -/
def alternatives (e : ParseError) : List String :=
  match e.expected with
  | .workflow =>
    ["whitespace", token '#'] ++ (if e.offset = 0 then [] else ["workflow", "end of input"])
  | .blankOrIdentifier => ["whitespace", token '#']
  | .identifier => []
  | .openingBrace => [token '\x7b']
  | .entryOrClosingBrace => ["stage", "param"] ++ lineEnds
  | .endOfLine => lineEnds
  | .stageNumber => ["digit"]
  | .smallerStageNumber => []
  | .colon => [token ':']

/-- Alternatives in one phrase, the last two joined by "or". -/
def phrase : List String → String
  | [] => ""
  | [a] => a
  | [a, b] => a ++ " or " ++ b
  | a :: rest => a ++ ", " ++ phrase rest

/-- What was found in place of what was expected. A stage number that is too large is reported as
such. -/
def detail (e : ParseError) : String :=
  match e.expected with
  | .smallerStageNumber => "number too large to fit in target type\n"
  | _ =>
    "Unexpected " ++ (match e.found with | some c => token c | none => "end of input") ++ "\n"
      ++ (if e.alternatives.isEmpty then "" else "Expected " ++ phrase e.alternatives ++ "\n")

/-- The whole report, with the place and the line in front of the detail. -/
def message (e : ParseError) : String :=
  let explanation := e.detail
  s!"ParseError at offset {e.offset} on line '{e.line}': Parse error at {e.offset}\n{explanation}"

end ParseError

end StagedJobs.Catalogue
