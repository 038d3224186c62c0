import StagedJobs.Numeric.Reading
import StagedJobs.Text.Chars
import StagedJobs.Catalogue.Block

/-!
The smallest parts of a catalogue file: blanks and comments, identifiers, keywords and literals. A
reader gives what it has read together with the text that follows it; those that end in `?` give
nothing where the text has no such part.
-/

namespace StagedJobs.Catalogue

/-- Names consist of letters and numbers of any script, `_` and `-`. -/
def isIdentifierChar (c : Char) : Bool := Text.isAlphanumeric c || c = '_' || c = '-'

/-- Bare words may have points in them as well. -/
def isWordChar (c : Char) : Bool := isIdentifierChar c || c = '.'

/-- White space that does not end the line. -/
def isInlineBlank (c : Char) : Bool := Text.isBlank c && c ≠ '\n'

/-- The text after the white space that stands ahead in its line. -/
def skipInline (cs : List Char) : List Char := cs.dropWhile isInlineBlank

mutual

/-- The text after white space and comments, over any number of lines. -/
def skipBlank : List Char → List Char
  | [] => []
  | c :: rest =>
    if Text.isBlank c then skipBlank rest
    else if c = '#' then skipComment rest
    else c :: rest

/-- The text after the rest of a comment, and after what is blank behind it. -/
def skipComment : List Char → List Char
  | [] => []
  | c :: rest => if c = '\n' then skipBlank rest else skipComment rest

end

/-- A run of characters of a class, if there is at least one. -/
def run? (isMember : Char → Bool) (cs : List Char) : Option (String × List Char) :=
  let (run, rest) := cs.span isMember
  if run.isEmpty then none else some (String.ofList run, rest)

/-- A name. It may consist of characters that no identifier has, which is found when it is built. -/
def identifier? (cs : List Char) : Option (String × List Char) := run? isIdentifierChar cs

/-- The text after a keyword and the white space that has to follow it in its line. -/
def keyword? (word : String) (cs : List Char) : Option (List Char) :=
  match Text.afterWord? word cs with
  | some (c :: rest) => if isInlineBlank c then some (skipInline rest) else none
  | _ => none

/-- The text up to the closing quote, behind the opening one. There are no escapes, and it may go on
over several lines. -/
def quotedText? (cs : List Char) : Option (String × List Char) :=
  let (run, rest) := cs.span (· ≠ '"')
  match rest with
  | _ :: rest => some (String.ofList run, rest)
  | [] => none

def quoted? : List Char → Option (String × List Char)
  | '"' :: rest => quotedText? rest
  | _ => none

/-- The number that digits stand for under a sign, with the digits after a point if there are any.
Whole numbers have to fit in 64 bits. -/
def numeral? (negative : Bool) (cs : List Char) : Option (Literal × List Char) :=
  let (whole, rest) := spanDigits cs
  let (fraction, afterFraction) := Decimal.spanFraction rest
  if whole.isEmpty then none
  else if fraction.isEmpty then
    (int64? (signedValue negative whole)).map fun n => (.int n, rest)
  else some (.float (Decimal.ofDigits negative whole fraction 0).toBinary64, afterFraction)

/-- A numeral under an optional minus sign. -/
def number? : List Char → Option (Literal × List Char)
  | '-' :: rest => numeral? true rest
  | cs => numeral? false cs

/-- A literal without parts: a number, or else a bare word. -/
def scalar? (cs : List Char) : Option (Literal × List Char) :=
  (number? cs).or ((run? isWordChar cs).map fun (s, rest) => (.word s, rest))

mutual

/-- A literal, read in at most `steps` steps. -/
def readLiteral? : Nat → List Char → Option (Literal × List Char)
  | 0, _ => none
  | steps + 1, cs =>
    match cs with
    | '"' :: rest => (quotedText? rest).map fun (s, rest) => (.quoted s, rest)
    | '[' :: rest =>
      match skipBlank rest with
      | ']' :: rest => some (.list [], rest)
      | rest => (readItems? steps rest).map fun (items, rest) => (.list items, rest)
    | cs => scalar? cs

/-- The items of a list and its closing bracket, from before the first item. -/
def readItems? : Nat → List Char → Option (List Literal × List Char)
  | 0, _ => none
  | steps + 1, cs => do
    let (item, rest) ← readLiteral? steps (skipBlank cs)
    match skipBlank rest with
    | ',' :: rest =>
      let (items, rest) ← readItems? steps rest
      some (item :: items, rest)
    | ']' :: rest => some ([item], rest)
    | _ => none

end

/-- The literals that follow in a line, read in at most `steps` steps. Where no more follow, the text is
left as it is. -/
def readValues : Nat → List Char → List Literal × List Char
  | 0, cs => ([], cs)
  | steps + 1, cs =>
    match readLiteral? steps (skipInline cs) with
    | some (value, rest) =>
      let (values, rest) := readValues steps (skipInline rest)
      (value :: values, rest)
    | none => ([], cs)

end StagedJobs.Catalogue
