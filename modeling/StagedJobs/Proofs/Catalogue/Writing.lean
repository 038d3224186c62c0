import Mathlib.Data.List.Forall2
import StagedJobs.Catalogue.Reader

/-!
The written form of workflow blocks. It is given once, as a list of pieces that leaves open what white
space and comments stand in the gaps and in which digits numbers are spelled; a style says what it may
be.
-/

namespace StagedJobs.Catalogue

/-- White space within a line. -/
def Inline (cs : List Char) : Prop := ∀ c ∈ cs, isInlineBlank c = true

/-- White space and comments, over any number of lines. -/
inductive Blank : List Char → Prop where
  | nil : Blank []
  | space {c : Char} {rest : List Char} : Text.isBlank c = true → Blank rest → Blank (c :: rest)
  | comment {text rest : List Char} :
      '\n' ∉ text → Blank rest → Blank ('#' :: (text ++ '\n' :: rest))

/-- The end of a line, a comment before it included, and what is blank after it. -/
def LineEnd (cs : List Char) : Prop :=
  ∃ inline c rest, Inline inline ∧ (c = '\n' ∨ c = '#') ∧ Blank (c :: rest) ∧
    cs = inline ++ c :: rest

/-- The places between the words and marks of a catalogue. -/
inductive Gap where
  /-- Within a line, where nothing has to stand. -/
  | inline
  | separator
  /-- Where lines may end. -/
  | blank
  | blankSeparator
  /-- After an entry that another one follows. -/
  | lineEnd
  /-- After the last entry of a body. -/
  | lastLineEnd
  | textEnd
deriving DecidableEq

/-- What may stand in a gap. The last comment of a text needs no end of line. -/
def Gap.Admits : Gap → List Char → Prop
  | .inline, cs => Inline cs
  | .separator, cs => cs ≠ [] ∧ Inline cs
  | .blank, cs => Blank cs
  | .blankSeparator, cs => cs ≠ [] ∧ Blank cs
  | .lineEnd, cs => LineEnd cs
  | .lastLineEnd, cs => LineEnd cs ∨ Inline cs
  | .textEnd, cs => cs = [] ∨ ∃ text, '\n' ∉ text ∧ cs = '#' :: text

/-- What stands in a gap of a plainly written catalogue, one entry to a line. -/
def Gap.plain : Gap → List Char
  | .inline => [' ']
  | .separator => [' ']
  | .blank => [' ']
  | .blankSeparator => [' ']
  | .lineEnd => ['\n']
  | .lastLineEnd => ['\n']
  | .textEnd => []

def Digits (cs : List Char) : Prop := cs ≠ [] ∧ ∀ c ∈ cs, c.isDigit = true

def signText (negative : Bool) : List Char := if negative then ['-'] else []

/-- A text of digits that a number is read from. -/
def Literal.SpelledAs : Literal → List Char → Prop
  | .int n, cs => ∃ negative whole, Digits whole ∧ signedValue negative whole = n.toInt ∧
      cs = signText negative ++ whole
  | .float x, cs => ∃ negative whole fraction, Digits whole ∧ Digits fraction ∧
      (Decimal.ofDigits negative whole fraction 0).toBinary64 = x ∧
        cs = signText negative ++ whole ++ '.' :: fraction
  | _, _ => False

/-- Digits that a stage number is read from, zeros ahead of it included. -/
def CountSpelledAs (n : Nat) (cs : List Char) : Prop := Digits cs ∧ digitsValue cs = n

inductive Piece where
  | text (cs : List Char)
  | number (x : Literal)
  | stageNumber (n : Nat)
  | gap (g : Gap)

/-- What a way of writing admits where the written form leaves a choice. -/
structure Style where
  gap : Gap → List Char → Prop
  stageNumber : Nat → List Char → Prop

/-- Any layout, and any digits that are read as the number. -/
def Style.free : Style := ⟨Gap.Admits, CountSpelledAs⟩

/-- One layout, with numbers in any digits that are read as them. -/
def Style.plain : Style := ⟨fun g cs => cs = g.plain, CountSpelledAs⟩

/-- One layout, with stage numbers in their usual digits. -/
def Style.exact : Style := ⟨fun g cs => cs = g.plain, fun n cs => cs = Nat.toDigits 10 n⟩

/-- The texts of a piece in a style. -/
def Piece.Admits (style : Style) : Piece → List Char → Prop
  | .text written, cs => cs = written
  | .number x, cs => x.SpelledAs cs
  | .stageNumber n, cs => style.stageNumber n cs
  | .gap g, cs => style.gap g cs

/-- A text that consists of texts of the pieces, one after the other. -/
def Renders (style : Style) : List Piece → List Char → Prop
  | [], cs => cs = []
  | piece :: pieces, cs => ∃ first rest, piece.Admits style first ∧ Renders style pieces rest ∧
      cs = first ++ rest

section Renders

variable {style : Style} {cs : List Char}

@[simp] theorem renders_nil : Renders style [] cs ↔ cs = [] := Iff.rfl

theorem renders_cons {piece : Piece} {pieces : List Piece} :
    Renders style (piece :: pieces) cs ↔
      ∃ first rest, piece.Admits style first ∧ Renders style pieces rest ∧ cs = first ++ rest :=
  Iff.rfl

theorem renders_singleton {piece : Piece} : Renders style [piece] cs ↔ piece.Admits style cs := by
  rw [renders_cons]
  constructor
  · rintro ⟨first, rest, hfirst, rfl, rfl⟩
    simpa using hfirst
  · intro h
    exact ⟨cs, [], h, rfl, by simp⟩

theorem renders_text {written : List Char} {pieces : List Piece} :
    Renders style (.text written :: pieces) cs ↔
      ∃ rest, Renders style pieces rest ∧ cs = written ++ rest := by
  constructor
  · rintro ⟨first, rest, rfl, hrest, rfl⟩
    exact ⟨rest, hrest, rfl⟩
  · rintro ⟨rest, hrest, rfl⟩
    exact ⟨written, rest, rfl, hrest, rfl⟩

theorem renders_gap {g : Gap} {pieces : List Piece} :
    Renders style (.gap g :: pieces) cs ↔
      ∃ first rest, style.gap g first ∧ Renders style pieces rest ∧ cs = first ++ rest :=
  Iff.rfl

theorem renders_number {x : Literal} : Renders style [.number x] cs ↔ x.SpelledAs cs :=
  renders_singleton

theorem renders_append {pieces more : List Piece} :
    Renders style (pieces ++ more) cs ↔
      ∃ first rest, Renders style pieces first ∧ Renders style more rest ∧ cs = first ++ rest := by
  induction pieces generalizing cs with
  | nil => simp
  | cons piece pieces ih =>
      rw [List.cons_append, renders_cons]
      constructor
      · rintro ⟨first, rest, hfirst, hrest, rfl⟩
        obtain ⟨second, third, hsecond, hthird, rfl⟩ := ih.mp hrest
        exact ⟨first ++ second, third, ⟨first, second, hfirst, hsecond, rfl⟩, hthird, by simp⟩
      · rintro ⟨start, third, ⟨first, second, hfirst, hsecond, rfl⟩, hthird, rfl⟩
        exact ⟨first, second ++ third, hfirst, ih.mpr ⟨second, third, hsecond, hthird, rfl⟩,
          by simp⟩

theorem renders_flatten {pieces : List Piece} {parts : List (List Char)}
    (h : List.Forall₂ (Piece.Admits style) pieces parts) :
    Renders style pieces parts.flatten := by
  induction h with
  | nil => rfl
  | cons hfirst _ ih => exact ⟨_, _, hfirst, ih, rfl⟩

end Renders

def Piece.ofString (s : String) : Piece := .text s.toList

def Piece.quoted (s : String) : Piece := .text ('"' :: (s.toList ++ ['"']))

mutual

/-- The pieces of a literal. In lists, lines may end between the items. -/
def Literal.pieces : Literal → List Piece
  | .quoted s => [.quoted s]
  | .word s => [.ofString s]
  | .int n => [.number (.int n)]
  | .float x => [.number (.float x)]
  | .list items => .text ['['] :: itemPieces items

def itemPieces : List Literal → List Piece
  | [] => [.gap .blank, .text [']']]
  | [item] => .gap .blank :: (item.pieces ++ [.gap .blank, .text [']']])
  | item :: next :: rest =>
    .gap .blank :: (item.pieces ++ .gap .blank :: .text [','] :: itemPieces (next :: rest))

end

def constraintPieces (c : String × Literal) : List Piece :=
  .ofString c.1 :: .gap .inline :: .text ['='] :: .gap .inline :: c.2.pieces

def constraintsPieces : List (String × Literal) → List Piece
  | [] => [.gap .blank, .text [']']]
  | [c] => .gap .blank :: (constraintPieces c ++ [.gap .blank, .text [']']])
  | c :: next :: rest =>
    .gap .blank :: (constraintPieces c ++
      .gap .blank :: .text [','] :: constraintsPieces (next :: rest))

namespace ParamEntry

def requiredPieces (p : ParamEntry) : List Piece := if p.required then [.text ['!']] else []

def defaultPieces (p : ParamEntry) : List Piece :=
  match p.default with
  | some x => .gap .inline :: .text ['='] :: .gap .inline :: x.pieces
  | none => []

/-- The pieces of all constraints, left out if there are none. -/
def constraintGroupPieces (p : ParamEntry) : List Piece :=
  if p.constraints = [] then []
  else .gap .inline :: .text ['['] :: constraintsPieces p.constraints

def descriptionPieces (p : ParamEntry) : List Piece :=
  match p.description with
  | some s => [.gap .inline, .quoted s]
  | none => []

def pieces (p : ParamEntry) : List Piece :=
  .ofString p.name :: .gap .inline :: .text [':'] :: .gap .inline :: .ofString p.type ::
    (p.requiredPieces ++ p.defaultPieces ++ p.constraintGroupPieces ++ p.descriptionPieces)

end ParamEntry

def Property.pieces (p : Property) : List Piece :=
  .ofString p.key :: p.values.flatMap fun x => .gap .separator :: x.pieces

mutual

/-- The pieces of an entry, from its keyword or key on. -/
def Entry.pieces : Entry → List Piece
  | .property p => p.pieces
  | .param p => .ofString "param" :: .gap .separator :: p.pieces
  | .stage number taskType entries =>
    .ofString "stage" :: .gap .separator :: .stageNumber number :: .gap .blankSeparator ::
      .ofString taskType :: .gap .blank :: .text ['\x7b'] :: .gap .blank :: entryPieces entries

/-- The pieces of the entries of a body and its closing brace. -/
def entryPieces : List Entry → List Piece
  | [] => [.text ['\x7d']]
  | [entry] => entry.pieces ++ [.gap .lastLineEnd, .text ['\x7d']]
  | entry :: next :: rest => entry.pieces ++ .gap .lineEnd :: entryPieces (next :: rest)

end

theorem entryPieces_cons (entry : Entry) (entries : List Entry) :
    ∃ gap, (gap = .lineEnd ∨ gap = .lastLineEnd ∧ entries = []) ∧
      entryPieces (entry :: entries) = entry.pieces ++ .gap gap :: entryPieces entries := by
  cases entries with
  | nil => exact ⟨.lastLineEnd, .inr ⟨rfl, rfl⟩, rfl⟩
  | cons next entries => exact ⟨.lineEnd, .inl rfl, rfl⟩

/-- The pieces of a workflow. Behind the keyword there is white space in the line, and then possibly
more. -/
def WorkflowBlock.pieces (b : WorkflowBlock) : List Piece :=
  .ofString "workflow" :: .gap .separator :: .gap .blank :: .ofString b.jobType :: .gap .blank ::
    .text ['\x7b'] :: .gap .blank :: entryPieces b.entries

/-- The pieces of a catalogue. -/
def write (blocks : List WorkflowBlock) : List Piece :=
  .gap .blank :: (blocks.flatMap (fun b => b.pieces ++ [.gap .blank]) ++ [.gap .textEnd])

end StagedJobs.Catalogue
