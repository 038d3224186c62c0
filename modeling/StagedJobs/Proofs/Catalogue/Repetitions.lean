import StagedJobs.Proofs.Catalogue.Places

namespace StagedJobs.Catalogue

/-- The text behind the line that a comment ends with. -/
def afterComment : List Char → List Char
  | [] => []
  | c :: rest => if c = '\n' then rest else afterComment rest

/-- The text behind one blank or one comment. -/
def blankItem? : List Char → Option (List Char)
  | [] => none
  | c :: rest =>
    if Text.isBlank c then some rest
    else if c = '#' then some (afterComment rest)
    else none

theorem afterComment_suffix (cs : List Char) : afterComment cs <:+ cs := by
  induction cs with
  | nil => exact List.suffix_refl []
  | cons c rest ih =>
      rw [afterComment]
      split
      case isTrue => exact List.suffix_cons c rest
      case isFalse => exact ih.trans (List.suffix_cons c rest)

theorem skipComment_eq_skipBlank (cs : List Char) : skipComment cs = skipBlank (afterComment cs) := by
  induction cs with
  | nil => rfl
  | cons c rest ih =>
      rw [skipComment, afterComment]
      split
      case isTrue => rfl
      case isFalse => exact ih

theorem skipBlank_eq_blankItem? (cs : List Char) :
    skipBlank cs = match blankItem? cs with
      | some rest => skipBlank rest
      | none => cs := by
  cases cs with
  | nil => rfl
  | cons c rest =>
      rw [skipBlank, blankItem?, skipComment_eq_skipBlank]
      split
      case isTrue => rfl
      case isFalse => split <;> rfl

theorem past_of_blankItem? {cs rest : List Char} (h : blankItem? cs = some rest) : Past cs rest := by
  cases cs with
  | nil => simp [blankItem?] at h
  | cons c after =>
      rw [blankItem?] at h
      split at h
      case isTrue =>
        obtain rfl := Option.some.inj h
        exact .cons c after
      case isFalse =>
        split at h
        case isTrue =>
          obtain rfl := Option.some.inj h
          exact (Past.cons c after).trans_suffix (afterComment_suffix after)
        case isFalse => simp at h

section Framed

variable {α : Type}

/-- A part that may have blanks before and behind it. -/
def framed? (skip : List Char → List Char) (part : List Char → Option (α × List Char))
    (cs : List Char) : Option (α × List Char) :=
  (part (skip cs)).map fun (x, rest) => (x, skip rest)

theorem past_of_framed? {skip : List Char → List Char} {part : List Char → Option (α × List Char)}
    {cs rest : List Char} {x : α} (hskip : ∀ cs, skip cs <:+ cs)
    (hpart : ∀ cs x rest, part cs = some (x, rest) → Past cs rest)
    (h : framed? skip part cs = some (x, rest)) : Past cs rest := by
  obtain ⟨⟨y, after⟩, hread, heq⟩ := Option.map_eq_some_iff.mp h
  obtain ⟨-, rfl⟩ := Prod.mk.inj heq
  exact (Past.of_suffix (hskip cs) (hpart (skip cs) y after hread)).trans_suffix (hskip after)

/-- What stands behind an item: a comma and the others, or the closing bracket. -/
def furtherItems? (item : α) (others? : List Char → Option (List α × List Char)) :
    List Char → Option (List α × List Char)
  | ',' :: rest => do
    let (items, rest) ← others? rest
    some (item :: items, rest)
  | ']' :: rest => some ([item], rest)
  | _ => none

/-- Items between commas, and the closing bracket behind the last of them. -/
def separated? (item? : List Char → Option (α × List Char))
    (others? : List Char → Option (List α × List Char)) (cs : List Char) :
    Option (List α × List Char) := do
  let (item, rest) ← item? cs
  furtherItems? item others? rest

end Framed

theorem readValues_succ (steps : Nat) (cs : List Char) :
    readValues (steps + 1) cs = match framed? skipInline (readLiteral? steps) cs with
      | some (value, rest) =>
        let (values, rest) := readValues steps rest
        (value :: values, rest)
      | none => ([], cs) := by
  rw [readValues, framed?]
  cases readLiteral? steps (skipInline cs) <;> rfl

theorem readItems?_succ (steps : Nat) (cs : List Char) :
    readItems? (steps + 1) cs =
      separated? (framed? skipBlank (readLiteral? steps)) (readItems? steps) cs := by
  rw [readItems?, separated?, framed?]
  cases readLiteral? steps (skipBlank cs) <;> rfl

theorem readConstraints?_succ (steps : Nat) (cs : List Char) :
    readConstraints? (steps + 1) cs =
      separated? (framed? skipBlank (constraint? steps)) (readConstraints? steps) cs := by
  rw [readConstraints?, separated?, framed?]
  cases constraint? steps (skipBlank cs) <;> rfl

/-- An entry and the end of its line. -/
def entryLine (steps : Nat) (cs : List Char) : Except Failure (Entry × List Char) := do
  let (entry, rest) ← readEntry steps (skipInline cs)
  let rest ← readLineEnd (skipInline rest)
  .ok (entry, rest)

theorem advances_entryLine (steps : Nat) (cs : List Char) : Advances cs (entryLine steps cs) := by
  apply ((advances_readEntry steps (skipInline cs)).of_suffix (skipInline_suffix cs)).bind
  rintro ⟨entry, afterEntry⟩ hentry
  have hend : Past cs (skipInline afterEntry) :=
    (Past.of_suffix (skipInline_suffix cs) hentry).trans_suffix (skipInline_suffix afterEntry)
  apply ((within_readLineEnd (skipInline afterEntry)).of_suffix hend.suffix).bind
  intro next hnext
  exact hend.trans_suffix hnext

theorem skipInline_of_isIdentifierChar {c : Char} (h : isIdentifierChar c) (rest : List Char) :
    skipInline (c :: rest) = c :: rest := by
  apply skipInline_of_stops
  rw [stops_cons_iff, Bool.eq_false_iff]
  intro hblank
  have hword := isWordChar_eq_false_of_isInlineBlank hblank
  rw [isWordChar_of_isIdentifierChar h] at hword
  exact absurd hword (by decide)

theorem readEntries_cons {c : Char} (h : isIdentifierChar c) (steps : Nat) (tail : List Char) :
    readEntries (steps + 1) (c :: tail) = (do
      let (entry, rest) ← entryLine steps (c :: tail)
      let (entries, rest) ← readEntries steps rest
      .ok (entry :: entries, rest)) := by
  have hbrace : c ≠ '\x7d' := by
    rintro rfl
    exact absurd h (by decide)
  rw [readEntries, if_neg hbrace, if_pos h, entryLine, skipInline_of_isIdentifierChar h]
  simp only [bind_assoc]
  rfl

/-- A workflow with its keyword, and what is blank before and behind it. -/
def workflowItem (steps : Nat) (cs : List Char) : Except Failure (WorkflowBlock × List Char) :=
  match keyword? "workflow" (skipBlank cs) with
  | none => .error ⟨.workflow, skipBlank cs⟩
  | some rest => do
    let (block, rest) ← readWorkflow steps rest
    .ok (block, skipBlank rest)

theorem advances_workflowItem (steps : Nat) (cs : List Char) :
    Advances cs (workflowItem steps cs) := by
  rw [workflowItem]
  split
  case h_1 => exact skipBlank_suffix cs
  case h_2 start hkeyword =>
    have hstart := Past.of_suffix (skipBlank_suffix cs) (past_of_keyword? hkeyword)
    apply ((advances_readWorkflow steps start).of_suffix hstart.suffix).bind
    rintro ⟨block, after⟩ hafter
    exact (hstart.trans hafter).trans_suffix (skipBlank_suffix after)

theorem readWorkflows_skipBlank {cs : List Char} (h : skipBlank cs ≠ []) (steps : Nat) :
    readWorkflows (steps + 1) (skipBlank cs) = (do
      let (block, rest) ← workflowItem steps cs
      let blocks ← readWorkflows steps rest
      .ok (block :: blocks)) := by
  rw [readWorkflows, workflowItem]
  · cases keyword? "workflow" (skipBlank cs) with
    | none => rfl
    | some start =>
        simp only [bind_assoc]
        rfl
  · exact h

/-- At every place, each repetition is an item and the same repetition behind it, and an item that is
read ends at a later place. -/
structure RepetitionsAdvance (steps : Nat) (cs : List Char) : Prop where
  blanks : skipBlank cs = match blankItem? cs with
    | some rest => skipBlank rest
    | none => cs
  blank_past : ∀ rest, blankItem? cs = some rest → Past cs rest
  values : readValues (steps + 1) cs = match framed? skipInline (readLiteral? steps) cs with
    | some (value, rest) =>
      let (values, rest) := readValues steps rest
      (value :: values, rest)
    | none => ([], cs)
  value_past : ∀ value rest,
    framed? skipInline (readLiteral? steps) cs = some (value, rest) → Past cs rest
  items : readItems? (steps + 1) cs =
    separated? (framed? skipBlank (readLiteral? steps)) (readItems? steps) cs
  item_past : ∀ item rest,
    framed? skipBlank (readLiteral? steps) cs = some (item, rest) → Past cs rest
  constraints : readConstraints? (steps + 1) cs =
    separated? (framed? skipBlank (constraint? steps)) (readConstraints? steps) cs
  constraint_past : ∀ constraint rest,
    framed? skipBlank (constraint? steps) cs = some (constraint, rest) → Past cs rest
  entries : ∀ c ∈ cs.head?, isIdentifierChar c → readEntries (steps + 1) cs = do
    let (entry, rest) ← entryLine steps cs
    let (entries, rest) ← readEntries steps rest
    .ok (entry :: entries, rest)
  entry_past : ∀ entry rest, entryLine steps cs = .ok (entry, rest) → Past cs rest
  workflows : skipBlank cs ≠ [] → readWorkflows (steps + 1) (skipBlank cs) = do
    let (block, rest) ← workflowItem steps cs
    let blocks ← readWorkflows steps rest
    .ok (block :: blocks)
  workflow_past : ∀ block rest, workflowItem steps cs = .ok (block, rest) → Past cs rest

theorem repetitionsAdvance (steps : Nat) (cs : List Char) : RepetitionsAdvance steps cs where
  blanks := skipBlank_eq_blankItem? cs
  blank_past _ := past_of_blankItem?
  values := readValues_succ steps cs
  value_past _ _ := past_of_framed? skipInline_suffix fun _ _ _ => past_of_readLiteral? steps
  items := readItems?_succ steps cs
  item_past _ _ := past_of_framed? skipBlank_suffix fun _ _ _ => past_of_readLiteral? steps
  constraints := readConstraints?_succ steps cs
  constraint_past _ _ := past_of_framed? skipBlank_suffix fun _ _ _ => past_of_constraint?
  entries := by
    intro c hc h
    obtain ⟨tail, rfl⟩ := List.head?_eq_some_iff.mp hc
    exact readEntries_cons h steps tail
  entry_past _ _ := (advances_entryLine steps cs).past
  workflows h := readWorkflows_skipBlank h steps
  workflow_past _ _ := (advances_workflowItem steps cs).past

end StagedJobs.Catalogue
