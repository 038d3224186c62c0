import StagedJobs.Proofs.Catalogue.CharacterClasses
import StagedJobs.Proofs.Catalogue.Writing

namespace StagedJobs.Catalogue

/-- What a place of a text is within. -/
inductive Region where
  | code
  | quoted
  | comment
deriving DecidableEq

/-- What is left of a text from a place in some region on. Quoted texts are kept as they are. -/
def condenseFrom : Region → List Char → List Char
  | _, [] => []
  | .code, c :: rest =>
    if Text.isBlank c then condenseFrom .code rest
    else if c = '#' then condenseFrom .comment rest
    else if c = '"' then c :: condenseFrom .quoted rest
    else c :: condenseFrom .code rest
  | .quoted, c :: rest => c :: condenseFrom (if c = '"' then .code else .quoted) rest
  | .comment, c :: rest => condenseFrom (if c = '\n' then .code else .comment) rest

/-- A text without its white space and its comments, quoted texts apart. -/
def condense (cs : List Char) : List Char := condenseFrom .code cs

theorem condense_cons_of_isBlank {c : Char} (hc : Text.isBlank c = true) (rest : List Char) :
    condense (c :: rest) = condense rest := by
  rw [condense, condenseFrom, if_pos hc]
  rfl

/-- A character that is kept wherever it stands, and that starts nothing else. -/
def IsKept (c : Char) : Prop := Text.isBlank c = false ∧ c ≠ '#' ∧ c ≠ '"'

instance : DecidablePred IsKept := fun c =>
  inferInstanceAs (Decidable (Text.isBlank c = false ∧ c ≠ '#' ∧ c ≠ '"'))

theorem isKept_of_isWordChar {c : Char} (h : isWordChar c = true) : IsKept c := by
  refine ⟨isBlank_eq_false_of_isWordChar h, ?_, ?_⟩
  · rintro rfl
    exact absurd h (by decide)
  · rintro rfl
    exact absurd h (by decide)

theorem condense_append_of_isKept {cs : List Char} (hcs : ∀ c ∈ cs, IsKept c) (rest : List Char) :
    condense (cs ++ rest) = cs ++ condense rest := by
  induction cs with
  | nil => rfl
  | cons c cs ih =>
      obtain ⟨hblank, hhash, hquote⟩ := hcs c (by simp)
      have hrest : condense (cs ++ rest) = cs ++ condense rest :=
        ih fun d hd => hcs d (List.mem_cons_of_mem c hd)
      rw [List.cons_append, condense, condenseFrom, if_neg (by simp [hblank]), if_neg hhash,
        if_neg hquote, List.cons_append, ← hrest]
      rfl

theorem condenseFrom_quoted {cs : List Char} (hcs : '"' ∉ cs) (rest : List Char) :
    condenseFrom .quoted (cs ++ '"' :: rest) = cs ++ '"' :: condense rest := by
  induction cs with
  | nil => rfl
  | cons c cs ih =>
      have hc : c ≠ '"' := fun heq => hcs (by simp [heq])
      rw [List.cons_append, condenseFrom, if_neg hc, List.cons_append,
        ih fun hmem => hcs (List.mem_cons_of_mem c hmem)]

theorem condense_quoted {cs : List Char} (hcs : '"' ∉ cs) (rest : List Char) :
    condense ('"' :: (cs ++ '"' :: rest)) = '"' :: (cs ++ '"' :: condense rest) := by
  have hquote : condense ('"' :: (cs ++ '"' :: rest)) =
      '"' :: condenseFrom .quoted (cs ++ '"' :: rest) := rfl
  rw [hquote, condenseFrom_quoted hcs]

@[simp] theorem condense_skipInline (cs : List Char) : condense (skipInline cs) = condense cs := by
  induction cs with
  | nil => rfl
  | cons c cs ih =>
      rw [skipInline, List.dropWhile_cons]
      split
      case isTrue hc =>
        rw [condense_cons_of_isBlank (isBlank_of_isInlineBlank hc)]
        exact ih
      case isFalse => rfl

mutual

@[simp] theorem condense_skipBlank : (cs : List Char) → condense (skipBlank cs) = condense cs
  | [] => rfl
  | c :: rest => by
      rw [skipBlank]
      split
      case isTrue hblank => rw [condense_cons_of_isBlank hblank, condense_skipBlank rest]
      case isFalse hblank =>
        split
        case isTrue hhash =>
          rw [condense_skipComment rest, condense, condenseFrom, if_neg hblank, if_pos hhash]
        case isFalse => rfl

theorem condense_skipComment :
    (cs : List Char) → condense (skipComment cs) = condenseFrom .comment cs
  | [] => rfl
  | c :: rest => by
      rw [skipComment, condenseFrom]
      split
      case isTrue => exact condense_skipBlank rest
      case isFalse => exact condense_skipComment rest

end

/-- What is left of the one text in front of any other is left of the other text too. -/
def Condenses (cs kept : List Char) : Prop :=
  ∀ rest, condense (cs ++ rest) = kept ++ condense rest

/-- Between two places of a text, the second given by the text from it on, there is nothing but what
the pieces stand for, white space and comments apart. -/
def Accounts (pieces : List Piece) (cs rest : List Char) : Prop :=
  ∃ written kept, Renders .plain pieces written ∧ Condenses written kept ∧
    condense cs = kept ++ condense rest

namespace Accounts

variable {pieces more : List Piece} {cs mid rest : List Char}

theorem nil (cs : List Char) : Accounts [] cs cs :=
  ⟨[], [], rfl, fun _ => rfl, rfl⟩

theorem append (h : Accounts pieces cs mid) (hmore : Accounts more mid rest) :
    Accounts (pieces ++ more) cs rest := by
  obtain ⟨written, kept, hwritten, hkept, hcs⟩ := h
  obtain ⟨written', kept', hwritten', hkept', hmid⟩ := hmore
  refine ⟨written ++ written', kept ++ kept', ?_, ?_, ?_⟩
  · exact renders_append.mpr ⟨written, written', hwritten, hwritten', rfl⟩
  · intro after
    rw [List.append_assoc, hkept, hkept', List.append_assoc]
  · rw [hcs, hmid, List.append_assoc]

theorem cons {piece : Piece} (h : Accounts [piece] cs mid) (hmore : Accounts more mid rest) :
    Accounts (piece :: more) cs rest :=
  append h hmore

theorem of_condense_eq {cs' rest' : List Char} (h : Accounts pieces cs rest)
    (hcs : condense cs' = condense cs) (hrest : condense rest' = condense rest) :
    Accounts pieces cs' rest' := by
  obtain ⟨written, kept, hwritten, hkept, heq⟩ := h
  exact ⟨written, kept, hwritten, hkept, by rw [hcs, hrest, heq]⟩

theorem skip (h : Accounts pieces mid rest) (hskip : condense mid = condense cs) :
    Accounts pieces cs rest :=
  h.of_condense_eq hskip.symm rfl

theorem gap (g : Gap) (h : Accounts pieces cs rest) : Accounts (.gap g :: pieces) cs rest := by
  have hplain : ∀ after, condense (g.plain ++ after) = condense after := by
    intro after
    cases g with
    | textEnd => rfl
    | lineEnd => exact condense_cons_of_isBlank (by decide) after
    | lastLineEnd => exact condense_cons_of_isBlank (by decide) after
    | inline => exact condense_cons_of_isBlank (by decide) after
    | separator => exact condense_cons_of_isBlank (by decide) after
    | blank => exact condense_cons_of_isBlank (by decide) after
    | blankSeparator => exact condense_cons_of_isBlank (by decide) after
  obtain ⟨written, kept, hwritten, hkept, hcs⟩ := h
  refine ⟨g.plain ++ written, kept, ⟨g.plain, written, rfl, hwritten, rfl⟩, ?_, hcs⟩
  intro after
  rw [List.append_assoc, hplain, hkept]

theorem of_isKept {piece : Piece} {spelled : List Char} (hspelled : piece.Admits .plain spelled)
    (hkept : ∀ c ∈ spelled, IsKept c) (h : Accounts pieces cs rest) :
    Accounts (piece :: pieces) (spelled ++ cs) rest := by
  refine cons ⟨spelled, spelled, renders_singleton.mpr hspelled, ?_, ?_⟩ h
  · exact condense_append_of_isKept hkept
  · exact condense_append_of_isKept hkept cs

theorem text {written : List Char} (hwritten : ∀ c ∈ written, IsKept c)
    (h : Accounts pieces cs rest) : Accounts (.text written :: pieces) (written ++ cs) rest :=
  of_isKept rfl hwritten h

theorem quoted {s : String} (hs : '"' ∉ s.toList) (h : Accounts pieces cs rest) :
    Accounts (.quoted s :: pieces) ('"' :: (s.toList ++ '"' :: cs)) rest := by
  refine cons ⟨_, '"' :: (s.toList ++ ['"']), renders_singleton.mpr rfl, ?_, ?_⟩ h
  · intro after
    simpa using condense_quoted hs after
  · simpa using condense_quoted hs cs

end Accounts

end StagedJobs.Catalogue
