import StagedJobs.Proofs.Catalogue.Lexemes

namespace StagedJobs.Catalogue

/-- A text that is read as one name. -/
def IsName (s : String) : Prop := s.toList ≠ [] ∧ ∀ c ∈ s.toList, isIdentifierChar c = true

/-- A text that is read as one bare word, and not as a number. -/
def IsWord (s : String) : Prop :=
  s.toList ≠ [] ∧ (∀ c ∈ s.toList, isWordChar c = true) ∧ startsNumber s.toList = false

/-- A text that can stand between double quotes, for which there is no escape. -/
def IsQuotable (s : String) : Prop := '"' ∉ s.toList

mutual

/-- A literal that can be written. -/
def Literal.WellFormed : Literal → Prop
  | .quoted s => IsQuotable s
  | .word s => IsWord s
  | .int _ => True
  | .float _ => True
  | .list items => ItemsWellFormed items

def ItemsWellFormed : List Literal → Prop
  | [] => True
  | x :: xs => x.WellFormed ∧ ItemsWellFormed xs

end

/-- A character that literals start with. -/
def StartsLiteral (c : Char) : Prop := c = '"' ∨ c = '[' ∨ isWordChar c = true

instance : DecidablePred StartsLiteral := fun c =>
  inferInstanceAs (Decidable (c = '"' ∨ c = '[' ∨ isWordChar c = true))

theorem StartsLiteral.isSkipped_eq_false {c : Char} (h : StartsLiteral c) : isSkipped c = false := by
  rcases h with rfl | rfl | h
  · decide
  · decide
  · have hblank := isBlank_eq_false_of_isWordChar h
    have hhash : c ≠ '#' := by
      rintro rfl
      exact absurd h (by decide)
    simp [isSkipped, hblank, hhash]

theorem StartsLiteral.ne_of_not_isWordChar {c d : Char} (h : StartsLiteral c)
    (hd : isWordChar d = false) (hquote : d ≠ '"') (hbracket : d ≠ '[') : c ≠ d := by
  rintro rfl
  rcases h with rfl | rfl | h
  · exact hquote rfl
  · exact hbracket rfl
  · rw [hd] at h
    simp at h

theorem exists_isWordChar_of_spelledAs {x : Literal} {cs : List Char} (h : x.SpelledAs cs) :
    ∃ c rest, cs = c :: rest ∧ isWordChar c = true := by
  have hdigits : ∀ (negative : Bool) (whole more : List Char), Digits whole →
      ∃ c rest, signText negative ++ whole ++ more = c :: rest ∧ isWordChar c = true := by
    intro negative whole more hwhole
    cases negative with
    | true => exact ⟨'-', whole ++ more, by simp [signText], by decide⟩
    | false =>
        obtain ⟨c, whole, rfl⟩ := List.exists_cons_of_ne_nil hwhole.1
        exact ⟨c, whole ++ more, by simp [signText], isWordChar_of_isDigit (hwhole.2 c (by simp))⟩
  cases x with
  | int n =>
      obtain ⟨negative, whole, hwhole, -, rfl⟩ := h
      simpa using hdigits negative whole [] hwhole
  | float x =>
      obtain ⟨negative, whole, fraction, hwhole, -, -, rfl⟩ := h
      exact hdigits negative whole ('.' :: fraction) hwhole
  | quoted s => exact absurd h id
  | word s => exact absurd h id
  | list items => exact absurd h id

theorem readLiteral?_of_isWordChar {c : Char} (hc : isWordChar c = true) (steps : Nat)
    (rest : List Char) : readLiteral? (steps + 1) (c :: rest) = scalar? (c :: rest) := by
  rw [readLiteral?]
  · rintro rest' hcons
    rw [(List.cons.inj hcons).1] at hc
    exact absurd hc (by decide)
  · rintro rest' hcons
    rw [(List.cons.inj hcons).1] at hc
    exact absurd hc (by decide)

theorem readLiteral?_eq_none {cs : List Char} (h : ∀ c ∈ cs.head?, ¬ StartsLiteral c)
    (steps : Nat) : readLiteral? steps cs = none := by
  cases steps with
  | zero => rfl
  | succ steps =>
      have hword : Stops isWordChar cs := by
        intro c hc
        rw [Bool.eq_false_iff]
        exact fun hword => h c hc (.inr (.inr hword))
      have hminus : cs.head? ≠ some '-' := fun hc => h '-' hc (by decide)
      have hnumber : number? cs = none := by
        refine number?_eq_none ?_
        cases cs with
        | nil => rfl
        | cons c cs =>
            have hdigit : c.isDigit = false := stops_cons_iff.mp (stops_isDigit hword)
            have hne : c ≠ '-' := by simpa using hminus
            simp [startsNumber, hdigit, hne]
      rw [readLiteral?, scalar?, hnumber, run?_eq_none hword]
      · rfl
      · rintro rest rfl
        exact h '"' rfl (by decide)
      · rintro rest rfl
        exact h '[' rfl (by decide)

theorem readLiteral?_spelledAs {x : Literal} {cs rest : List Char} (h : x.SpelledAs cs)
    (hrest : Stops isWordChar rest) (steps : Nat) :
    readLiteral? (steps + 1) (cs ++ rest) = some (x, rest) := by
  obtain ⟨c, more, rfl, hc⟩ := exists_isWordChar_of_spelledAs h
  rw [List.cons_append, readLiteral?_of_isWordChar hc, scalar?, ← List.cons_append,
    number?_append h hrest]
  rfl

/-- Word characters that no number can be read from are a word. -/
theorem scalar?_of_number?_eq_none {s : String} (hne : s.toList ≠ [])
    (hword : ∀ c ∈ s.toList, isWordChar c = true) {rest : List Char} (hrest : Stops isWordChar rest)
    (hnone : number? (s.toList ++ rest) = none) :
    scalar? (s.toList ++ rest) = some (.word s, rest) := by
  rw [scalar?, hnone, run?_append hne hword hrest]
  rfl

theorem scalar?_word {s : String} (hs : IsWord s) {rest : List Char}
    (hrest : Stops isWordChar rest) : scalar? (s.toList ++ rest) = some (.word s, rest) := by
  obtain ⟨hne, hword, hnumber⟩ := hs
  refine scalar?_of_number?_eq_none hne hword hrest ?_
  exact number?_eq_none (startsNumber_append hne hnumber (stops_isDigit hrest))

theorem readLiteral?_eq_scalar? {cs : List Char} (hne : cs ≠ [])
    (hword : ∀ c ∈ cs, isWordChar c = true) (steps : Nat) (rest : List Char) :
    readLiteral? (steps + 1) (cs ++ rest) = scalar? (cs ++ rest) := by
  obtain ⟨c, more, rfl⟩ := List.exists_cons_of_ne_nil hne
  exact readLiteral?_of_isWordChar (hword c List.mem_cons_self) steps (more ++ rest)

theorem skipBlank_append_of_startsLiteral {g cs : List Char} (hg : Blank g)
    (hcs : ∃ c rest, cs = c :: rest ∧ StartsLiteral c) (rest : List Char) :
    skipBlank (g ++ (cs ++ rest)) = cs ++ rest := by
  obtain ⟨c, more, rfl, hc⟩ := hcs
  rw [skipBlank_append hg]
  exact skipBlank_of_stops (stops_cons_iff.mpr hc.isSkipped_eq_false)

theorem skipBlank_append_mark {g : List Char} (hg : Blank g) {c : Char} (hc : isSkipped c = false)
    (rest : List Char) : skipBlank (g ++ c :: rest) = c :: rest := by
  rw [skipBlank_append hg]
  exact skipBlank_of_stops (stops_cons_iff.mpr hc)

theorem Inline.blank {g : List Char} (hg : Inline g) : Blank g := by
  induction g with
  | nil => exact .nil
  | cons c g ih =>
      have hrest : Blank g := ih fun d hd => hg d (List.mem_cons_of_mem c hd)
      exact .space (isBlank_of_isInlineBlank (hg c (by simp))) hrest

theorem stops_isWordChar_separator {g : List Char} (hne : g ≠ []) (hg : Blank g)
    (rest : List Char) : Stops isWordChar (g ++ rest) := by
  cases hg with
  | nil => exact absurd rfl hne
  | space hblank _ => exact stops_cons_iff.mpr (isWordChar_eq_false_of_isBlank hblank)
  | comment _ _ => exact stops_cons_iff.mpr (by decide)

theorem stops_isWordChar_blank {g : List Char} (hg : Blank g) {c : Char}
    (hc : isWordChar c = false) (rest : List Char) : Stops isWordChar (g ++ c :: rest) := by
  by_cases hne : g = []
  · rw [hne]
    exact stops_cons_iff.mpr hc
  · exact stops_isWordChar_separator hne hg (c :: rest)

theorem readLiteral?_openingBracket (steps : Nat) {cs : List Char}
    (hcs : (skipBlank cs).head? ≠ some ']') :
    readLiteral? (steps + 1) ('[' :: cs) =
      (readItems? steps (skipBlank cs)).map fun (items, rest) => (.list items, rest) := by
  rw [readLiteral?]
  split
  case h_1 rest heq => simp [heq] at hcs
  case h_2 => rfl

theorem readItems?_skipBlank (steps : Nat) (cs : List Char) :
    readItems? steps (skipBlank cs) = readItems? steps cs := by
  cases steps with
  | zero => rfl
  | succ steps => rw [readItems?, readItems?, skipBlank_skipBlank]

/-- How a part of a list is written: a mark follows it, which either goes on or ends the list. -/
theorem exists_listed {pieces more : List Piece} {mark : Char} {cs : List Char}
    (h : Renders .free (.gap .blank :: (pieces ++ .gap .blank :: .text [mark] :: more)) cs)
    (hstarts : ∀ part, Renders .free pieces part → ∃ c rest, part = c :: rest ∧ StartsLiteral c) :
    ∃ part gap others, Renders .free pieces part ∧ Blank gap ∧ Renders .free more others ∧
      part.length + others.length + 1 ≤ cs.length ∧
      ∀ rest, skipBlank (cs ++ rest) = part ++ (gap ++ mark :: (others ++ rest)) := by
  obtain ⟨g, tail, hg, htail, rfl⟩ := renders_gap.mp h
  obtain ⟨part, afterPart, hpart, hafterPart, rfl⟩ := renders_append.mp htail
  obtain ⟨gap, afterGap, hgap, hafterGap, rfl⟩ := renders_gap.mp hafterPart
  obtain ⟨others, hothers, rfl⟩ := renders_text.mp hafterGap
  refine ⟨part, gap, others, hpart, hgap, hothers, ?_, ?_⟩
  · simp only [List.length_append, List.length_cons, List.length_nil]
    omega
  · intro rest
    simp only [List.append_assoc, List.cons_append, List.nil_append]
    exact skipBlank_append_of_startsLiteral hg (hstarts part hpart) _

/-- Whatever text a literal is written as, another one is read from it. -/
structure Literal.ReadsAs (written read : Literal) : Prop where
  starts : ∀ {cs}, Renders .free written.pieces cs → ∃ c rest, cs = c :: rest ∧ StartsLiteral c
  reads : ∀ {cs rest steps}, Renders .free written.pieces cs → Stops isWordChar rest →
    2 * cs.length + 1 ≤ steps → readLiteral? steps (cs ++ rest) = some (read, rest)

section Items

variable {x y : Literal} {xs ys : List Literal} {cs : List Char}

theorem head?_skipBlank_items (hx : x.ReadsAs y) (h : Renders .free (itemPieces (x :: xs)) cs)
    (rest : List Char) : (skipBlank (cs ++ rest)).head? ≠ some ']' := by
  obtain ⟨mark, more, hpieces⟩ : ∃ mark more, itemPieces (x :: xs) =
      .gap .blank :: (x.pieces ++ .gap .blank :: .text [mark] :: more) := by
    cases xs with
    | nil => exact ⟨']', [], rfl⟩
    | cons next xs => exact ⟨',', itemPieces (next :: xs), rfl⟩
  rw [hpieces] at h
  obtain ⟨part, gap, others, hpart, -, -, -, hskip⟩ := exists_listed h fun part => hx.starts
  obtain ⟨c, part, rfl, hc⟩ := hx.starts hpart
  have hne : c ≠ ']' := hc.ne_of_not_isWordChar (by decide) (by decide) (by decide)
  rw [hskip]
  simpa using hne

theorem readItems?_append (hx : x.ReadsAs y) (hxs : List.Forall₂ Literal.ReadsAs xs ys)
    (h : Renders .free (itemPieces (x :: xs)) cs) (rest : List Char) {steps : Nat}
    (hsteps : 2 * cs.length + 2 ≤ steps) : readItems? steps (cs ++ rest) = some (y :: ys, rest) := by
  induction hxs generalizing x y cs steps with
  | nil =>
      obtain ⟨steps, rfl⟩ : ∃ k, steps = k + 1 := ⟨steps - 1, by omega⟩
      obtain ⟨part, gap, others, hpart, hgap, hothers, hlength, hskip⟩ :=
        exists_listed h fun part => hx.starts
      have hothers : others = [] := hothers
      subst hothers
      have hread := hx.reads hpart (stops_isWordChar_blank hgap (c := ']') (by decide) rest)
        (show 2 * part.length + 1 ≤ steps by omega)
      rw [readItems?, hskip, List.nil_append, hread]
      simp only [Option.bind_eq_bind, Option.bind_some]
      rw [skipBlank_append_mark hgap (by decide)]
      rfl
  | cons hnext _ ih =>
      obtain ⟨steps, rfl⟩ : ∃ k, steps = k + 1 := ⟨steps - 1, by omega⟩
      obtain ⟨part, gap, others, hpart, hgap, hothers, hlength, hskip⟩ :=
        exists_listed h fun part => hx.starts
      have hread := hx.reads hpart
        (stops_isWordChar_blank hgap (c := ',') (by decide) (others ++ rest))
        (show 2 * part.length + 1 ≤ steps by omega)
      have hothers := ih hnext hothers (show 2 * others.length + 2 ≤ steps by omega)
      rw [readItems?, hskip, hread]
      simp only [Option.bind_eq_bind, Option.bind_some]
      rw [skipBlank_append_mark hgap (by decide)]
      simp only [hothers, Option.bind_some]

end Items

namespace Literal.ReadsAs

theorem quoted {s : String} (hs : IsQuotable s) : (Literal.quoted s).ReadsAs (.quoted s) where
  starts h := ⟨'"', s.toList ++ ['"'], renders_singleton.mp h, .inl rfl⟩
  reads := by
    intro cs rest steps h _ hsteps
    obtain ⟨steps, rfl⟩ : ∃ k, steps = k + 1 := ⟨steps - 1, by omega⟩
    have hcs : cs = '"' :: (s.toList ++ ['"']) := renders_singleton.mp h
    subst hcs
    rw [List.cons_append, List.append_assoc, readLiteral?, List.cons_append, List.nil_append,
      quotedText?_append hs]
    rfl

theorem number {x : Literal} (hx : x.pieces = [.number x]) : x.ReadsAs x where
  starts h := by
    rw [hx, renders_number] at h
    obtain ⟨c, rest, rfl, hc⟩ := exists_isWordChar_of_spelledAs h
    exact ⟨c, rest, rfl, .inr (.inr hc)⟩
  reads := by
    intro cs rest steps h hrest hsteps
    obtain ⟨steps, rfl⟩ : ∃ k, steps = k + 1 := ⟨steps - 1, by omega⟩
    rw [hx, renders_number] at h
    exact readLiteral?_spelledAs h hrest steps

theorem word {s : String} {x : Literal} (hne : s.toList ≠ [])
    (hword : ∀ c ∈ s.toList, isWordChar c = true)
    (hread : ∀ {rest}, Stops isWordChar rest → scalar? (s.toList ++ rest) = some (x, rest)) :
    (Literal.word s).ReadsAs x where
  starts h := by
    rw [renders_singleton.mp h]
    obtain ⟨c, rest, hcons⟩ := List.exists_cons_of_ne_nil hne
    exact ⟨c, rest, hcons, .inr (.inr (hword c (by simp [hcons])))⟩
  reads := by
    intro cs rest steps h hrest hsteps
    obtain ⟨steps, rfl⟩ : ∃ k, steps = k + 1 := ⟨steps - 1, by omega⟩
    rw [renders_singleton.mp h, readLiteral?_eq_scalar? hne hword, hread hrest]

theorem list {items read : List Literal} (hread : List.Forall₂ ReadsAs items read) :
    (Literal.list items).ReadsAs (.list read) where
  starts h := by
    obtain ⟨rest, -, rfl⟩ := renders_text.mp h
    exact ⟨'[', rest, rfl, .inr (.inl rfl)⟩
  reads := by
    intro cs rest steps h _ hsteps
    obtain ⟨steps, rfl⟩ : ∃ k, steps = k + 1 := ⟨steps - 1, by omega⟩
    obtain ⟨written, hwritten, rfl⟩ := renders_text.mp h
    cases hread with
    | nil =>
        obtain ⟨g, last, hg, hlast, rfl⟩ := renders_gap.mp hwritten
        have hlast : last = [']'] := renders_singleton.mp hlast
        subst hlast
        have hskip : skipBlank (g ++ ']' :: rest) = ']' :: rest :=
          skipBlank_append_mark hg (by decide) rest
        simp only [List.append_assoc, List.cons_append, List.nil_append]
        rw [readLiteral?]
        simp only [hskip]
    | cons hx hxs =>
        have hitems := readItems?_append hx hxs hwritten rest
          (show 2 * written.length + 2 ≤ steps by simp at hsteps; omega)
        have hstart := head?_skipBlank_items hx hwritten rest
        rw [List.append_assoc, List.singleton_append, readLiteral?_openingBracket steps hstart,
          readItems?_skipBlank, hitems]
        rfl

end Literal.ReadsAs

mutual

/-- A well-formed literal is read back. -/
theorem Literal.WellFormed.readsAs : {x : Literal} → x.WellFormed → x.ReadsAs x
  | .quoted _, hs => .quoted hs
  | .word _, hs => .word hs.1 hs.2.1 (scalar?_word hs)
  | .int _, _ => .number rfl
  | .float _, _ => .number rfl
  | .list _, hitems => .list (ItemsWellFormed.readsAs hitems)

theorem ItemsWellFormed.readsAs : {items : List Literal} → ItemsWellFormed items →
    List.Forall₂ Literal.ReadsAs items items
  | [], _ => .nil
  | _ :: _, ⟨hx, hitems⟩ => .cons (Literal.WellFormed.readsAs hx) (ItemsWellFormed.readsAs hitems)

end

end StagedJobs.Catalogue
