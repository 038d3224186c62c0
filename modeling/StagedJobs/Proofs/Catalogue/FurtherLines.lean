import StagedJobs.Proofs.Catalogue.LineRoundTrip
import StagedJobs.Proofs.Catalogue.Places

/-!
What is read of a text is read of it also where further lines follow the text. A word, a number or a
white space that the text ends with does not go on across the end of the line, and a comment ends
there; so the readers come to the same places, with the further lines behind them.
-/

namespace StagedJobs.Catalogue

open Outcomes

section Tokens

variable {isMember : Char → Bool} {cs rest : List Char}

theorem append_line_ne_cons {c : Char} (hc : c ≠ '\n') (h : ∀ rest, cs ≠ c :: rest)
    (more tail : List Char) : cs ++ '\n' :: more ≠ c :: tail := by
  intro heq
  cases cs with
  | nil => exact hc (List.cons.inj heq).1.symm
  | cons d cs => exact h cs (by rw [(List.cons.inj heq).1])

theorem stops_append_line (hline : isMember '\n' = false) (h : Stops isMember cs)
    (more : List Char) : Stops isMember (cs ++ '\n' :: more) := by
  cases cs with
  | nil => exact stops_cons_iff.mpr hline
  | cons c cs => exact stops_cons_iff.mpr (stops_cons_iff.mp h)

theorem span_append_line (hline : isMember '\n' = false) {run : List Char}
    (h : cs.span isMember = (run, rest)) (more : List Char) :
    (cs ++ '\n' :: more).span isMember = (run, rest ++ '\n' :: more) := by
  obtain ⟨hrun, hrest, rfl⟩ := span_eq_iff.mp h
  exact span_eq_iff.mpr ⟨hrun, stops_append_line hline hrest more, List.append_assoc _ _ _⟩

theorem takeWhile_append_line (hline : isMember '\n' = false) (cs more : List Char) :
    (cs ++ '\n' :: more).takeWhile isMember = cs.takeWhile isMember := by
  have hspan := span_append_line hline (List.span_eq_takeWhile_dropWhile isMember cs) more
  rw [List.span_eq_takeWhile_dropWhile] at hspan
  exact (Prod.mk.inj hspan).1

theorem dropWhile_append_line (hline : isMember '\n' = false) (cs more : List Char) :
    (cs ++ '\n' :: more).dropWhile isMember = cs.dropWhile isMember ++ '\n' :: more := by
  have hspan := span_append_line hline (List.span_eq_takeWhile_dropWhile isMember cs) more
  rw [List.span_eq_takeWhile_dropWhile] at hspan
  exact (Prod.mk.inj hspan).2

theorem skipInline_append_line (cs more : List Char) :
    skipInline (cs ++ '\n' :: more) = skipInline cs ++ '\n' :: more :=
  dropWhile_append_line (by decide) cs more

theorem run?_append_line (hline : isMember '\n' = false) (cs more : List Char) :
    run? isMember (cs ++ '\n' :: more) =
      (run? isMember cs).map (Prod.map id (· ++ '\n' :: more)) := by
  rcases hspan : cs.span isMember with ⟨run, rest⟩
  rw [run?, run?, hspan, span_append_line hline hspan more]
  simp only
  split <;> rfl

theorem identifier?_append_line {s : String} (h : identifier? cs = some (s, rest))
    (more : List Char) : identifier? (cs ++ '\n' :: more) = some (s, rest ++ '\n' :: more) := by
  have hline : isIdentifierChar '\n' = false := by decide
  rw [identifier?] at h ⊢
  rw [run?_append_line hline, h]
  rfl

theorem afterWord?_append_line {word : String} (hword : '\n' ∉ word.toList) (cs more : List Char) :
    Text.afterWord? word (cs ++ '\n' :: more) =
      (Text.afterWord? word cs).map (· ++ '\n' :: more) := by
  have hprefix : word.toList <+: cs ++ '\n' :: more ↔ word.toList <+: cs := by
    constructor
    · rintro ⟨tail, htail⟩
      rcases List.append_eq_append_iff.mp htail with ⟨mid, hmid, -⟩ | ⟨mid, hmid, hrest⟩
      · exact ⟨mid, hmid.symm⟩
      · cases mid with
        | nil => exact ⟨[], by simpa using hmid⟩
        | cons c mid =>
            obtain ⟨rfl, -⟩ := List.cons.inj hrest
            exact absurd (by simp [hmid]) hword
    · intro h
      exact h.trans (List.prefix_append cs _)
  simp only [Text.afterWord?, List.isPrefixOf_iff_prefix, hprefix]
  split
  case isFalse => rfl
  case isTrue h =>
    have hlength : word.length ≤ cs.length := by
      rw [← String.length_toList]
      exact h.length_le
    rw [List.drop_append_of_le_length hlength]
    rfl

theorem keyword?_append_line {word : String} (hword : '\n' ∉ word.toList) (cs more : List Char) :
    keyword? word (cs ++ '\n' :: more) = (keyword? word cs).map (· ++ '\n' :: more) := by
  rw [keyword?, keyword?, afterWord?_append_line hword]
  rcases Text.afterWord? word cs with _ | _ | ⟨c, rest⟩
  case none => rfl
  case some.nil => rfl
  case some.cons =>
    simp only [Option.map_some, List.cons_append]
    split
    case isTrue => rw [Option.map_some, skipInline_append_line]
    case isFalse => rfl

theorem quotedText?_append_line {s : String} (h : quotedText? cs = some (s, rest))
    (more : List Char) : quotedText? (cs ++ '\n' :: more) = some (s, rest ++ '\n' :: more) := by
  obtain ⟨hs, rfl⟩ := quotedText?_eq_some h
  rw [List.append_assoc]
  exact quotedText?_append hs _

theorem spanDigits_append_line {digits : List Char} (h : spanDigits cs = (digits, rest))
    (more : List Char) : spanDigits (cs ++ '\n' :: more) = (digits, rest ++ '\n' :: more) :=
  span_append_line (by decide) h more

theorem spanFraction_append_line {fraction : List Char}
    (h : Decimal.spanFraction cs = (fraction, rest)) (more : List Char) :
    Decimal.spanFraction (cs ++ '\n' :: more) = (fraction, rest ++ '\n' :: more) := by
  unfold Decimal.spanFraction at h
  split at h
  case h_1 => exact spanDigits_append_line h more
  case h_2 hpoint =>
    obtain ⟨rfl, rfl⟩ := Prod.mk.inj h
    rw [Decimal.spanFraction]
    exact append_line_ne_cons (by decide) hpoint more

theorem numeral?_append_line (negative : Bool) (cs more : List Char) :
    numeral? negative (cs ++ '\n' :: more) =
      (numeral? negative cs).map (Prod.map id (· ++ '\n' :: more)) := by
  rcases hwhole : spanDigits cs with ⟨whole, afterWhole⟩
  rcases hfraction : Decimal.spanFraction afterWhole with ⟨fraction, afterFraction⟩
  simp only [numeral?, hwhole, hfraction, spanDigits_append_line hwhole more,
    spanFraction_append_line hfraction more]
  split
  case isTrue => rfl
  case isFalse =>
    split
    case isTrue => rw [Option.map_map]; rfl
    case isFalse => rfl

theorem number?_append_line (cs more : List Char) :
    number? (cs ++ '\n' :: more) = (number? cs).map (Prod.map id (· ++ '\n' :: more)) := by
  by_cases h : ∃ tail, cs = '-' :: tail
  · obtain ⟨tail, rfl⟩ := h
    exact numeral?_append_line true tail more
  · have hminus : ∀ tail, cs ≠ '-' :: tail := fun tail heq => h ⟨tail, heq⟩
    rw [number?, number?, numeral?_append_line false cs more]
    · exact hminus
    · exact append_line_ne_cons (by decide) hminus more

theorem scalar?_append_line {x : Literal} (h : scalar? cs = some (x, rest)) (more : List Char) :
    scalar? (cs ++ '\n' :: more) = some (x, rest ++ '\n' :: more) := by
  have hline : isWordChar '\n' = false := by decide
  rw [scalar?] at h ⊢
  rw [number?_append_line, run?_append_line hline]
  cases hnumber : number? cs with
  | some found =>
      rw [hnumber] at h
      obtain rfl := Option.some.inj h
      rfl
  | none =>
      rw [hnumber, Option.none_or] at h
      obtain ⟨⟨s, after⟩, hword, heq⟩ := Option.map_eq_some_iff.mp h
      obtain ⟨rfl, rfl⟩ := Prod.mk.inj heq
      rw [hword]
      rfl

end Tokens

mutual

theorem skipBlank_append_line : (cs more : List Char) →
    skipBlank (cs ++ '\n' :: more) =
      if skipBlank cs = [] then skipBlank more else skipBlank cs ++ '\n' :: more
  | [], more => rfl
  | c :: rest, more => by
      rw [List.cons_append, skipBlank, skipBlank]
      split
      case isTrue => exact skipBlank_append_line rest more
      case isFalse =>
        split
        case isTrue => exact skipComment_append_line rest more
        case isFalse => rw [if_neg (List.cons_ne_nil c rest), List.cons_append]

theorem skipComment_append_line : (cs more : List Char) →
    skipComment (cs ++ '\n' :: more) =
      if skipComment cs = [] then skipBlank more else skipComment cs ++ '\n' :: more
  | [], more => rfl
  | c :: rest, more => by
      rw [List.cons_append, skipComment, skipComment]
      split
      case isTrue => exact skipBlank_append_line rest more
      case isFalse => exact skipComment_append_line rest more

end

section Literals

variable {cs rest : List Char}

theorem skipBlank_append_line_of_ne_nil (h : skipBlank cs ≠ []) (more : List Char) :
    skipBlank (cs ++ '\n' :: more) = skipBlank cs ++ '\n' :: more := by
  rw [skipBlank_append_line, if_neg h]

theorem skipBlank_append_line_of_eq_cons {c : Char} (h : skipBlank cs = c :: rest)
    (more : List Char) : skipBlank (cs ++ '\n' :: more) = c :: (rest ++ '\n' :: more) := by
  rw [skipBlank_append_line_of_ne_nil (by simp [h]), h, List.cons_append]

mutual

theorem readLiteral?_append_line : (steps : Nat) → {cs rest : List Char} → {x : Literal} →
    readLiteral? steps cs = some (x, rest) → (more : List Char) →
    readLiteral? steps (cs ++ '\n' :: more) = some (x, rest ++ '\n' :: more)
  | 0, cs, rest, x, h, more => by simp [readLiteral?] at h
  | steps + 1, cs, rest, x, h, more => by
      unfold readLiteral? at h
      split at h
      case h_1 after =>
        obtain ⟨⟨s, tail⟩, hquoted, heq⟩ := Option.map_eq_some_iff.mp h
        obtain ⟨rfl, rfl⟩ := Prod.mk.inj heq
        rw [List.cons_append, readLiteral?, quotedText?_append_line hquoted]
        rfl
      case h_2 after =>
        split at h
        case h_1 tail hskip =>
          obtain ⟨rfl, rfl⟩ := Prod.mk.inj (Option.some.inj h)
          rw [List.cons_append, readLiteral?]
          simp only [skipBlank_append_line_of_eq_cons hskip]
        case h_2 hclosing =>
          obtain ⟨⟨items, tail⟩, hitems, heq⟩ := Option.map_eq_some_iff.mp h
          obtain ⟨rfl, rfl⟩ := Prod.mk.inj heq
          have hne := (past_of_readItems? steps hitems).ne_nil
          have hskip := skipBlank_append_line_of_ne_nil hne more
          have hhead : (skipBlank (after ++ '\n' :: more)).head? ≠ some ']' := by
            obtain ⟨c, inner, hcons⟩ := List.exists_cons_of_ne_nil hne
            rw [skipBlank_append_line_of_eq_cons hcons]
            intro hc
            obtain rfl : c = ']' := by simpa using hc
            exact hclosing inner hcons
          rw [List.cons_append, readLiteral?_openingBracket steps hhead, hskip,
            readItems?_append_line steps hitems more]
          rfl
      case h_3 hquote hbracket =>
        rw [readLiteral?]
        · exact scalar?_append_line h more
        · exact append_line_ne_cons (by decide) hquote more
        · exact append_line_ne_cons (by decide) hbracket more

theorem readItems?_append_line : (steps : Nat) → {cs rest : List Char} → {items : List Literal} →
    readItems? steps cs = some (items, rest) → (more : List Char) →
    readItems? steps (cs ++ '\n' :: more) = some (items, rest ++ '\n' :: more)
  | 0, cs, rest, items, h, more => by simp [readItems?] at h
  | steps + 1, cs, rest, items, h, more => by
      rw [readItems?] at h
      obtain ⟨⟨item, after⟩, hitem, h⟩ := Option.bind_eq_some_iff.mp h
      have hskip := skipBlank_append_line_of_ne_nil (past_of_readLiteral? steps hitem).ne_nil more
      rw [readItems?, hskip, readLiteral?_append_line steps hitem more]
      simp only [Option.bind_eq_bind, Option.bind_some]
      simp only at h
      split at h
      case h_1 tail hmark =>
        obtain ⟨⟨others, tail'⟩, hothers, heq⟩ := Option.bind_eq_some_iff.mp h
        obtain ⟨rfl, rfl⟩ := Prod.mk.inj (Option.some.inj heq)
        rw [skipBlank_append_line_of_eq_cons hmark]
        simp only [readItems?_append_line steps hothers more, Option.bind_some]
      case h_2 tail hmark =>
        obtain ⟨rfl, rfl⟩ := Prod.mk.inj (Option.some.inj h)
        rw [skipBlank_append_line_of_eq_cons hmark]
        rfl
      case h_3 => simp at h

end

theorem ahead_append_line {marks : List Char} (h : Ahead marks cs) (hline : '\n' ∈ marks)
    (more : List Char) : Ahead marks (cs ++ '\n' :: more) := by
  intro c hc
  rw [skipInline_append_line] at hc
  cases hskip : skipInline cs with
  | nil =>
      rw [hskip] at hc
      obtain rfl : '\n' = c := by simpa using hc
      exact hline
  | cons d tail =>
      rw [hskip] at hc
      exact h c (by rw [hskip]; exact hc)

/-- The values end where the line does, so what follows the line is none of them. -/
theorem readValues_append_line {steps : Nat} {values : List Literal}
    (h : readValues steps cs = (values, rest)) (hrest : Ahead lineMarks rest) (more : List Char) :
    readValues steps (cs ++ '\n' :: more) = (values, rest ++ '\n' :: more) := by
  induction steps generalizing cs values with
  | zero =>
      obtain ⟨rfl, rfl⟩ := Prod.mk.inj h
      rfl
  | succ steps ih =>
      rw [readValues] at h
      rw [readValues, skipInline_append_line]
      split at h
      case h_1 value after hvalue =>
        obtain ⟨rfl, rfl⟩ := Prod.mk.inj h
        rw [readLiteral?_append_line steps hvalue]
        simp only [skipInline_append_line, ih rfl]
      case h_2 hnone =>
        obtain ⟨rfl, rfl⟩ := Prod.mk.inj h
        have hnone := readLiteral?_eq_none_of_ahead (ahead_append_line hrest (by decide) more) steps
        rw [skipInline_append_line] at hnone
        rw [hnone]

theorem assigned?_append_line {steps : Nat} {x : Literal}
    (h : assigned? steps cs = some (x, rest)) (more : List Char) :
    assigned? steps (cs ++ '\n' :: more) = some (x, rest ++ '\n' :: more) := by
  rw [assigned?] at h ⊢
  rw [skipInline_append_line]
  split at h
  case h_1 after hskip =>
    rw [hskip]
    simp only [List.cons_append, skipInline_append_line]
    exact readLiteral?_append_line steps h more
  case h_2 => simp at h

theorem constraint?_append_line {steps : Nat} {c : String × Literal}
    (h : constraint? steps cs = some (c, rest)) (more : List Char) :
    constraint? steps (cs ++ '\n' :: more) = some (c, rest ++ '\n' :: more) := by
  obtain ⟨⟨name, after⟩, hname, h⟩ := Option.bind_eq_some_iff.mp h
  obtain ⟨⟨value, tail⟩, hvalue, heq⟩ := Option.bind_eq_some_iff.mp h
  obtain ⟨rfl, rfl⟩ := Prod.mk.inj (Option.some.inj heq)
  rw [constraint?, identifier?_append_line hname]
  simp only [Option.bind_eq_bind, Option.bind_some, assigned?_append_line hvalue]

theorem readConstraints?_append_line {steps : Nat} {constraints : List (String × Literal)}
    (h : readConstraints? steps cs = some (constraints, rest)) (more : List Char) :
    readConstraints? steps (cs ++ '\n' :: more) = some (constraints, rest ++ '\n' :: more) := by
  induction steps generalizing cs rest constraints with
  | zero => simp [readConstraints?] at h
  | succ steps ih =>
      rw [readConstraints?] at h
      obtain ⟨⟨first, after⟩, hfirst, h⟩ := Option.bind_eq_some_iff.mp h
      have hskip := skipBlank_append_line_of_ne_nil (past_of_constraint? hfirst).ne_nil more
      rw [readConstraints?, hskip, constraint?_append_line hfirst]
      simp only [Option.bind_eq_bind, Option.bind_some]
      simp only at h
      split at h
      case h_1 tail hmark =>
        obtain ⟨⟨others, tail'⟩, hothers, heq⟩ := Option.bind_eq_some_iff.mp h
        obtain ⟨rfl, rfl⟩ := Prod.mk.inj (Option.some.inj heq)
        rw [skipBlank_append_line_of_eq_cons hmark]
        simp only [ih hothers, Option.bind_some]
      case h_2 tail hmark =>
        obtain ⟨rfl, rfl⟩ := Prod.mk.inj (Option.some.inj h)
        rw [skipBlank_append_line_of_eq_cons hmark]
        rfl
      case h_3 => simp at h

theorem constraints?_append_line {steps : Nat} {constraints : List (String × Literal)}
    (h : constraints? steps cs = some (constraints, rest)) (more : List Char) :
    constraints? steps (cs ++ '\n' :: more) = some (constraints, rest ++ '\n' :: more) := by
  rw [constraints?] at h ⊢
  rw [skipInline_append_line]
  split at h
  case h_1 after hskip =>
    rw [hskip]
    exact readConstraints?_append_line h more
  case h_2 => simp at h

theorem description?_append_line {s : String} (h : description? cs = some (s, rest))
    (more : List Char) : description? (cs ++ '\n' :: more) = some (s, rest ++ '\n' :: more) := by
  rw [description?] at h ⊢
  rw [skipInline_append_line]
  unfold quoted? at h
  split at h
  case h_1 after hskip =>
    rw [hskip]
    exact quotedText?_append_line h more
  case h_2 => simp at h

theorem optionally_append_line {α : Type} {part : List Char → Option (α × List Char)} {mark : Char}
    (hpart : MarkedBy mark part)
    (hread : ∀ x rest, part cs = some (x, rest) →
      part (cs ++ '\n' :: more) = some (x, rest ++ '\n' :: more))
    {marks : List Char} (hmark : mark ∉ marks) (hline : '\n' ∈ marks) {x : Option α}
    (h : optionally part cs = (x, rest)) (hrest : Ahead marks rest) :
    optionally part (cs ++ '\n' :: more) = (x, rest ++ '\n' :: more) := by
  rw [optionally] at h ⊢
  split at h
  case h_1 y after hsome =>
    obtain ⟨rfl, rfl⟩ := Prod.mk.inj h
    rw [hread y after hsome]
  case h_2 =>
    obtain ⟨rfl, rfl⟩ := Prod.mk.inj h
    rw [(ahead_append_line hrest hline more).eq_none hpart hmark]

theorem ahead_of_optionally {α : Type} {part : List Char → Option (α × List Char)} {mark : Char}
    (hpart : MarkedBy mark part) {marks : List Char} {x : Option α}
    (h : optionally part cs = (x, rest)) (hrest : Ahead marks rest) : Ahead (mark :: marks) cs := by
  rw [optionally] at h
  split at h
  case h_1 y after hsome =>
    intro c hc
    obtain ⟨tail, hskip⟩ := List.head?_eq_some_iff.mp hc
    by_cases hmark : c = mark
    · rw [hmark]
      exact List.mem_cons_self
    · have hnone := hpart cs fun rest heq => hmark (List.cons.inj (hskip.symm.trans heq)).1
      rw [hnone] at hsome
      cases hsome
  case h_2 =>
    obtain ⟨rfl, rfl⟩ := Prod.mk.inj h
    exact hrest.mono fun c hc => List.mem_cons_of_mem mark hc

end Literals

section Entries

variable {cs rest : List Char}

theorem readName_append_line {name : String} (h : readName cs = .ok (name, rest))
    (more : List Char) : readName (cs ++ '\n' :: more) = .ok (name, rest ++ '\n' :: more) := by
  rw [readName] at h
  split at h
  case h_1 found hfound =>
    obtain rfl := Except.ok.inj h
    have hskip := skipBlank_append_line_of_ne_nil (past_of_run? hfound).ne_nil more
    rw [readName, hskip, identifier?_append_line hfound]
  case h_2 => cases h

theorem readOpening_append_line (h : readOpening cs = .ok rest) (more : List Char) :
    readOpening (cs ++ '\n' :: more) = .ok (rest ++ '\n' :: more) := by
  unfold readOpening at h
  split at h
  case h_1 tail =>
    obtain rfl := Except.ok.inj h
    rfl
  case h_2 => cases h

theorem readLineEnd_append_line (h : readLineEnd cs = .ok rest) (hne : rest ≠ [])
    (more : List Char) : readLineEnd (cs ++ '\n' :: more) = .ok (rest ++ '\n' :: more) := by
  cases cs with
  | nil => exact absurd (Except.ok.inj h).symm hne
  | cons c cs =>
      rw [readLineEnd] at h
      rw [List.cons_append, readLineEnd]
      split at h
      case isTrue hc =>
        obtain rfl := Except.ok.inj h
        rw [if_pos hc, ← List.cons_append, skipBlank_append_line_of_ne_nil hne]
      case isFalse hc =>
        rw [if_neg hc]
        split at h
        case isTrue hbrace =>
          obtain rfl := Except.ok.inj h
          rw [if_pos hbrace, List.cons_append]
        case isFalse => cases h

theorem ahead_of_readLineEnd (h : readLineEnd (skipInline cs) = .ok rest) : Ahead lineMarks cs := by
  intro c hc
  obtain ⟨tail, hskip⟩ := List.head?_eq_some_iff.mp hc
  rw [hskip, readLineEnd] at h
  split at h
  case isTrue hend =>
    rcases (show c = '\n' ∨ c = '#' by simpa using hend) with rfl | rfl <;> decide
  case isFalse =>
    split at h
    case isTrue hbrace => simp [lineMarks, hbrace]
    case isFalse => cases h

theorem readStageNumber_append_line {number : Nat} (h : readStageNumber cs = .ok (number, rest))
    (more : List Char) :
    readStageNumber (cs ++ '\n' :: more) = .ok (number, rest ++ '\n' :: more) := by
  rcases hdigits : spanDigits cs with ⟨digits, after⟩
  simp only [readStageNumber, hdigits] at h
  simp only [readStageNumber, spanDigits_append_line hdigits more]
  split at h
  case isTrue => cases h
  case isFalse hne =>
    rw [if_neg hne]
    split at h
    case isTrue hfits =>
      obtain ⟨rfl, rfl⟩ := Prod.mk.inj (Except.ok.inj h)
      rw [if_pos hfits]
    case isFalse => cases h

theorem readParamName_append_line {name : String} (h : readParamName cs = .ok (name, rest))
    (more : List Char) :
    readParamName (cs ++ '\n' :: more) = .ok (name, rest ++ '\n' :: more) := by
  rw [readParamName] at h
  split at h
  case h_1 => cases h
  case h_2 name' after hname =>
    rw [readParamName, identifier?_append_line hname]
    simp only [skipInline_append_line]
    split at h
    case h_1 tail hskip =>
      obtain ⟨rfl, rfl⟩ := Prod.mk.inj (Except.ok.inj h)
      rw [hskip]
      rfl
    case h_2 => cases h

theorem readParamType_append_line {type : String} (h : readParamType cs = .ok (type, rest))
    (more : List Char) :
    readParamType (cs ++ '\n' :: more) = .ok (type, rest ++ '\n' :: more) := by
  rw [readParamType] at h
  split at h
  case h_1 found htype =>
    obtain rfl := Except.ok.inj h
    rw [readParamType, identifier?_append_line htype]
  case h_2 => cases h

theorem readRequired_append_line {required : Bool} (h : readRequired cs = (required, rest))
    (more : List Char) : readRequired (cs ++ '\n' :: more) = (required, rest ++ '\n' :: more) := by
  unfold readRequired at h
  split at h
  case h_1 tail =>
    obtain ⟨rfl, rfl⟩ := Prod.mk.inj h
    rfl
  case h_2 hmark =>
    obtain ⟨rfl, rfl⟩ := Prod.mk.inj h
    rw [readRequired]
    exact append_line_ne_cons (by decide) hmark more

theorem readParam_append_line {steps : Nat} {p : ParamEntry}
    (h : readParam steps cs = .ok (p, rest)) (hrest : Ahead lineMarks rest) (more : List Char) :
    readParam steps (cs ++ '\n' :: more) = .ok (p, rest ++ '\n' :: more) := by
  rw [readParam] at h
  obtain ⟨⟨name, afterName⟩, hname, h⟩ := bind_eq_ok.mp h
  obtain ⟨⟨type, afterType⟩, htype, h⟩ := bind_eq_ok.mp h
  rcases hrequired : readRequired afterType with ⟨required, afterMark⟩
  rcases hdefault : optionally (assigned? steps) afterMark with ⟨default, afterDefault⟩
  rcases hgroup : optionally (constraints? steps) afterDefault with ⟨constraints, afterGroup⟩
  rcases hdescription : optionally description? afterGroup with ⟨description, afterAll⟩
  simp only [hrequired, hdefault, hgroup, hdescription] at h
  obtain ⟨rfl, rfl⟩ := Prod.mk.inj (Except.ok.inj h)
  have hafterGroup := ahead_of_optionally markedBy_description? hdescription hrest
  have hafterDefault := ahead_of_optionally (markedBy_constraints? steps) hgroup hafterGroup
  have hdescription' := optionally_append_line markedBy_description?
    (fun _ _ h => description?_append_line h more) (by decide) (by decide) hdescription hrest
  have hgroup' := optionally_append_line (markedBy_constraints? steps)
    (fun _ _ h => constraints?_append_line h more) (by decide) (by decide) hgroup hafterGroup
  have hdefault' := optionally_append_line (markedBy_assigned? steps)
    (fun _ _ h => assigned?_append_line h more) (by decide) (by decide) hdefault hafterDefault
  rw [readParam, readParamName_append_line hname]
  simp only [bind, Except.bind, skipInline_append_line, readParamType_append_line htype,
    readRequired_append_line hrequired, hdefault', hgroup', hdescription']

theorem readProperty_append_line {steps : Nat} {p : Property}
    (h : readProperty steps cs = .ok (p, rest)) (hrest : Ahead lineMarks rest) (more : List Char) :
    readProperty steps (cs ++ '\n' :: more) = .ok (p, rest ++ '\n' :: more) := by
  rw [readProperty] at h
  split at h
  case h_1 => cases h
  case h_2 key after hkey =>
    rcases hvalues : readValues steps after with ⟨values, afterValues⟩
    simp only [hvalues] at h
    obtain ⟨rfl, rfl⟩ := Prod.mk.inj (Except.ok.inj h)
    rw [readProperty, identifier?_append_line hkey]
    simp only [readValues_append_line hvalues hrest]

theorem readBody_append_line {steps : Nat} {body : String × List Entry}
    (hentries : ∀ {mid rest : List Char} {entries : List Entry},
      readEntries steps mid = .ok (entries, rest) →
      readEntries steps (mid ++ '\n' :: more) = .ok (entries, rest ++ '\n' :: more))
    (h : readBody steps cs = .ok (body, rest)) :
    readBody steps (cs ++ '\n' :: more) = .ok (body, rest ++ '\n' :: more) := by
  obtain ⟨⟨name, afterName⟩, hname, h⟩ := bind_eq_ok.mp h
  obtain ⟨atBody, hatBody, h⟩ := bind_eq_ok.mp h
  obtain ⟨⟨entries, afterEntries⟩, hread, h⟩ := bind_eq_ok.mp h
  obtain ⟨rfl, rfl⟩ := Prod.mk.inj (Except.ok.inj h)
  have hopening := ((within_readOpening (skipBlank afterName)).of_ok hatBody).ne_nil
  have hbody := ((advances_readEntries steps (skipBlank atBody)).past hread).ne_nil
  rw [readBody, readName_append_line hname]
  simp only [bind, Except.bind]
  rw [skipBlank_append_line_of_ne_nil hopening, readOpening_append_line hatBody]
  simp only
  rw [skipBlank_append_line_of_ne_nil hbody, hentries hread]

mutual

theorem readEntries_append_line : (steps : Nat) → {cs rest : List Char} → {entries : List Entry} →
    readEntries steps cs = .ok (entries, rest) → (more : List Char) →
    readEntries steps (cs ++ '\n' :: more) = .ok (entries, rest ++ '\n' :: more)
  | 0, cs, rest, entries, h, more => by cases h
  | steps + 1, [], rest, entries, h, more => by cases h
  | steps + 1, c :: tail, rest, entries, h, more => by
      rw [readEntries] at h
      rw [List.cons_append, readEntries]
      split at h
      case isTrue hbrace =>
        obtain ⟨rfl, rfl⟩ := Prod.mk.inj (Except.ok.inj h)
        rw [if_pos hbrace]
      case isFalse hbrace =>
        rw [if_neg hbrace]
        split at h
        case isFalse => cases h
        case isTrue hstart =>
          obtain ⟨⟨entry, afterEntry⟩, hentry, h⟩ := bind_eq_ok.mp h
          obtain ⟨next, hnext, h⟩ := bind_eq_ok.mp h
          obtain ⟨⟨others, afterOthers⟩, hothers, h⟩ := bind_eq_ok.mp h
          obtain ⟨rfl, rfl⟩ := Prod.mk.inj (Except.ok.inj h)
          -- The closing brace is still to come, so the line did not end with the text.
          have hne := ((advances_readEntries steps next).past hothers).ne_nil
          have hentry' := readEntry_append_line steps hentry (ahead_of_readLineEnd hnext) more
          rw [List.cons_append] at hentry'
          rw [if_pos hstart, hentry']
          simp only [bind, Except.bind, skipInline_append_line, readLineEnd_append_line hnext hne,
            readEntries_append_line steps hothers more]

theorem readEntry_append_line : (steps : Nat) → {cs rest : List Char} → {entry : Entry} →
    readEntry steps cs = .ok (entry, rest) → Ahead lineMarks rest → (more : List Char) →
    readEntry steps (cs ++ '\n' :: more) = .ok (entry, rest ++ '\n' :: more)
  | 0, cs, rest, entry, h, hrest, more => by cases h
  | steps + 1, cs, rest, entry, h, hrest, more => by
      have hstage' := keyword?_append_line (show '\n' ∉ "stage".toList by decide) cs more
      have hparam' := keyword?_append_line (show '\n' ∉ "param".toList by decide) cs more
      cases hstage : keyword? "stage" cs with
      | some after =>
          rw [readEntry_stage hstage] at h
          obtain ⟨⟨number, afterNumber⟩, hnumber, h⟩ := bind_eq_ok.mp h
          obtain ⟨⟨⟨taskType, entries⟩, afterBody⟩, hbody, h⟩ := bind_eq_ok.mp h
          obtain ⟨rfl, rfl⟩ := Prod.mk.inj (Except.ok.inj h)
          rw [hstage] at hstage'
          have hbody' := readBody_append_line (fun h => readEntries_append_line steps h more) hbody
          rw [readEntry_stage hstage', readStageNumber_append_line hnumber]
          simp only [bind, Except.bind, skipInline_append_line, hbody']
      | none =>
          rw [hstage] at hstage'
          cases hparam : keyword? "param" cs with
          | some after =>
              rw [hparam] at hparam'
              rw [readEntry_param hstage hparam] at h
              obtain ⟨⟨p, afterParam⟩, hp, h⟩ := bind_eq_ok.mp h
              obtain ⟨rfl, rfl⟩ := Prod.mk.inj (Except.ok.inj h)
              rw [readEntry_param hstage' hparam', readParam_append_line hp hrest]
              rfl
          | none =>
              rw [hparam] at hparam'
              rw [readEntry_property hstage hparam] at h
              obtain ⟨⟨p, afterProperty⟩, hp, h⟩ := bind_eq_ok.mp h
              obtain ⟨rfl, rfl⟩ := Prod.mk.inj (Except.ok.inj h)
              rw [readEntry_property hstage' hparam', readProperty_append_line hp hrest]
              rfl

end

theorem readWorkflow_append_line {steps : Nat} {block : WorkflowBlock}
    (h : readWorkflow steps cs = .ok (block, rest)) (more : List Char) :
    readWorkflow steps (cs ++ '\n' :: more) = .ok (block, rest ++ '\n' :: more) := by
  rw [readWorkflow_eq] at h ⊢
  obtain ⟨⟨⟨jobType, entries⟩, afterBody⟩, hbody, h⟩ := bind_eq_ok.mp h
  obtain ⟨rfl, rfl⟩ := Prod.mk.inj (Except.ok.inj h)
  rw [readBody_append_line (fun h => readEntries_append_line steps h more) hbody]
  rfl

end Entries

end StagedJobs.Catalogue
