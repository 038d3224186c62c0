import Mathlib
import StagedJobs.Proofs.Catalogue.Condensed
import StagedJobs.Proofs.Catalogue.Lexemes
import StagedJobs.Proofs.Outcomes

namespace StagedJobs.Catalogue

open Outcomes

theorem isKept_of_spelledAs {x : Literal} {cs : List Char} (h : x.SpelledAs cs) :
    ∀ c ∈ cs, IsKept c := by
  have hdigit : ∀ {digits : List Char}, Digits digits → ∀ c ∈ digits, IsKept c :=
    fun hdigits c hc => isKept_of_isWordChar (isWordChar_of_isDigit (hdigits.2 c hc))
  have hsign : ∀ negative, ∀ c ∈ signText negative, IsKept c := by
    intro negative c hc
    obtain rfl := eq_of_mem_signText hc
    decide
  cases x with
  | int n =>
      obtain ⟨negative, whole, hwhole, -, rfl⟩ := h
      intro c hc
      rcases List.mem_append.mp hc with hc | hc
      · exact hsign negative c hc
      · exact hdigit hwhole c hc
  | float x =>
      obtain ⟨negative, whole, fraction, hwhole, hfraction, -, rfl⟩ := h
      intro c hc
      rcases List.mem_append.mp hc with hc | hc
      · rcases List.mem_append.mp hc with hc | hc
        · exact hsign negative c hc
        · exact hdigit hwhole c hc
      · rcases List.mem_cons.mp hc with rfl | hc
        · decide
        · exact hdigit hfraction c hc
  | quoted s => exact absurd h id
  | word s => exact absurd h id
  | list items => exact absurd h id

namespace Accounts

variable {pieces : List Piece} {cs mid rest : List Char}

theorem word {isMember : Char → Bool} (hsub : ∀ c, isMember c = true → isWordChar c = true)
    {s : String} (hread : run? isMember cs = some (s, mid)) (h : Accounts pieces mid rest) :
    Accounts (.ofString s :: pieces) cs rest := by
  obtain ⟨-, hchars, rfl⟩ := run?_eq_some hread
  exact text (fun c hc => isKept_of_isWordChar (hsub c (hchars c hc))) h

theorem identifier {s : String} (hread : identifier? cs = some (s, mid))
    (h : Accounts pieces mid rest) : Accounts (.ofString s :: pieces) cs rest :=
  word (fun _ => isWordChar_of_isIdentifierChar) hread h

theorem keyword {s : String} (hs : ∀ c ∈ s.toList, IsKept c) (hread : keyword? s cs = some mid)
    (h : Accounts pieces mid rest) : Accounts (.ofString s :: .gap .separator :: pieces) cs rest := by
  obtain ⟨c, after, hblank, rfl, rfl⟩ := keyword?_eq_some hread
  have hskip : condense (skipInline after) = condense (c :: after) := by
    rw [condense_skipInline, condense_cons_of_isBlank (isBlank_of_isInlineBlank hblank)]
  exact text hs (gap .separator (h.skip hskip))

theorem quotedText {s : String} (hread : quotedText? cs = some (s, mid))
    (h : Accounts pieces mid rest) : Accounts (.quoted s :: pieces) ('"' :: cs) rest := by
  obtain ⟨hs, rfl⟩ := quotedText?_eq_some hread
  exact quoted hs h

theorem number {x : Literal} (hread : number? cs = some (x, mid)) (h : Accounts pieces mid rest) :
    Accounts (.number x :: pieces) cs rest := by
  obtain ⟨spelled, hspelled, rfl⟩ := number?_eq_some hread
  exact of_isKept hspelled (isKept_of_spelledAs hspelled) h

theorem mark {c : Char} (hc : IsKept c) (h : Accounts pieces cs rest) :
    Accounts (.text [c] :: pieces) (c :: cs) rest := by
  apply text _ h
  intro d hd
  obtain rfl : d = c := by simpa using hd
  exact hc

theorem mark_of_skipBlank {c : Char} (hc : IsKept c) (hskip : skipBlank cs = c :: mid)
    (h : Accounts pieces mid rest) : Accounts (.gap .blank :: .text [c] :: pieces) cs rest :=
  gap .blank (skip (mark hc h) (by rw [← hskip, condense_skipBlank]))

theorem listed {part : List Piece} {c : Char} {after : List Char} (hc : IsKept c)
    (hpart : Accounts part (skipBlank cs) after) (hskip : skipBlank after = c :: mid)
    (h : Accounts pieces mid rest) :
    Accounts (.gap .blank :: (part ++ .gap .blank :: .text [c] :: pieces)) cs rest :=
  gap .blank (skip (append hpart (mark_of_skipBlank hc hskip h)) (condense_skipBlank cs))

end Accounts

theorem number?_isNumber {cs rest : List Char} {x : Literal} (h : number? cs = some (x, rest)) :
    x.pieces = [.number x] := by
  obtain ⟨spelled, hspelled, -⟩ := number?_eq_some h
  cases x with
  | int n => rfl
  | float x => rfl
  | quoted s => exact absurd hspelled id
  | word s => exact absurd hspelled id
  | list items => exact absurd hspelled id

theorem accounts_scalar? {cs rest : List Char} {x : Literal} (h : scalar? cs = some (x, rest)) :
    Accounts x.pieces cs rest := by
  rw [scalar?] at h
  cases hnumber : number? cs with
  | some found =>
      rw [hnumber] at h
      obtain rfl := Option.some.inj h
      rw [number?_isNumber hnumber]
      exact Accounts.number hnumber (.nil rest)
  | none =>
      rw [hnumber, Option.none_or] at h
      obtain ⟨⟨s, after⟩, hrun, heq⟩ := Option.map_eq_some_iff.mp h
      obtain ⟨rfl, rfl⟩ := Prod.mk.inj heq
      exact Accounts.word (fun _ hc => hc) hrun (.nil after)

mutual

theorem accounts_readLiteral? : (steps : Nat) → {cs rest : List Char} → {x : Literal} →
    readLiteral? steps cs = some (x, rest) → Accounts x.pieces cs rest
  | 0, cs, rest, x, h => by simp [readLiteral?] at h
  | steps + 1, cs, rest, x, h => by
      unfold readLiteral? at h
      split at h
      case h_1 after =>
        obtain ⟨⟨s, after'⟩, hquoted, heq⟩ := Option.map_eq_some_iff.mp h
        obtain ⟨rfl, rfl⟩ := Prod.mk.inj heq
        exact Accounts.quotedText hquoted (.nil after')
      case h_2 after =>
        split at h
        case h_1 tail hskip =>
          obtain ⟨rfl, rfl⟩ := Prod.mk.inj (Option.some.inj h)
          exact Accounts.mark (by decide) (.mark_of_skipBlank (by decide) hskip (.nil tail))
        case h_2 =>
          obtain ⟨⟨items, tail⟩, hitems, heq⟩ := Option.map_eq_some_iff.mp h
          obtain ⟨rfl, rfl⟩ := Prod.mk.inj heq
          have haccounts := (accounts_readItems? steps hitems).2
          exact Accounts.mark (by decide) (haccounts.skip (condense_skipBlank after))
      case h_3 => exact accounts_scalar? h

theorem accounts_readItems? : (steps : Nat) → {cs rest : List Char} → {items : List Literal} →
    readItems? steps cs = some (items, rest) → items ≠ [] ∧ Accounts (itemPieces items) cs rest
  | 0, cs, rest, items, h => by simp [readItems?] at h
  | steps + 1, cs, rest, items, h => by
      rw [readItems?] at h
      obtain ⟨⟨item, after⟩, hitem, h⟩ := Option.bind_eq_some_iff.mp h
      have haccounts := accounts_readLiteral? steps hitem
      simp only at h
      split at h
      case h_1 tail hskip =>
        obtain ⟨⟨others, tail'⟩, hothers, heq⟩ := Option.bind_eq_some_iff.mp h
        obtain ⟨rfl, rfl⟩ := Prod.mk.inj (Option.some.inj heq)
        obtain ⟨hne, hmore⟩ := accounts_readItems? steps hothers
        obtain ⟨next, others, rfl⟩ := List.exists_cons_of_ne_nil hne
        exact ⟨by simp, .listed (by decide) haccounts hskip hmore⟩
      case h_2 tail hskip =>
        obtain ⟨rfl, rfl⟩ := Prod.mk.inj (Option.some.inj h)
        exact ⟨by simp, .listed (by decide) haccounts hskip (.nil tail)⟩
      case h_3 => simp at h

end

theorem accounts_readValues (steps : Nat) (cs : List Char) :
    Accounts ((readValues steps cs).1.flatMap fun x => .gap .separator :: x.pieces) cs
      (readValues steps cs).2 := by
  induction steps generalizing cs with
  | zero => exact Accounts.nil cs
  | succ steps ih =>
      rw [readValues]
      split
      case h_1 value after hread =>
        have hvalue := (accounts_readLiteral? steps hread).skip (condense_skipInline cs)
        have hvalues := (ih (skipInline after)).skip (condense_skipInline after)
        exact Accounts.append (.gap .separator hvalue) hvalues
      case h_2 => exact Accounts.nil cs

theorem accounts_assigned? {steps : Nat} {cs rest : List Char} {x : Literal}
    (h : assigned? steps cs = some (x, rest)) :
    Accounts (.gap .inline :: .text ['='] :: .gap .inline :: x.pieces) cs rest := by
  rw [assigned?] at h
  split at h
  case h_1 after hskip =>
    have hvalue := (accounts_readLiteral? steps h).skip (condense_skipInline after)
    have hequals := Accounts.mark (c := '=') (by decide) (.gap .inline hvalue)
    exact .gap .inline (hequals.skip (by rw [← hskip, condense_skipInline]))
  case h_2 => simp at h

theorem accounts_constraint? {steps : Nat} {cs rest : List Char} {c : String × Literal}
    (h : constraint? steps cs = some (c, rest)) : Accounts (constraintPieces c) cs rest := by
  obtain ⟨⟨name, after⟩, hname, h⟩ := Option.bind_eq_some_iff.mp h
  obtain ⟨⟨value, after'⟩, hvalue, heq⟩ := Option.bind_eq_some_iff.mp h
  obtain ⟨rfl, rfl⟩ := Prod.mk.inj (Option.some.inj heq)
  exact Accounts.identifier hname (accounts_assigned? hvalue)

theorem accounts_readConstraints? (steps : Nat) {cs rest : List Char}
    {constraints : List (String × Literal)}
    (h : readConstraints? steps cs = some (constraints, rest)) :
    constraints ≠ [] ∧ Accounts (constraintsPieces constraints) cs rest := by
  induction steps generalizing cs rest constraints with
  | zero => simp [readConstraints?] at h
  | succ steps ih =>
      rw [readConstraints?] at h
      obtain ⟨⟨first, after⟩, hfirst, h⟩ := Option.bind_eq_some_iff.mp h
      have haccounts := accounts_constraint? hfirst
      simp only at h
      split at h
      case h_1 tail hskip =>
        obtain ⟨⟨others, tail'⟩, hothers, heq⟩ := Option.bind_eq_some_iff.mp h
        obtain ⟨rfl, rfl⟩ := Prod.mk.inj (Option.some.inj heq)
        obtain ⟨hne, hmore⟩ := ih hothers
        obtain ⟨next, others, rfl⟩ := List.exists_cons_of_ne_nil hne
        exact ⟨by simp, .listed (by decide) haccounts hskip hmore⟩
      case h_2 tail hskip =>
        obtain ⟨rfl, rfl⟩ := Prod.mk.inj (Option.some.inj h)
        exact ⟨by simp, .listed (by decide) haccounts hskip (.nil tail)⟩
      case h_3 => simp at h

namespace ParamEntry

variable {p : ParamEntry} {cs rest : List Char}

theorem accounts_required (h : readRequired cs = (p.required, rest)) :
    Accounts p.requiredPieces cs rest := by
  unfold readRequired at h
  split at h
  case h_1 after =>
    obtain ⟨hrequired, rfl⟩ := Prod.mk.inj h
    rw [requiredPieces, if_pos hrequired.symm]
    exact Accounts.mark (by decide) (.nil after)
  case h_2 =>
    obtain ⟨hrequired, rfl⟩ := Prod.mk.inj h
    rw [requiredPieces, ← hrequired]
    exact Accounts.nil cs

theorem accounts_default {steps : Nat} (h : optionally (assigned? steps) cs = (p.default, rest)) :
    Accounts p.defaultPieces cs rest := by
  rw [optionally] at h
  split at h
  case h_1 x after hread =>
    obtain ⟨hdefault, rfl⟩ := Prod.mk.inj h
    rw [defaultPieces, ← hdefault]
    exact accounts_assigned? hread
  case h_2 =>
    obtain ⟨hdefault, rfl⟩ := Prod.mk.inj h
    rw [defaultPieces, ← hdefault]
    exact Accounts.nil cs

theorem accounts_constraints? {steps : Nat} {constraints : List (String × Literal)}
    (h : constraints? steps cs = some (constraints, rest)) :
    constraints ≠ [] ∧
      Accounts (.gap .inline :: .text ['['] :: constraintsPieces constraints) cs rest := by
  rw [constraints?] at h
  split at h
  case h_1 after hskip =>
    obtain ⟨hne, haccounts⟩ := accounts_readConstraints? steps h
    have hbracket := Accounts.mark (c := '[') (by decide) haccounts
    exact ⟨hne, .gap .inline (hbracket.skip (by rw [← hskip, condense_skipInline]))⟩
  case h_2 => simp at h

theorem accounts_constraintGroup {steps : Nat} {constraints : Option (List (String × Literal))}
    (h : optionally (constraints? steps) cs = (constraints, rest))
    (hp : p.constraints = constraints.getD []) : Accounts p.constraintGroupPieces cs rest := by
  rw [optionally] at h
  split at h
  case h_1 found after hread =>
    obtain ⟨rfl, rfl⟩ := Prod.mk.inj h
    obtain ⟨hne, haccounts⟩ := accounts_constraints? hread
    rw [constraintGroupPieces, hp, Option.getD_some, if_neg hne]
    exact haccounts
  case h_2 =>
    obtain ⟨rfl, rfl⟩ := Prod.mk.inj h
    rw [constraintGroupPieces, hp, Option.getD_none, if_pos rfl]
    exact Accounts.nil cs

theorem accounts_description? {s : String} (h : description? cs = some (s, rest)) :
    Accounts [.gap .inline, .quoted s] cs rest := by
  rw [description?] at h
  unfold quoted? at h
  split at h
  case h_1 after hskip =>
    have hquoted := Accounts.quotedText h (.nil rest)
    exact .gap .inline (hquoted.skip (by rw [← hskip, condense_skipInline]))
  case h_2 => simp at h

theorem accounts_description (h : optionally description? cs = (p.description, rest)) :
    Accounts p.descriptionPieces cs rest := by
  rw [optionally] at h
  split at h
  case h_1 s after hread =>
    obtain ⟨hdescription, rfl⟩ := Prod.mk.inj h
    rw [descriptionPieces, ← hdescription]
    exact accounts_description? hread
  case h_2 =>
    obtain ⟨hdescription, rfl⟩ := Prod.mk.inj h
    rw [descriptionPieces, ← hdescription]
    exact Accounts.nil cs

theorem accounts_readParamName {mid : List Char} {name : String} {pieces : List Piece}
    (h : readParamName cs = .ok (name, mid)) (hmore : Accounts pieces mid rest) :
    Accounts (.ofString name :: .gap .inline :: .text [':'] :: pieces) cs rest := by
  rw [readParamName] at h
  split at h
  case h_1 => simp at h
  case h_2 name' after hname =>
    split at h
    case h_1 after' hskip =>
      obtain ⟨rfl, rfl⟩ := Prod.mk.inj (Except.ok.inj h)
      have hcolon := Accounts.mark (c := ':') (by decide) hmore
      exact Accounts.identifier hname
        (.gap .inline (hcolon.skip (by rw [← hskip, condense_skipInline])))
    case h_2 => simp at h

theorem accounts_readParamType {mid : List Char} {type : String} {pieces : List Piece}
    (h : readParamType cs = .ok (type, mid)) (hmore : Accounts pieces mid rest) :
    Accounts (.ofString type :: pieces) cs rest := by
  rw [readParamType] at h
  split at h
  case h_1 found htype =>
    obtain rfl := Except.ok.inj h
    exact Accounts.identifier htype hmore
  case h_2 => simp at h

theorem accounts_readParam {steps : Nat} (h : readParam steps cs = .ok (p, rest)) :
    Accounts p.pieces cs rest := by
  rw [readParam] at h
  obtain ⟨⟨name, afterName⟩, hname, h⟩ := bind_eq_ok.mp h
  obtain ⟨⟨type, afterType⟩, htype, h⟩ := bind_eq_ok.mp h
  dsimp only at h
  rcases hrequired : readRequired afterType with ⟨required, afterMark⟩
  rcases hdefault : optionally (assigned? steps) afterMark with ⟨default, afterDefault⟩
  rcases hgroup : optionally (constraints? steps) afterDefault with ⟨constraints, afterGroup⟩
  rcases hdescription : optionally description? afterGroup with ⟨description, afterAll⟩
  simp only [hrequired, hdefault, hgroup, hdescription] at h
  obtain ⟨rfl, rfl⟩ := Prod.mk.inj (Except.ok.inj h)
  apply accounts_readParamName hname
  apply Accounts.gap
  apply Accounts.skip _ (condense_skipInline afterName)
  apply accounts_readParamType htype
  apply Accounts.append
  · apply Accounts.append
    · apply Accounts.append
      · exact accounts_required hrequired
      · exact accounts_default hdefault
    · exact accounts_constraintGroup hgroup rfl
  · exact accounts_description hdescription

end ParamEntry

theorem accounts_readProperty {steps : Nat} {cs rest : List Char} {p : Property}
    (h : readProperty steps cs = .ok (p, rest)) : Accounts p.pieces cs rest := by
  rw [readProperty] at h
  split at h
  case h_1 => simp at h
  case h_2 key after hkey =>
    obtain ⟨rfl, rfl⟩ := Prod.mk.inj (Except.ok.inj h)
    exact Accounts.identifier hkey (accounts_readValues steps after)

theorem condense_of_readLineEnd {cs rest : List Char} (h : readLineEnd cs = .ok rest) :
    condense rest = condense cs := by
  unfold readLineEnd at h
  split at h
  case h_1 =>
    obtain rfl := Except.ok.inj h
    rfl
  case h_2 c after =>
    split at h
    case isTrue =>
      obtain rfl := Except.ok.inj h
      exact condense_skipBlank (c :: after)
    case isFalse =>
      split at h
      case isTrue =>
        obtain rfl := Except.ok.inj h
        rfl
      case isFalse => simp at h

theorem accounts_readStageNumber {cs mid rest : List Char} {n : Nat} {pieces : List Piece}
    (h : readStageNumber cs = .ok (n, mid)) (hmore : Accounts pieces mid rest) :
    Accounts (.stageNumber n :: pieces) cs rest := by
  rw [readStageNumber] at h
  rcases hdigits : spanDigits cs with ⟨digits, after⟩
  obtain ⟨hchars, rfl⟩ := spanDigits_eq hdigits
  simp only [hdigits] at h
  split at h
  case isTrue => simp at h
  case isFalse hne =>
    split at h
    case isTrue =>
      obtain ⟨rfl, rfl⟩ := Prod.mk.inj (Except.ok.inj h)
      have hspelled : CountSpelledAs (digitsValue digits) digits :=
        ⟨⟨by simpa using hne, hchars⟩, rfl⟩
      refine Accounts.of_isKept hspelled ?_ hmore
      intro c hc
      exact isKept_of_isWordChar (isWordChar_of_isDigit (hchars c hc))
    case isFalse => simp at h

theorem accounts_readName {cs mid rest : List Char} {s : String} {pieces : List Piece}
    (h : readName cs = .ok (s, mid)) (hmore : Accounts pieces mid rest) :
    Accounts (.ofString s :: pieces) cs rest := by
  rw [readName] at h
  split at h
  case h_1 found hname =>
    obtain rfl := Except.ok.inj h
    exact (Accounts.identifier hname hmore).skip (condense_skipBlank cs)
  case h_2 => simp at h

theorem accounts_readOpening {cs mid rest : List Char} {pieces : List Piece}
    (h : readOpening cs = .ok mid) (hmore : Accounts pieces mid rest) :
    Accounts (.text ['\x7b'] :: pieces) cs rest := by
  unfold readOpening at h
  split at h
  case h_1 after =>
    obtain rfl := Except.ok.inj h
    exact Accounts.mark (by decide) hmore
  case h_2 => simp at h

theorem accounts_body {cs afterName atBody rest : List Char} {s : String} {entries : List Entry}
    (hname : readName cs = .ok (s, afterName))
    (hopening : readOpening (skipBlank afterName) = .ok atBody)
    (hentries : Accounts (entryPieces entries) (skipBlank atBody) rest) :
    Accounts (.ofString s :: .gap .blank :: .text ['\x7b'] :: .gap .blank :: entryPieces entries)
      cs rest := by
  have hbody := Accounts.gap .blank (hentries.skip (condense_skipBlank atBody))
  have hbrace := (accounts_readOpening hopening hbody).skip (condense_skipBlank afterName)
  exact accounts_readName hname (.gap .blank hbrace)

mutual

theorem accounts_readEntries : (steps : Nat) → {cs rest : List Char} → {entries : List Entry} →
    readEntries steps cs = .ok (entries, rest) → Accounts (entryPieces entries) cs rest
  | 0, cs, rest, entries, h => by simp [readEntries] at h
  | steps + 1, [], rest, entries, h => by simp [readEntries] at h
  | steps + 1, c :: tail, rest, entries, h => by
      rw [readEntries] at h
      split at h
      case isTrue hbrace =>
        obtain ⟨rfl, rfl⟩ := Prod.mk.inj (Except.ok.inj h)
        rw [hbrace]
        exact Accounts.mark (by decide) (.nil tail)
      case isFalse =>
        split at h
        case isFalse => simp at h
        case isTrue =>
          obtain ⟨⟨entry, after⟩, hentry, h⟩ := bind_eq_ok.mp h
          obtain ⟨next, hlineEnd, h⟩ := bind_eq_ok.mp h
          obtain ⟨⟨others, after'⟩, hothers, h⟩ := bind_eq_ok.mp h
          obtain ⟨rfl, rfl⟩ := Prod.mk.inj (Except.ok.inj h)
          have hfirst := accounts_readEntry steps hentry
          have hmore := accounts_readEntries steps hothers
          have hend : condense next = condense after := by
            rw [condense_of_readLineEnd hlineEnd, condense_skipInline]
          obtain ⟨gap, -, hpieces⟩ := entryPieces_cons entry others
          rw [hpieces]
          exact hfirst.append (.gap gap (hmore.skip hend))

theorem accounts_readEntry : (steps : Nat) → {cs rest : List Char} → {entry : Entry} →
    readEntry steps cs = .ok (entry, rest) → Accounts entry.pieces cs rest
  | 0, cs, rest, entry, h => by simp [readEntry] at h
  | steps + 1, cs, rest, entry, h => by
      rw [readEntry] at h
      split at h
      case h_1 after hkeyword =>
        obtain ⟨⟨number, afterNumber⟩, hnumber, h⟩ := bind_eq_ok.mp h
        obtain ⟨⟨taskType, afterName⟩, hname, h⟩ := bind_eq_ok.mp h
        obtain ⟨atBody, hopening, h⟩ := bind_eq_ok.mp h
        obtain ⟨⟨entries, afterBody⟩, hentries, h⟩ := bind_eq_ok.mp h
        obtain ⟨rfl, rfl⟩ := Prod.mk.inj (Except.ok.inj h)
        have hbody := accounts_body hname hopening (accounts_readEntries steps hentries)
        have hspaced := Accounts.gap .blankSeparator (hbody.skip (condense_skipInline afterNumber))
        have hstage := accounts_readStageNumber hnumber hspaced
        exact Accounts.keyword (forall_mem_of_all (by decide)) hkeyword hstage
      case h_2 after hnone hkeyword =>
        obtain ⟨⟨param, afterParam⟩, hparam, h⟩ := bind_eq_ok.mp h
        obtain ⟨rfl, rfl⟩ := Prod.mk.inj (Except.ok.inj h)
        have haccounts := ParamEntry.accounts_readParam hparam
        exact Accounts.keyword (forall_mem_of_all (by decide)) hkeyword haccounts
      case h_3 =>
        obtain ⟨⟨property, afterProperty⟩, hproperty, h⟩ := bind_eq_ok.mp h
        obtain ⟨rfl, rfl⟩ := Prod.mk.inj (Except.ok.inj h)
        exact accounts_readProperty hproperty

end

theorem accounts_readWorkflow {steps : Nat} {cs start rest : List Char} {b : WorkflowBlock}
    (hkeyword : keyword? "workflow" cs = some start)
    (h : readWorkflow steps start = .ok (b, rest)) : Accounts b.pieces cs rest := by
  rw [readWorkflow] at h
  obtain ⟨⟨jobType, afterName⟩, hname, h⟩ := bind_eq_ok.mp h
  obtain ⟨atBody, hopening, h⟩ := bind_eq_ok.mp h
  obtain ⟨⟨entries, afterBody⟩, hentries, h⟩ := bind_eq_ok.mp h
  obtain ⟨rfl, rfl⟩ := Prod.mk.inj (Except.ok.inj h)
  have hbody := accounts_body hname hopening (accounts_readEntries steps hentries)
  exact Accounts.keyword (forall_mem_of_all (by decide)) hkeyword (.gap .blank hbody)

theorem accounts_readWorkflows {steps : Nat} {cs : List Char} {blocks : List WorkflowBlock}
    (h : readWorkflows steps cs = .ok blocks) :
    Accounts (blocks.flatMap fun b => b.pieces ++ [.gap .blank]) cs [] := by
  induction steps generalizing cs blocks with
  | zero =>
      cases cs with
      | nil =>
          obtain rfl : [] = blocks := by simpa [readWorkflows] using h
          exact Accounts.nil []
      | cons c cs => simp [readWorkflows] at h
  | succ steps ih =>
      cases cs with
      | nil =>
          obtain rfl : [] = blocks := by simpa [readWorkflows] using h
          exact Accounts.nil []
      | cons c cs =>
          rw [readWorkflows] at h
          · split at h
            case h_1 => simp at h
            case h_2 start hkeyword =>
              obtain ⟨⟨block, after⟩, hblock, h⟩ := bind_eq_ok.mp h
              obtain ⟨others, hothers, heq⟩ := bind_eq_ok.mp h
              obtain rfl := Except.ok.inj heq
              have hmore := (ih hothers).skip (condense_skipBlank after)
              have hgap := Accounts.gap .blank (.nil after)
              exact ((accounts_readWorkflow hkeyword hblock).append hgap).append hmore
          · exact List.cons_ne_nil c cs

/-- Nothing but white space and comments is dropped: besides them, an accepted text holds what the
blocks that are parsed from it are written as, with some digits for each number. -/
theorem condense_eq_of_parse {text : String} {blocks : List WorkflowBlock}
    (h : parse text = .ok blocks) :
    ∃ written, Renders .plain (write blocks) written ∧ condense text.toList = condense written := by
  have hread : readText text.toList = .ok blocks := mapError_eq_ok.mp h
  have hblocks := (accounts_readWorkflows hread).skip (condense_skipBlank text.toList)
  have hend : Accounts [.gap .textEnd] [] [] := .gap .textEnd (.nil [])
  obtain ⟨written, kept, hwritten, hkept, hcs⟩ := Accounts.gap .blank (hblocks.append hend)
  refine ⟨written, hwritten, ?_⟩
  have hall : condense (written ++ []) = kept ++ condense [] := hkept []
  rw [hcs, ← hall, List.append_nil]

/-- A workflow with a parameter that leaves no part out. -/
def padded : WorkflowBlock :=
  ⟨"a", [.param ⟨"n", "int", true, some (.int 5), [("k", .word "c")], some "# d"⟩]⟩

def paddedText : String :=
  "workflow a \x7b # one\n param n :int! =05 [ k=c ] \"# d\" # two\n\x7d\n"

theorem padded_condensed :
    parse paddedText = .ok [padded] ∧
      ∃ written, Renders .plain (write [padded]) written ∧
        condense paddedText.toList = condense written := by
  have hparse : parse paddedText = .ok [padded] := by cbv
  exact ⟨hparse, condense_eq_of_parse hparse⟩

/-- A text with a stage number in other digits than the usual ones. -/
def leadingZeroText : String := "workflow a \x7b\nstage 01 b \x7b\n\x7d\n\x7d\n"

/-- The digits of a stage number are not kept, only the number. -/
theorem leadingZero_dropped :
    ∃ blocks, parse leadingZeroText = .ok blocks ∧
      ¬ ∃ written, Renders .exact (write blocks) written ∧
        condense leadingZeroText.toList = condense written := by
  refine ⟨[⟨"a", [.stage 1 "b" []]⟩], by cbv, ?_⟩
  rintro ⟨written, hwritten, hcondense⟩
  have hone : Nat.toDigits 10 1 = ['1'] := by decide
  have hexact : written = " workflow  a \x7b stage 1 b \x7b \x7d\n\x7d ".toList := by
    simpa [write, WorkflowBlock.pieces, Entry.pieces, entryPieces, Renders, Piece.ofString,
      Piece.Admits, Style.exact, Gap.plain, hone] using hwritten
  rw [hexact] at hcondense
  exact absurd hcondense (by decide)

end StagedJobs.Catalogue
