import Mathlib.Data.List.TakeDrop
import Mathlib.Data.List.TakeWhile
import StagedJobs.Proofs.Catalogue.CharacterClasses
import StagedJobs.Proofs.Catalogue.Writing
import StagedJobs.Proofs.WholeNumbers

namespace StagedJobs.Catalogue

/-- The text does not go on with a character of the class. -/
def Stops (isMember : Char → Bool) (cs : List Char) : Prop :=
  ∀ c ∈ cs.head?, isMember c = false

theorem Stops.nil (isMember : Char → Bool) : Stops isMember [] := by
  intro c hc
  simp at hc

theorem stops_cons_iff {isMember : Char → Bool} {c : Char} {cs : List Char} :
    Stops isMember (c :: cs) ↔ isMember c = false := by
  simp [Stops]

theorem Stops.mono {isMember isMember' : Char → Bool} {cs : List Char} (h : Stops isMember cs)
    (hsub : ∀ c, isMember' c = true → isMember c = true) : Stops isMember' cs := by
  intro c hc
  rw [Bool.eq_false_iff]
  intro hmember
  have hlarger := hsub c hmember
  rw [h c hc] at hlarger
  simp at hlarger

theorem span_append {isMember : Char → Bool} {run rest : List Char}
    (hrun : ∀ c ∈ run, isMember c = true) (hrest : Stops isMember rest) :
    (run ++ rest).span isMember = (run, rest) := by
  rw [List.span_eq_takeWhile_dropWhile, List.takeWhile_append_of_pos hrun,
    List.dropWhile_append_of_pos hrun]
  cases rest with
  | nil => simp
  | cons c rest => simp [stops_cons_iff.mp hrest]

theorem run?_append {isMember : Char → Bool} {s : String} {rest : List Char}
    (hne : s.toList ≠ []) (hrun : ∀ c ∈ s.toList, isMember c = true)
    (hrest : Stops isMember rest) : run? isMember (s.toList ++ rest) = some (s, rest) := by
  rw [run?, span_append hrun hrest]
  simp [hne]

theorem run?_eq_none {isMember : Char → Bool} {cs : List Char} (h : Stops isMember cs) :
    run? isMember cs = none := by
  have hspan : cs.span isMember = ([], cs) := @span_append isMember [] cs (by simp) h
  rw [run?, hspan]
  rfl

theorem skipInline_append {g : List Char} (hg : Inline g) (rest : List Char) :
    skipInline (g ++ rest) = skipInline rest :=
  List.dropWhile_append_of_pos hg

theorem skipInline_of_stops {cs : List Char} (h : Stops isInlineBlank cs) : skipInline cs = cs := by
  cases cs with
  | nil => rfl
  | cons c cs => exact List.dropWhile_cons_of_neg (by simp [stops_cons_iff.mp h])

theorem stops_dropWhile (isMember : Char → Bool) (cs : List Char) :
    Stops isMember (cs.dropWhile isMember) := by
  intro c hc
  have hnot := List.head?_dropWhile_not isMember cs
  rw [hc] at hnot
  simpa using hnot

@[simp] theorem skipInline_skipInline (cs : List Char) :
    skipInline (skipInline cs) = skipInline cs :=
  skipInline_of_stops (stops_dropWhile isInlineBlank cs)

theorem skipComment_append {text : List Char} (h : '\n' ∉ text) (rest : List Char) :
    skipComment (text ++ '\n' :: rest) = skipBlank rest := by
  induction text with
  | nil => simp [skipComment]
  | cons c text ih =>
      have hc : c ≠ '\n' := fun heq => h (by simp [heq])
      rw [List.cons_append, skipComment, if_neg hc]
      exact ih fun hmem => h (List.mem_cons_of_mem _ hmem)

theorem skipComment_of_notMem {text : List Char} (h : '\n' ∉ text) : skipComment text = [] := by
  induction text with
  | nil => rfl
  | cons c text ih =>
      have hc : c ≠ '\n' := fun heq => h (by simp [heq])
      rw [skipComment, if_neg hc]
      exact ih fun hmem => h (List.mem_cons_of_mem _ hmem)

theorem skipBlank_append {g : List Char} (hg : Blank g) (rest : List Char) :
    skipBlank (g ++ rest) = skipBlank rest := by
  induction hg with
  | nil => rfl
  | space hc _ ih =>
      rw [List.cons_append, skipBlank, if_pos hc]
      exact ih
  | comment htext _ ih =>
      rw [List.cons_append, List.append_assoc, skipBlank, if_neg (by decide), if_pos rfl,
        List.cons_append, skipComment_append htext]
      exact ih

/-- What ends white space and comments. -/
def isSkipped (c : Char) : Bool := Text.isBlank c || c = '#'

theorem skipBlank_of_stops {cs : List Char} (h : Stops isSkipped cs) : skipBlank cs = cs := by
  cases cs with
  | nil => rfl
  | cons c cs =>
      have hc := stops_cons_iff.mp h
      simp only [isSkipped, Bool.or_eq_false_iff, decide_eq_false_iff_not] at hc
      rw [skipBlank, if_neg (by simp [hc.1]), if_neg hc.2]

mutual

theorem stops_skipBlank : (cs : List Char) → Stops isSkipped (skipBlank cs)
  | [] => Stops.nil isSkipped
  | c :: rest => by
      rw [skipBlank]
      split
      case isTrue => exact stops_skipBlank rest
      case isFalse hblank =>
        split
        case isTrue => exact stops_skipComment rest
        case isFalse hhash => exact stops_cons_iff.mpr (by simp [isSkipped, hblank, hhash])

theorem stops_skipComment : (cs : List Char) → Stops isSkipped (skipComment cs)
  | [] => Stops.nil isSkipped
  | c :: rest => by
      rw [skipComment]
      split
      case isTrue => exact stops_skipBlank rest
      case isFalse => exact stops_skipComment rest

end

@[simp] theorem skipBlank_skipBlank (cs : List Char) : skipBlank (skipBlank cs) = skipBlank cs :=
  skipBlank_of_stops (stops_skipBlank cs)

theorem afterWord?_append (word : String) (rest : List Char) :
    Text.afterWord? word (word.toList ++ rest) = some rest := by
  rw [Text.afterWord?, if_pos (by simp)]
  simp [← String.length_toList]

theorem keyword?_append {word : String} {g : List Char} (hne : g ≠ []) (hg : Inline g)
    (rest : List Char) : keyword? word (word.toList ++ (g ++ rest)) = some (skipInline rest) := by
  cases g with
  | nil => exact absurd rfl hne
  | cons c g =>
      have hc : isInlineBlank c = true := hg c (by simp)
      rw [keyword?, afterWord?_append]
      simp only [List.cons_append, hc, if_true]
      rw [skipInline_append fun d hd => hg d (by simp [hd])]

theorem keyword?_eq_none {word : String} {name rest : List Char}
    (hword : ∀ c ∈ word.toList, isIdentifierChar c = true) (hne : name ≠ word.toList)
    (hname : ∀ c ∈ name, isIdentifierChar c = true) (hrest : Stops isIdentifierChar rest) :
    keyword? word (name ++ rest) = none := by
  rw [keyword?, Text.afterWord?]
  split
  case h_2 => rfl
  rename_i c after hafter
  split at hafter
  case isFalse => simp at hafter
  rename_i hprefix
  rw [List.isPrefixOf_iff_prefix] at hprefix
  obtain ⟨more, hmore⟩ := hprefix
  have hdrop : more = c :: after := by
    rw [← hmore, ← String.length_toList, List.drop_left] at hafter
    exact Option.some.inj hafter
  subst hdrop
  rcases List.append_eq_append_iff.mp hmore with ⟨mid, hmid, htail⟩ | ⟨mid, hmid, htail⟩
  · cases mid with
    | nil => exact absurd (by simpa using hmid) hne
    | cons d mid =>
        have hcd : c = d := (List.cons.inj htail).1
        have hd : isIdentifierChar c = true := hname c (by simp [hmid, hcd])
        have hblank : isInlineBlank c = false := by
          rw [Bool.eq_false_iff]
          intro hblank
          have hword := isWordChar_of_isIdentifierChar hd
          rw [isWordChar_eq_false_of_isInlineBlank hblank] at hword
          simp at hword
        simp [hblank]
  · cases mid with
    | nil => exact absurd (by simpa using hmid.symm) hne
    | cons d mid =>
        have hd : isIdentifierChar d = true := hword d (by simp [hmid])
        rw [htail, List.cons_append, stops_cons_iff, hd] at hrest
        simp at hrest

theorem quotedText?_append {s : String} (hs : '"' ∉ s.toList) (rest : List Char) :
    quotedText? (s.toList ++ '"' :: rest) = some (s, rest) := by
  have hspan : (s.toList ++ '"' :: rest).span (· ≠ '"') = (s.toList, '"' :: rest) := by
    apply span_append
    · intro c hc
      have hne : c ≠ '"' := by
        rintro rfl
        exact hs hc
      simpa using hne
    · simp [stops_cons_iff]
  rw [quotedText?, hspan]
  simp

theorem spanDigits_append {digits rest : List Char} (hdigits : ∀ c ∈ digits, c.isDigit = true)
    (hrest : Stops Char.isDigit rest) : spanDigits (digits ++ rest) = (digits, rest) :=
  span_append hdigits hrest

theorem stops_isDigit {cs : List Char} (h : Stops isWordChar cs) : Stops Char.isDigit cs :=
  h.mono fun _ => isWordChar_of_isDigit

theorem stops_isIdentifierChar {cs : List Char} (h : Stops isWordChar cs) :
    Stops isIdentifierChar cs :=
  h.mono fun _ => isWordChar_of_isIdentifierChar

theorem spanFraction_of_stops {cs : List Char} (h : Stops isWordChar cs) :
    Decimal.spanFraction cs = ([], cs) := by
  rw [Decimal.spanFraction]
  rintro rest rfl
  exact absurd (stops_cons_iff.mp h) (by decide)

theorem int64?_toInt (n : Int64) : int64? n.toInt = some n := by
  rw [int64?, if_pos ⟨n.le_toInt, n.toInt_lt⟩, Int64.ofInt_toInt]

theorem numeral?_whole {negative : Bool} {whole rest : List Char} {n : Int64}
    (hwhole : Digits whole) (hn : signedValue negative whole = n.toInt)
    (hrest : Stops isWordChar rest) : numeral? negative (whole ++ rest) = some (.int n, rest) := by
  have hne : whole.isEmpty = false := by simpa using hwhole.1
  rw [numeral?, spanDigits_append hwhole.2 (stops_isDigit hrest)]
  simp only [spanFraction_of_stops hrest, hne, Bool.false_eq_true, if_false, List.isEmpty_nil,
    if_true, hn, int64?_toInt, Option.map_some]

theorem numeral?_fraction {negative : Bool} {whole fraction rest : List Char}
    (hwhole : Digits whole) (hfraction : Digits fraction) (hrest : Stops isWordChar rest) :
    numeral? negative (whole ++ '.' :: (fraction ++ rest)) =
      some (.float (Decimal.ofDigits negative whole fraction 0).toBinary64, rest) := by
  have hne : whole.isEmpty = false := by simpa using hwhole.1
  have hnef : fraction.isEmpty = false := by simpa using hfraction.1
  have hpoint : Stops Char.isDigit ('.' :: (fraction ++ rest)) := by
    rw [stops_cons_iff]
    decide
  rw [numeral?, spanDigits_append hwhole.2 hpoint]
  simp only [Decimal.spanFraction, spanDigits_append hfraction.2 (stops_isDigit hrest), hne, hnef,
    Bool.false_eq_true, if_false]

/-- The sign of a number decides how the digits after it are read. -/
theorem number?_signText (negative : Bool) {whole : List Char} (hwhole : Digits whole)
    (rest : List Char) :
    number? (signText negative ++ (whole ++ rest)) = numeral? negative (whole ++ rest) := by
  cases negative with
  | true => rfl
  | false =>
      obtain ⟨hne, hdigits⟩ := hwhole
      cases whole with
      | nil => exact absurd rfl hne
      | cons c whole =>
          have hc : c.isDigit = true := hdigits c (by simp)
          have hminus : c ≠ '-' := by
            rintro rfl
            exact absurd hc (by decide)
          rw [signText, if_neg (by decide), List.nil_append, List.cons_append, number?]
          intro rest' hcons
          exact hminus (List.cons.inj hcons).1

theorem number?_append {x : Literal} {cs rest : List Char} (hx : x.SpelledAs cs)
    (hrest : Stops isWordChar rest) : number? (cs ++ rest) = some (x, rest) := by
  cases x with
  | int n =>
      obtain ⟨negative, whole, hwhole, hn, rfl⟩ := hx
      rw [List.append_assoc, number?_signText negative hwhole, numeral?_whole hwhole hn hrest]
  | float x =>
      obtain ⟨negative, whole, fraction, hwhole, hfraction, rfl, rfl⟩ := hx
      rw [List.append_assoc, List.append_assoc, number?_signText negative hwhole,
        List.cons_append, numeral?_fraction hwhole hfraction hrest]
  | quoted s => exact absurd hx id
  | word s => exact absurd hx id
  | list items => exact absurd hx id

/-- Whether a text starts as numerals do. -/
def startsNumber : List Char → Bool
  | [] => false
  | c :: rest => c.isDigit || (c = '-' && rest.head?.any Char.isDigit)

theorem any_head?_of_stops {isMember : Char → Bool} {cs : List Char} (h : Stops isMember cs) :
    cs.head?.any isMember = false := by
  cases cs with
  | nil => rfl
  | cons c cs => simpa using stops_cons_iff.mp h

theorem startsNumber_append {word rest : List Char} (hne : word ≠ [])
    (hword : startsNumber word = false) (hrest : Stops Char.isDigit rest) :
    startsNumber (word ++ rest) = false := by
  obtain ⟨c, word, rfl⟩ := List.exists_cons_of_ne_nil hne
  cases word with
  | nil =>
      rw [startsNumber, Bool.or_eq_false_iff] at hword
      rw [List.cons_append, List.nil_append, startsNumber, hword.1, any_head?_of_stops hrest]
      simp
  | cons d word => exact hword

theorem numeral?_eq_none {negative : Bool} {cs : List Char} (h : Stops Char.isDigit cs) :
    numeral? negative cs = none := by
  have hspan : spanDigits cs = ([], cs) := @spanDigits_append [] cs (by simp) h
  rw [numeral?, hspan]
  rfl

theorem number?_eq_none {cs : List Char} (h : startsNumber cs = false) : number? cs = none := by
  unfold number?
  split
  · rename_i rest
    apply numeral?_eq_none
    intro c hc
    obtain ⟨more, rfl⟩ := List.head?_eq_some_iff.mp hc
    simpa [startsNumber] using h
  · apply numeral?_eq_none
    intro c hc
    obtain ⟨more, rfl⟩ := List.head?_eq_some_iff.mp hc
    rw [startsNumber, Bool.or_eq_false_iff] at h
    exact h.1

theorem span_eq_iff {isMember : Char → Bool} {cs run rest : List Char} :
    cs.span isMember = (run, rest) ↔
      (∀ c ∈ run, isMember c = true) ∧ Stops isMember rest ∧ cs = run ++ rest := by
  constructor
  · intro h
    rw [List.span_eq_takeWhile_dropWhile] at h
    obtain ⟨rfl, rfl⟩ := Prod.mk.inj h
    exact ⟨fun c hc => List.mem_takeWhile_imp hc, stops_dropWhile isMember cs,
      List.takeWhile_append_dropWhile.symm⟩
  · rintro ⟨hrun, hrest, rfl⟩
    exact span_append hrun hrest

theorem run?_eq_some {isMember : Char → Bool} {cs rest : List Char} {s : String}
    (h : run? isMember cs = some (s, rest)) :
    s.toList ≠ [] ∧ (∀ c ∈ s.toList, isMember c = true) ∧ cs = s.toList ++ rest := by
  rw [run?] at h
  cases hspan : cs.span isMember with
  | mk run after =>
      obtain ⟨hrun, -, rfl⟩ := span_eq_iff.mp hspan
      simp only [hspan] at h
      split at h
      case isTrue => simp at h
      case isFalse hne =>
        obtain ⟨rfl, rfl⟩ := Prod.mk.inj (Option.some.inj h)
        exact ⟨by simpa using hne, by simpa using hrun, by simp⟩

theorem afterWord?_eq_some {word : String} {cs rest : List Char}
    (h : Text.afterWord? word cs = some rest) : cs = word.toList ++ rest := by
  rw [Text.afterWord?] at h
  split at h
  case isFalse => simp at h
  case isTrue hprefix =>
    obtain ⟨tail, rfl⟩ := List.isPrefixOf_iff_prefix.mp hprefix
    rw [← String.length_toList, List.drop_left] at h
    rw [Option.some.inj h]

theorem keyword?_eq_some {word : String} {cs rest : List Char} (h : keyword? word cs = some rest) :
    ∃ c after, isInlineBlank c = true ∧ cs = word.toList ++ c :: after ∧ rest = skipInline after := by
  rw [keyword?] at h
  split at h
  case h_2 => simp at h
  case h_1 c after hafter =>
    split at h
    case isFalse => simp at h
    case isTrue hblank =>
      exact ⟨c, after, hblank, afterWord?_eq_some hafter, (Option.some.inj h).symm⟩

theorem quotedText?_eq_some {cs rest : List Char} {s : String}
    (h : quotedText? cs = some (s, rest)) : '"' ∉ s.toList ∧ cs = s.toList ++ '"' :: rest := by
  rw [quotedText?] at h
  cases hspan : cs.span (· ≠ '"') with
  | mk run after =>
      obtain ⟨hrun, hafter, rfl⟩ := span_eq_iff.mp hspan
      rw [hspan] at h
      cases after with
      | nil => simp at h
      | cons c after =>
          obtain ⟨rfl, rfl⟩ := Prod.mk.inj (Option.some.inj h)
          have hc : c = '"' := by simpa [stops_cons_iff] using hafter
          subst hc
          refine ⟨?_, by simp⟩
          intro hmem
          simpa using hrun '"' (by simpa using hmem)

theorem int64?_eq_some {n : Int} {m : Int64} (h : int64? n = some m) : m.toInt = n := by
  rw [int64?] at h
  split at h
  case isFalse => simp at h
  case isTrue hbounds =>
    obtain rfl := Option.some.inj h
    exact Int64.toInt_ofInt_of_le hbounds.1 hbounds.2

theorem spanDigits_eq {cs digits rest : List Char} (h : spanDigits cs = (digits, rest)) :
    (∀ c ∈ digits, c.isDigit = true) ∧ cs = digits ++ rest := by
  obtain ⟨hdigits, -, hcs⟩ := span_eq_iff.mp h
  exact ⟨hdigits, hcs⟩

theorem numeral?_eq_some {negative : Bool} {cs rest : List Char} {x : Literal}
    (h : numeral? negative cs = some (x, rest)) :
    ∃ spelled, x.SpelledAs (signText negative ++ spelled) ∧ cs = spelled ++ rest := by
  rw [numeral?] at h
  cases hwhole : spanDigits cs with
  | mk whole afterWhole =>
      obtain ⟨hdigits, rfl⟩ := spanDigits_eq hwhole
      cases hfraction : Decimal.spanFraction afterWhole with
      | mk fraction afterFraction =>
          simp only [hwhole, hfraction] at h
          split at h
          case isTrue => simp at h
          case isFalse hne =>
            have hwholeDigits : Digits whole := ⟨by simpa using hne, hdigits⟩
            split at h
            case isTrue =>
              obtain ⟨n, hn, heq⟩ := Option.map_eq_some_iff.mp h
              obtain ⟨rfl, rfl⟩ := Prod.mk.inj heq
              exact ⟨whole, ⟨negative, whole, hwholeDigits, (int64?_eq_some hn).symm, rfl⟩, rfl⟩
            case isFalse hnef =>
              obtain ⟨rfl, rfl⟩ := Prod.mk.inj (Option.some.inj h)
              unfold Decimal.spanFraction at hfraction
              split at hfraction
              case h_1 tail =>
                obtain ⟨hfractionDigits, rfl⟩ := spanDigits_eq hfraction
                exact ⟨whole ++ '.' :: fraction, ⟨negative, whole, fraction, hwholeDigits,
                  ⟨by simpa using hnef, hfractionDigits⟩, rfl, by simp⟩, by simp⟩
              case h_2 =>
                obtain ⟨rfl, -⟩ := Prod.mk.inj hfraction
                simp at hnef

theorem number?_eq_some {cs rest : List Char} {x : Literal} (h : number? cs = some (x, rest)) :
    ∃ spelled, x.SpelledAs spelled ∧ cs = spelled ++ rest := by
  unfold number? at h
  split at h
  case h_1 tail =>
    obtain ⟨spelled, hspelled, rfl⟩ := numeral?_eq_some h
    exact ⟨'-' :: spelled, hspelled, rfl⟩
  case h_2 =>
    obtain ⟨spelled, hspelled, rfl⟩ := numeral?_eq_some h
    exact ⟨spelled, hspelled, rfl⟩

section Decimals

theorem digits_toDigits (n : Nat) : Digits (Nat.toDigits 10 n) :=
  ⟨Nat.toDigits_ne_nil, fun _ hc => Nat.isDigit_of_mem_toDigits (by decide) (by decide) hc⟩

theorem signedValue_toDigits (n : Int) :
    signedValue (n < 0) (Nat.toDigits 10 n.natAbs) = n := by
  rw [signedValue, digitsValue_toDigits]
  by_cases hn : n < 0
  · simp only [hn, decide_true, if_true]
    omega
  · simp only [hn, decide_false, Bool.false_eq_true, if_false]
    omega

theorem toList_toString (n : Int) :
    (toString n).toList = signText (n < 0) ++ Nat.toDigits 10 n.natAbs := by
  rw [toString_eq_digits, String.toList_append, String.toList_ofList, signText]
  by_cases hn : n < 0 <;> simp [hn]

theorem eq_of_mem_signText {negative : Bool} {c : Char} (h : c ∈ signText negative) : c = '-' := by
  rw [signText] at h
  split at h <;> simp_all

end Decimals

end StagedJobs.Catalogue
