import Mathlib.Tactic.IntervalCases
import StagedJobs.Proofs.Json.Grammar

namespace StagedJobs.Json

open Catalogue

section Strings

variable {c : Char} {cs rest s : List Char} {n : Nat}

theorem hexValue?_of_hexDigit (h : HexDigit c n) : hexValue? c = some n := by
  obtain ⟨hn, rfl | rfl⟩ := h
  · decide +revert
  · decide +revert

theorem hexDigit_of_hexValue? (h : hexValue? c = some n) : HexDigit c n := by
  -- A digit is an ASCII character, and those are few enough to try each.
  have hascii : ∀ k < 128, ∀ m ∈ hexValue? (Char.ofNat k), HexDigit (Char.ofNat k) m := by
    simp only [HexDigit, Option.mem_def]
    decide +kernel
  have hlt : c.toNat < 128 := by
    rw [hexValue?] at h
    simp only [Char.isDigit_iff_toNat, Bool.and_eq_true, decide_eq_true_eq, Char.le_def,
      UInt32.le_iff_toNat_le] at h
    split at h
    case isTrue hc => exact Nat.lt_of_le_of_lt hc.2 (by decide)
    case isFalse =>
      split at h
      case isTrue hc => exact Nat.lt_of_le_of_lt hc.2 (by decide)
      case isFalse =>
        split at h
        case isTrue hc => exact Nat.lt_of_le_of_lt hc.2 (by decide)
        case isFalse => cases h
  have hc := hascii c.toNat hlt n
  rw [Char.ofNat_toNat] at hc
  exact hc h

theorem readUnit?_append (h : CodeUnit cs n) (rest : List Char) :
    readUnit? (cs ++ rest) = some (n, rest) := by
  cases h with
  | digits ha hb hc hd =>
      simp [readUnit?, hexValue?_of_hexDigit ha, hexValue?_of_hexDigit hb, hexValue?_of_hexDigit hc,
        hexValue?_of_hexDigit hd]

theorem readUnit?_eq_some (h : readUnit? cs = some (n, rest)) :
    ∃ used, CodeUnit used n ∧ cs = used ++ rest := by
  unfold readUnit? at h
  split at h
  case h_2 => cases h
  case h_1 a b c d after =>
    simp only [bind, Option.bind_eq_some_iff, Option.some.injEq, Prod.mk.injEq] at h
    obtain ⟨i, ha, j, hb, k, hc, l, hd, rfl, rfl⟩ := h
    exact ⟨[a, b, c, d], .digits (hexDigit_of_hexValue? ha) (hexDigit_of_hexValue? hb)
      (hexDigit_of_hexValue? hc) (hexDigit_of_hexValue? hd), rfl⟩

theorem CodeUnit.lt (h : CodeUnit cs n) : n < 0x10000 := by
  cases h with
  | digits ha hb hc hd =>
      have := ha.1
      have := hb.1
      have := hc.1
      have := hd.1
      omega

theorem toNat_bounds (c : Char) : c.toNat < 0xd800 ∨ 0xe000 ≤ c.toNat ∧ c.toNat < 0x110000 :=
  c.valid

theorem toNat_ofNat (h : n < 0xd800 ∨ 0xe000 ≤ n ∧ n < 0x110000) : (Char.ofNat n).toNat = n := by
  have hvalid : n.isValidChar := h
  rw [Char.ofNat, dif_pos hvalid]
  rfl

theorem readCodePoint?_unit (h : CodeUnit cs c.toNat) (rest : List Char) :
    readCodePoint? (cs ++ rest) = some (c, rest) := by
  have hbounds := toNat_bounds c
  have hhigh : ¬ (0xd800 ≤ c.toNat ∧ c.toNat < 0xdc00) := by omega
  have hlow : ¬ (0xdc00 ≤ c.toNat ∧ c.toNat < 0xe000) := by omega
  simp [readCodePoint?, readUnit?_append h, hhigh, hlow]

theorem readCodePoint?_pair {ds : List Char} {high low : Nat} (hhigh : CodeUnit cs (0xd800 + high))
    (hlow : CodeUnit ds (0xdc00 + low)) (hhighBound : high < 0x400) (hlowBound : low < 0x400)
    (h : c.toNat = 0x10000 + high * 0x400 + low) (rest : List Char) :
    readCodePoint? (cs ++ '\\' :: 'u' :: (ds ++ rest)) = some (c, rest) := by
  have hcode : Char.ofNat (0x10000 + high * 0x400 + low) = c := by rw [← h, Char.ofNat_toNat]
  have hhigh' : 0xd800 + high < 0xdc00 := by omega
  have hlow' : 0xdc00 + low < 0xe000 := by omega
  simp [readCodePoint?, readUnit?_append hhigh, readUnit?_append hlow, hhigh', hlow', hcode]

theorem readCodePoint?_eq_some (h : readCodePoint? cs = some (c, rest)) :
    ∃ used, SpellsChar ('\\' :: 'u' :: used) c ∧ cs = used ++ rest := by
  simp only [readCodePoint?, bind, Option.bind_eq_some_iff, Prod.exists, Bool.and_eq_true,
    decide_eq_true_eq] at h
  obtain ⟨unit, after, hunit, h⟩ := h
  obtain ⟨used, hused, rfl⟩ := readUnit?_eq_some hunit
  -- The first unit is the high half of a pair, a stray low half, or the character itself.
  split at h
  case isTrue hhigh =>
    split at h
    case h_2 => cases h
    case h_1 after =>
      simp only [Option.bind_eq_some_iff, Prod.exists] at h
      obtain ⟨low, after', hlow, h⟩ := h
      obtain ⟨used', hused', rfl⟩ := readUnit?_eq_some hlow
      split at h
      case isFalse => cases h
      case isTrue hlow =>
        obtain ⟨rfl, rfl⟩ := Prod.mk.inj (Option.some.inj h)
        obtain ⟨high, rfl⟩ := Nat.exists_eq_add_of_le hhigh.1
        obtain ⟨low, rfl⟩ := Nat.exists_eq_add_of_le hlow.1
        refine ⟨used ++ '\\' :: 'u' :: used', .pair hused hused' (by omega) (by omega) ?_, by simp⟩
        rw [toNat_ofNat (by omega)]
        omega
  case isFalse hhigh =>
    split at h
    case isTrue => cases h
    case isFalse hlow =>
      obtain ⟨rfl, rfl⟩ := Prod.mk.inj (Option.some.inj h)
      have hlt := hused.lt
      exact ⟨used, .unit (by rwa [toNat_ofNat (by omega)]), rfl⟩

theorem readEscape?_short {mark : Char} (h : (mark, c) ∈ shortEscapes) (rest : List Char) :
    readEscape? (mark :: rest) = some (c, rest) := by
  simp only [shortEscapes, List.mem_cons, Prod.mk.injEq, List.not_mem_nil, or_false] at h
  rcases h with ⟨rfl, rfl⟩ | ⟨rfl, rfl⟩ | ⟨rfl, rfl⟩ | ⟨rfl, rfl⟩ | ⟨rfl, rfl⟩ | ⟨rfl, rfl⟩ |
    ⟨rfl, rfl⟩ | ⟨rfl, rfl⟩ <;> rfl

theorem readEscape?_eq_some (h : readEscape? cs = some (c, rest)) :
    ∃ used, SpellsChar ('\\' :: used) c ∧ cs = used ++ rest := by
  have hshort : ∀ mark after, (mark, c) ∈ shortEscapes →
      ∃ used, SpellsChar ('\\' :: used) c ∧ mark :: after = used ++ after :=
    fun mark after hmem => ⟨[mark], .short hmem, rfl⟩
  unfold readEscape? at h
  split at h
  case h_9 after =>
    obtain ⟨used, hused, rfl⟩ := readCodePoint?_eq_some h
    exact ⟨'u' :: used, hused, rfl⟩
  case h_10 => cases h
  all_goals
    obtain ⟨rfl, rfl⟩ := Prod.mk.inj (Option.some.inj h)
    exact hshort _ _ (by decide)

theorem readChars?_append {after : List Char} {steps : Nat} (hc : SpellsChar cs c)
    (h : readChars? steps rest = some (s, after)) :
    readChars? (steps + 1) (cs ++ rest) = some (c :: s, after) := by
  have hescaped : ∀ used, readEscape? (used ++ rest) = some (c, rest) →
      readChars? (steps + 1) ('\\' :: (used ++ rest)) = some (c :: s, after) := by
    intro used hused
    simp [readChars?, hused, h]
  cases hc with
  | plain hcode hquote hescape =>
      rw [List.singleton_append, readChars?]
      · simp [Nat.not_lt.mpr hcode, h]
      · exact hquote
      · exact hescape
  | short hmark => exact hescaped _ (readEscape?_short hmark rest)
  | @unit _ ds hunit => exact hescaped ('u' :: ds) (readCodePoint?_unit hunit rest)
  | @pair _ ds es high low hhigh hlow hhighBound hlowBound hcode =>
      have hpair := readCodePoint?_pair hhigh hlow hhighBound hlowBound hcode rest
      rw [List.cons_append, List.cons_append, List.append_assoc]
      have hall := hescaped ('u' :: (ds ++ '\\' :: 'u' :: es))
      rw [List.cons_append, List.append_assoc] at hall
      exact hall hpair

theorem SpellsChar.length_pos (h : SpellsChar cs c) : 0 < cs.length := by
  cases h <;> simp

theorem readChars?_of_spells (h : SpellsChars cs s) {steps : Nat} (hsteps : cs.length < steps)
    (rest : List Char) : readChars? steps (cs ++ '"' :: rest) = some (s, rest) := by
  induction h generalizing steps with
  | nil =>
      obtain ⟨steps, rfl⟩ := Nat.exists_eq_succ_of_ne_zero (Nat.ne_of_gt hsteps)
      rfl
  | cons hc h ih =>
      rw [List.length_append] at hsteps
      have hpos := hc.length_pos
      obtain ⟨steps, rfl⟩ := Nat.exists_eq_succ_of_ne_zero (Nat.ne_of_gt (Nat.zero_lt_of_lt hsteps))
      rw [List.append_assoc]
      exact readChars?_append hc (ih (by omega))

theorem readChars?_eq_some {steps : Nat} (h : readChars? steps cs = some (s, rest)) :
    ∃ used, SpellsChars used s ∧ cs = used ++ '"' :: rest := by
  induction steps generalizing cs s with
  | zero => cases h
  | succ steps ih =>
      unfold readChars? at h
      split at h
      case h_1 => cases h
      case h_2 => cases h
      case h_3 =>
        obtain ⟨rfl, rfl⟩ := Prod.mk.inj (Option.some.inj h)
        exact ⟨[], .nil, rfl⟩
      case h_4 heq =>
        cases heq
        simp only [bind, Option.bind_eq_some_iff, Prod.exists, Option.some.injEq,
          Prod.mk.injEq] at h
        obtain ⟨c, after, hc, s, rest, hs, rfl, rfl⟩ := h
        obtain ⟨used, hused, rfl⟩ := readEscape?_eq_some hc
        obtain ⟨more, hmore, rfl⟩ := ih hs
        exact ⟨_, .cons hused hmore, by simp⟩
      case h_5 c after hquote hescape heq =>
        cases heq
        split at h
        case isTrue => cases h
        case isFalse hcode =>
          simp only [bind, Option.bind_eq_some_iff, Prod.exists, Option.some.injEq,
            Prod.mk.injEq] at h
          obtain ⟨s, rest, hs, rfl, rfl⟩ := h
          obtain ⟨used, hused, rfl⟩ := ih hs
          exact ⟨_, .cons (.plain (Nat.le_of_not_lt hcode) hquote hescape) hused, rfl⟩

theorem readString?_of_spells {name : String} (h : SpellsString cs name) {steps : Nat}
    (hsteps : cs.length < steps) (rest : List Char) :
    readString? steps (cs ++ rest) = some (name, rest) := by
  obtain ⟨ds, hds, rfl⟩ := h
  simp only [List.length_cons, List.length_append] at hsteps
  have hlt : ds.length < steps := by omega
  have hread := readChars?_of_spells hds hlt rest
  simp [readString?, hread]

theorem readString?_eq_some {name : String} {steps : Nat}
    (h : readString? steps cs = some (name, rest)) :
    ∃ used, SpellsString used name ∧ cs = used ++ rest := by
  unfold readString? at h
  split at h
  case h_2 => cases h
  case h_1 after =>
    simp only [bind, Option.bind_eq_some_iff, Prod.exists, Option.some.injEq, Prod.mk.injEq] at h
    obtain ⟨s, after, hs, rfl, rfl⟩ := h
    obtain ⟨used, hused, rfl⟩ := readChars?_eq_some hs
    exact ⟨_, ⟨used, by simpa using hused, rfl⟩, by simp⟩

end Strings

section Numerals

variable {negative : Bool} {cs rest digits fraction : List Char} {power : Int} {n : Number}

/-- The characters that a numeral may go on with. -/
def isNumberChar (c : Char) : Bool := c.isDigit || c = '.' || c = 'e' || c = 'E'

theorem Whole.ofInt?_eq_some_iff {z : Int} {n : Whole} : Whole.ofInt? z = some n ↔ n.val = z := by
  rw [Whole.ofInt?]
  split
  case isTrue h =>
    rw [Option.some.injEq]
    constructor
    · rintro rfl
      rfl
    · rintro rfl
      rfl
  case isFalse h =>
    simp only [reduceCtorEq, false_iff]
    rintro rfl
    exact h ⟨n.lower, n.upper⟩

theorem wholeValue?_eq_some_iff {n : Whole} :
    wholeValue? negative digits = some n ↔ IsWhole negative digits n := by
  rw [wholeValue?, IsWhole]
  split
  case isTrue h =>
    obtain ⟨rfl, hzero⟩ : negative = true ∧ digitsValue digits = 0 := by simpa using h
    simp [signedValue, hzero]
  case isFalse h =>
    rw [Whole.ofInt?_eq_some_iff, iff_self_and]
    rintro hn ⟨rfl, hzero⟩
    have hvalue : digitsValue digits = 0 := by
      rw [hn, signedValue, if_pos rfl] at hzero
      omega
    simp [hvalue] at h

theorem spellsMagnitude_of_wholeNumber? (hdigits : WholeDigits digits)
    (h : wholeNumber? negative digits = some n) : SpellsMagnitude negative digits n := by
  rw [wholeNumber?] at h
  cases hwhole : wholeValue? negative digits with
  | some w =>
      rw [hwhole] at h
      obtain rfl := Option.some.inj h
      exact .whole hdigits (wholeValue?_eq_some_iff.mp hwhole)
  | none =>
      rw [hwhole] at h
      refine .beyond hdigits ?_ h
      intro w hw
      rw [← wholeValue?_eq_some_iff, hwhole] at hw
      cases hw

theorem wholeNumber?_of_isWhole {w : Whole} (h : IsWhole negative digits w) :
    wholeNumber? negative digits = some (.whole w) := by
  rw [wholeNumber?, wholeValue?_eq_some_iff.mpr h]

theorem wholeNumber?_of_beyond (h : ∀ w, ¬ IsWhole negative digits w) :
    wholeNumber? negative digits = floatNumber? negative digits [] 0 := by
  cases hwhole : wholeValue? negative digits with
  | some w => exact absurd (wholeValue?_eq_some_iff.mp hwhole) (h w)
  | none => rw [wholeNumber?, hwhole]

theorem readFraction?_eq_some {read : Option (List Char)} (h : readFraction? cs = some (read, rest)) :
    ∃ used, SpellsFraction used (read.getD []) ∧ (read = none ↔ used = []) ∧ cs = used ++ rest := by
  unfold readFraction? at h
  split at h
  case h_2 =>
    obtain ⟨rfl, rfl⟩ := Prod.mk.inj (Option.some.inj h)
    exact ⟨[], .absent, by simp, rfl⟩
  case h_1 after =>
    cases hspan : spanDigits after with
    | mk digits after' =>
        obtain ⟨hdigits, rfl⟩ := spanDigits_eq hspan
        simp only [hspan] at h
        split at h
        case isTrue => cases h
        case isFalse hne =>
          obtain ⟨rfl, rfl⟩ := Prod.mk.inj (Option.some.inj h)
          exact ⟨'.' :: digits, .point ⟨by simpa using hne, hdigits⟩, by simp, rfl⟩

theorem readPowerDigits?_eq_some {read : Option Int}
    (h : readPowerDigits? negative cs = some (read, rest)) :
    ∃ digits, Digits digits ∧ read = some (signedValue negative digits) ∧ cs = digits ++ rest := by
  rw [readPowerDigits?] at h
  cases hspan : spanDigits cs with
  | mk digits after =>
      obtain ⟨hdigits, rfl⟩ := spanDigits_eq hspan
      simp only [hspan] at h
      split at h
      case isTrue => cases h
      case isFalse hne =>
        obtain ⟨rfl, rfl⟩ := Prod.mk.inj (Option.some.inj h)
        exact ⟨digits, ⟨by simpa using hne, hdigits⟩, rfl, rfl⟩

theorem readPower?_eq_some {read : Option Int} (h : readPower? cs = some (read, rest)) :
    ∃ used, SpellsPower used (read.getD 0) ∧ (read = none ↔ used = []) ∧ cs = used ++ rest := by
  unfold readPower? at h
  split at h
  case h_2 =>
    obtain ⟨rfl, rfl⟩ := Prod.mk.inj (Option.some.inj h)
    exact ⟨[], .absent, by simp, rfl⟩
  case h_1 mark after =>
    split at h
    case isFalse =>
      obtain ⟨rfl, rfl⟩ := Prod.mk.inj (Option.some.inj h)
      exact ⟨[], .absent, by simp, rfl⟩
    case isTrue hmark =>
      have hmark' : mark ∈ ['e', 'E'] := by simpa using hmark
      split at h
      case h_1 =>
        obtain ⟨digits, hdigits, rfl, rfl⟩ := readPowerDigits?_eq_some h
        exact ⟨mark :: '-' :: digits, .negative hmark' hdigits, by simp, rfl⟩
      case h_2 =>
        obtain ⟨digits, hdigits, rfl, rfl⟩ := readPowerDigits?_eq_some h
        exact ⟨mark :: (['+'] ++ digits), .positive hmark' (by simp) hdigits, by simp, rfl⟩
      case h_3 =>
        obtain ⟨digits, hdigits, rfl, rfl⟩ := readPowerDigits?_eq_some h
        exact ⟨mark :: ([] ++ digits), .positive hmark' (by simp) hdigits, by simp, rfl⟩

theorem readMagnitude?_eq_some (h : readMagnitude? negative cs = some (n, rest)) :
    ∃ used, SpellsMagnitude negative used n ∧ cs = used ++ rest := by
  rw [readMagnitude?] at h
  cases hspan : spanDigits cs with
  | mk digits after =>
      obtain ⟨hdigits, rfl⟩ := spanDigits_eq hspan
      simp only [hspan] at h
      split at h
      case isTrue => cases h
      case isFalse hfirst =>
        simp only [bind, Option.bind_eq_some_iff, Prod.exists] at h
        obtain ⟨fraction, after, hfraction, power, after', hpower, h⟩ := h
        obtain ⟨cs, hcs, hnone, rfl⟩ := readFraction?_eq_some hfraction
        obtain ⟨ds, hds, hnone', rfl⟩ := readPower?_eq_some hpower
        -- `hfirst` refuses an empty whole part and one with a leading zero.
        have hwhole : WholeDigits digits := by
          have hpos : digits ≠ [] := by
            rintro rfl
            simp at hfirst
          refine ⟨⟨hpos, hdigits⟩, ?_⟩
          have hlength := List.length_pos_iff.mpr hpos
          intro hzero
          simp only [hzero, decide_true, Bool.true_and, Bool.or_eq_true, decide_eq_true_eq,
            not_or] at hfirst
          omega
        split at h
        case isTrue hplain =>
          obtain ⟨rfl, rfl⟩ : fraction = none ∧ power = none := by simpa using hplain
          simp only [Option.bind_eq_some_iff, Option.some.injEq, Prod.mk.injEq] at h
          obtain ⟨n, hn, rfl, rfl⟩ := h
          obtain rfl := hnone.mp rfl
          obtain rfl := hnone'.mp rfl
          exact ⟨digits, spellsMagnitude_of_wholeNumber? hwhole hn, rfl⟩
        case isFalse hplain =>
          simp only [Option.bind_eq_some_iff, Option.some.injEq, Prod.mk.injEq] at h
          obtain ⟨n, hn, rfl, rfl⟩ := h
          refine ⟨digits ++ (cs ++ ds), .decimal hwhole hcs hds ?_ hn, by simp⟩
          rw [Ne, List.append_eq_nil_iff, ← hnone, ← hnone']
          simpa using hplain

theorem stops_isDigit_of_isNumberChar (h : Stops isNumberChar rest) : Stops Char.isDigit rest :=
  h.mono fun c hc => by simp [isNumberChar, hc]

theorem stops_point_of_isNumberChar (h : Stops isNumberChar rest) : Stops (· = '.') rest :=
  h.mono fun c hc => by simp [isNumberChar, of_decide_eq_true hc]

theorem readFraction?_of_spells (h : SpellsFraction cs fraction) (hrest : Stops Char.isDigit rest)
    (hpoint : Stops (· = '.') rest) : ∃ read, readFraction? (cs ++ rest) = some (read, rest) ∧
      read.getD [] = fraction ∧ (read = none ↔ cs = []) := by
  cases h with
  | absent =>
      refine ⟨none, ?_, rfl, by simp⟩
      rw [List.nil_append, readFraction?]
      rintro after rfl
      simp [stops_cons_iff] at hpoint
  | point hdigits =>
      refine ⟨some fraction, ?_, rfl, by simp⟩
      simp only [List.cons_append, readFraction?, spanDigits_append hdigits.2 hrest]
      simp [hdigits.1]

theorem readPowerDigits?_append (h : Digits digits) (hrest : Stops Char.isDigit rest) :
    readPowerDigits? negative (digits ++ rest) = some (some (signedValue negative digits), rest) := by
  rw [readPowerDigits?, spanDigits_append h.2 hrest]
  simp [h.1]

theorem readPower?_of_spells (h : SpellsPower cs power) (hrest : Stops isNumberChar rest) :
    ∃ read, readPower? (cs ++ rest) = some (read, rest) ∧ read.getD 0 = power ∧
      (read = none ↔ cs = []) := by
  cases h with
  | absent =>
      refine ⟨none, ?_, rfl, by simp⟩
      cases rest with
      | nil => rfl
      | cons c rest =>
          have hmark : ¬ (c = 'e' ∨ c = 'E') := by
            have hc := stops_cons_iff.mp hrest
            rintro (rfl | rfl) <;> exact absurd hc (by decide)
          simp [readPower?, hmark]
  | @positive mark sign digits hmark hsign hdigits =>
      refine ⟨some (signedValue false digits), ?_, rfl, by simp⟩
      have hmark' : mark = 'e' ∨ mark = 'E' := by simpa using hmark
      have hread : readPowerDigits? false (digits ++ rest) = _ :=
        readPowerDigits?_append hdigits (stops_isDigit_of_isNumberChar hrest)
      obtain rfl | rfl : sign = [] ∨ sign = ['+'] := by simpa using hsign
      · obtain ⟨c, digits, rfl⟩ := List.exists_cons_of_ne_nil hdigits.1
        have hc : c.isDigit = true := hdigits.2 c List.mem_cons_self
        have hminus : c ≠ '-' := by
          rintro rfl
          exact absurd hc (by decide)
        have hplus : c ≠ '+' := by
          rintro rfl
          exact absurd hc (by decide)
        rw [List.cons_append] at hread
        simp [readPower?, hmark', hminus, hplus, hread]
      · simp [readPower?, hmark', hread]
  | @negative mark digits hmark hdigits =>
      refine ⟨some (signedValue true digits), ?_, rfl, by simp⟩
      have hmark' : mark = 'e' ∨ mark = 'E' := by simpa using hmark
      have hread : readPowerDigits? true (digits ++ rest) = _ :=
        readPowerDigits?_append hdigits (stops_isDigit_of_isNumberChar hrest)
      simp [readPower?, hmark', hread]

theorem SpellsPower.stops {isMember : Char → Bool} (h : SpellsPower cs power)
    (hmarks : isMember 'e' = false ∧ isMember 'E' = false) (hrest : Stops isMember rest) :
    Stops isMember (cs ++ rest) := by
  have hmark : ∀ mark ∈ ['e', 'E'], isMember mark = false := by simpa using hmarks
  cases h with
  | absent => exact hrest
  | positive hmem => exact stops_cons_iff.mpr (hmark _ hmem)
  | negative hmem => exact stops_cons_iff.mpr (hmark _ hmem)

theorem SpellsFraction.stops {isMember : Char → Bool} (h : SpellsFraction cs fraction)
    (hpoint : isMember '.' = false) (hrest : Stops isMember rest) : Stops isMember (cs ++ rest) := by
  cases h with
  | absent => exact hrest
  | point => exact stops_cons_iff.mpr hpoint

theorem readMagnitude?_append (negative : Bool) {ds : List Char} (hdigits : WholeDigits digits)
    (hfraction : SpellsFraction cs fraction) (hpower : SpellsPower ds power)
    (hrest : Stops isNumberChar rest) :
    readMagnitude? negative (digits ++ (cs ++ (ds ++ rest))) =
      (if cs = [] ∧ ds = [] then wholeNumber? negative digits
        else floatNumber? negative digits fraction power).map (·, rest) := by
  have hdigit : Stops Char.isDigit (ds ++ rest) :=
    hpower.stops (by decide) (stops_isDigit_of_isNumberChar hrest)
  have hpoint : Stops (· = '.') (ds ++ rest) :=
    hpower.stops (by decide) (stops_point_of_isNumberChar hrest)
  obtain ⟨read, hread, hreadValue, hnone⟩ := readFraction?_of_spells hfraction hdigit hpoint
  obtain ⟨read', hread', hreadValue', hnone'⟩ := readPower?_of_spells hpower hrest
  have hfirst : ¬ (digits.isEmpty || digits.head? = some '0' && 1 < digits.length) = true := by
    have hne : digits.isEmpty = false := by simpa using hdigits.1.1
    simp only [hne, Bool.false_or, Bool.and_eq_true, decide_eq_true_eq, not_and]
    intro hzero
    have hlength := hdigits.2 hzero
    omega
  rw [readMagnitude?, spanDigits_append hdigits.1.2 (hfraction.stops (by decide) hdigit)]
  simp only [if_neg hfirst, hread, hread', hreadValue, hreadValue', bind, Option.bind_some,
    Bool.and_eq_true, Option.isNone_iff_eq_none, hnone, hnone']
  split <;> rw [Option.map_eq_bind] <;> rfl

theorem readMagnitude?_of_spells (h : SpellsMagnitude negative cs n)
    (hrest : Stops isNumberChar rest) :
    readMagnitude? negative (cs ++ rest) = some (n, rest) := by
  cases h with
  | whole hdigits hn =>
      have hread := readMagnitude?_append negative hdigits .absent .absent hrest
      simpa [wholeNumber?_of_isWhole hn] using hread
  | beyond hdigits hbeyond hn =>
      have hread := readMagnitude?_append negative hdigits .absent .absent hrest
      simpa [wholeNumber?_of_beyond hbeyond, hn] using hread
  | decimal hdigits hfraction hpower hne hn =>
      have hread := readMagnitude?_append negative hdigits hfraction hpower hrest
      simpa [← List.append_eq_nil_iff, hne, hn] using hread

end Numerals

variable {cs rest : List Char} {v : Value}

theorem SpellsMagnitude.exists_digit {negative : Bool} {ds : List Char} {n : Number}
    (h : SpellsMagnitude negative ds n) : ∃ c more, ds = c :: more ∧ c.isDigit = true := by
  have hfirst : ∀ digits rest, WholeDigits digits →
      ∃ c more, digits ++ rest = c :: more ∧ c.isDigit = true := by
    intro digits rest hdigits
    obtain ⟨c, more, rfl⟩ := List.exists_cons_of_ne_nil hdigits.1.1
    exact ⟨c, more ++ rest, rfl, hdigits.1.2 c List.mem_cons_self⟩
  cases h with
  | whole hdigits => simpa using hfirst _ [] hdigits
  | beyond hdigits => simpa using hfirst _ [] hdigits
  | decimal hdigits => exact hfirst _ _ hdigits

theorem readLeaf?_number {negative : Bool} {ds : List Char} {n : Number}
    (h : SpellsMagnitude negative ds n) (hrest : Stops isNumberChar rest) (steps : Nat) :
    readLeaf? steps (signText negative ++ (ds ++ rest)) = some (.number n, rest) := by
  have hread := readMagnitude?_of_spells h hrest
  cases negative with
  | true => simp [signText, readLeaf?, hread]
  | false =>
      obtain ⟨c, more, rfl, hc⟩ := h.exists_digit
      have hne : ∀ mark, mark.isDigit = false → ∀ after, c :: (more ++ rest) ≠ mark :: after := by
        rintro mark hmark after heq
        rw [← (List.cons.inj heq).1, hc] at hmark
        cases hmark
      rw [signText, if_neg Bool.false_ne_true, List.nil_append, List.cons_append] at *
      rw [readLeaf?, hread]
      · rfl
      · exact hne 'n' rfl
      · exact hne 't' rfl
      · exact hne 'f' rfl
      · exact hne '"' rfl
      · exact hne '-' rfl

theorem readLeaf?_of_spells (h : SpellsLeaf cs v) {steps : Nat} (hsteps : cs.length < steps)
    (hrest : Stops isNumberChar rest) : readLeaf? steps (cs ++ rest) = some (v, rest) := by
  cases h with
  | null =>
      have hread : Text.afterWord? "ull" ('u' :: 'l' :: 'l' :: rest) = some rest :=
        afterWord?_append "ull" rest
      simp [readLeaf?, hread]
  | boolTrue =>
      have hread : Text.afterWord? "rue" ('r' :: 'u' :: 'e' :: rest) = some rest :=
        afterWord?_append "rue" rest
      simp [readLeaf?, hread]
  | boolFalse =>
      have hread : Text.afterWord? "alse" ('a' :: 'l' :: 's' :: 'e' :: rest) = some rest :=
        afterWord?_append "alse" rest
      simp [readLeaf?, hread]
  | string h =>
      have hread := readString?_of_spells h hsteps rest
      obtain ⟨ds, -, rfl⟩ := h
      rw [List.cons_append] at hread ⊢
      simp only [readLeaf?, hread, bind, Option.bind_some]
  | number h =>
      obtain ⟨negative, ds, hds, rfl⟩ := h
      rw [List.append_assoc]
      exact readLeaf?_number hds hrest steps

theorem readLeaf?_eq_some {steps : Nat} (h : readLeaf? steps cs = some (v, rest)) :
    ∃ used, SpellsLeaf used v ∧ cs = used ++ rest := by
  unfold readLeaf? at h
  split at h
  all_goals
    simp only [bind, Option.bind_eq_some_iff, Prod.exists, Option.some.injEq, Prod.mk.injEq] at h
  case h_1 =>
    obtain ⟨after, hafter, rfl, rfl⟩ := h
    exact ⟨_, .null, congrArg ('n' :: ·) (afterWord?_eq_some hafter)⟩
  case h_2 =>
    obtain ⟨after, hafter, rfl, rfl⟩ := h
    exact ⟨_, .boolTrue, congrArg ('t' :: ·) (afterWord?_eq_some hafter)⟩
  case h_3 =>
    obtain ⟨after, hafter, rfl, rfl⟩ := h
    exact ⟨_, .boolFalse, congrArg ('f' :: ·) (afterWord?_eq_some hafter)⟩
  case h_4 =>
    obtain ⟨s, after, hs, rfl, rfl⟩ := h
    obtain ⟨used, hused, heq⟩ := readString?_eq_some hs
    exact ⟨used, .string hused, heq⟩
  case h_5 =>
    obtain ⟨n, after, hn, rfl, rfl⟩ := h
    obtain ⟨used, hused, rfl⟩ := readMagnitude?_eq_some hn
    exact ⟨'-' :: used, .number ⟨true, used, hused, rfl⟩, rfl⟩
  case h_6 =>
    obtain ⟨n, after, hn, rfl, rfl⟩ := h
    obtain ⟨used, hused, rfl⟩ := readMagnitude?_eq_some hn
    exact ⟨used, .number ⟨false, used, hused, rfl⟩, rfl⟩

end StagedJobs.Json
