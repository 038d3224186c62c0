import StagedJobs.Proofs.Catalogue.Lexemes
import StagedJobs.Proofs.Revalidation
import StagedJobs.Proofs.Rounding

namespace StagedJobs

/-- An optional sign and one digit or more, with any white space around them, and the number that they
denote. -/
def Denotes (s : String) (z : Int) : Prop :=
  ∃ sign digits, (Text.trim s).toList = sign ++ digits ∧ Catalogue.Digits digits ∧
    (sign = [] ∧ z = digitsValue digits ∨ sign = ['+'] ∧ z = digitsValue digits ∨
      sign = ['-'] ∧ z = -digitsValue digits)

namespace Binary64

variable {negative : Bool} {c : Nat}

theorem ofRatio_of_near (hlow : 2 ^ 63 ≤ c) (hhigh : c ≤ 2 ^ 63 + 1024) :
    ofRatio negative c 1 = ofRatio negative (2 ^ 63) 1 := by
  have hclosed : rankOfRatio (2 ^ 63 + 1024) 1 = rankOfRatio (2 ^ 63) 1 := by decide +kernel
  have habove := rankOfRatio_mono hhigh
  rw [hclosed] at habove
  rw [ofRatio, ofRatio, Nat.le_antisymm habove (rankOfRatio_mono hlow)]

theorem toInt64?_ofRatio_of_near (hlow : 2 ^ 63 ≤ c) (hhigh : c ≤ 2 ^ 63 + 1024) :
    (ofRatio negative c 1).toInt64? = if negative then some Int64.minValue else none := by
  rw [ofRatio_of_near hlow hhigh]
  cases negative with
  | true => decide +kernel
  | false => decide +kernel

/-- The whole numbers further on are rounded to magnitudes beyond 64 signed bits. -/
theorem toInt64?_ofRatio_of_far (h : 2 ^ 63 + 1024 < c) :
    (ofRatio negative c 1).toInt64? = none := by
  have hunits : (2 ^ 63 + 2048) * unitsPerOne ≤ units (rankOfRatio c 1) := by
    refine Nat.le_trans ?_ (units_mono (rankOfRatio_mono h))
    decide +kernel
  have hwhole : 2 ^ 63 + 2048 ≤ units (rankOfRatio c 1) / unitsPerOne :=
    (Nat.le_div_iff_mul_le (by decide)).mpr hunits
  rw [ofRatio, ofRank]
  split
  case isFalse => rfl
  case isTrue =>
    simp only [toInt64?, Finite.toInt?]
    split
    case isFalse => rfl
    case isTrue =>
      rw [Option.bind_some, int64?, if_neg]
      split <;> omega

end Binary64

theorem toBinary64_of_digits (negative : Bool) (digits : List Char) :
    (Decimal.ofDigits negative digits [] 0).toBinary64 =
      if 310 < digitCount (digitsValue digits) then .infinite negative
      else .ofRatio negative (digitsValue digits) 1 := by
  have hrank : Decimal.rank (digitsValue digits) 0 = Binary64.rankOfRatio (digitsValue digits) 1 := by
    simp [Decimal.rank]
  simp only [Decimal.ofDigits, Decimal.toBinary64, List.append_nil, List.length_nil,
    Int.natCast_zero, Int.sub_zero, Int.add_zero, hrank]
  by_cases hzero : digitsValue digits = 0
  · rw [hzero]
    rfl
  · have horder : ¬ (digitCount (digitsValue digits) : Int) < -330 := by omega
    have hlarge : 310 < (digitCount (digitsValue digits) : Int) ↔
        310 < digitCount (digitsValue digits) := by omega
    simp [hzero, horder, hlarge, Binary64.ofRatio]

theorem toLower_of_isDigit {c : Char} (h : c.isDigit = true) : c.toLower = c := by
  have hbelow : ¬ (c.val ≥ 'A'.val ∧ c.val ≤ 'Z'.val) := by
    simp only [Char.isDigit, Bool.and_eq_true, decide_eq_true_eq, ge_iff_le,
      UInt32.le_iff_toNat_le] at h ⊢
    have hnine : '9'.val.toNat < 'A'.val.toNat := by decide
    omega
  rw [Char.toLower, dif_neg hbelow]

section Digits

variable {cs digits : List Char} {negative : Bool}

theorem ofList_digits_ne (hdigits : Catalogue.Digits digits) (word : String) {c : Char}
    (hmem : c ∈ word.toList) (hc : c.isDigit = false) :
    String.ofList (digits.map Char.toLower) ≠ word := by
  rintro rfl
  rw [String.toList_ofList, List.map_congr_left fun c hc => toLower_of_isDigit (hdigits.2 c hc),
    List.map_id'] at hmem
  rw [hdigits.2 c hmem] at hc
  simp at hc

theorem readBinary64?_of_digits (hsign : splitSign cs = (negative, digits))
    (hdigits : Catalogue.Digits digits) :
    readBinary64? cs = some (Decimal.ofDigits negative digits [] 0).toBinary64 := by
  have hspan := Catalogue.spanDigits_append hdigits.2 (Catalogue.Stops.nil _)
  rw [List.append_nil] at hspan
  have hread : Decimal.read? negative digits = some (Decimal.ofDigits negative digits [] 0) := by
    simp [Decimal.read?, hspan, Decimal.spanFraction, hdigits.1, Decimal.readPower?]
  have hinf := ofList_digits_ne hdigits "inf" (c := 'i') (by decide) (by decide)
  have hinfinity := ofList_digits_ne hdigits "infinity" (c := 'i') (by decide) (by decide)
  have hnan := ofList_digits_ne hdigits "nan" (c := 'n') (by decide) (by decide)
  simp [readBinary64?, hsign, hinf, hinfinity, hnan, hread]

theorem readInt64?_of_digits (hsign : splitSign cs = (negative, digits))
    (hdigits : Catalogue.Digits digits) :
    readInt64? cs = int64? (signedValue negative digits) := by
  have hall : digits.all Char.isDigit = true := List.all_eq_true.mpr hdigits.2
  simp [readInt64?, hsign, hdigits.1, hall]

end Digits

theorem splitSign_of_isDigit {c : Char} {rest : List Char} (hc : c.isDigit = true) :
    splitSign (c :: rest) = (false, c :: rest) := by
  unfold splitSign
  split
  case h_1 heq =>
    obtain ⟨rfl, -⟩ := List.cons.inj heq
    exact absurd hc (by decide)
  case h_2 heq =>
    obtain ⟨rfl, -⟩ := List.cons.inj heq
    exact absurd hc (by decide)
  case h_3 => rfl

namespace Denotes

variable {s : String} {z : Int}

theorem splitSign_eq (h : Denotes s z) :
    ∃ negative digits, splitSign (Text.trim s).toList = (negative, digits) ∧
      Catalogue.Digits digits ∧ signedValue negative digits = z := by
  obtain ⟨sign, digits, htext, hdigits, hsign⟩ := h
  rw [htext]
  rcases hsign with ⟨rfl, rfl⟩ | ⟨rfl, rfl⟩ | ⟨rfl, rfl⟩
  · obtain ⟨c, rest, rfl⟩ := List.exists_cons_of_ne_nil hdigits.1
    exact ⟨false, _, splitSign_of_isDigit (hdigits.2 c List.mem_cons_self), hdigits, rfl⟩
  · exact ⟨false, digits, rfl, hdigits, rfl⟩
  · exact ⟨true, digits, rfl, hdigits, rfl⟩

theorem readInteger?_of_fits (h : Denotes s z) (hlow : -2 ^ 63 ≤ z) (hhigh : z < 2 ^ 63) :
    Value.readInteger? s = some (Int64.ofInt z) := by
  obtain ⟨negative, digits, hsign, hdigits, rfl⟩ := h.splitSign_eq
  have hfits : int64? (signedValue negative digits) = some (Int64.ofInt _) :=
    if_pos ⟨hlow, hhigh⟩
  rw [Value.readInteger?, readInt64?_of_digits hsign hdigits, hfits, Option.some_or]

theorem readInteger?_of_not_fits (h : Denotes s z) (hz : z < -2 ^ 63 ∨ 2 ^ 63 ≤ z) :
    Value.readInteger? s =
      if 310 < digitCount z.natAbs then none else (Binary64.ofRatio (z < 0) z.natAbs 1).toInt64? := by
  obtain ⟨negative, digits, hsign, hdigits, rfl⟩ := h.splitSign_eq
  have hnone : int64? (signedValue negative digits) = none := by
    refine if_neg ?_
    omega
  have hvalue : (signedValue negative digits).natAbs = digitsValue digits ∧
      decide (signedValue negative digits < 0) = negative := by
    cases negative with
    | true =>
        simp only [signedValue, if_true, decide_eq_true_eq] at hz ⊢
        omega
    | false =>
        simp only [signedValue, Bool.false_eq_true, if_false, decide_eq_false_iff_not] at hz ⊢
        omega
  rw [Value.readInteger?, readInt64?_of_digits hsign hdigits, hnone, Option.none_or,
    readBinary64?_of_digits hsign hdigits, Option.bind_some, toBinary64_of_digits, hvalue.1, hvalue.2]
  split
  · rfl
  · rfl

theorem readInteger?_of_near (h : Denotes s z) (hlow : -2 ^ 63 - 1024 ≤ z) (hhigh : z < -2 ^ 63) :
    Value.readInteger? s = some Int64.minValue := by
  have hcount : digitCount z.natAbs ≤ 19 :=
    (Nat.length_toDigits_le_iff (by decide) (by decide)).mpr (by omega)
  have hnegative : decide (z < 0) = true := decide_eq_true (by omega)
  rw [h.readInteger?_of_not_fits (.inl hhigh), if_neg (by omega),
    Binary64.toInt64?_ofRatio_of_near (by omega) (by omega), if_pos hnegative]

theorem readInteger?_of_far (h : Denotes s z) (hz : z < -2 ^ 63 - 1024 ∨ 2 ^ 63 ≤ z) :
    Value.readInteger? s = none := by
  rw [h.readInteger?_of_not_fits (by omega)]
  split
  case isTrue => rfl
  case isFalse =>
    by_cases hfar : 2 ^ 63 + 1024 < z.natAbs
    · exact Binary64.toInt64?_ofRatio_of_far hfar
    · have hpositive : ¬ decide (z < 0) = true := by
        simp only [decide_eq_true_eq]
        omega
      rw [Binary64.toInt64?_ofRatio_of_near (by omega) (by omega), if_neg hpositive]

end Denotes

namespace ParamType

variable {s : String} {z : Int}

theorem coerce_integer_string_of_eq_some {n : Int64} (h : Value.readInteger? s = some n)
    (name : String) : integer.coerce name (.string s) = .ok (.ofInt64 n) := by
  rw [coerce, convert?, Value.toInteger?, h, Option.map_some]

theorem coerce_integer_string_of_eq_none (h : Value.readInteger? s = none) (name : String) :
    integer.coerce name (.string s) = .error (.typeCoercion name .integer (.string s)) := by
  rw [coerce, convert?, Value.toInteger?, h, Option.map_none]
  rfl

/-- Digits are converted to the number that they denote where it has 64 signed bits, and are refused
where it is far from that. The numbers next below are all converted to the least number of 64 signed
bits, to which they are rounded. -/
theorem coerce_integer_of_denotes (h : Denotes s z) (name : String) :
    (-2 ^ 63 ≤ z → z < 2 ^ 63 → ∃ n : Whole, n.val = z ∧
      integer.coerce name (.string s) = .ok (.number (.whole n))) ∧
    (-2 ^ 63 - 1024 ≤ z → z < -2 ^ 63 → ∃ n : Whole, n.val = -2 ^ 63 ∧
      integer.coerce name (.string s) = .ok (.number (.whole n))) ∧
    (z < -2 ^ 63 - 1024 ∨ 2 ^ 63 ≤ z →
      integer.coerce name (.string s) = .error (.typeCoercion name .integer (.string s))) := by
  refine ⟨?_, ?_, ?_⟩
  · intro hlow hhigh
    refine ⟨.ofInt64 (Int64.ofInt z), Int64.toInt_ofInt_of_le hlow hhigh, ?_⟩
    exact coerce_integer_string_of_eq_some (h.readInteger?_of_fits hlow hhigh) name
  · intro hlow hhigh
    refine ⟨.ofInt64 Int64.minValue, by decide, ?_⟩
    exact coerce_integer_string_of_eq_some (h.readInteger?_of_near hlow hhigh) name
  · intro hz
    exact coerce_integer_string_of_eq_none (h.readInteger?_of_far hz) name

theorem denotes_greatest : Denotes " +9223372036854775807\t" (2 ^ 63 - 1) := by
  refine ⟨['+'], "9223372036854775807".toList, by decide +kernel, ⟨by decide, ?_⟩, ?_⟩
  · exact Catalogue.forall_mem_of_all (by decide)
  · exact .inr (.inl ⟨rfl, by decide⟩)

theorem greatest_integer_converted :
    Denotes " +9223372036854775807\t" (2 ^ 63 - 1) ∧
      ∃ n : Whole, n.val = 2 ^ 63 - 1 ∧
        integer.coerce "n" (.string " +9223372036854775807\t") = .ok (.number (.whole n)) := by
  obtain ⟨hfits, -, -⟩ := coerce_integer_of_denotes denotes_greatest "n"
  exact ⟨denotes_greatest, hfits (by omega) (by omega)⟩

/-- The text of the number below the least one is converted to the least one. -/
theorem belowLeast_integer_converted :
    Denotes "-9223372036854775809" (-2 ^ 63 - 1) ∧
      ∃ n : Whole, n.val ≠ -2 ^ 63 - 1 ∧
        integer.coerce "n" (.string "-9223372036854775809") = .ok (.number (.whole n)) := by
  have hdenotes : Denotes "-9223372036854775809" (-2 ^ 63 - 1) := by
    refine ⟨['-'], "9223372036854775809".toList, by decide +kernel, ⟨by decide, ?_⟩, ?_⟩
    · exact Catalogue.forall_mem_of_all (by decide)
    · exact .inr (.inr ⟨rfl, by decide⟩)
  have hread := hdenotes.readInteger?_of_near (by omega) (by omega)
  exact ⟨hdenotes, .ofInt64 Int64.minValue, by decide,
    coerce_integer_string_of_eq_some hread "n"⟩

end ParamType

theorem Text.trim_eq_self {s : String} (h : ∀ c ∈ s.toList, isBlank c = false) : trim s = s := by
  have hdrop : ∀ cs : List Char, (∀ c ∈ cs, isBlank c = false) → cs.dropWhile isBlank = cs := by
    intro cs hcs
    cases cs with
    | nil => rfl
    | cons c cs => exact List.dropWhile_cons_of_neg (by simp [hcs c List.mem_cons_self])
  rw [trim, hdrop _ h, hdrop _ fun c hc => h c (List.mem_reverse.mp hc), List.reverse_reverse,
    String.ofList_toList]

theorem denotes_toString (n : Int) : Denotes (toString n) n := by
  have hdigits := Catalogue.digits_toDigits n.natAbs
  have htext := Catalogue.toList_toString n
  have hvalue := Catalogue.signedValue_toDigits n
  have hblank : ∀ c ∈ (toString n).toList, Text.isBlank c = false := by
    intro c hc
    rw [htext] at hc
    rcases List.mem_append.mp hc with hsign | hdigit
    · obtain rfl := Catalogue.eq_of_mem_signText hsign
      decide
    · exact Catalogue.isBlank_eq_false_of_isWordChar
        (Catalogue.isWordChar_of_isDigit (hdigits.2 c hdigit))
  refine ⟨_, _, by rw [Text.trim_eq_self hblank, htext], hdigits, ?_⟩
  cases hsign : decide (n < 0) with
  | true =>
      rw [hsign] at hvalue
      exact .inr (.inr ⟨rfl, hvalue.symm⟩)
  | false =>
      rw [hsign] at hvalue
      exact .inl ⟨rfl, hvalue.symm⟩

namespace ParameterDraft

theorem coerceAllowed_of_singleton {d : ParameterDraft} {v : Value}
    (h : d.constraints.allowedValues = some [v]) :
    d.coerceAllowed = match d.type.coerce d.name v with
      | .ok w => .ok (some [w])
      | .error e => .error (.invalidAllowedValue d.name e) := by
  rw [coerceAllowed, h]
  simp only [List.mapM_cons, List.mapM_nil]
  cases d.type.coerce d.name v with
  | ok w => rfl
  | error e => rfl

/-- Where one value is allowed, another one is accepted if both are the same once the former is
converted, and the latter is of the type as it is. -/
theorem exists_build_allowing_iff {type : ParamType} {name : String} {v w : Value}
    (hnull : w ≠ .null) (hw : type.coerce name w = .ok w) :
    (∃ s, (ofSettings name type [.allowedValues [v]]).build = .ok s ∧
      s.validate (some w) = .ok (some w)) ↔
        isIdentifier name = true ∧ ∃ u, type.coerce name v = .ok u ∧ u.same w = true := by
  have hallowed : (ofSettings name type [.allowedValues [v]]).coerceAllowed =
      match type.coerce name v with
      | .ok u => .ok (some [u])
      | .error e => .error (.invalidAllowedValue name e) :=
    coerceAllowed_of_singleton rfl
  have hmeets : ∀ u : Value, (Constraints.firstViolated? { allowedValues := some [u] } w = none ↔
      u.same w = true) := by
    intro u
    simp [Constraints.firstViolated?, Constraints.inOrder, Constraint.meets]
  rw [ParamType.coerce_eq_ok_iff] at hw
  constructor
  · rintro ⟨s, hbuild, hvalid⟩
    obtain ⟨hname, -, -, allowed, hok, default, -, rfl⟩ := build_eq_ok_iff.mp hbuild
    refine ⟨checkIdentifier_eq_ok_iff.mp hname, ?_⟩
    rw [hallowed] at hok
    cases hv : type.coerce name v with
    | error e => simp [hv] at hok
    | ok u =>
        obtain rfl : some [u] = allowed := by simpa [hv] using hok
        rw [ParameterSpec.validate_of_ne_null hnull] at hvalid
        obtain ⟨w', hconform, hw'⟩ := Outcomes.map_eq_ok.mp hvalid
        obtain rfl := Option.some.inj hw'
        exact ⟨u, rfl, (hmeets u).mp (conform_eq_ok_iff.mp hconform).2⟩
  · rintro ⟨hname, u, hu, hsame⟩
    rw [hu] at hallowed
    refine ⟨_, build_eq_ok_iff.mpr ⟨checkIdentifier_eq_ok_iff.mpr hname, rfl, rfl,
        _, hallowed, none, rfl, rfl⟩, ?_⟩
    exact ParameterSpec.validate_of_conform hnull
      (conform_eq_ok_iff.mpr ⟨hw, (hmeets u).mpr hsame⟩)

end ParameterDraft

namespace ParamType

variable {n : Whole}

theorem coerce_integer_toString (h : n.val < 2 ^ 63) (name : String) :
    integer.coerce name (.string (toString n.val)) = .ok (.number (.whole n)) := by
  have hread := (denotes_toString n.val).readInteger?_of_fits n.lower h
  have hval : (Int64.ofInt n.val).toInt = n.val := Int64.toInt_ofInt_of_le n.lower h
  rw [coerce_integer_string_of_eq_some hread]
  simp only [Value.ofInt64, Whole.ofInt64, hval]

theorem coerce_integer_toString_of_unsigned (h : 2 ^ 63 ≤ n.val) (name : String) :
    integer.coerce name (.string (toString n.val)) =
      .error (.typeCoercion name .integer (.string (toString n.val))) :=
  coerce_integer_string_of_eq_none ((denotes_toString n.val).readInteger?_of_far (.inr h)) name

/-- A whole number and its text are converted alike to a whole number, save the numbers that only
unsigned 64 bits hold: these are taken as numbers and refused as text. -/
theorem coerce_integer_toString_iff (n : Whole) (name : String) :
    string.coerce name (.number (.whole n)) = .ok (.string (toString n.val)) ∧
    integer.coerce name (.number (.whole n)) = .ok (.number (.whole n)) ∧
    (integer.coerce name (.string (toString n.val)) = .ok (.number (.whole n)) ↔ n.val < 2 ^ 63) ∧
    (2 ^ 63 ≤ n.val → integer.coerce name (.string (toString n.val)) =
      .error (.typeCoercion name .integer (.string (toString n.val)))) ∧
    ((∃ s, (ParameterDraft.ofSettings name .integer
        [.allowedValues [.string (toString n.val)]]).build = .ok s ∧
      s.validate (some (.number (.whole n))) = .ok (some (.number (.whole n)))) ↔
        isIdentifier name = true ∧ n.val < 2 ^ 63) := by
  have hfits : (∃ u, integer.coerce name (.string (toString n.val)) = .ok u ∧
      u.same (.number (.whole n)) = true) ↔ n.val < 2 ^ 63 := by
    constructor
    · rintro ⟨u, hu, -⟩
      by_contra hge
      rw [coerce_integer_toString_of_unsigned (not_lt.mp hge)] at hu
      cases hu
    · intro hlt
      exact ⟨_, coerce_integer_toString hlt name, by simp [Value.same, Number.same]⟩
  refine ⟨rfl, rfl, ⟨?_, ?_⟩, ?_, ?_⟩
  · intro hok
    exact hfits.mp ⟨_, hok, by simp [Value.same, Number.same]⟩
  · intro hlt
    exact coerce_integer_toString hlt name
  · intro hge
    exact coerce_integer_toString_of_unsigned hge name
  · rw [ParameterDraft.exists_build_allowing_iff (by simp) rfl, hfits]

/-- The least number that only unsigned 64 bits hold is refused as text. -/
theorem leastUnsigned_integer_refused :
    ∃ n : Whole, n.val = 2 ^ 63 ∧ toString n.val = "9223372036854775808" ∧
      integer.coerce "n" (.number (.whole n)) = .ok (.number (.whole n)) ∧
      integer.coerce "n" (.string "9223372036854775808") =
        .error (.typeCoercion "n" .integer (.string "9223372036854775808")) := by
  have htext : toString (2 ^ 63 : Int) = "9223372036854775808" := by decide +kernel
  refine ⟨⟨2 ^ 63, by omega, by omega⟩, rfl, htext, rfl, ?_⟩
  rw [← htext]
  exact coerce_integer_string_of_eq_none
    ((denotes_toString (2 ^ 63)).readInteger?_of_far (.inr (by omega))) "n"

end ParamType

end StagedJobs
