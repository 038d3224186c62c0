import StagedJobs.Catalogue.Lexeme

namespace StagedJobs

namespace Text

/-- Every range of the one list ends before or starts after every range of the other. -/
def apart (first second : List (Nat × Nat)) : Bool :=
  first.all fun r => second.all fun s => r.2 < s.1 || s.2 < r.1

theorem within_eq_false_of_apart {first second : List (Nat × Nat)} (h : apart first second)
    {c : Char} (hc : within first c) : within second c = false := by
  obtain ⟨r, hr, hcr⟩ := List.any_eq_true.mp hc
  rw [within, List.any_eq_false]
  intro s hs hcs
  have hapart := List.all_eq_true.mp (List.all_eq_true.mp h r hr) s hs
  simp only [Bool.and_eq_true, decide_eq_true_eq, Bool.or_eq_true] at hcr hcs hapart
  omega

theorem blankRanges_apart : apart blankRanges alphanumericRanges := by
  decide +kernel

theorem toNat_of_isAlphanum {c : Char} (h : c.isAlphanum) :
    48 ≤ c.toNat ∧ c.toNat ≤ 57 ∨ 65 ≤ c.toNat ∧ c.toNat ≤ 90 ∨ 97 ≤ c.toNat ∧ c.toNat ≤ 122 := by
  delta Char.isAlphanum Char.isAlpha Char.isUpper Char.isLower Char.isDigit at h
  simp only [Bool.or_eq_true, Bool.and_eq_true, decide_eq_true_eq, UInt32.le_iff_toNat_le,
    ge_iff_le] at h
  change ((65 ≤ c.toNat ∧ c.toNat ≤ 90) ∨ (97 ≤ c.toNat ∧ c.toNat ≤ 122)) ∨
    (48 ≤ c.toNat ∧ c.toNat ≤ 57) at h
  omega

theorem isAlphanumeric_of_isAlphanum {c : Char} (h : c.isAlphanum) : isAlphanumeric c := by
  have hbounds := toNat_of_isAlphanum h
  rw [isAlphanumeric, if_pos (by omega)]
  exact h

theorem isAlphanumeric_eq_false_of_isBlank {c : Char} (h : isBlank c) :
    isAlphanumeric c = false := by
  rw [isAlphanumeric]
  split
  · rw [Bool.eq_false_iff]
    intro halphanum
    have hbounds := toNat_of_isAlphanum halphanum
    simp only [isBlank, within, blankRanges, List.any_cons, List.any_nil, Bool.or_eq_true,
      Bool.and_eq_true, decide_eq_true_eq, Bool.or_false] at h
    omega
  · exact within_eq_false_of_apart blankRanges_apart h

end Text

namespace Catalogue

/-- What the members of a list are is decided by going through the list. -/
theorem forall_mem_of_all {p : Char → Prop} [DecidablePred p] {cs : List Char}
    (h : (cs.all fun c => decide (p c)) = true) : ∀ c ∈ cs, p c := by
  simpa using h

theorem isWordChar_of_isIdentifierChar {c : Char} (h : isIdentifierChar c) : isWordChar c := by
  simp [isWordChar, h]

theorem isIdentifierChar_of_isDigit {c : Char} (h : c.isDigit) : isIdentifierChar c := by
  have halphanum : c.isAlphanum := by simp [Char.isAlphanum, h]
  simp [isIdentifierChar, Text.isAlphanumeric_of_isAlphanum halphanum]

theorem isWordChar_of_isDigit {c : Char} (h : c.isDigit) : isWordChar c :=
  isWordChar_of_isIdentifierChar (isIdentifierChar_of_isDigit h)

theorem isWordChar_eq_false_of_isBlank {c : Char} (h : Text.isBlank c) : isWordChar c = false := by
  rw [isWordChar, isIdentifierChar, Text.isAlphanumeric_eq_false_of_isBlank h]
  simp only [Bool.false_or, Bool.or_eq_false_iff, decide_eq_false_iff_not]
  refine ⟨⟨?_, ?_⟩, ?_⟩ <;>
    · rintro rfl
      exact absurd h (by decide)

theorem isBlank_of_isInlineBlank {c : Char} (h : isInlineBlank c) : Text.isBlank c := by
  simp only [isInlineBlank, Bool.and_eq_true] at h
  exact h.1

theorem isBlank_eq_false_of_isWordChar {c : Char} (h : isWordChar c) : Text.isBlank c = false := by
  rw [Bool.eq_false_iff]
  intro hblank
  rw [isWordChar_eq_false_of_isBlank hblank] at h
  simp at h

theorem isWordChar_eq_false_of_isInlineBlank {c : Char} (h : isInlineBlank c) :
    isWordChar c = false :=
  isWordChar_eq_false_of_isBlank (isBlank_of_isInlineBlank h)

end Catalogue

end StagedJobs
