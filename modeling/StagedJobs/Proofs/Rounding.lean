import StagedJobs.Proofs.WholeNumbers

namespace StagedJobs

theorem divHalfEven_le (num den : Nat) : divHalfEven num den ≤ num / den + 1 := by
  simp only [divHalfEven]
  split
  · exact Nat.le_succ _
  · split
    · have hparity : num / den % 2 < 2 := Nat.mod_lt _ (by decide)
      omega
    · exact Nat.le_refl _

theorem divHalfEven_mono {num num' den : Nat} (h : num ≤ num') :
    divHalfEven num den ≤ divHalfEven num' den := by
  have hquotient : num / den ≤ num' / den := Nat.div_le_div_right h
  rcases Nat.eq_or_lt_of_le hquotient with heq | hlt
  · -- One quotient: the greater remainder is rounded up whenever the smaller one is.
    have hsum := Nat.div_add_mod num den
    have hsum' := Nat.div_add_mod num' den
    rw [← heq] at hsum'
    have hremainder : num % den ≤ num' % den := by omega
    simp only [divHalfEven, ← heq]
    generalize num % den = r at hremainder
    generalize num' % den = r' at hremainder
    grind
  · exact Nat.le_trans (divHalfEven_le num den) (Nat.le_trans hlt le_divHalfEven)

namespace Binary64

variable {n m r s : Nat} {a b : Int}

theorem divHalfEven_significand_bounds (hn : 0 < n) :
    2 ^ 52 ≤ divHalfEven (n * 2 ^ 52) (2 ^ n.log2) ∧
      divHalfEven (n * 2 ^ 52) (2 ^ n.log2) ≤ 2 ^ 53 := by
  have hpos : 0 < 2 ^ n.log2 := Nat.two_pow_pos _
  have hlow : 2 ^ n.log2 ≤ n := Nat.log2_self_le (Nat.ne_of_gt hn)
  have hhigh : n < 2 ^ n.log2 * 2 := by
    rw [← Nat.pow_succ]
    exact Nat.lt_log2_self
  constructor
  · refine Nat.le_trans ?_ le_divHalfEven
    rw [Nat.le_div_iff_mul_le hpos, Nat.mul_comm]
    exact Nat.mul_le_mul_right _ hlow
  · refine Nat.le_trans (divHalfEven_le _ _) ?_
    rw [Nat.succ_le_iff, Nat.div_lt_iff_lt_mul hpos]
    omega

theorem rankOfRatio_mono (h : n ≤ m) : rankOfRatio n 1 ≤ rankOfRatio m 1 := by
  rcases Nat.eq_zero_or_pos n with rfl | hn
  · have hzero : rankOfRatio 0 1 = 0 := by decide
    rw [hzero]
    exact Nat.zero_le _
  · have hm : 0 < m := Nat.lt_of_lt_of_le hn h
    have hlog : n.log2 ≤ m.log2 :=
      (Nat.le_log2 (Nat.ne_of_gt hm)).mpr (Nat.le_trans (Nat.log2_self_le (Nat.ne_of_gt hn)) h)
    rw [rankOfRatio_one hn, rankOfRatio_one hm]
    rcases Nat.eq_or_lt_of_le hlog with heq | hlt
    · rw [← heq]
      exact Nat.add_le_add_left (divHalfEven_mono (Nat.mul_le_mul_right _ h)) _
    · have hbelow := (divHalfEven_significand_bounds hn).2
      have habove := (divHalfEven_significand_bounds hm).1
      omega

theorem rankOfRatio_pos (hn : 0 < n) : 0 < rankOfRatio n 1 :=
  Nat.lt_of_lt_of_le (by decide +kernel : 0 < rankOfRatio 1 1) (rankOfRatio_mono hn)

theorem units_lt_units_succ (r : Nat) : units r < units (r + 1) := by
  simp only [units, shift, Nat.shiftRight_eq_div_pow, Nat.shiftLeft_eq]
  have hshift : (r + 1) / 2 ^ 52 - 1 = r / 2 ^ 52 - 1 ∨
      (r + 1) / 2 ^ 52 - 1 = r / 2 ^ 52 - 1 + 1 ∧ r + 1 = (r / 2 ^ 52 - 1 + 2) * 2 ^ 52 := by
    omega
  have hsignificand : (r / 2 ^ 52 - 1) * 2 ^ 52 ≤ r := by omega
  generalize r / 2 ^ 52 - 1 = s at hshift hsignificand ⊢
  generalize (r + 1) / 2 ^ 52 - 1 = t at hshift ⊢
  rcases hshift with rfl | ⟨rfl, hrank⟩
  · exact Nat.mul_lt_mul_of_pos_right (by omega) (Nat.two_pow_pos _)
  · -- The first significand of a shift, doubled, is one more than the last of the shift before.
    have hpow : 2 ^ (s + 1) = 2 * 2 ^ s := Nat.pow_succ'
    rw [hpow, ← Nat.mul_assoc]
    exact Nat.mul_lt_mul_of_pos_right (by omega) (Nat.two_pow_pos _)

theorem units_strictMono : StrictMono units :=
  strictMono_nat_of_lt_succ units_lt_units_succ

theorem units_mono (h : r ≤ s) : units r ≤ units s :=
  units_strictMono.monotone h

theorem ofRank_eq_iff {negative negative' : Bool} :
    ofRank negative r = ofRank negative' s ↔
      negative = negative' ∧ min r infinityRank = min s infinityRank := by
  simp only [ofRank]
  split <;> split <;> simp <;> omega

/-- Whole numbers in the order of their places, which all of them have, however great they are. -/
theorem place?_ofInt (n : Int) :
    (ofInt n).place? = some (if n < 0 then -((min (rankOfRatio n.natAbs 1) infinityRank : Nat) : Int)
      else (min (rankOfRatio n.natAbs 1) infinityRank : Nat)) := by
  rw [ofInt, ofRatio, ofRank]
  split
  case isTrue hlt =>
    rw [Nat.min_eq_left (Nat.le_of_lt hlt)]
    simp only [place?, Finite.place, decide_eq_true_eq]
  case isFalse hge =>
    rw [Nat.min_eq_right (Nat.le_of_not_lt hge)]
    by_cases hneg : n < 0
    · simp [hneg, place?]
    · simp [hneg, place?]

theorem less_ofInt_iff : (ofInt a).less (ofInt b) = true ↔ a < b ∧ ofInt a ≠ ofInt b := by
  have hsame : ofInt a = ofInt b ↔ (a < 0 ↔ b < 0) ∧
      min (rankOfRatio a.natAbs 1) infinityRank = min (rankOfRatio b.natAbs 1) infinityRank := by
    rw [ofInt, ofInt, ofRatio, ofRatio, ofRank_eq_iff, decide_eq_decide]
  have hpos : ∀ k : Nat, 0 < k → 0 < min (rankOfRatio k 1) infinityRank := fun k hk =>
    Nat.lt_min.mpr ⟨rankOfRatio_pos hk, by decide⟩
  have hmono : ∀ k l : Nat, k ≤ l →
      min (rankOfRatio k 1) infinityRank ≤ min (rankOfRatio l 1) infinityRank := fun k l h =>
    min_le_min_right _ (rankOfRatio_mono h)
  have ha := hpos a.natAbs
  have hb := hpos b.natAbs
  have hab := hmono a.natAbs b.natAbs
  have hba := hmono b.natAbs a.natAbs
  rw [less, place?_ofInt, place?_ofInt, ne_eq, hsame, decide_eq_true_eq]
  generalize min (rankOfRatio a.natAbs 1) infinityRank = ra at *
  generalize min (rankOfRatio b.natAbs 1) infinityRank = rb at *
  split <;> split <;> omega

theorem eq_of_ofInt_eq (h : ofInt a = ofInt b) (hb : b.natAbs < 2 ^ 53) : a = b := by
  obtain ⟨hsign, hrank⟩ : (a < 0 ↔ b < 0) ∧
      min (rankOfRatio a.natAbs 1) infinityRank = min (rankOfRatio b.natAbs 1) infinityRank := by
    rwa [ofInt, ofInt, ofRatio, ofRatio, ofRank_eq_iff, decide_eq_decide] at h
  have hfinite : rankOfRatio b.natAbs 1 < infinityRank :=
    Nat.lt_of_le_of_lt (rankOfRatio_le (Nat.le_of_lt hb)) (by decide)
  have heq : rankOfRatio a.natAbs 1 = rankOfRatio b.natAbs 1 := by omega
  rcases eq_of_rankOfRatio_eq (Nat.le_of_lt hb) heq with hnat | hnat
  · omega
  · -- The number past `2 ^ 53` is rounded to `2 ^ 53`, which `b` is not.
    have htie : rankOfRatio (2 ^ 53) 1 = rankOfRatio (2 ^ 53 + 1) 1 := by decide +kernel
    rw [hnat, ← htie] at heq
    have hlast := eq_of_rankOfRatio_eq (Nat.le_of_lt hb) heq
    omega

end Binary64

end StagedJobs
