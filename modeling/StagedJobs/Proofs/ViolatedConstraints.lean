import StagedJobs.Param.Constraint
import StagedJobs.Proofs.ExactValues

namespace StagedJobs

/-- The length of what has one: strings in characters, lists and objects in parts. -/
inductive Value.HasLength : Value → Nat → Prop
  | string (s : String) : HasLength (.string s) s.length
  | list (items : List Value) : HasLength (.list items) items.length
  | object (fields : List (String × Value)) : HasLength (.object fields) fields.length

theorem Value.hasLength_iff {v : Value} {n : Nat} : v.HasLength n ↔ v.length? = some n := by
  constructor
  · intro h
    cases h with
    | string s => rfl
    | list items => rfl
    | object fields => rfl
  · intro h
    cases v with
    | string s =>
        obtain rfl := Option.some.inj h
        exact .string s
    | list items =>
        obtain rfl := Option.some.inj h
        exact .list items
    | object fields =>
        obtain rfl := Option.some.inj h
        exact .object fields
    | null => cases h
    | bool b => cases h
    | number n => cases h

theorem Value.all_length?_eq_false_iff {v : Value} {P : Nat → Bool} :
    v.length?.all P = false ↔ ∃ n, v.HasLength n ∧ P n = false := by
  simp only [Option.all_eq_false, hasLength_iff]

theorem Value.all_toBinary64?_eq_false_iff {v : Value} {P : Binary64 → Bool} :
    v.toBinary64?.all P = false ↔ ∃ n, v = .number n ∧ P n.toBinary64 = false := by
  cases v <;> simp [toBinary64?]

namespace Constraint

/-- A value that is outside of what a constraint allows. Numbers and the bounds on them are compared as
binary64 numbers. -/
inductive Violated : Constraint → Value → Prop
  | minValue {bound : Binary64} {n : Number} (h : n.toBinary64.Below bound) :
      Violated (.minValue bound) (.number n)
  | maxValue {bound : Binary64} {n : Number} (h : bound.Below n.toBinary64) :
      Violated (.maxValue bound) (.number n)
  | minLength {bound length : Nat} {v : Value} (hv : v.HasLength length) (h : length < bound) :
      Violated (.minLength bound) v
  | maxLength {bound length : Nat} {v : Value} (hv : v.HasLength length) (h : bound < length) :
      Violated (.maxLength bound) v
  | allowedValues {values : List Value} {v : Value} (h : ∀ a ∈ values, a.same v = false) :
      Violated (.allowedValues values) v

/-- The place in the order in which constraints are looked at. -/
def place : Constraint → Nat
  | .minValue _ => 0
  | .maxValue _ => 1
  | .minLength _ => 2
  | .maxLength _ => 3
  | .allowedValues _ => 4

theorem meets_eq_false_iff {c : Constraint} {v : Value} : c.meets v = false ↔ c.Violated v := by
  cases c with
  | minValue bound =>
      simp only [meets, Value.all_toBinary64?_eq_false_iff, Bool.not_eq_false',
        Binary64.less_eq_true_iff]
      constructor
      · rintro ⟨n, rfl, h⟩
        exact .minValue h
      · intro hviolated
        cases hviolated with
        | minValue h => exact ⟨_, rfl, h⟩
  | maxValue bound =>
      simp only [meets, Value.all_toBinary64?_eq_false_iff, Bool.not_eq_false',
        Binary64.less_eq_true_iff]
      constructor
      · rintro ⟨n, rfl, h⟩
        exact .maxValue h
      · intro hviolated
        cases hviolated with
        | maxValue h => exact ⟨_, rfl, h⟩
  | minLength bound =>
      simp only [meets, Value.all_length?_eq_false_iff, decide_eq_false_iff_not, Nat.not_le]
      constructor
      · rintro ⟨length, hlength, h⟩
        exact .minLength hlength h
      · intro hviolated
        cases hviolated with
        | minLength hlength h => exact ⟨_, hlength, h⟩
  | maxLength bound =>
      simp only [meets, Value.all_length?_eq_false_iff, decide_eq_false_iff_not, Nat.not_le]
      constructor
      · rintro ⟨length, hlength, h⟩
        exact .maxLength hlength h
      · intro hviolated
        cases hviolated with
        | maxLength hlength h => exact ⟨_, hlength, h⟩
  | allowedValues values =>
      rw [meets, List.any_eq_false]
      constructor
      · intro h
        exact .allowedValues (by simpa using h)
      · intro hviolated
        cases hviolated with
        | allowedValues h => simpa using h

theorem meets_eq_true_iff {c : Constraint} {v : Value} : c.meets v = true ↔ ¬ c.Violated v := by
  rw [← meets_eq_false_iff, Bool.not_eq_false]

theorem violated_minValue_iff {bound : Binary64} {n : Number} :
    (minValue bound).Violated (.number n) ↔ n.toBinary64.Below bound := by
  constructor
  · intro hviolated
    cases hviolated with
    | minValue h => exact h
  · exact .minValue

theorem violated_maxValue_iff {bound : Binary64} {n : Number} :
    (maxValue bound).Violated (.number n) ↔ bound.Below n.toBinary64 := by
  constructor
  · intro hviolated
    cases hviolated with
    | maxValue h => exact h
  · exact .maxValue

theorem not_violated_allowedValues_iff {values : List Value} {w : Value} :
    ¬ (allowedValues values).Violated w ↔ ∃ a ∈ values, a.same w = true := by
  rw [← meets_eq_true_iff, meets, List.any_eq_true]

end Constraint

namespace Constraints

variable {cs : Constraints} {c : Constraint} {v : Value}

/-- The first of the constraints, in the order of their places, that a value violates. -/
structure FirstViolated (cs : Constraints) (c : Constraint) (v : Value) : Prop where
  mem : c ∈ cs.inOrder
  violated : c.Violated v
  first : ∀ b ∈ cs.inOrder, b.place < c.place → ¬ b.Violated v

theorem pairwise_inOrder (cs : Constraints) :
    cs.inOrder.Pairwise fun b c => b.place < c.place := by
  simp [inOrder, List.pairwise_append, or_imp, forall_and, Constraint.place]

theorem forall_mem_inOrder {P : Constraint → Prop} :
    (∀ c ∈ cs.inOrder, P c) ↔
      (∀ bound ∈ cs.minValue, P (.minValue bound)) ∧
        (∀ bound ∈ cs.maxValue, P (.maxValue bound)) ∧
          (∀ bound ∈ cs.minLength, P (.minLength bound)) ∧
            (∀ bound ∈ cs.maxLength, P (.maxLength bound)) ∧
              ∀ values ∈ cs.allowedValues, P (.allowedValues values) := by
  simp only [inOrder, List.forall_mem_append, Option.mem_toList, Option.mem_def,
    Option.map_eq_some_iff, forall_exists_index, and_imp, forall_apply_eq_imp_iff₂, and_assoc]

theorem firstViolated?_eq_none_iff :
    cs.firstViolated? v = none ↔ ∀ c ∈ cs.inOrder, ¬ c.Violated v := by
  simp only [firstViolated?, List.find?_eq_none, Bool.not_eq_true', Constraint.meets_eq_false_iff]

theorem firstViolated_of_eq_some (h : cs.firstViolated? v = some c) : cs.FirstViolated c v := by
  obtain ⟨hviolated, before, after, horder, hbefore⟩ := List.find?_eq_some_iff_append.mp h
  have hpairwise := cs.pairwise_inOrder
  rw [horder, List.pairwise_append] at hpairwise
  obtain ⟨-, hfrom, -⟩ := hpairwise
  refine ⟨by rw [horder]; simp, Constraint.meets_eq_false_iff.mp (by simpa using hviolated), ?_⟩
  intro b hb hplace
  rw [← Constraint.meets_eq_true_iff]
  rw [horder, List.mem_append, List.mem_cons] at hb
  rcases hb with hb | rfl | hb
  · simpa using hbefore b hb
  · exact absurd hplace (Nat.lt_irrefl _)
  · -- What comes after the one found has a later place.
    exact absurd ((List.pairwise_cons.mp hfrom).1 b hb) (Nat.lt_asymm hplace)

end Constraints

end StagedJobs
