import StagedJobs.Json.Text
import StagedJobs.Proofs.Json.Decimals
import StagedJobs.Proofs.Json.Reading

namespace StagedJobs

namespace Json

open Catalogue

section Leaves

variable {n : Nat}

theorem hexDigit_digitChar (h : n < 16) : HexDigit (Nat.digitChar n) n := ⟨h, .inl rfl⟩

theorem spellsChar_escapeChar (c : Char) : SpellsChar (escapeChar c) c := by
  have hshort : ∀ mark k, (mark, Char.ofNat k) ∈ shortEscapes → c.toNat = k →
      SpellsChar ['\\', mark] c := by
    rintro mark k hmem rfl
    rw [Char.ofNat_toNat] at hmem
    exact .short hmem
  rw [escapeChar]
  split
  case isTrue h => exact hshort '"' 0x22 (by decide) (by rw [h]; rfl)
  case isFalse hquote =>
  split
  case isTrue h => exact hshort '\\' 0x5c (by decide) (by rw [h]; rfl)
  case isFalse hescape =>
  split
  case isTrue h => exact .plain h hquote hescape
  case isFalse hcontrol =>
  split
  case isTrue h => exact hshort 'b' 0x08 (by decide) h
  case isFalse =>
  split
  case isTrue h => exact hshort 't' 0x09 (by decide) h
  case isFalse =>
  split
  case isTrue h => exact hshort 'n' 0x0a (by decide) h
  case isFalse =>
  split
  case isTrue h => exact hshort 'f' 0x0c (by decide) h
  case isFalse =>
  split
  case isTrue h => exact hshort 'r' 0x0d (by decide) h
  case isFalse =>
  have hzero : HexDigit '0' 0 := hexDigit_digitChar (by decide)
  have hunit := CodeUnit.digits hzero hzero
    (hexDigit_digitChar (n := c.toNat / 16) (by omega))
    (hexDigit_digitChar (n := c.toNat % 16) (by omega))
  have hcode : ((0 * 16 + 0) * 16 + c.toNat / 16) * 16 + c.toNat % 16 = c.toNat := by omega
  rw [hcode] at hunit
  exact .unit hunit

theorem spellsChars_flatMap (s : List Char) : SpellsChars (s.flatMap escapeChar) s := by
  induction s with
  | nil => exact .nil
  | cons c s ih => exact .cons (spellsChar_escapeChar c) ih

theorem spellsString_stringText (s : String) : SpellsString (stringText s).toList s := by
  refine ⟨s.toList.flatMap escapeChar, spellsChars_flatMap _, ?_⟩
  simp [stringText]

theorem eq_zero_of_head?_toDigits (h : (Nat.toDigits 10 n).head? = some '0') : n = 0 := by
  induction n using Nat.strongRecOn with
  | _ n ih =>
      rcases Nat.lt_or_ge n 10 with hlt | hge
      · rw [Nat.toDigits_of_lt_base hlt] at h
        have hall : ∀ k < 10, Nat.digitChar k = '0' → k = 0 := by decide
        exact hall n hlt (by simpa using h)
      · rw [Nat.toDigits_of_base_le (by decide) hge,
          List.head?_append_of_ne_nil _ Nat.toDigits_ne_nil] at h
        have hquotient := ih (n / 10) (by omega) h
        omega

theorem wholeDigits_toDigits (n : Nat) : WholeDigits (Nat.toDigits 10 n) := by
  refine ⟨digits_toDigits n, ?_⟩
  intro h
  rw [eq_zero_of_head?_toDigits h]
  rfl

theorem spellsNumber_whole (n : Whole) : SpellsNumber (toString n.val).toList (.whole n) := by
  refine ⟨_, _, .whole (wholeDigits_toDigits n.val.natAbs) ⟨?_, ?_⟩, toList_toString n.val⟩
  · exact (signedValue_toDigits n.val).symm
  · rintro ⟨hneg, hzero⟩
    simp [hzero] at hneg

theorem floatNumber?_toDigits {x : Binary64.Finite} (hrank : x.rank = Binary64.rankOfRatio n 1)
    (hle : 10 * n ≤ 2 ^ 53) :
    floatNumber? x.negative (Nat.toDigits 10 n) ['0'] 0 = some (.float x) := by
  have hvalue : digitsValue (Nat.toDigits 10 n ++ ['0']) = n * 10 := by
    rw [digitsValue, List.foldl_append]
    exact (congrArg (10 * · + 0) (digitsValue_toDigits n)).trans (Nat.mul_comm 10 n)
  have hle' : digitsValue (Nat.toDigits 10 n ++ ['0']) ≤ 2 ^ 53 := by omega
  have hdecimal : Decimal.ofDigits x.negative (Nat.toDigits 10 n) ['0'] 0 =
      ⟨x.negative, n * 10, -1⟩ := by
    rw [Decimal.ofDigits, hvalue]
    rfl
  have hdecimalRank : Decimal.rank (n * 10) (-1) = x.rank := by
    have hscale : Binary64.rankOfRatio (n * 10) (1 * 10) = Binary64.rankOfRatio n 1 :=
      Binary64.rankOfRatio_mul_right (by decide)
    rw [hrank, ← hscale]
    rfl
  obtain ⟨y, hy, hnearest⟩ := floatNumber?_of_short x.negative 0 hle' (by decide) (by decide)
  rw [hdecimal, toBinary64_of_short x.negative (by omega) (by decide) (by decide), hdecimalRank,
    Binary64.ofRank, dif_pos x.rank_lt] at hnearest
  obtain rfl := Binary64.finite.inj hnearest
  exact hy

theorem spellsNumber_float {x : Binary64.Finite} {z : Int} (h : x.toInt? = some z)
    (hle : 10 * z.natAbs ≤ 2 ^ 53) : SpellsNumber (Number.float x).text.toList (.float x) := by
  obtain ⟨hrank, -, -⟩ := Binary64.eq_rankOfRatio_of_toInt? h
  have hcount : digitCount z.natAbs ≤ 16 :=
    (Nat.length_toDigits_le_iff (by decide) (by decide)).mpr (by omega)
  have hpos : 0 < digitCount z.natAbs := Nat.length_toDigits_pos
  have hpositional : numberLayout.positional ((digitCount z.natAbs : Int) - 1) = true := by
    simp only [numberLayout, Bool.and_eq_true, decide_eq_true_eq]
    omega
  have htext : (Number.float x).text.toList =
      signText x.negative ++ (Nat.toDigits 10 z.natAbs ++ (['.', '0'] ++ [])) := by
    rw [Number.text, Layout.write, hrank,
      Layout.writeMagnitude_rankOfRatio numberLayout (by omega) hpositional, signText]
    cases x.negative <;> simp [numberLayout]
  have hzero : Digits ['0'] := ⟨by simp, by simp⟩
  exact ⟨x.negative, _, .decimal (wholeDigits_toDigits z.natAbs) (.point hzero) .absent (by simp)
    (floatNumber?_toDigits hrank hle), htext⟩

end Leaves

section Sequences

variable {α : Type} {item : List Char → α → Prop} {opening closing : Char}
  {first between last : List Char} {parts : List String} {xs : List α}

theorem spellsItems_intercalate (hbetween : Spaces between) (hlast : Spaces last)
    (h : List.Forall₂ (fun part x => item part.toList x) parts xs) (hne : parts ≠ [])
    (hfirst : Spaces first) :
    SpellsItems item (first ++
      ((String.intercalate (String.ofList (',' :: between)) parts).toList ++ last)) xs := by
  induction h generalizing first with
  | nil => exact absurd rfl hne
  | @cons part x parts xs hpart h ih =>
      cases h with
      | nil =>
          rw [String.intercalate_singleton]
          exact .last hfirst hpart hlast
      | @cons part' x' parts xs hpart' h =>
          have hmore := SpellsItems.cons hfirst hpart spaces_nil (ih (by simp) hbetween)
          simpa [String.intercalate_cons_cons] using hmore

theorem spellsSequence_empty : SpellsSequence opening closing item [opening, closing] [] :=
  @SpellsSequence.empty α opening closing item [] spaces_nil

theorem spellsSequence_line (h : List.Forall₂ (fun part x => item part.toList x) parts xs) :
    SpellsSequence opening closing item
      (opening :: ((String.intercalate "," parts).toList ++ [closing])) xs := by
  by_cases hne : parts = []
  · subst hne
    cases h
    exact spellsSequence_empty
  · have hitems := spellsItems_intercalate spaces_nil spaces_nil h hne spaces_nil
    rw [List.nil_append, List.append_nil] at hitems
    exact .items hitems

end Sequences

end Json

open Json

mutual

/-- A value that is read back from its text, in which lists and objects nest at most so deep. Of its
floating-point numbers each is a whole number of few digits. -/
def Value.Rereadable : Value → Nat → Prop
  | .null, _ => True
  | .bool _, _ => True
  | .number (.whole _), _ => True
  | .number (.float x), _ => ∃ n, x.toInt? = some n ∧ 10 * n.natAbs ≤ 2 ^ 53
  | .string _, _ => True
  | .list items, depth => 0 < depth ∧ RereadableItems items (depth - 1)
  | .object fields, depth =>
    0 < depth ∧ fields.Pairwise (·.1 < ·.1) ∧ RereadableFields fields (depth - 1)

def RereadableItems : List Value → Nat → Prop
  | [], _ => True
  | x :: xs, depth => x.Rereadable depth ∧ RereadableItems xs depth

def RereadableFields : List (String × Value) → Nat → Prop
  | [], _ => True
  | (_, x) :: xs, depth => x.Rereadable depth ∧ RereadableFields xs depth

end

theorem Value.spells_text_of_leaf {v : Value} {depth : Nat} (hlist : ∀ items, v ≠ .list items)
    (hobject : ∀ fields, v ≠ .object fields) (h : v.Rereadable depth) :
    Spells depth v.text.toList v := by
  apply spells_of_leaf
  match v with
  | .null => exact .null
  | .bool true => exact .boolTrue
  | .bool false => exact .boolFalse
  | .number (.whole n) => exact .number (spellsNumber_whole n)
  | .number (.float x) =>
      obtain ⟨z, hz, hle⟩ := h
      exact .number (spellsNumber_float hz hle)
  | .string s => exact .string (spellsString_stringText s)
  | .list items => exact absurd rfl (hlist items)
  | .object fields => exact absurd rfl (hobject fields)

mutual

theorem Value.spells_text (v : Value) (depth : Nat) (h : v.Rereadable depth) :
    Spells depth v.text.toList v := by
  match v, depth with
  | .list items, depth + 1 =>
      refine .inr (.inl ⟨items, ?_, rfl⟩)
      simpa [Value.text] using spellsSequence_line (spells_itemTexts items depth h.2)
  | .object fields, depth + 1 =>
      refine .inr (.inr ⟨fields, ?_, by rw [KeyMap.entries_ofList h.2.1]⟩)
      simpa [Value.text] using spellsSequence_line (spells_fieldTexts fields depth h.2.2)
  | .null, _ => exact Value.spells_text_of_leaf nofun nofun h
  | .bool _, _ => exact Value.spells_text_of_leaf nofun nofun h
  | .number _, _ => exact Value.spells_text_of_leaf nofun nofun h
  | .string _, _ => exact Value.spells_text_of_leaf nofun nofun h

theorem spells_itemTexts (items : List Value) (depth : Nat) (h : RereadableItems items depth) :
    List.Forall₂ (fun text x => Spells depth text.toList x) (Value.itemTexts items) items := by
  match items with
  | [] => exact .nil
  | x :: xs => exact .cons (x.spells_text depth h.1) (spells_itemTexts xs depth h.2)

theorem spells_fieldTexts (fields : List (String × Value)) (depth : Nat)
    (h : RereadableFields fields depth) :
    List.Forall₂ (fun text field => SpellsField (Spells depth) text.toList field)
      (Value.fieldTexts fields) fields := by
  match fields with
  | [] => exact .nil
  | (k, x) :: xs =>
      refine .cons ?_ (spells_fieldTexts xs depth h.2)
      exact ⟨_, [], [], _, spellsString_stringText k, spaces_nil, spaces_nil,
        x.spells_text depth h.1, by simp⟩

end

section Pretty

variable {α : Type} {item : List Char → α → Prop} {opening closing : Char} {indent : String}
  {parts : List String} {xs : List α}

theorem spaces_inner (h : Spaces indent.toList) : Spaces (indent ++ "  ").toList := by
  intro c hc
  rw [String.toList_append, List.mem_append] at hc
  rcases hc with hc | hc
  · exact h c hc
  · obtain rfl : c = ' ' := by simpa using hc
    decide

theorem spaces_break (h : Spaces indent.toList) : Spaces ('\n' :: indent.toList) := by
  intro c hc
  rcases List.mem_cons.mp hc with rfl | hc
  · decide
  · exact h c hc

theorem spellsSequence_block (hindent : Spaces indent.toList)
    (h : List.Forall₂ (fun part x => item part.toList x) parts xs) :
    SpellsSequence opening closing item
      (Value.block indent (String.singleton opening) (String.singleton closing) parts).toList xs := by
  rw [Value.block]
  split
  case isTrue hempty =>
    obtain rfl : parts = [] := by simpa using hempty
    cases h
    simpa using spellsSequence_empty
  case isFalse hne =>
    have hinner := spaces_break (spaces_inner hindent)
    have hitems :=
      spellsItems_intercalate hinner (spaces_break hindent) h (by simpa using hne) hinner
    have hmark : "," ++ ("\n" ++ indent ++ "  ") =
        String.ofList (',' :: '\n' :: (indent ++ "  ").toList) := by
      rw [← String.toList_inj]
      simp
    have hall : SpellsSequence opening closing item _ xs := .items hitems
    simpa [hmark] using hall

theorem Value.spells_prettyFrom_of_leaf {v : Value} {depth : Nat} (hlist : ∀ items, v ≠ .list items)
    (hobject : ∀ fields, v ≠ .object fields) (h : v.Rereadable depth) :
    Spells depth (v.prettyFrom indent).toList v := by
  have htext : v.prettyFrom indent = v.text := by
    cases v with
    | list items => exact absurd rfl (hlist items)
    | object fields => exact absurd rfl (hobject fields)
    | _ => rw [Value.prettyFrom, Value.text]
  rw [htext]
  exact spells_text_of_leaf hlist hobject h

mutual

theorem Value.spells_prettyFrom (v : Value) (depth : Nat) (indent : String)
    (hindent : Spaces indent.toList) (h : v.Rereadable depth) :
    Spells depth (v.prettyFrom indent).toList v := by
  match v, depth with
  | .list items, depth + 1 =>
      have hitems := spells_prettyItems items depth _ (spaces_inner hindent) h.2
      rw [Value.prettyFrom]
      exact .inr (.inl ⟨items, spellsSequence_block hindent hitems, rfl⟩)
  | .object fields, depth + 1 =>
      have hfields := spells_prettyFields fields depth _ (spaces_inner hindent) h.2.2
      rw [Value.prettyFrom]
      exact .inr (.inr ⟨fields, spellsSequence_block hindent hfields,
        by rw [KeyMap.entries_ofList h.2.1]⟩)
  | .null, _ => exact Value.spells_prettyFrom_of_leaf nofun nofun h
  | .bool _, _ => exact Value.spells_prettyFrom_of_leaf nofun nofun h
  | .number _, _ => exact Value.spells_prettyFrom_of_leaf nofun nofun h
  | .string _, _ => exact Value.spells_prettyFrom_of_leaf nofun nofun h

theorem spells_prettyItems (items : List Value) (depth : Nat) (indent : String)
    (hindent : Spaces indent.toList) (h : RereadableItems items depth) :
    List.Forall₂ (fun text x => Spells depth text.toList x) (Value.prettyItems indent items)
      items := by
  match items with
  | [] => exact .nil
  | x :: xs =>
      exact .cons (x.spells_prettyFrom depth indent hindent h.1)
        (spells_prettyItems xs depth indent hindent h.2)

theorem spells_prettyFields (fields : List (String × Value)) (depth : Nat) (indent : String)
    (hindent : Spaces indent.toList) (h : RereadableFields fields depth) :
    List.Forall₂ (fun text field => SpellsField (Spells depth) text.toList field)
      (Value.prettyFields indent fields) fields := by
  match fields with
  | [] => exact .nil
  | (k, x) :: xs =>
      refine .cons ?_ (spells_prettyFields xs depth indent hindent h.2)
      exact ⟨_, [], [' '], _, spellsString_stringText k, spaces_nil, by simp [Spaces],
        x.spells_prettyFrom depth indent hindent h.1, by simp⟩

end

end Pretty

namespace Value

variable {v : Value}

theorem ofText?_text (h : v.Rereadable maxDepth) : ofText? v.text = some v := by
  rw [ofText?_eq_some_iff]
  exact ⟨[], v.text.toList, [], spaces_nil, v.spells_text maxDepth h, spaces_nil, by simp⟩

/-- What is laid out over several lines is read back too, the end of its last line included. -/
theorem denotes_pretty (h : v.Rereadable maxDepth) {after : String} (hafter : Spaces after.toList) :
    Denotes (v.pretty ++ after) v :=
  ⟨[], v.pretty.toList, after.toList, spaces_nil, v.spells_prettyFrom maxDepth "" spaces_nil h,
    hafter, by simp⟩

end Value

end StagedJobs
