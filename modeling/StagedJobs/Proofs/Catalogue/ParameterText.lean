import StagedJobs.Catalogue.Loading
import StagedJobs.Proofs.Catalogue.RoundTrip
import StagedJobs.Proofs.Revalidation
import StagedJobs.Proofs.WholeNumbers

namespace StagedJobs

open Catalogue Outcomes

mutual

/-- A value whose text is that of a literal: there are no escapes in it, and no numbers that a literal
cannot be. -/
def Value.Writable : Value → Prop
  | .bool _ => True
  | .number (.whole n) => n.val < 2 ^ 63
  | .string s => ∀ c ∈ s.toList, c ≠ '"' ∧ c ≠ '\\' ∧ 0x20 ≤ c.toNat
  | .list items => WritableItems items
  | .null => False
  | .number (.float _) => False
  | .object _ => False

def WritableItems : List Value → Prop
  | [] => True
  | x :: xs => x.Writable ∧ WritableItems xs

end

mutual

/-- The literal that a value is written as. -/
def Value.literal : Value → Literal
  | .bool b => .word (Value.boolText b)
  | .number (.whole n) => .int (Int64.ofInt n.val)
  | .number (.float x) => .float (.finite x)
  | .string s => .quoted s
  | .list items => .list (itemLiterals items)
  | .null => .word "null"
  | .object fields => .word (Value.object fields).text

def itemLiterals : List Value → List Literal
  | [] => []
  | x :: xs => x.literal :: itemLiterals xs

end

/-- A bound that is written without a fraction and read without loss. -/
def Binary64.Writable (b : Binary64) : Prop :=
  ∃ x n, b = .finite x ∧ x.toInt? = some n ∧ n.natAbs ≤ 2 ^ 53 ∧ (n = 0 → x.negative = false)

/-- The literal that a bound is shown as: a whole number has no point. -/
def Binary64.literal : Binary64 → Literal
  | .finite x =>
    match x.toInt? with
    | some n => .int (Int64.ofInt n)
    | none => .float (.finite x)
  | x => .float x

namespace Constraint

/-- A constraint that reads back from its text. -/
def Writable : Constraint → Prop
  | .minValue bound => bound.Writable
  | .maxValue bound => bound.Writable
  | .minLength bound => bound < 2 ^ 63
  | .maxLength bound => bound < 2 ^ 63
  | .allowedValues values => (Value.list values).Writable

def key : Constraint → String
  | .minValue _ => "min_value"
  | .maxValue _ => "max_value"
  | .minLength _ => "min_length"
  | .maxLength _ => "max_length"
  | .allowedValues _ => "allowed_values"

def literal : Constraint → Literal
  | .minValue bound => bound.literal
  | .maxValue bound => bound.literal
  | .minLength bound => .int (Int64.ofInt bound)
  | .maxLength bound => .int (Int64.ofInt bound)
  | .allowedValues values => (Value.list values).literal

/-- A condition as it is given in a catalogue. -/
def entry (c : Constraint) : String × Literal := (c.key, c.literal)

end Constraint

namespace ParameterSpec

/-- A parameter whose text says all of it. -/
structure Writable (s : ParameterSpec) : Prop where
  default : ∀ v ∈ s.default, v.Writable
  constraints : ∀ c ∈ s.constraints.inOrder, c.Writable
  description : IsQuotable s.description

/-- The declaration of a parameter in a catalogue. -/
def entry (s : ParameterSpec) : ParamEntry where
  name := s.name
  type := s.type.name
  required := s.required
  default := s.default.map Value.literal
  constraints := s.constraints.inOrder.map Constraint.entry
  description := if s.description.isEmpty then none else some s.description

end ParameterSpec

theorem isIdentifierChar_of_isLowerAlphanumeric {c : Char} (h : isLowerAlphanumeric c = true) :
    isIdentifierChar c = true := by
  have halphanum : c.isAlphanum = true := by
    rw [isLowerAlphanumeric, Bool.or_eq_true] at h
    rcases h with h | h <;> simp [Char.isAlphanum, Char.isAlpha, h]
  simp [isIdentifierChar, Text.isAlphanumeric_of_isAlphanum halphanum]

theorem isName_of_isIdentifier {s : String} (h : isIdentifier s = true) : IsName s := by
  rw [isIdentifier] at h
  split at h
  case h_1 first last hfirst hlast =>
    simp only [Bool.and_eq_true, List.all_eq_true] at h
    refine ⟨List.ne_nil_of_mem (List.mem_of_head? hfirst), ?_⟩
    intro c hc
    have hchar := h.2 c hc
    simp only [Bool.or_eq_true, or_assoc] at hchar
    rcases hchar with hlower | hmark
    · exact isIdentifierChar_of_isLowerAlphanumeric hlower
    · simp only [isIdentifierChar, Bool.or_eq_true, or_assoc]
      exact .inr hmark
  case h_2 => simp at h

section Literals

theorem spelledAs_toString {n : Int} (hlow : -2 ^ 63 ≤ n) (hhigh : n < 2 ^ 63) :
    (Literal.int (Int64.ofInt n)).SpelledAs (toString n).toList := by
  refine ⟨decide (n < 0), Nat.toDigits 10 n.natAbs, digits_toDigits _, ?_, toList_toString n⟩
  rw [signedValue_toDigits, Int64.toInt_ofInt_of_le hlow hhigh]

theorem flatMap_escapeChar {cs : List Char}
    (h : ∀ c ∈ cs, c ≠ '"' ∧ c ≠ '\\' ∧ 0x20 ≤ c.toNat) : cs.flatMap Json.escapeChar = cs := by
  induction cs with
  | nil => rfl
  | cons c cs ih =>
      obtain ⟨hquote, hbackslash, hcontrol⟩ := h c (by simp)
      have hrest := ih fun d hd => h d (List.mem_cons_of_mem c hd)
      rw [List.flatMap_cons, hrest, Json.escapeChar, if_neg hquote, if_neg hbackslash,
        if_pos hcontrol]
      rfl

theorem inline_nil : Inline [] := by
  intro c hc
  simp at hc

theorem inline_space : Inline [' '] := forall_mem_of_all (by decide)

theorem renders_listed {g part others : List Char} {pieces more : List Piece} {mark : Char}
    (hg : Blank g) (hpart : Renders .free pieces part) (hothers : Renders .free more others) :
    Renders .free (.gap .blank :: (pieces ++ .gap .blank :: .text [mark] :: more))
      (g ++ (part ++ mark :: others)) := by
  have hmark : Renders .free (.gap .blank :: .text [mark] :: more) (mark :: others) :=
    renders_gap.mpr ⟨[], _, .nil, renders_text.mpr ⟨others, hothers, rfl⟩, rfl⟩
  exact renders_gap.mpr ⟨g, _, hg, renders_append.mpr ⟨part, _, hpart, hmark, rfl⟩, rfl⟩

mutual

theorem renders_literal (v : Value) (hv : v.Writable) :
    Renders .free v.literal.pieces v.text.toList := by
  match v with
  | .bool b =>
      exact renders_singleton.mpr rfl
  | .number (.whole n) =>
      exact renders_number.mpr (spelledAs_toString n.lower hv)
  | .string s =>
      refine renders_singleton.mpr ?_
      simp [Piece.Admits, Piece.quoted, Value.text, Json.stringText, flatMap_escapeChar hv]
  | .list items =>
      refine renders_text.mpr ⟨_, renders_items items hv, ?_⟩
      simp [Value.text]

theorem renders_items (items : List Value) (h : WritableItems items) :
    Renders .free (itemPieces (itemLiterals items))
      ((String.intercalate "," (Value.itemTexts items)).toList ++ [']']) := by
  match items with
  | [] => exact renders_gap.mpr ⟨[], [']'], .nil, renders_singleton.mpr rfl, rfl⟩
  | [x] =>
      have htext : (String.intercalate "," (Value.itemTexts [x])).toList ++ [']'] =
          [] ++ (x.text.toList ++ ']' :: []) := by
        simp [Value.itemTexts]
      rw [htext]
      exact renders_listed .nil (renders_literal x h.1) (renders_nil.mpr rfl)
  | x :: y :: rest =>
      have htext : (String.intercalate "," (Value.itemTexts (x :: y :: rest))).toList ++ [']'] =
          [] ++ (x.text.toList ++
            ',' :: ((String.intercalate "," (Value.itemTexts (y :: rest))).toList ++ [']'])) := by
        simp [Value.itemTexts, String.intercalate_cons_cons]
      rw [htext]
      exact renders_listed .nil (renders_literal x h.1) (renders_items (y :: rest) h.2)

end

mutual

theorem wellFormed_literal (v : Value) (hv : v.Writable) : v.literal.WellFormed := by
  match v with
  | .bool true => exact ⟨by decide, forall_mem_of_all (by decide), by decide⟩
  | .bool false => exact ⟨by decide, forall_mem_of_all (by decide), by decide⟩
  | .number (.whole n) => trivial
  | .string s => exact fun hmem => (hv _ hmem).1 rfl
  | .list items => exact wellFormed_items items hv

theorem wellFormed_items (items : List Value) (h : WritableItems items) :
    ItemsWellFormed (itemLiterals items) := by
  match items with
  | [] => trivial
  | x :: xs => exact ⟨wellFormed_literal x h.1, wellFormed_items xs h.2⟩

end

mutual

theorem toValue_literal (v : Value) (hv : v.Writable) : v.literal.toValue = v := by
  match v with
  | .bool true => rfl
  | .bool false => rfl
  | .number (.whole n) =>
      have hval : (Int64.ofInt n.val).toInt = n.val := Int64.toInt_ofInt_of_le n.lower hv
      simp only [Value.literal, Literal.toValue, Value.ofInt64, Whole.ofInt64, hval]
  | .string s => rfl
  | .list items =>
      rw [Value.literal, Literal.toValue, toValues_itemLiterals items hv]

theorem toValues_itemLiterals (items : List Value) (h : WritableItems items) :
    Literal.toValues (itemLiterals items) = items := by
  match items with
  | [] => rfl
  | x :: xs =>
      rw [itemLiterals, Literal.toValues, toValue_literal x h.1, toValues_itemLiterals xs h.2]

end

end Literals

section Constraints

theorem Binary64.writable_ofInt {n : Int} (hle : n.natAbs ≤ 2 ^ 53) : (ofInt n).Writable := by
  obtain ⟨x, hx, hn, hzero⟩ := toInt?_ofInt hle
  exact ⟨x, n, hx, hn, hle, hzero⟩

theorem Binary64.Writable.literal_eq {b : Binary64} (hb : b.Writable) :
    ∃ n : Int, -2 ^ 63 ≤ n ∧ n < 2 ^ 63 ∧ b.literal = .int (Int64.ofInt n) ∧
      b.toText = toString n ∧ .ofInt n = b := by
  obtain ⟨x, n, rfl, hn, hle, hzero⟩ := hb
  obtain ⟨htext, hof⟩ := toText_of_toInt? hn hle hzero
  refine ⟨n, by omega, by omega, ?_, htext, hof⟩
  simp only [Binary64.literal, hn]

theorem Binary64.Writable.renders {b : Binary64} (hb : b.Writable) :
    Renders .free b.literal.pieces b.toText.toList := by
  obtain ⟨n, hlow, hhigh, hliteral, htext, -⟩ := hb.literal_eq
  rw [hliteral, htext]
  exact renders_number.mpr (spelledAs_toString hlow hhigh)

theorem Binary64.Writable.wellFormed {b : Binary64} (hb : b.Writable) : b.literal.WellFormed := by
  obtain ⟨n, -, -, hliteral, -, -⟩ := hb.literal_eq
  rw [hliteral]
  trivial

theorem Binary64.Writable.valueBound_eq {b : Binary64} (hb : b.Writable) (key : String) :
    valueBound key b.literal = .ok b := by
  obtain ⟨n, hlow, hhigh, hliteral, -, hof⟩ := hb.literal_eq
  rw [hliteral, valueBound, Int64.toInt_ofInt_of_le hlow hhigh, hof]

theorem renders_length {n : Nat} (hn : n < 2 ^ 63) :
    Renders .free (Literal.int (Int64.ofInt n)).pieces (toString n).toList := by
  have hspelled := spelledAs_toString (n := n) (by omega) (by omega)
  exact renders_number.mpr hspelled

theorem lengthBound_eq {n : Nat} (hn : n < 2 ^ 63) (key : String) :
    lengthBound key (.int (Int64.ofInt n)) = .ok n := by
  have hval : (Int64.ofInt n).toInt = n := Int64.toInt_ofInt_of_le (by omega) (by omega)
  simp [lengthBound, hval]

variable {c : Constraint}

theorem isName_key (c : Constraint) : IsName c.key := by
  cases c <;> rw [Constraint.key] <;> exact isName_of_isIdentifier (by decide)

/-- The text of a condition is its key and what its literal is written as. -/
theorem exists_renders_literal (hc : c.Writable) :
    ∃ written : String, Renders .free c.literal.pieces written.toList ∧
      c.text = c.key ++ "=" ++ written := by
  cases c with
  | minValue bound => exact ⟨_, Binary64.Writable.renders hc, rfl⟩
  | maxValue bound => exact ⟨_, Binary64.Writable.renders hc, rfl⟩
  | minLength bound => exact ⟨_, renders_length hc, rfl⟩
  | maxLength bound => exact ⟨_, renders_length hc, rfl⟩
  | allowedValues values => exact ⟨_, renders_literal (.list values) hc, rfl⟩

theorem renders_constraint (hc : c.Writable) :
    Renders .free (constraintPieces c.entry) c.text.toList := by
  obtain ⟨written, hwritten, htext⟩ := exists_renders_literal hc
  have hassigned : Renders .free (.gap .inline :: .text ['='] :: .gap .inline :: c.literal.pieces)
      ('=' :: written.toList) := by
    refine renders_gap.mpr ⟨[], _, inline_nil, renders_text.mpr ⟨written.toList, ?_, rfl⟩, rfl⟩
    exact renders_gap.mpr ⟨[], written.toList, inline_nil, hwritten, rfl⟩
  refine renders_text.mpr ⟨_, hassigned, ?_⟩
  simp [htext, Constraint.entry]

theorem wellFormed_literal_constraint (hc : c.Writable) : c.literal.WellFormed := by
  cases c with
  | minValue bound => exact Binary64.Writable.wellFormed hc
  | maxValue bound => exact Binary64.Writable.wellFormed hc
  | minLength bound => trivial
  | maxLength bound => trivial
  | allowedValues values => exact wellFormed_literal (.list values) hc

/-- Conditions with one more of them, in place of that of its kind. -/
def Constraints.add (constraints : Constraints) : Constraint → Constraints
  | .minValue bound => { constraints with minValue := some bound }
  | .maxValue bound => { constraints with maxValue := some bound }
  | .minLength bound => { constraints with minLength := some bound }
  | .maxLength bound => { constraints with maxLength := some bound }
  | .allowedValues values => { constraints with allowedValues := some values }

theorem Constraints.foldl_add_inOrder (constraints : Constraints) :
    constraints.inOrder.foldl add {} = constraints := by
  obtain ⟨minValue, maxValue, minLength, maxLength, allowedValues⟩ := constraints
  cases minValue <;> cases maxValue <;> cases minLength <;> cases maxLength <;>
    cases allowedValues <;> rfl

theorem addConstraint_entry (constraints : Constraints) (hc : c.Writable) :
    addConstraint constraints c.entry = .ok (constraints.add c) := by
  cases c with
  | minValue bound =>
      have hbound := Binary64.Writable.valueBound_eq hc "min_value"
      simp only [addConstraint, Constraint.entry, Constraint.key, Constraint.literal, hbound]
      rfl
  | maxValue bound =>
      have hbound := Binary64.Writable.valueBound_eq hc "max_value"
      simp only [addConstraint, Constraint.entry, Constraint.key, Constraint.literal, hbound]
      rfl
  | minLength bound =>
      have hbound := lengthBound_eq hc "min_length"
      simp only [addConstraint, Constraint.entry, Constraint.key, Constraint.literal, hbound]
      rfl
  | maxLength bound =>
      have hbound := lengthBound_eq hc "max_length"
      simp only [addConstraint, Constraint.entry, Constraint.key, Constraint.literal, hbound]
      rfl
  | allowedValues values =>
      have hvalues := toValues_itemLiterals values hc
      simp only [addConstraint, Constraint.entry, Constraint.key, Constraint.literal, Value.literal,
        allowedValues, hvalues]
      rfl

theorem foldlM_addConstraint {conditions : List Constraint} (h : ∀ c ∈ conditions, c.Writable)
    (constraints : Constraints) :
    (conditions.map Constraint.entry).foldlM addConstraint constraints =
      .ok (conditions.foldl Constraints.add constraints) := by
  induction conditions generalizing constraints with
  | nil => rfl
  | cons c conditions ih =>
      rw [List.map_cons, List.foldlM_cons, addConstraint_entry constraints (h c (by simp))]
      exact ih (fun d hd => h d (List.mem_cons_of_mem c hd)) (constraints.add c)

/-- Between conditions there is a comma and a blank; before the first there may be a blank as well. -/
theorem renders_constraints {g : List Char} (hg : Blank g) {conditions : List Constraint}
    (h : ∀ c ∈ conditions, c.Writable) :
    Renders .free (constraintsPieces (conditions.map Constraint.entry))
      (g ++ ((String.intercalate ", " (conditions.map Constraint.text)).toList ++ [']'])) := by
  induction conditions generalizing g with
  | nil => exact renders_gap.mpr ⟨g, [']'], hg, renders_singleton.mpr rfl, rfl⟩
  | cons c conditions ih =>
      have hc := renders_constraint (h c (by simp))
      have hrest := ih inline_space.blank fun d hd => h d (List.mem_cons_of_mem c hd)
      cases conditions with
      | nil =>
          rw [List.map_singleton, List.map_singleton, String.intercalate_singleton]
          exact renders_listed hg hc (renders_nil.mpr rfl)
      | cons next conditions =>
          have htext : (String.intercalate ", "
              ((c :: next :: conditions).map Constraint.text)).toList ++ [']'] =
              c.text.toList ++ ',' :: ([' '] ++
                ((String.intercalate ", "
                  ((next :: conditions).map Constraint.text)).toList ++ [']'])) := by
            simp [String.intercalate_cons_cons]
          rw [htext]
          exact renders_listed hg hc hrest

end Constraints

section Entries

variable {s : ParameterSpec}

theorem isName_typeName (type : ParamType) : IsName type.name := by
  cases type <;> rw [ParamType.name] <;> exact isName_of_isIdentifier (by decide)

theorem ofName?_name (type : ParamType) : ParamType.ofName? type.name = some type := by
  cases type <;> rfl

namespace ParameterSpec

theorem renders_required (s : ParameterSpec) :
    Renders .free s.entry.requiredPieces (if s.required then "!" else "").toList := by
  rw [ParamEntry.requiredPieces, entry]
  cases s.required with
  | true => exact renders_singleton.mpr rfl
  | false => rfl

theorem Writable.renders_default (hw : s.Writable) :
    Renders .free s.entry.defaultPieces
      (match s.default with | some v => " = " ++ v.text | none => "").toList := by
  rw [ParamEntry.defaultPieces, entry]
  cases hdefault : s.default with
  | none => rfl
  | some v =>
      have hv := renders_literal v (hw.default v (by simp [hdefault]))
      have htext : (" = " ++ v.text).toList = [' '] ++ (['='] ++ ([' '] ++ v.text.toList)) := by
        simp
      rw [htext]
      refine renders_gap.mpr ⟨_, _, inline_space, renders_text.mpr ⟨_, ?_, rfl⟩, rfl⟩
      exact renders_gap.mpr ⟨_, _, inline_space, hv, rfl⟩

theorem Writable.renders_constraintGroup (hw : s.Writable) :
    Renders .free s.entry.constraintGroupPieces
      (if s.constraints.isEmpty then "" else " [" ++ s.constraints.text ++ "]").toList := by
  have hconstraints := renders_constraints .nil hw.constraints
  have hentries : s.entry.constraints = s.constraints.inOrder.map Constraint.entry := rfl
  rw [ParamEntry.constraintGroupPieces, hentries, Constraints.isEmpty, Constraints.text]
  generalize s.constraints.inOrder = conditions at hconstraints
  cases conditions with
  | nil => rfl
  | cons c conditions =>
      have htext : (" [" ++ String.intercalate ", " ((c :: conditions).map Constraint.text) ++
          "]").toList = [' '] ++ (['['] ++ ([] ++
            ((String.intercalate ", " ((c :: conditions).map Constraint.text)).toList ++
              [']']))) := by
        simp
      rw [if_neg (by simp), if_neg (by simp), htext]
      exact renders_gap.mpr ⟨_, _, inline_space, renders_text.mpr ⟨_, hconstraints, rfl⟩, rfl⟩

theorem renders_description (s : ParameterSpec) :
    Renders .free s.entry.descriptionPieces
      (if s.description.isEmpty then "" else " \"" ++ s.description ++ "\"").toList := by
  rw [ParamEntry.descriptionPieces, entry]
  cases s.description.isEmpty with
  | true => rfl
  | false =>
      have htext : (" \"" ++ s.description ++ "\"").toList =
          [' '] ++ '"' :: (s.description.toList ++ ['"']) := by
        simp
      simp only [Bool.false_eq_true, if_false, htext]
      exact renders_gap.mpr ⟨_, _, inline_space, renders_singleton.mpr rfl, rfl⟩

theorem Writable.renders_entry (hw : s.Writable) :
    Renders .free s.entry.pieces s.text.toList := by
  obtain ⟨written, hwritten, htext⟩ : ∃ written,
      Renders .free (s.entry.requiredPieces ++ s.entry.defaultPieces ++
        s.entry.constraintGroupPieces ++ s.entry.descriptionPieces) written ∧
      s.text.toList =
        s.name.toList ++ ([] ++ ([':'] ++ ([' '] ++ (s.type.name.toList ++ written)))) := by
    refine ⟨_, renders_append.mpr ⟨_, _, renders_append.mpr ⟨_, _, renders_append.mpr
      ⟨_, _, s.renders_required, hw.renders_default, rfl⟩, hw.renders_constraintGroup, rfl⟩,
      s.renders_description, rfl⟩, ?_⟩
    cases hdefault : s.default <;> simp [text, hdefault]
  have htype : Renders .free (.gap .inline :: .ofString s.entry.type :: _)
      ([' '] ++ (s.type.name.toList ++ written)) :=
    renders_gap.mpr ⟨_, _, inline_space, renders_text.mpr ⟨written, hwritten, rfl⟩, rfl⟩
  rw [htext]
  refine renders_text.mpr ⟨_, renders_gap.mpr ⟨[], _, inline_nil, ?_, rfl⟩, rfl⟩
  exact renders_text.mpr ⟨_, htype, rfl⟩

theorem Writable.wellFormed_entry (hs : s.Built) (hw : s.Writable) : s.entry.WellFormed where
  name := by
    obtain ⟨hname, -⟩ := ParameterDraft.build_eq_ok_iff.mp hs.build_redraft
    have hidentifier : isIdentifier s.redraft.name = true := by simpa [checkIdentifier] using hname
    exact isName_of_isIdentifier hidentifier
  type := isName_typeName s.type
  default := by
    intro x hx
    obtain ⟨v, hv, rfl⟩ := Option.map_eq_some_iff.mp hx
    exact wellFormed_literal v (hw.default v hv)
  constraints := by
    intro d hd
    obtain ⟨c, hc, rfl⟩ := List.mem_map.mp hd
    exact ⟨isName_key c, wellFormed_literal_constraint (hw.constraints c hc)⟩
  description := by
    intro d hd
    rw [entry] at hd
    cases hempty : s.description.isEmpty with
    | true => simp [hempty] at hd
    | false =>
        obtain rfl : s.description = d := by simpa [hempty] using hd
        exact hw.description

theorem Writable.draft_entry (hw : s.Writable) : s.entry.draft = .ok s.redraft := by
  have hconstraints : s.entry.constraints.foldlM addConstraint {} = .ok s.constraints := by
    rw [entry, foldlM_addConstraint hw.constraints, Constraints.foldl_add_inOrder]
  have hdefault : s.entry.default.map Literal.toValue = s.default := by
    rw [entry]
    cases hdefault : s.default with
    | none => rfl
    | some v => simp [toValue_literal v (hw.default v hdefault)]
  have hdescription : s.entry.description.getD "" = s.description := by
    rw [entry]
    cases hempty : s.description.isEmpty with
    | true => simp [String.isEmpty_iff.mp hempty]
    | false => rfl
  have htype : s.entry.paramType = .ok s.type := by
    simp only [ParamEntry.paramType, entry, ofName?_name]
  rw [ParamEntry.draft, htype, hconstraints, hdefault, hdescription]
  rfl

theorem Writable.build_entry (hs : s.Built) (hw : s.Writable) : s.entry.build = .ok s := by
  rw [ParamEntry.build, hw.draft_entry]
  exact mapError_eq_ok.mpr hs.build_redraft

theorem Writable.renders_param (hw : s.Writable) :
    Renders .free (Entry.param s.entry).pieces ("param " ++ s.text).toList := by
  have htext : ("param " ++ s.text).toList = "param".toList ++ ([' '] ++ s.text.toList) := by
    simp
  rw [htext]
  refine renders_text.mpr ⟨_, renders_gap.mpr ⟨_, _, ⟨by decide, inline_space⟩, ?_, rfl⟩, rfl⟩
  exact hw.renders_entry

/-- The text of a catalogue of one workflow with one parameter, one line each. -/
def catalogueText (s : ParameterSpec) (jobType : String) : String :=
  "workflow " ++ jobType ++ " \x7b\nparam " ++ s.text ++ "\n\x7d\n"

theorem Writable.renders_catalogue (hw : s.Writable) (jobType : String) :
    Renders .free (write [⟨jobType, [.param s.entry]⟩]) (s.catalogueText jobType).toList := by
  have hspace : Blank [' '] := inline_space.blank
  have hline : Blank ['\n'] := .space (by decide) .nil
  have hlast : LineEnd ['\n'] := ⟨[], '\n', [], inline_nil, .inl rfl, hline, rfl⟩
  obtain ⟨entries, hentries, hentriesText⟩ : ∃ entries,
      Renders .free (entryPieces [.param s.entry]) entries ∧
        entries = ("param " ++ s.text ++ "\n\x7d").toList := by
    refine ⟨_, renders_append.mpr ⟨_, _, hw.renders_param,
      renders_gap.mpr ⟨_, _, .inl hlast, renders_singleton.mpr rfl, rfl⟩, rfl⟩, ?_⟩
    simp
  obtain ⟨body, hbody, hbodyText⟩ : ∃ body,
      Renders .free (.gap .blank :: .text ['\x7b'] :: .gap .blank :: entryPieces [.param s.entry])
        body ∧ body = " \x7b\n".toList ++ entries := by
    refine ⟨_, renders_gap.mpr ⟨_, _, hspace, renders_text.mpr ⟨_,
      renders_gap.mpr ⟨_, _, hline, hentries, rfl⟩, rfl⟩, rfl⟩, ?_⟩
    simp
  obtain ⟨block, hblock, hblockText⟩ : ∃ block,
      Renders .free (WorkflowBlock.pieces ⟨jobType, [.param s.entry]⟩) block ∧
        block = ("workflow " ++ jobType).toList ++ body := by
    refine ⟨_, renders_text.mpr ⟨_, renders_gap.mpr ⟨_, _, ⟨by decide, inline_space⟩,
      renders_gap.mpr ⟨_, _, .nil, renders_text.mpr ⟨_, hbody, rfl⟩, rfl⟩, rfl⟩, rfl⟩, ?_⟩
    simp
  have htext : (s.catalogueText jobType).toList = [] ++ (block ++ ['\n'] ++ []) := by
    simp [catalogueText, hblockText, hbodyText, hentriesText]
  rw [htext, write, List.flatMap_singleton]
  refine renders_gap.mpr ⟨_, _, .nil, renders_append.mpr ⟨_, _, ?_, ?_, rfl⟩, rfl⟩
  · exact renders_append.mpr ⟨_, _, hblock, renders_singleton.mpr hline, rfl⟩
  · exact renders_singleton.mpr (.inl rfl)

/-- A parameter with nothing in it that catalogues have no notation for is declared by its own text:
read as an entry, alone or among the lines of a catalogue, and built, it is the same again. -/
theorem read_back_of_writable (hs : s.Built) (hw : s.Writable) :
    ∃ p : ParamEntry, p.build = .ok s ∧
      (∀ steps, 2 * ("param " ++ s.text).toList.length + 1 ≤ steps →
        readEntry steps ("param " ++ s.text).toList = .ok (.param p, [])) ∧
      ∀ jobType, IsName jobType →
        parse (s.catalogueText jobType) = .ok [⟨jobType, [.param p]⟩] := by
  refine ⟨s.entry, hw.build_entry hs, ?_, ?_⟩
  · intro steps hsteps
    have hahead : Ahead lineMarks [] := by
      intro c hc
      simp [skipInline] at hc
    have hread := readEntry_append_param (hw.wellFormed_entry hs) hw.renders_param hahead hsteps
    rwa [List.append_nil] at hread
  · intro jobType hjobType
    refine parse_of_renders ?_ (hw.renders_catalogue jobType)
    intro b hb
    obtain rfl := List.mem_singleton.mp hb
    exact ⟨hjobType, hw.wellFormed_entry hs, trivial⟩

/-- A parameter with every part that a declaration may have. -/
def levels : ParameterSpec where
  name := "levels"
  type := .list
  required := true
  default := some (.list [.ofInt64 (-1), .list [], .bool true])
  description := "Any [of these], or # none"
  constraints :=
    { minValue := some (.ofInt (-5)), maxValue := some (.ofInt 0x20_0000_0000_0000),
      minLength := some 0, maxLength := some 3,
      allowedValues := some [.list [.string "a, b"], .list [.ofInt64 (-1), .list [], .bool true]] }

theorem levels_built : levels.Built := by
  have hrange : (Binary64.ofInt 0x20_0000_0000_0000).less (.ofInt (-5)) = false := by
    decide +kernel
  refine ⟨"levels", .list, [.required true, .default (.list [.ofInt64 (-1), .list [], .bool true]),
    .description "Any [of these], or # none", .constraints levels.constraints],
    ParameterDraft.build_eq_ok_iff.mpr ⟨by rfl, ?_, by rfl, _, by rfl, _, by rfl, by rfl⟩⟩
  simp [ParameterDraft.checkValueRange, ParameterDraft.ofSettings, ParameterDraft.set, levels,
    hrange]

theorem levels_writable : levels.Writable where
  default := by
    simp [levels, Value.Writable, WritableItems, Value.ofInt64, Whole.ofInt64]
  constraints := by
    simp [levels, Constraints.inOrder, Constraint.Writable, Value.Writable, WritableItems,
      Value.ofInt64, Whole.ofInt64, Binary64.writable_ofInt]
  description := by
    simp [levels, IsQuotable]

theorem levels_read_back : levels.Built ∧ levels.Writable ∧ IsName "stock" ∧
    ∃ p : ParamEntry, p.build = .ok levels ∧
      parse (levels.catalogueText "stock") = .ok [⟨"stock", [.param p]⟩] := by
  have hname : IsName "stock" := isName_of_isIdentifier (by decide)
  obtain ⟨p, hbuild, -, hparse⟩ := read_back_of_writable levels_built levels_writable
  exact ⟨levels_built, levels_writable, hname, p, hbuild, hparse "stock" hname⟩

example : levels.text = "levels: list! = [-1,[],true] [min_value=-5, max_value=9007199254740992, "
    ++ "min_length=0, max_length=3, allowed_values=[[\"a, b\"],[-1,[],true]]] "
    ++ "\"Any [of these], or # none\"" := by
  decide +kernel

end ParameterSpec

end Entries

end StagedJobs
