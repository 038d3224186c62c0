import StagedJobs.Proofs.Catalogue.Places

/-!
Budgets of steps. Every reader goes on within what is left of the text, so a budget of two steps for
each character, and a few more, is enough: with any two budgets that are enough it gives the same.
-/

namespace StagedJobs.Catalogue

open Outcomes

mutual

theorem readLiteral?_budget : (m n : Nat) → (cs : List Char) → 2 * cs.length + 1 ≤ m →
    2 * cs.length + 1 ≤ n → readLiteral? m cs = readLiteral? n cs
  | m + 1, n + 1, cs, hm, hn => by
      unfold readLiteral?
      split
      case h_1 => rfl
      case h_2 after =>
        have hlength := (skipBlank_suffix after).length_le
        rw [List.length_cons] at hm hn
        have hitems := readItems?_budget m n (skipBlank after) (by omega) (by omega)
        split
        case h_1 => rfl
        case h_2 => rw [hitems]
      case h_3 => rfl

theorem readItems?_budget : (m n : Nat) → (cs : List Char) → 2 * cs.length + 2 ≤ m →
    2 * cs.length + 2 ≤ n → readItems? m cs = readItems? n cs
  | m + 1, n + 1, cs, hm, hn => by
      have hlength := (skipBlank_suffix cs).length_le
      rw [readItems?, readItems?, readLiteral?_budget m n (skipBlank cs) (by omega) (by omega)]
      apply Option.bind_congr
      rintro ⟨item, after⟩ hitem
      have hitem := past_of_readLiteral? n hitem
      simp only
      split
      case h_1 rest hskip =>
        have hrest := (hitem.trans (past_of_skipBlank_eq hskip)).shorter
        rw [readItems?_budget m n rest (by omega) (by omega)]
      case h_2 => rfl
      case h_3 => rfl

end

theorem readValues_budget (m n : Nat) (cs : List Char) (hm : 2 * cs.length + 2 ≤ m)
    (hn : 2 * cs.length + 2 ≤ n) : readValues m cs = readValues n cs := by
  induction m generalizing n cs with
  | zero => omega
  | succ m ih =>
      obtain ⟨n, rfl⟩ : ∃ k, n = k + 1 := ⟨n - 1, by omega⟩
      have hlength := (skipInline_suffix cs).length_le
      rw [readValues, readValues, readLiteral?_budget m n (skipInline cs) (by omega) (by omega)]
      split
      case h_1 value after hvalue =>
        have hafter := (past_of_readLiteral? n hvalue).shorter
        have hnext := (skipInline_suffix after).length_le
        rw [ih n (skipInline after) (by omega) (by omega)]
      case h_2 => rfl

theorem assigned?_budget {m n : Nat} {cs : List Char} (hm : 2 * cs.length ≤ m)
    (hn : 2 * cs.length ≤ n) : assigned? m cs = assigned? n cs := by
  rw [assigned?, assigned?]
  split
  case h_1 rest hskip =>
    have hrest := (past_of_skipInline_eq hskip).shorter
    have hlength := (skipInline_suffix rest).length_le
    exact readLiteral?_budget m n (skipInline rest) (by omega) (by omega)
  case h_2 => rfl

theorem constraint?_budget {m n : Nat} {cs : List Char} (hm : 2 * cs.length ≤ m)
    (hn : 2 * cs.length ≤ n) : constraint? m cs = constraint? n cs := by
  apply Option.bind_congr
  rintro ⟨name, after⟩ hname
  have hafter := (past_of_run? hname).shorter
  simp only
  rw [assigned?_budget (show 2 * after.length ≤ m by omega) (show 2 * after.length ≤ n by omega)]

theorem readConstraints?_budget (m n : Nat) (cs : List Char) (hm : 2 * cs.length + 1 ≤ m)
    (hn : 2 * cs.length + 1 ≤ n) : readConstraints? m cs = readConstraints? n cs := by
  induction m generalizing n cs with
  | zero => omega
  | succ m ih =>
      obtain ⟨n, rfl⟩ : ∃ k, n = k + 1 := ⟨n - 1, by omega⟩
      have hlength := (skipBlank_suffix cs).length_le
      rw [readConstraints?, readConstraints?,
        constraint?_budget (show 2 * (skipBlank cs).length ≤ m by omega)
          (show 2 * (skipBlank cs).length ≤ n by omega)]
      apply Option.bind_congr
      rintro ⟨first, after⟩ hfirst
      have hfirst := past_of_constraint? hfirst
      simp only
      split
      case h_1 rest hskip =>
        have hrest := (hfirst.trans (past_of_skipBlank_eq hskip)).shorter
        rw [ih n rest (by omega) (by omega)]
      case h_2 => rfl
      case h_3 => rfl

theorem constraints?_budget {m n : Nat} {cs : List Char} (hm : 2 * cs.length ≤ m)
    (hn : 2 * cs.length ≤ n) : constraints? m cs = constraints? n cs := by
  rw [constraints?, constraints?]
  split
  case h_1 rest hskip =>
    have hrest := (past_of_skipInline_eq hskip).shorter
    exact readConstraints?_budget m n rest (by omega) (by omega)
  case h_2 => rfl

theorem optionally_congr {α : Type} {part part' : List Char → Option (α × List Char)}
    {cs : List Char} (h : part cs = part' cs) : optionally part cs = optionally part' cs := by
  rw [optionally, optionally, h]

theorem readParam_budget {m n : Nat} {cs : List Char} (hm : 2 * cs.length ≤ m)
    (hn : 2 * cs.length ≤ n) : readParam m cs = readParam n cs := by
  apply bind_congr_of_ok
  rintro ⟨name, afterName⟩ hname
  apply bind_congr_of_ok
  rintro ⟨type, afterType⟩ htype
  rcases hrequired : readRequired afterType with ⟨required, afterMark⟩
  have hlength : afterMark.length ≤ cs.length := by
    have hname := ((advances_readParamName cs).past hname).suffix
    have htype := ((advances_readParamType (skipInline afterName)).past htype).suffix
    have hmark := readRequired_suffix hrequired
    exact (((hmark.trans htype).trans (skipInline_suffix afterName)).trans hname).length_le
  have hdefaultSame : optionally (assigned? m) afterMark = optionally (assigned? n) afterMark :=
    optionally_congr (assigned?_budget (by omega) (by omega))
  rcases hdefault : optionally (assigned? n) afterMark with ⟨default, afterDefault⟩
  have hafterDefault := (optionally_suffix (fun _ _ => past_of_assigned?) hdefault).length_le
  have hgroupSame :
      optionally (constraints? m) afterDefault = optionally (constraints? n) afterDefault :=
    optionally_congr (constraints?_budget (by omega) (by omega))
  simp only [hrequired, hdefaultSame, hdefault, hgroupSame]

theorem readProperty_budget {m n : Nat} {cs : List Char} (hm : 2 * cs.length ≤ m)
    (hn : 2 * cs.length ≤ n) : readProperty m cs = readProperty n cs := by
  rw [readProperty, readProperty]
  split
  case h_1 => rfl
  case h_2 key rest hkey =>
    have hrest := (past_of_run? hkey).shorter
    rw [readValues_budget m n rest (by omega) (by omega)]

/-- The entries of a body start two characters further on, at the least. -/
theorem readBody_budget {m n : Nat} {cs : List Char}
    (hentries : ∀ mid, mid.length + 2 ≤ cs.length → readEntries m mid = readEntries n mid) :
    readBody m cs = readBody n cs := by
  apply bind_congr_of_ok
  rintro ⟨name, afterName⟩ hname
  apply bind_congr_of_ok
  intro atBody hatBody
  have hname := ((advances_readName cs).past hname).shorter
  have hbrace := (skipBlank_suffix afterName).length_le
  have hatBody := ((within_readOpening (skipBlank afterName)).of_ok hatBody).shorter
  have hbody := (skipBlank_suffix atBody).length_le
  rw [hentries (skipBlank atBody) (by omega)]

mutual

theorem readEntries_budget : (m n : Nat) → (cs : List Char) → 2 * cs.length + 2 ≤ m →
    2 * cs.length + 2 ≤ n → readEntries m cs = readEntries n cs
  | m + 1, n + 1, [], hm, hn => by rw [readEntries, readEntries]
  | m + 1, n + 1, c :: tail, hm, hn => by
      rw [readEntries, readEntries,
        readEntry_budget m n (c :: tail) (by omega) (by omega)]
      split
      case isTrue => rfl
      case isFalse =>
        split
        case isFalse => rfl
        case isTrue =>
          apply bind_congr_of_ok
          rintro ⟨entry, afterEntry⟩ hentry
          apply bind_congr_of_ok
          intro next hnext
          have hentry := ((advances_readEntry n (c :: tail)).past hentry).shorter
          have hend := (skipInline_suffix afterEntry).length_le
          have hnext := ((within_readLineEnd (skipInline afterEntry)).of_ok hnext).length_le
          rw [readEntries_budget m n next (by omega) (by omega)]

theorem readEntry_budget : (m n : Nat) → (cs : List Char) → 2 * cs.length + 1 ≤ m →
    2 * cs.length + 1 ≤ n → readEntry m cs = readEntry n cs
  | m + 1, n + 1, cs, hm, hn => by
      cases hstage : keyword? "stage" cs with
      | some after =>
          rw [readEntry_stage hstage, readEntry_stage hstage]
          apply bind_congr_of_ok
          rintro ⟨number, afterNumber⟩ hnumber
          have hafter := (past_of_keyword? hstage).shorter
          have hnumber := ((advances_readStageNumber after).past hnumber).shorter
          have hname := (skipInline_suffix afterNumber).length_le
          have hbody : readBody m (skipInline afterNumber) = readBody n (skipInline afterNumber) := by
            apply readBody_budget
            intro mid hmid
            exact readEntries_budget m n mid (by omega) (by omega)
          simp only [hbody]
      | none =>
          cases hparam : keyword? "param" cs with
          | some after =>
              have hafter := (past_of_keyword? hparam).shorter
              rw [readEntry_param hstage hparam, readEntry_param hstage hparam,
                readParam_budget (show 2 * after.length ≤ m by omega)
                  (show 2 * after.length ≤ n by omega)]
          | none =>
              rw [readEntry_property hstage hparam, readEntry_property hstage hparam,
                readProperty_budget (show 2 * cs.length ≤ m by omega)
                  (show 2 * cs.length ≤ n by omega)]

end

theorem readWorkflow_budget {m n : Nat} {cs : List Char} (hm : 2 * cs.length ≤ m)
    (hn : 2 * cs.length ≤ n) : readWorkflow m cs = readWorkflow n cs := by
  have hbody : readBody m cs = readBody n cs := by
    apply readBody_budget
    intro mid hmid
    exact readEntries_budget m n mid (by omega) (by omega)
  rw [readWorkflow_eq, readWorkflow_eq, hbody]

theorem readWorkflows_budget (m n : Nat) (cs : List Char) (hm : 2 * cs.length ≤ m)
    (hn : 2 * cs.length ≤ n) : readWorkflows m cs = readWorkflows n cs := by
  induction m generalizing n cs with
  | zero =>
      obtain rfl : cs = [] := List.length_eq_zero_iff.mp (by omega)
      rw [readWorkflows, readWorkflows]
  | succ m ih =>
      cases cs with
      | nil => rw [readWorkflows, readWorkflows]
      | cons c cs =>
          rw [List.length_cons] at hm hn
          obtain ⟨n, rfl⟩ : ∃ k, n = k + 1 := ⟨n - 1, by omega⟩
          rw [readWorkflows, readWorkflows]
          · split
            case h_1 => rfl
            case h_2 start hkeyword =>
              have hstart := (past_of_keyword? hkeyword).shorter
              rw [List.length_cons] at hstart
              rw [readWorkflow_budget (show 2 * start.length ≤ m by omega)
                (show 2 * start.length ≤ n by omega)]
              apply bind_congr_of_ok
              rintro ⟨block, after⟩ hblock
              have hafter := ((advances_readWorkflow n start).past hblock).shorter
              have hnext := (skipBlank_suffix after).length_le
              have hrest := ih n (skipBlank after) (by omega) (by omega)
              simp only [hrest]
          · exact List.cons_ne_nil c cs
          · exact List.cons_ne_nil c cs

/-- Two budgets that are enough for a text give the same. -/
theorem readTextWithin_eq_readText {steps : Nat} {text : List Char}
    (h : 2 * text.length ≤ steps) : readTextWithin steps text = readText text := by
  have hlength := (skipBlank_suffix text).length_le
  exact readWorkflows_budget _ _ _ (by omega) (by omega)

end StagedJobs.Catalogue
