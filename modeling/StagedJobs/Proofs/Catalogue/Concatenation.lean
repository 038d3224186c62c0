import Mathlib
import StagedJobs.Proofs.Catalogue.Budget
import StagedJobs.Proofs.Catalogue.FurtherLines

namespace StagedJobs.Catalogue

open Outcomes

theorem byteCount_eq_utf8Len (cs : List Char) : byteCount cs = String.utf8Len cs := by
  have hfoldl : ∀ n, cs.foldl (fun n c => n + c.utf8Size) n = n + String.utf8Len cs := by
    induction cs with
    | nil => simp
    | cons c cs ih =>
        intro n
        rw [List.foldl_cons, ih, String.utf8Len_cons]
        omega
  rw [byteCount, hfoldl, Nat.zero_add]

theorem byteCount_toList (s : String) : byteCount s.toList = s.utf8ByteSize := by
  rw [byteCount_eq_utf8Len, ← String.utf8ByteSize_ofList, String.ofList_toList]

theorem byteCount_append_line (cs more : List Char) :
    byteCount (cs ++ '\n' :: more) = byteCount cs + 1 + byteCount more := by
  simp only [byteCount_eq_utf8Len, String.utf8Len_append, String.utf8Len_cons]
  have hline : '\n'.utf8Size = 1 := by decide
  omega

namespace ParseError

theorem ofFailure_append (passed : List Char) (f : Failure) :
    ofFailure (passed ++ f.rest) f =
      { offset := byteCount passed
        line := String.ofList ((passed.reverse.takeWhile (· ≠ '\n')).reverse
          ++ f.rest.takeWhile (· ≠ '\n'))
        expected := f.expected
        found := f.rest.head? } := by
  have hbefore : (passed ++ f.rest).take ((passed ++ f.rest).length - f.rest.length) = passed := by
    rw [List.length_append, Nat.add_sub_cancel, List.take_left]
  simp only [ofFailure, hbefore]

theorem ofFailure_append_line {text : List Char} {f : Failure} (hf : f.rest <:+ text)
    (cs : List Char) :
    ofFailure (cs ++ '\n' :: text) f =
      { ofFailure text f with offset := byteCount cs + 1 + (ofFailure text f).offset } := by
  obtain ⟨passed, rfl⟩ := hf
  have hassoc : cs ++ '\n' :: (passed ++ f.rest) = (cs ++ '\n' :: passed) ++ f.rest := by simp
  have hline : (cs ++ '\n' :: passed).reverse.takeWhile (· ≠ '\n') =
      passed.reverse.takeWhile (· ≠ '\n') := by
    rw [List.reverse_append, List.reverse_cons, List.append_assoc, List.singleton_append]
    exact takeWhile_append_line (by decide) passed.reverse cs.reverse
  rw [hassoc, ofFailure_append, ofFailure_append, byteCount_append_line, hline]

end ParseError

theorem readWorkflows_append_line {steps : Nat} {cs : List Char} {blocks : List WorkflowBlock}
    (h : readWorkflows steps (skipBlank cs) = .ok blocks) {more : List Char}
    (hsteps : 2 * (cs.length + 1 + more.length) ≤ steps) :
    readWorkflows steps (skipBlank (cs ++ '\n' :: more)) = (readText more).map (blocks ++ ·) := by
  induction steps generalizing cs blocks with
  | zero => omega
  | succ steps ih =>
      cases hskip : skipBlank cs with
      | nil =>
          -- The text has no further block, and what is left of the budget is enough for the lines.
          rw [hskip] at h
          obtain rfl := Except.ok.inj h
          have hmore := readTextWithin_eq_readText (show 2 * more.length ≤ steps + 1 by omega)
          rw [skipBlank_append_line, if_pos hskip, ← readTextWithin, hmore]
          cases readText more <;> rfl
      | cons c tail =>
          have hlength := (skipBlank_suffix cs).length_le
          rw [hskip] at hlength
          rw [hskip, readWorkflows] at h
          · split at h
            case h_1 => cases h
            case h_2 start hkeyword =>
              obtain ⟨⟨block, after⟩, hblock, h⟩ := bind_eq_ok.mp h
              obtain ⟨others, hothers, h⟩ := bind_eq_ok.mp h
              obtain rfl := Except.ok.inj h
              have hstart := (past_of_keyword? hkeyword).shorter
              have hafter := ((advances_readWorkflow steps start).past hblock).shorter
              have hnext := ih hothers (by omega)
              have hkeyword' := keyword?_append_line (show '\n' ∉ "workflow".toList by decide)
                (c :: tail) more
              rw [hkeyword] at hkeyword'
              rw [skipBlank_append_line_of_eq_cons hskip, ← List.cons_append, readWorkflows, hkeyword']
              · simp only [Option.map_some, bind, Except.bind, readWorkflow_append_line hblock, hnext]
                cases readText more <;> rfl
              · exact List.cons_ne_nil c _
          · exact List.cons_ne_nil c tail

theorem readText_append_line {cs : List Char} {blocks : List WorkflowBlock}
    (h : readText cs = .ok blocks) (more : List Char) :
    readText (cs ++ '\n' :: more) = (readText more).map (blocks ++ ·) := by
  have hlength : (cs ++ '\n' :: more).length = cs.length + 1 + more.length := by
    rw [List.length_append, List.length_cons]
    omega
  have hsteps := readTextWithin_eq_readText
    (show 2 * cs.length ≤ 2 * ((cs ++ '\n' :: more).length + 1) by omega)
  rw [← hsteps] at h
  exact readWorkflows_append_line h (by omega)

/-- Behind a text that can be read and the end of its last line, another text is read as on its own:
its blocks follow those before, and if it fails, it fails at the same place of the same line. -/
theorem parse_append_line {a b : String} {blocks : List WorkflowBlock} (h : parse a = .ok blocks) :
    (∀ more, parse b = .ok more → parse (a ++ "\n" ++ b) = .ok (blocks ++ more)) ∧
      ∀ e, parse b = .error e →
        parse (a ++ "\n" ++ b) = .error { e with offset := a.utf8ByteSize + 1 + e.offset } := by
  have htext : (a ++ "\n" ++ b).toList = a.toList ++ '\n' :: b.toList := by
    simp [String.toList_append]
  have hread := readText_append_line (mapError_eq_ok.mp h) b.toList
  rw [← htext] at hread
  constructor
  · intro more hmore
    rw [parse, hread, mapError_eq_ok.mp hmore]
    rfl
  · intro e he
    obtain ⟨f, hf, rfl⟩ := mapError_eq_error.mp he
    have hreport := ParseError.ofFailure_append_line (rest_suffix_of_readTextWithin hf) a.toList
    rw [byteCount_toList] at hreport
    rw [parse, hread, hf, ← hreport, htext]
    rfl

/-- A text whose last line is a comment and is not ended. -/
def unendedText : String := "# one\nworkflow a \x7b\nparam n: t # two\n\x7d # three"

def indentedText : String := " # four\nworkflow b \x7b \x7d\n"

/-- A text that breaks off where an entry may start. -/
def cutOffText : String := "# é\nworkflow c \x7b"

theorem unended_continued :
    parse unendedText = .ok [⟨"a", [.param ⟨"n", "t", false, none, [], none⟩]⟩] ∧
      parse indentedText = .ok [⟨"b", []⟩] ∧
      parse (unendedText ++ "\n" ++ indentedText) =
        .ok [⟨"a", [.param ⟨"n", "t", false, none, [], none⟩]⟩, ⟨"b", []⟩] ∧
      parse cutOffText = .error ⟨17, "workflow c \x7b", .entryOrClosingBrace, none⟩ ∧
      parse (unendedText ++ "\n" ++ cutOffText) =
        .error ⟨63, "workflow c \x7b", .entryOrClosingBrace, none⟩ := by
  have hunended : parse unendedText =
      .ok [⟨"a", [.param ⟨"n", "t", false, none, [], none⟩]⟩] := by cbv
  have hindented : parse indentedText = .ok [⟨"b", []⟩] := by cbv
  have hcutOff : parse cutOffText =
      .error ⟨17, "workflow c \x7b", .entryOrClosingBrace, none⟩ := by cbv
  have hsize : unendedText.utf8ByteSize = 45 := by decide
  have hfails := (parse_append_line hunended).2 _ hcutOff
  rw [hsize] at hfails
  exact ⟨hunended, hindented, (parse_append_line hunended).1 _ hindented, hcutOff, hfails⟩

end StagedJobs.Catalogue
