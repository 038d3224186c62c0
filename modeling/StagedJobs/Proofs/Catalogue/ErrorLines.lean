import StagedJobs.Proofs.Catalogue.Concatenation

namespace StagedJobs.Catalogue

open Outcomes

theorem utf8ByteSize_ofList (cs : List Char) : (String.ofList cs).utf8ByteSize = byteCount cs := by
  rw [← byteCount_toList, String.toList_ofList]

theorem byteCount_append (cs ds : List Char) :
    byteCount (cs ++ ds) = byteCount cs + byteCount ds := by
  simp only [byteCount_eq_utf8Len, String.utf8Len_append]

theorem dropWhile_line (cs : List Char) :
    cs.dropWhile (· ≠ '\n') = [] ∨ ∃ ds, cs.dropWhile (· ≠ '\n') = '\n' :: ds := by
  by_cases hnil : cs.dropWhile (· ≠ '\n') = []
  · exact .inl hnil
  · have hhead : (cs.dropWhile (· ≠ '\n')).head hnil = '\n' := by
      simpa using List.head_dropWhile_not (· ≠ '\n') hnil
    have hsplit := List.cons_head_tail hnil
    rw [hhead] at hsplit
    exact .inr ⟨_, hsplit.symm⟩

theorem rdropWhile_line (cs : List Char) :
    cs.rdropWhile (· ≠ '\n') = [] ∨ ∃ ds, cs.rdropWhile (· ≠ '\n') = ds ++ ['\n'] := by
  rw [List.rdropWhile]
  rcases dropWhile_line cs.reverse with hnil | ⟨ds, hds⟩
  · rw [hnil]
    exact .inl rfl
  · rw [hds, List.reverse_cons]
    exact .inr ⟨_, rfl⟩

/-- The line of a text that a place is in, the place being told in bytes. -/
structure LineAt (text : String) (offset : Nat) (line : String) : Prop where
  oneLine : '\n' ∉ line.toList
  around : ∃ before after, text = before ++ line ++ after ∧
    (before = "" ∨ ∃ s, before = s ++ "\n") ∧ (after = "" ∨ ∃ s, after = "\n" ++ s) ∧
      before.utf8ByteSize ≤ offset ∧ offset ≤ before.utf8ByteSize + line.utf8ByteSize

theorem lineAt_append (passed rest : List Char) :
    LineAt (String.ofList (passed ++ rest)) (byteCount passed)
      (String.ofList (passed.rtakeWhile (· ≠ '\n') ++ rest.takeWhile (· ≠ '\n'))) := by
  have hpassed := List.rdropWhile_append_rtakeWhile (p := (· ≠ '\n')) (l := passed)
  have hrest := List.takeWhile_append_dropWhile (p := (· ≠ '\n')) (l := rest)
  constructor
  · rw [String.toList_ofList, List.mem_append, not_or]
    constructor
    · intro hmem
      simpa using List.mem_rtakeWhile_imp hmem
    · intro hmem
      simpa using List.mem_takeWhile_imp hmem
  · have hcount := congrArg byteCount hpassed
    rw [byteCount_append] at hcount
    refine ⟨String.ofList (passed.rdropWhile (· ≠ '\n')), String.ofList (rest.dropWhile (· ≠ '\n')),
      ?_, ?_, ?_, ?_, ?_⟩
    · rw [← String.ofList_append, ← String.ofList_append, ← List.append_assoc, hpassed,
        List.append_assoc, hrest]
    · rcases rdropWhile_line passed with hnil | ⟨ds, hds⟩
      · rw [hnil]
        exact .inl rfl
      · rw [hds, String.ofList_append]
        exact .inr ⟨_, rfl⟩
    · rcases dropWhile_line rest with hnil | ⟨ds, hds⟩
      · rw [hnil]
        exact .inl rfl
      · rw [hds, ← List.singleton_append, String.ofList_append]
        exact .inr ⟨_, rfl⟩
    · rw [utf8ByteSize_ofList]
      omega
    · rw [utf8ByteSize_ofList, utf8ByteSize_ofList, byteCount_append]
      omega

/-- Where a text cannot be read, the report is of a place between two of its characters or at one of its
ends, and of the line that the place is in. -/
theorem offset_and_line_of_parse {text : String} {e : ParseError} (h : parse text = .error e) :
    e.offset ≤ text.utf8ByteSize ∧ (⟨e.offset⟩ : String.Pos.Raw).IsValid text ∧
      LineAt text e.offset e.line := by
  obtain ⟨f, hf, rfl⟩ := mapError_eq_error.mp h
  obtain ⟨passed, hpassed⟩ := rest_suffix_of_readTextWithin hf
  have htext : text = String.ofList (passed ++ f.rest) := by rw [hpassed, String.ofList_toList]
  rw [← hpassed, ParseError.ofFailure_append]
  refine ⟨?_, ?_, ?_⟩
  · rw [htext, utf8ByteSize_ofList, byteCount_append]
    exact Nat.le_add_right _ _
  · rw [String.Pos.Raw.isValid_iff_exists_append]
    refine ⟨String.ofList passed, String.ofList f.rest, ?_, ?_⟩
    · rw [htext, String.ofList_append]
    · rw [String.Pos.Raw.ext_iff, String.byteIdx_rawEndPos, utf8ByteSize_ofList]
  · rw [htext]
    exact lineAt_append passed f.rest

/-- A line with more behind its parameter, after letters of two bytes and of three. -/
def overlongLine : String := "workflow a \x7b\n# é\n param n: t \"ñ日\" x\n\x7d\n"

theorem overlongLine_reported :
    parse overlongLine = .error ⟨38, " param n: t \"ñ日\" x", .endOfLine, some 'x'⟩ ∧
      (⟨38⟩ : String.Pos.Raw).IsValid overlongLine ∧
      LineAt overlongLine 38 " param n: t \"ñ日\" x" := by
  have hparse : parse overlongLine =
      .error ⟨38, " param n: t \"ñ日\" x", .endOfLine, some 'x'⟩ := by cbv
  obtain ⟨-, hvalid, hline⟩ := offset_and_line_of_parse hparse
  exact ⟨hparse, hvalid, hline⟩

end StagedJobs.Catalogue
