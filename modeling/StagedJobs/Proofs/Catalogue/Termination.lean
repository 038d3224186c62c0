import Mathlib
import StagedJobs.Proofs.Catalogue.Budget
import StagedJobs.Proofs.Catalogue.Repetitions
import StagedJobs.Proofs.Catalogue.SpareCalls

/-!
Reading ends. A budget of two steps for each character, and two more, does not run out on any text; no
part is read from within itself but further on in the text, and all in all there are at most two calls
for each character. Entries and bodies call each other in turn, as values and lists do: what carries
both inductions is that the caller has left characters behind, or that it starts with the callee.
-/

namespace StagedJobs.Catalogue

section Separated

variable {α : Type}

theorem finds_recordFurtherItems? (item : α)
    {others? : List Char → OptionT Recorded (List α × List Char)}
    {plainOthers? : List Char → Option (List α × List Char)} {cs : List Char}
    (hothers : ∀ mid, Past cs mid → Finds (others? mid) (plainOthers? mid) (2 * mid.length + 1)) :
    Finds (recordFurtherItems? item others? cs) (furtherItems? item plainOthers? cs)
      (2 * cs.length + 1) := by
  cases cs with
  | nil => exact .failure
  | cons c rest =>
      by_cases hcomma : c = ','
      · subst hcomma
        apply ((hothers rest (.cons ',' rest)).mono (by rw [List.length_cons]; omega)).bind
        intro items rest' hitems
        exact .pure _ (Nat.le_refl _)
      · by_cases hbracket : c = ']'
        · subst hbracket
          exact .pure _ (by rw [List.length_cons]; omega)
        · rw [recordFurtherItems?, furtherItems?]
          · exact .failure
          all_goals simp [hcomma, hbracket]

theorem finds_recordSeparated? {caller : Reading} {part : Part}
    {item? : List Char → OptionT Recorded (α × List Char)}
    {others? : List Char → OptionT Recorded (List α × List Char)}
    {plain? : List Char → Option (α × List Char)}
    {plainOthers? : List Char → Option (List α × List Char)} {cs : List Char}
    (hcaller : Past caller.start cs)
    (hpast : ∀ cs x rest, plain? cs = some (x, rest) → Past cs rest)
    (hitem : Finds (item? (skipBlank cs)) (plain? (skipBlank cs)) (2 * (skipBlank cs).length))
    (hothers : ∀ mid, Past cs mid → Finds (others? mid) (plainOthers? mid) (2 * mid.length + 1)) :
    Finds (recordSeparated? caller part item? others? cs)
      (separated? (framed? skipBlank plain?) plainOthers? cs) (2 * cs.length + 1) := by
  have hlength := (skipBlank_suffix cs).length_le
  have hcaller := hcaller.trans_suffix (skipBlank_suffix cs)
  rw [recordSeparated?, separated?, framed?, Option.map_eq_bind, Option.bind_eq_bind,
    Option.bind_assoc]
  apply Finds.called (.inl hcaller) (Nat.lt_succ_self (2 * cs.length))
  apply (hitem.mono (by omega)).bind
  intro item rest hread
  have hitem := Past.of_suffix (skipBlank_suffix cs) (hpast (skipBlank cs) item rest hread)
  have hnext := hitem.trans_suffix (skipBlank_suffix rest)
  have hbehind := (skipBlank_suffix rest).length_le
  have hfurther := finds_recordFurtherItems? item fun mid hmid => hothers mid (hnext.trans hmid)
  exact hfurther.mono (by omega)

end Separated

section Literals

theorem completes_recordLiteral?_of_ne (steps : Nat) {cs : List Char}
    (h : ∀ rest, cs ≠ '[' :: rest) (budget : Nat) :
    Completes (recordLiteral? (steps + 1) cs).run (readLiteral? (steps + 1) cs) budget budget := by
  by_cases hquote : ∃ rest, cs = '"' :: rest
  · obtain ⟨rest, rfl⟩ := hquote
    rw [recordLiteral?, readLiteral?]
    exact .pure _ (Nat.le_refl budget)
  · rw [not_exists] at hquote
    rw [recordLiteral?, readLiteral?]
    · exact .pure _ (Nat.le_refl budget)
    all_goals assumption

mutual

theorem finds_recordLiteral? : (steps : Nat) → (cs : List Char) → 2 * cs.length + 1 ≤ steps →
    Finds (recordLiteral? steps cs) (readLiteral? steps cs) (2 * cs.length)
  | steps + 1, cs, hsteps => by
      by_cases hbracket : ∃ after, cs = '[' :: after
      · obtain ⟨after, rfl⟩ := hbracket
        have hlength := (skipBlank_suffix after).length_le
        have hlist := (Past.cons '[' after).trans_suffix (skipBlank_suffix after)
        have hcall : Reading.Precedes ⟨.value, '[' :: after⟩ ⟨.list, '[' :: after⟩ :=
          .inr ⟨rfl, .value⟩
        rw [List.length_cons] at hsteps ⊢
        by_cases hclosed : (skipBlank after).head? = some ']'
        · obtain ⟨rest, hskip⟩ := List.head?_eq_some_iff.mp hclosed
          have hrest := (past_of_skipBlank_eq hskip).shorter
          rw [recordLiteral?, readLiteral?, hskip]
          apply Finds.called hcall (show 2 * after.length + 1 < 2 * (after.length + 1) by omega)
          exact .pure _ (by omega)
        · have hitems := finds_recordItems? ⟨.list, '[' :: after⟩ steps (skipBlank after) hlist
            (by omega)
          rw [recordLiteral?_openingBracket steps hclosed, readLiteral?_openingBracket steps hclosed,
            Option.map_eq_bind, ← Option.bind_eq_bind]
          apply Finds.called hcall (show 2 * after.length + 1 < 2 * (after.length + 1) by omega)
          apply (hitems.mono (by omega)).bind
          intro items rest hread
          exact .pure _ (Nat.le_refl _)
      · rw [not_exists] at hbracket
        apply (completes_recordLiteral?_of_ne steps hbracket (2 * cs.length)).mono _ (Nat.le_refl _)
        cases hread : readLiteral? (steps + 1) cs with
        | none => exact Nat.zero_le _
        | some found =>
            have hpast := (past_of_readLiteral? (steps + 1) hread).shorter
            rw [spared, callsAhead_nil]
            omega

theorem finds_recordItems? (list : Reading) : (steps : Nat) → (cs : List Char) →
    Past list.start cs → 2 * cs.length + 2 ≤ steps →
    Finds (recordItems? list steps cs) (readItems? steps cs) (2 * cs.length + 1)
  | steps + 1, cs, hlist, hsteps => by
      have hlength := (skipBlank_suffix cs).length_le
      rw [recordItems?, readItems?_succ]
      apply finds_recordSeparated? hlist (fun _ _ _ => past_of_readLiteral? steps)
      · exact finds_recordLiteral? steps (skipBlank cs) (by omega)
      · intro mid hmid
        have hshorter := hmid.shorter
        exact finds_recordItems? list steps mid (hlist.trans hmid) (by omega)

end

theorem completes_recordValues (steps : Nat) {entry : Reading} {cs : List Char}
    (hentry : Past entry.start cs) (hsteps : 2 * cs.length + 2 ≤ steps) :
    Completes (recordValues entry steps cs) (readValues steps cs)
      (callsAhead ['['] (readValues steps cs).2) (2 * cs.length + 1) := by
  induction steps generalizing cs with
  | zero => omega
  | succ steps ih =>
      have hlength := (skipInline_suffix cs).length_le
      have hentry := hentry.trans_suffix (skipInline_suffix cs)
      have hread := finds_recordLiteral? steps (skipInline cs) (by omega)
      rw [recordValues, readValues]
      apply Completes.bind (.called (.inl hentry) (Nat.lt_succ_self (2 * cs.length)))
      cases hvalue : readLiteral? steps (skipInline cs) with
      | some found =>
          obtain ⟨value, rest⟩ := found
          have hpast := past_of_readLiteral? steps hvalue
          have hshorter := hpast.shorter
          have hrest := (skipInline_suffix rest).length_le
          have hothers := ih ((hentry.trans hpast).trans_suffix (skipInline_suffix rest)) (by omega)
          rw [hvalue] at hread
          apply Completes.bind (hread.mono (by omega))
          rw [spared, callsAhead_nil]
          exact (hothers.mono (Nat.le_refl _) (by omega)).bind (.pure _ (Nat.le_refl _))
      | none =>
          by_cases hbracket : ∃ rest, skipInline cs = '[' :: rest
          · obtain ⟨rest, hskip⟩ := hbracket
            rw [callsAhead_of_mem List.mem_cons_self hskip]
            rw [hvalue] at hread
            exact Completes.bind (hread.mono (by omega)) (.pure _ (Nat.le_refl 0))
          · rw [not_exists] at hbracket
            obtain ⟨k, rfl⟩ : ∃ k, steps = k + 1 := ⟨steps - 1, by omega⟩
            have hread := completes_recordLiteral?_of_ne k hbracket (2 * cs.length)
            rw [hvalue] at hread
            exact hread.bind (.pure _ (callsAhead_le _ cs))

end Literals

section Params

theorem recordBehind?_of_eq {α : Type} {mark : Char}
    {part : List Char → OptionT Recorded (α × List Char)} {cs rest : List Char}
    (h : skipInline cs = mark :: rest) : recordBehind? mark part cs = part rest := by
  rw [recordBehind?, h]
  exact if_pos rfl

theorem recordBehind?_of_ne {α : Type} {mark : Char}
    {part : List Char → OptionT Recorded (α × List Char)} {cs : List Char}
    (h : ∀ rest, skipInline cs ≠ mark :: rest) : recordBehind? mark part cs = found? none := by
  rw [recordBehind?]
  split
  case h_1 c rest hskip =>
    rw [if_neg]
    · rfl
    · rintro rfl
      exact h rest hskip
  case h_2 => rfl

theorem finds_recordBehind? {α : Type} {mark : Char}
    {part : List Char → OptionT Recorded (α × List Char)}
    {plain : List Char → Option (α × List Char)} (hmarked : MarkedBy mark plain) {cs : List Char}
    {budget : Nat}
    (h : ∀ rest, skipInline cs = mark :: rest → Finds (part rest) (plain cs) budget) :
    Finds (recordBehind? mark part cs) (plain cs) budget := by
  by_cases hahead : ∃ rest, skipInline cs = mark :: rest
  · obtain ⟨rest, hskip⟩ := hahead
    rw [recordBehind?_of_eq hskip]
    exact h rest hskip
  · rw [not_exists] at hahead
    rw [recordBehind?_of_ne hahead, hmarked cs hahead]
    exact .found? (by simp)

theorem finds_recordAssigned? (steps : Nat) {caller : Reading} {cs : List Char}
    (hcaller : Past caller.start cs) (hsteps : 2 * cs.length ≤ steps) :
    Finds (recordAssigned? caller steps cs) (assigned? steps cs) (2 * cs.length) := by
  apply finds_recordBehind? (markedBy_assigned? steps)
  intro rest hskip
  have hrest := past_of_skipInline_eq hskip
  have hshorter := hrest.shorter
  have hlength := (skipInline_suffix rest).length_le
  have hcaller := (hcaller.trans hrest).trans_suffix (skipInline_suffix rest)
  simp only [assigned?, hskip]
  apply Finds.called (.inl hcaller) (show 2 * rest.length < 2 * cs.length by omega)
  exact (finds_recordLiteral? steps (skipInline rest) (by omega)).mono (by omega)

theorem finds_recordConstraint? (steps : Nat) (cs : List Char) (hsteps : 2 * cs.length ≤ steps) :
    Finds (recordConstraint? steps cs) (constraint? steps cs) (2 * cs.length) := by
  have hname : ∀ name rest, identifier? cs = some (name, rest) →
      2 * rest.length + 1 ≤ 2 * cs.length := by
    intro name rest h
    have hshorter := (past_of_run? h).shorter
    omega
  apply (Finds.found? hname).bind
  intro name rest hread
  have hrest := past_of_run? hread
  have hshorter := hrest.shorter
  have hvalue : Finds (recordAssigned? ⟨.constraint, cs⟩ steps rest) _ _ :=
    finds_recordAssigned? steps hrest (by omega)
  apply (hvalue.mono (by omega)).bind
  intro value rest' hassigned
  exact .pure _ (Nat.le_refl _)

theorem finds_recordConstraints? (steps : Nat) {entry : Reading} {cs : List Char}
    (hentry : Past entry.start cs) (hsteps : 2 * cs.length + 1 ≤ steps) :
    Finds (recordConstraints? entry steps cs) (readConstraints? steps cs) (2 * cs.length + 1) := by
  induction steps generalizing cs with
  | zero => omega
  | succ steps ih =>
      have hlength := (skipBlank_suffix cs).length_le
      rw [recordConstraints?, readConstraints?_succ]
      apply finds_recordSeparated? hentry (fun _ _ _ => past_of_constraint?)
      · exact finds_recordConstraint? steps (skipBlank cs) (by omega)
      · intro mid hmid
        have hshorter := hmid.shorter
        exact ih (hentry.trans hmid) (by omega)

theorem finds_recordGroup? (steps : Nat) {entry : Reading} {cs : List Char}
    (hentry : Past entry.start cs) (hsteps : 2 * cs.length ≤ steps) :
    Finds (recordGroup? entry steps cs) (constraints? steps cs) (2 * cs.length) := by
  apply finds_recordBehind? (markedBy_constraints? steps)
  intro rest hskip
  have hrest := past_of_skipInline_eq hskip
  have hshorter := hrest.shorter
  simp only [constraints?, hskip]
  exact (finds_recordConstraints? steps (hentry.trans hrest) (by omega)).mono (by omega)

theorem finds_description? (cs : List Char) :
    Finds (found? (description? cs)) (description? cs) (2 * cs.length) := by
  apply Finds.found?
  intro s rest h
  have hshorter := (past_of_description? h).shorter
  omega

/-- A part is tried before its mark only. If it is left out there, all calls may have been spent. -/
theorem completes_recordOptionally {α : Type} (part : List Char → OptionT Recorded (α × List Char))
    {plain : List Char → Option (α × List Char)} {mark : Char} (hmarked : MarkedBy mark plain)
    {tried : List Char} (hmark : mark ∉ tried) {cs : List Char}
    (hread : Finds (part cs) (plain cs) (2 * cs.length))
    (hnone : (∀ rest, skipInline cs ≠ mark :: rest) → part cs = found? none) :
    Completes (recordOptionally part cs) (optionally plain cs)
      (callsAhead (mark :: tried) (optionally plain cs).2) (callsAhead tried cs) := by
  rw [recordOptionally, optionally]
  by_cases hskip : ∃ rest, skipInline cs = mark :: rest
  · obtain ⟨rest, hskip⟩ := hskip
    have htried : ∀ c ∈ (skipInline cs).head?, c ∉ tried := by simpa [hskip] using hmark
    rw [callsAhead_of_notMem htried]
    apply Completes.bind hread
    cases plain cs with
    | none =>
        rw [callsAhead_of_mem List.mem_cons_self hskip]
        exact .pure _ (Nat.zero_le _)
    | some found =>
        obtain ⟨x, rest⟩ := found
        rw [spared, callsAhead_nil]
        exact .pure _ ((callsAhead_le _ rest).trans (Nat.le_succ _))
  · rw [not_exists] at hskip
    rw [hnone hskip, hmarked cs hskip, callsAhead_cons_of_ne hskip]
    exact Completes.bind (.pure none (Nat.le_refl _)) (.pure _ (Nat.le_refl _))

end Params

section Entries

/-- The marks of the parts that an entry may have been tried for in vain. -/
def triedMarks : List Char := ['"', '[', '=']

theorem notMem_triedMarks : ∀ c ∈ lineMarks, c ∉ triedMarks :=
  forall_mem_of_all (by decide)

theorem yields_recordParam (steps : Nat) {entry : Reading} {cs : List Char}
    (hentry : Past entry.start cs) (hsteps : 2 * cs.length ≤ steps) :
    Yields triedMarks (recordParam entry steps cs) (readParam steps cs) (2 * cs.length) := by
  apply Yields.outcome_bind
  rintro ⟨name, afterName⟩ hname
  apply Yields.outcome_bind
  rintro ⟨type, afterType⟩ htype
  rcases hrequired : readRequired afterType with ⟨required, afterMark⟩
  rcases hassigned : optionally (assigned? steps) afterMark with ⟨default, afterDefault⟩
  rcases hconstraints : optionally (constraints? steps) afterDefault with ⟨constraints, afterGroup⟩
  have hname := (advances_readParamName cs).past hname
  have htype := (advances_readParamType (skipInline afterName)).past htype
  have hafterMark : Past cs afterMark := (hname.trans_suffix (skipInline_suffix afterName)).trans
    (htype.trans_suffix (readRequired_suffix hrequired))
  have hafterDefault : Past cs afterDefault :=
    hafterMark.trans_suffix (optionally_suffix (fun _ _ => past_of_assigned?) hassigned)
  have hshorter := hafterMark.shorter
  have hshorter' := hafterDefault.shorter
  have hdefault := completes_recordOptionally (recordAssigned? entry steps)
    (markedBy_assigned? steps) List.not_mem_nil
    (finds_recordAssigned? steps (hentry.trans hafterMark) (by omega)) recordBehind?_of_ne
  have hgroup := completes_recordOptionally (recordGroup? entry steps)
    (markedBy_constraints? steps) (show '[' ∉ ['='] by decide)
    (finds_recordGroup? steps (hentry.trans hafterDefault) (by omega)) recordBehind?_of_ne
  have hdescription := completes_recordOptionally (fun cs => found? (description? cs))
    markedBy_description? (show '"' ∉ ['[', '='] by decide) (finds_description? afterGroup)
    (fun h => congrArg found? (markedBy_description? afterGroup h))
  rw [callsAhead_nil, hassigned] at hdefault
  rw [hconstraints] at hgroup
  simp only [hrequired, hassigned, hconstraints]
  apply Yields.lift_bind ((hdefault.add 1).mono (Nat.le_refl _) (by omega))
  apply Yields.lift_bind (hgroup.add 1)
  apply Yields.lift_bind (hdescription.add 1)
  exact .ok _ (Nat.le_refl _)

theorem yields_recordProperty (steps : Nat) {entry : Reading} {cs : List Char}
    (hentry : cs <:+ entry.start) (hsteps : 2 * cs.length ≤ steps) :
    Yields triedMarks (recordProperty entry steps cs) (readProperty steps cs) (2 * cs.length) := by
  rw [recordProperty, readProperty]
  cases hkey : identifier? cs with
  | none =>
      simp only
      exact .error _
  | some found =>
      obtain ⟨key, rest⟩ := found
      have hrest := past_of_run? hkey
      have hshorter := hrest.shorter
      have hvalues := completes_recordValues steps (.of_suffix hentry hrest) (by omega)
      simp only
      apply Yields.lift_bind ((hvalues.add 1).mono (Nat.le_refl _) (by omega))
      exact .ok _ (Nat.succ_le_succ (callsAhead_anti (forall_mem_of_all (by decide)) _))

theorem yields_recordBody {steps : Nat} {owner : Reading} {cs : List Char}
    (howner : cs <:+ owner.start)
    (hentries : ∀ body mid, Past body.start mid → mid.length + 2 ≤ cs.length →
      Yields [] (recordEntries body steps mid) (readEntries steps mid) (2 * mid.length + 1)) :
    Yields [] (recordBody owner (fun body => recordEntries body steps) cs) (readBody steps cs)
      (2 * cs.length) := by
  apply Yields.outcome_bind
  rintro ⟨name, afterName⟩ hname
  have hname := (advances_readName cs).past hname
  have hbody := hname.trans_suffix (skipBlank_suffix afterName)
  have hbodyShorter := hbody.shorter
  apply Yields.called (.inl (.of_suffix howner hbody)) (show 2 * cs.length - 1 < _ by omega)
  apply Yields.outcome_bind
  intro start hstart
  have hstart := (within_readOpening (skipBlank afterName)).of_ok hstart
  have hentry := hstart.trans_suffix (skipBlank_suffix start)
  have hshorter := hentry.shorter
  have hread := hentries ⟨.body, skipBlank afterName⟩ (skipBlank start) hentry (by omega)
  apply (hread.mono (by omega)).bind
  intro entries rest hrest
  exact .ok _ (Nat.le_refl _)

mutual

theorem yields_recordEntries (body : Reading) : (steps : Nat) → (cs : List Char) →
    Past body.start cs → 2 * cs.length + 2 ≤ steps →
    Yields [] (recordEntries body steps cs) (readEntries steps cs) (2 * cs.length + 1)
  | steps + 1, [], hbody, hsteps => by
      rw [recordEntries, readEntries]
      exact .error _
  | steps + 1, c :: tail, hbody, hsteps => by
      rw [recordEntries, readEntries]
      split
      case isTrue =>
        exact .ok _ (by rw [callsAhead_nil, List.length_cons]; omega)
      case isFalse =>
        split
        case isFalse => exact .error _
        case isTrue =>
          apply Yields.called (.inl hbody) (Nat.lt_succ_self (2 * (c :: tail).length))
          apply (yields_recordEntry steps (c :: tail) (by omega)).bind
          intro entry afterEntry hentry
          apply Yields.outcome_bind
          intro next hnext
          have hentry := (advances_readEntry steps (c :: tail)).past hentry
          -- the line has ended, so no part that has been tried in vain is ahead
          have hspare : callsAhead triedMarks afterEntry = 2 * afterEntry.length :=
            callsAhead_of_notMem fun d hd =>
              notMem_triedMarks d (ahead_of_readLineEnd hnext d hd)
          have hend := ((within_readLineEnd (skipInline afterEntry)).of_ok hnext).trans
            (skipInline_suffix afterEntry)
          have hnext := hentry.trans_suffix hend
          have hshorter := hnext.shorter
          have hlength := hend.length_le
          have hothers := yields_recordEntries body steps next (hbody.trans hnext) (by omega)
          apply (hothers.mono (by omega)).bind
          intro entries rest hread
          exact .ok _ (Nat.le_refl _)

theorem yields_recordEntry : (steps : Nat) → (cs : List Char) → 2 * cs.length + 1 ≤ steps →
    Yields triedMarks (recordEntry steps cs) (readEntry steps cs) (2 * cs.length)
  | steps + 1, cs, hsteps => by
      cases hstage : keyword? "stage" cs with
      | some after =>
          have hafter := past_of_keyword? hstage
          have hshorter := hafter.shorter
          have hcall : Reading.Precedes ⟨.entry, cs⟩ ⟨.stage, cs⟩ := .inr ⟨rfl, .entry⟩
          rw [recordEntry_stage hstage, readEntry_stage hstage]
          apply Yields.called hcall (show 2 * cs.length - 1 < 2 * cs.length by omega)
          apply Yields.outcome_bind
          rintro ⟨number, afterNumber⟩ hnumber
          have hnumber := hafter.trans ((advances_readStageNumber after).past hnumber)
          have hname := hnumber.trans_suffix (skipInline_suffix afterNumber)
          have hnameShorter := hname.shorter
          have hbody : Yields []
              (recordBody ⟨.stage, cs⟩ (fun body => recordEntries body steps) (skipInline afterNumber))
              (readBody steps (skipInline afterNumber)) (2 * (skipInline afterNumber).length) := by
            apply yields_recordBody hname.suffix
            intro body mid hmid hlength
            exact yields_recordEntries body steps mid hmid (by omega)
          apply (hbody.mono (by omega)).bind
          rintro ⟨taskType, entries⟩ rest -
          exact .ok _ (Nat.succ_le_succ (callsAhead_anti (by simp) rest))
      | none =>
          cases hparam : keyword? "param" cs with
          | some after =>
              have hafter := past_of_keyword? hparam
              have hshorter := hafter.shorter
              have hread : Yields triedMarks (recordParam ⟨.entry, cs⟩ steps after) _ _ :=
                yields_recordParam steps hafter (by omega)
              rw [recordEntry_param hstage hparam, readEntry_param hstage hparam]
              apply (hread.mono (by omega)).bind
              intro param rest hparam
              exact .ok _ (Nat.le_refl _)
          | none =>
              rw [recordEntry_property hstage hparam, readEntry_property hstage hparam]
              apply (yields_recordProperty steps (List.suffix_refl cs) (by omega)).bind
              intro property rest hproperty
              exact .ok _ (Nat.le_refl _)

end

end Entries

theorem yields_recordWorkflow (steps : Nat) {start cs : List Char} (hcs : cs <:+ start)
    (hsteps : 2 * cs.length ≤ steps) :
    Yields [] (recordWorkflow start steps cs) (readWorkflow steps cs) (2 * cs.length) := by
  have hbody : Yields [] (recordBody ⟨.workflow, start⟩ (fun body => recordEntries body steps) cs)
      (readBody steps cs) (2 * cs.length) := by
    apply yields_recordBody hcs
    intro body mid hmid hlength
    exact yields_recordEntries body steps mid hmid (by omega)
  rw [readWorkflow_eq]
  apply hbody.bind
  rintro ⟨jobType, entries⟩ rest -
  exact .ok _ (Nat.le_refl _)

theorem completes_recordWorkflows (steps : Nat) {text cs : List Char} (htext : cs <:+ text)
    (hsteps : 2 * cs.length ≤ steps) :
    Completes (recordWorkflows ⟨.text, text⟩ steps cs).run (readWorkflows steps cs) 0
      (2 * cs.length) := by
  induction steps generalizing cs with
  | zero =>
      obtain rfl : cs = [] := List.length_eq_zero_iff.mp (by omega)
      rw [recordWorkflows, readWorkflows]
      exact .pure _ (Nat.zero_le _)
  | succ steps ih =>
      cases cs with
      | nil =>
          rw [recordWorkflows, readWorkflows]
          exact .pure _ (Nat.zero_le _)
      | cons c tail =>
          have hlength : (c :: tail).length = tail.length + 1 := rfl
          have hcall : Reading.Precedes ⟨.text, text⟩ ⟨.workflow, c :: tail⟩ := by
            rcases htext.length_le.lt_or_eq with hlt | heq
            · exact .inl ⟨htext, hlt⟩
            · exact .inr ⟨htext.eq_of_length heq, .text⟩
          rw [recordWorkflows, readWorkflows]
          · apply Completes.exceptT_lift_bind
              (.called hcall (show 2 * tail.length + 1 < 2 * (c :: tail).length by omega))
            cases hkeyword : keyword? "workflow" (c :: tail) with
            | none =>
                simp only
                exact .pure _ (Nat.zero_le _)
            | some start =>
                have hstart := past_of_keyword? hkeyword
                have hstartShorter := hstart.shorter
                have hworkflow := yields_recordWorkflow steps hstart.suffix (by omega)
                simp only
                apply Completes.exceptT_bind (hworkflow.mono (by omega)) (fun _ _ => Nat.zero_le _)
                rintro ⟨block, after⟩ hblock
                have hafter := hstart.trans ((advances_readWorkflow steps start).past hblock)
                have hnext := hafter.trans_suffix (skipBlank_suffix after)
                have hshorter := hnext.shorter
                have hblank := (skipBlank_suffix after).length_le
                have hothers := ih (hnext.suffix.trans htext) (by omega)
                rw [hblock, Except.toOption, spared, callsAhead_nil]
                apply Completes.exceptT_bind (hothers.mono (Nat.le_refl 0) (by omega))
                  (fun _ _ => Nat.zero_le _)
                intro blocks hblocks
                exact .pure _ (Nat.le_refl 0)
          all_goals exact List.cons_ne_nil c tail

/-- The reading of the text from `cs` on ends in `a`: its steps do not run out, it takes at most two
calls for each character, and no part is read from within itself but further on in the text. -/
def Ends {α : Type} (cs : List Char) (x : Recorded α) (a : α) : Prop :=
  ∃ calls, x.run = some (a, calls) ∧ calls.length ≤ 2 * cs.length ∧
    (∀ call ∈ calls, call.caller.Precedes call.callee) ∧
    ∀ part start within, Leads calls ⟨part, start⟩ ⟨part, within⟩ → Past start within

theorem Completes.ends {α : Type} {cs : List Char} {x : Recorded α} {a : α} {spare : Nat}
    (h : Completes x a spare (2 * cs.length)) : Ends cs x a := by
  obtain ⟨calls, hrun, hcalls, hlength⟩ := h
  exact ⟨calls, hrun, by omega, hcalls, fun _ _ _ => past_of_leads hcalls⟩

theorem recordLiteral?_ends {steps : Nat} {cs : List Char} (hsteps : 2 * (cs.length + 1) ≤ steps) :
    Ends cs (recordLiteral? steps cs).run (readLiteral? (2 * (cs.length + 1)) cs) := by
  rw [readLiteral?_budget (2 * (cs.length + 1)) steps cs (by omega) (by omega)]
  exact Completes.ends (finds_recordLiteral? steps cs (by omega))

/-- Nested brackets take two steps each and one more, so these steps do run out. -/
example : (recordLiteral? 6 "[[[".toList).run.run = none ∧
    (recordLiteral? 7 "[[[".toList).run.run.isSome :=
  ⟨rfl, rfl⟩

theorem recordEntry_ends {steps : Nat} {cs : List Char} (hsteps : 2 * (cs.length + 1) ≤ steps) :
    Ends cs (recordEntry steps cs).run (readEntry (2 * (cs.length + 1)) cs) := by
  rw [readEntry_budget (2 * (cs.length + 1)) steps cs (by omega) (by omega)]
  exact Completes.ends (yields_recordEntry steps cs (by omega))

theorem recordText_ends {steps : Nat} {text : List Char} (hsteps : 2 * text.length ≤ steps) :
    Ends text (recordText steps text).run (readText text) := by
  have hlength := (skipBlank_suffix text).length_le
  have hread := completes_recordWorkflows steps (skipBlank_suffix text) (by omega)
  rw [← readTextWithin_eq_readText hsteps]
  exact Completes.ends (hread.mono (Nat.le_refl 0) (by omega))

/-- Every repetition advances, wherever it is. With two steps for each character and two more, or with
more than these, reading a value, an entry or a whole text ends, and always in the same way. -/
theorem repetitions_advance_and_reading_ends :
    (∀ steps cs, RepetitionsAdvance steps cs) ∧
    (∀ (cs : List Char) (steps : Nat), 2 * (cs.length + 1) ≤ steps →
      Ends cs (recordLiteral? steps cs).run (readLiteral? (2 * (cs.length + 1)) cs) ∧
      Ends cs (recordEntry steps cs).run (readEntry (2 * (cs.length + 1)) cs)) ∧
    ∀ (text : String) (steps : Nat), 2 * (text.toList.length + 1) ≤ steps →
      Ends text.toList (recordText steps text.toList).run (readText text.toList) ∧
      (readTextWithin steps text.toList).mapError (.ofFailure text.toList) = parse text := by
  refine ⟨repetitionsAdvance, ?_, ?_⟩
  · intro cs steps hsteps
    exact ⟨recordLiteral?_ends hsteps, recordEntry_ends hsteps⟩
  · intro text steps hsteps
    have henough : 2 * text.toList.length ≤ steps := by omega
    refine ⟨recordText_ends henough, ?_⟩
    rw [readTextWithin_eq_readText henough, parse]

def unclosedList : String := "workflow a \x7b\n  b [1, [2\n\x7d\n"

theorem unclosedList_read_to_end :
    parse unclosedList = .error ⟨17, "  b [1, [2", .endOfLine, some '['⟩ ∧
      2 * (unclosedList.toList.length + 1) ≤ 60 ∧
      Ends unclosedList.toList (recordText 60 unclosedList.toList).run
        (readText unclosedList.toList) ∧
      (readTextWithin 60 unclosedList.toList).mapError (.ofFailure unclosedList.toList) =
        parse unclosedList ∧
      2 * ("[1, [2".toList.length + 1) ≤ 20 ∧
      Ends "[1, [2".toList (recordLiteral? 20 "[1, [2".toList).run none := by
  have hparse : parse unclosedList = .error ⟨17, "  b [1, [2", .endOfLine, some '['⟩ := by cbv
  have hlist : readLiteral? (2 * ("[1, [2".toList.length + 1)) "[1, [2".toList = none := by cbv
  have htextSteps : 2 * (unclosedList.toList.length + 1) ≤ 60 := by decide
  have hlistSteps : 2 * ("[1, [2".toList.length + 1) ≤ 20 := by decide
  obtain ⟨-, hparts, htexts⟩ := repetitions_advance_and_reading_ends
  obtain ⟨htext, hsame⟩ := htexts unclosedList 60 htextSteps
  obtain ⟨hvalue, -⟩ := hparts "[1, [2".toList 20 hlistSteps
  rw [hlist] at hvalue
  exact ⟨hparse, htextSteps, htext, hsame, hlistSteps, hvalue⟩

end StagedJobs.Catalogue
