import StagedJobs.Proofs.Catalogue.LineRoundTrip

namespace StagedJobs.Catalogue

mutual

/-- An entry that can be written. -/
def Entry.WellFormed : Entry → Prop
  | .property p => p.WellFormed
  | .param p => p.WellFormed
  | .stage number taskType entries =>
    number < UInt32.size ∧ IsName taskType ∧ EntriesWellFormed entries

def EntriesWellFormed : List Entry → Prop
  | [] => True
  | entry :: entries => entry.WellFormed ∧ EntriesWellFormed entries

end

/-- A workflow that can be written. It need not be one that can be built. -/
def WorkflowBlock.WellFormed (b : WorkflowBlock) : Prop :=
  IsName b.jobType ∧ EntriesWellFormed b.entries

/-- A character that entries and the closing brace of a body start with. -/
def StartsEntry (c : Char) : Prop := c = '\x7d' ∨ isIdentifierChar c = true

theorem StartsEntry.isSkipped_eq_false {c : Char} (h : StartsEntry c) : isSkipped c = false := by
  rcases h with rfl | h
  · decide
  · have hstarts : StartsLiteral c := .inr (.inr (isWordChar_of_isIdentifierChar h))
    exact hstarts.isSkipped_eq_false

theorem exists_isIdentifierChar {s : String} (hs : IsName s) (more : List Char) :
    ∃ c rest, s.toList ++ more = c :: rest ∧ isIdentifierChar c = true := by
  obtain ⟨hne, hchars⟩ := hs
  obtain ⟨c, rest, hcons⟩ := List.exists_cons_of_ne_nil hne
  exact ⟨c, rest ++ more, by simp [hcons], hchars c (by simp [hcons])⟩

/-- Whatever text an entry is written as, up to the end of its line, another one is read from it. -/
structure Entry.ReadsAs (written read : Entry) : Prop where
  starts : ∀ {cs}, Renders .free written.pieces cs →
    ∃ c rest, cs = c :: rest ∧ isIdentifierChar c = true
  reads : ∀ {cs rest steps}, Renders .free written.pieces cs → Ahead lineMarks rest →
    2 * cs.length + 1 ≤ steps →
      ∃ rest', readEntry steps (cs ++ rest) = .ok (read, rest') ∧ skipInline rest' = skipInline rest

theorem exists_startsEntry {entries read : List Entry} (hread : List.Forall₂ Entry.ReadsAs entries read)
    {cs : List Char} (h : Renders .free (entryPieces entries) cs) :
    ∃ c rest, cs = c :: rest ∧ StartsEntry c := by
  cases hread with
  | nil =>
      have hcs : cs = ['\x7d'] := renders_singleton.mp h
      subst hcs
      exact ⟨'\x7d', [], rfl, .inl rfl⟩
  | @cons entry _ entries _ hentry _ =>
      obtain ⟨gap, -, hpieces⟩ := entryPieces_cons entry entries
      rw [hpieces] at h
      obtain ⟨first, more, hfirst, -, rfl⟩ := renders_append.mp h
      obtain ⟨c, rest, rfl, hc⟩ := hentry.starts hfirst
      exact ⟨c, rest ++ more, rfl, .inr hc⟩

theorem skipBlank_append_entries {g : List Char} (hg : Blank g) {entries read : List Entry}
    (hread : List.Forall₂ Entry.ReadsAs entries read) {cs : List Char}
    (h : Renders .free (entryPieces entries) cs) (rest : List Char) :
    skipBlank (g ++ (cs ++ rest)) = cs ++ rest := by
  obtain ⟨c, more, rfl, hc⟩ := exists_startsEntry hread h
  exact skipBlank_append_mark hg hc.isSkipped_eq_false (more ++ rest)

theorem LineEnd.ahead {g : List Char} (hg : LineEnd g) (rest : List Char) :
    Ahead lineMarks (g ++ rest) := by
  obtain ⟨inline, c, more, hinline, hc, -, rfl⟩ := hg
  rw [List.append_assoc, List.cons_append]
  rcases hc with rfl | rfl
  · exact ahead_append_mark hinline (by decide) (by decide) (more ++ rest)
  · exact ahead_append_mark hinline (by decide) (by decide) (more ++ rest)

theorem LineEnd.readLineEnd_append {g : List Char} (hg : LineEnd g) (rest : List Char) :
    readLineEnd (skipInline (g ++ rest)) = .ok (skipBlank rest) := by
  obtain ⟨inline, c, more, hinline, hc, hblank, rfl⟩ := hg
  have hskip : skipInline (inline ++ c :: (more ++ rest)) = c :: (more ++ rest) := by
    refine skipInline_append_mark hinline ?_ (more ++ rest)
    rcases hc with rfl | rfl
    · decide
    · decide
  rw [List.append_assoc, List.cons_append, hskip, readLineEnd, if_pos (by simpa using hc),
    ← List.cons_append, skipBlank_append hblank]

theorem readLineEnd_entries {entries read : List Entry}
    (hread : List.Forall₂ Entry.ReadsAs entries read) {gap : Gap}
    (hgap : gap = .lineEnd ∨ gap = .lastLineEnd ∧ entries = []) {g cs : List Char}
    (hg : gap.Admits g) (h : Renders .free (entryPieces entries) cs) (rest : List Char) :
    Ahead lineMarks (g ++ (cs ++ rest)) ∧
      readLineEnd (skipInline (g ++ (cs ++ rest))) = .ok (cs ++ rest) := by
  have hend : LineEnd g → Ahead lineMarks (g ++ (cs ++ rest)) ∧
      readLineEnd (skipInline (g ++ (cs ++ rest))) = .ok (cs ++ rest) := by
    intro hend
    have hskip : skipBlank (cs ++ rest) = cs ++ rest := skipBlank_append_entries .nil hread h rest
    exact ⟨hend.ahead (cs ++ rest), by rw [hend.readLineEnd_append, hskip]⟩
  rcases hgap with rfl | ⟨rfl, rfl⟩
  · exact hend hg
  · rcases hg with hg | hg
    · exact hend hg
    · have hcs : cs = ['\x7d'] := renders_singleton.mp h
      subst hcs
      refine ⟨ahead_append_mark hg (by decide) (by decide) rest, ?_⟩
      rw [List.singleton_append, skipInline_append_mark hg (by decide)]
      rfl

theorem readStageNumber_append {n : Nat} (hn : n < UInt32.size) {digits : List Char}
    (hdigits : CountSpelledAs n digits) {rest : List Char} (hrest : Stops Char.isDigit rest) :
    readStageNumber (digits ++ rest) = .ok (n, rest) := by
  obtain ⟨⟨hne, hchars⟩, hvalue⟩ := hdigits
  rw [readStageNumber, spanDigits_append hchars hrest]
  simp only [List.isEmpty_iff, hne, if_false, hvalue, hn, if_true]

theorem skipBlank_skipInline (cs : List Char) : skipBlank (skipInline cs) = skipBlank cs := by
  induction cs with
  | nil => rfl
  | cons c cs ih =>
      by_cases hc : isInlineBlank c = true
      · have hskip : skipInline (c :: cs) = skipInline cs := List.dropWhile_cons_of_pos hc
        rw [hskip, ih, skipBlank, if_pos (isBlank_of_isInlineBlank hc)]
      · rw [skipInline_of_stops (stops_cons_iff.mpr (Bool.eq_false_iff.mpr hc))]

theorem readName_eq_ok {s : String} (hs : IsName s) {cs rest : List Char}
    (hskip : skipBlank cs = skipBlank (s.toList ++ rest)) (hrest : Stops isIdentifierChar rest) :
    readName cs = .ok (s, rest) := by
  obtain ⟨c, more, hcons, hc⟩ := exists_isIdentifierChar hs rest
  have hstart : skipBlank (s.toList ++ rest) = s.toList ++ rest := by
    have hstarts : StartsEntry c := .inr hc
    rw [hcons]
    exact skipBlank_of_stops (stops_cons_iff.mpr hstarts.isSkipped_eq_false)
  rw [readName]
  simp only [hskip, hstart, identifier?_append hs hrest]

theorem exists_body {s : String} {entries : List Entry} {cs : List Char}
    (h : Renders .free (.ofString s :: .gap .blank :: .text ['\x7b'] :: .gap .blank ::
      entryPieces entries) cs) :
    ∃ g g' body, Blank g ∧ Blank g' ∧ Renders .free (entryPieces entries) body ∧
      cs = s.toList ++ (g ++ '\x7b' :: (g' ++ body)) := by
  obtain ⟨afterName, hafterName, rfl⟩ := renders_text.mp h
  obtain ⟨g, atBrace, hg, hatBrace, rfl⟩ := renders_gap.mp hafterName
  obtain ⟨afterBrace, hafterBrace, rfl⟩ := renders_text.mp hatBrace
  obtain ⟨g', body, hg', hbody, rfl⟩ := renders_gap.mp hafterBrace
  exact ⟨g, g', body, hg, hg', hbody, rfl⟩

theorem readOpening_append {g : List Char} (hg : Blank g) (rest : List Char) :
    readOpening (skipBlank (g ++ '\x7b' :: rest)) = .ok rest := by
  rw [skipBlank_append_mark hg (by decide)]
  rfl

theorem readEntry_append_param_of_readsAs {p q : ParamEntry} (hp : p.ReadsAs q)
    {cs rest : List Char} (h : Renders .free (Entry.param p).pieces cs)
    (hrest : Ahead lineMarks rest) {steps : Nat} (hsteps : 2 * cs.length + 1 ≤ steps) :
    readEntry steps (cs ++ rest) = .ok (.param q, rest) := by
  obtain ⟨steps, rfl⟩ : ∃ k, steps = k + 1 := ⟨steps - 1, by omega⟩
  obtain ⟨tail, htail, rfl⟩ := renders_text.mp h
  obtain ⟨g, written, ⟨hne, hg⟩, hwritten, rfl⟩ := renders_gap.mp htail
  have hparam : keyword? "param" ("param".toList ++ (g ++ (written ++ rest))) =
      some (written ++ rest) := by
    obtain ⟨afterName, -, rfl⟩ := renders_text.mp hwritten
    rw [keyword?_append hne hg, List.append_assoc,
      skipInline_append_word hp.name.1 hp.name.isWordChar]
  have hread := ParamEntry.readParam_append hp hwritten hrest
    (show 2 * written.length + 1 ≤ steps by simp at hsteps; omega)
  simp only [List.append_assoc]
  rw [readEntry, keyword?_stage_param hne hg, hparam]
  simp only [bind, Except.bind, hread]

theorem readEntry_append_param {p : ParamEntry} (hwell : p.WellFormed) {cs rest : List Char}
    (h : Renders .free (Entry.param p).pieces cs) (hrest : Ahead lineMarks rest) {steps : Nat}
    (hsteps : 2 * cs.length + 1 ≤ steps) :
    readEntry steps (cs ++ rest) = .ok (.param p, rest) :=
  readEntry_append_param_of_readsAs hwell.readsAs h hrest hsteps

theorem readEntries_append {entries read : List Entry}
    (hread : List.Forall₂ Entry.ReadsAs entries read) {cs : List Char}
    (h : Renders .free (entryPieces entries) cs) (rest : List Char) {steps : Nat}
    (hsteps : 2 * cs.length + 2 ≤ steps) :
    readEntries steps (cs ++ rest) = .ok (read, rest) := by
  obtain ⟨steps, rfl⟩ : ∃ k, steps = k + 1 := ⟨steps - 1, by omega⟩
  induction hread generalizing cs steps with
  | nil =>
      have hcs : cs = ['\x7d'] := renders_singleton.mp h
      subst hcs
      rw [List.singleton_append, readEntries, if_pos rfl]
  | @cons entry entry' entries entries' hentry hentries ih =>
      obtain ⟨gap, hgap, hpieces⟩ := entryPieces_cons entry entries
      rw [hpieces] at h
      obtain ⟨first, tail, hfirst, htail, rfl⟩ := renders_append.mp h
      obtain ⟨g, others, hg, hothers, rfl⟩ := renders_gap.mp htail
      obtain ⟨hahead, hlineEnd⟩ := readLineEnd_entries hentries hgap hg hothers rest
      obtain ⟨rest', hreadFirst, hrest'⟩ := hentry.reads hfirst hahead
        (show 2 * first.length + 1 ≤ steps by simp at hsteps; omega)
      obtain ⟨c, more, rfl, hc⟩ := hentry.starts hfirst
      obtain ⟨steps, rfl⟩ : ∃ k, steps = k + 1 := ⟨steps - 1, by simp at hsteps; omega⟩
      have hnext := ih hothers steps (show 2 * others.length + 2 ≤ steps + 1 by simp at hsteps; omega)
      have hbrace : c ≠ '\x7d' := by
        rintro rfl
        exact absurd hc (by decide)
      simp only [List.append_assoc, List.cons_append] at hreadFirst ⊢
      rw [readEntries, if_neg hbrace, if_pos hc, hreadFirst]
      simp only [bind, Except.bind, hrest', hlineEnd, hnext]

theorem Entry.ReadsAs.property {p q : Property} (hp : p.ReadsAs q) :
    (Entry.property p).ReadsAs (.property q) where
  starts h := by
    obtain ⟨rest, -, rfl⟩ := renders_text.mp h
    exact exists_isIdentifierChar hp.key rest
  reads := by
    intro cs rest steps h hrest hsteps
    obtain ⟨steps, rfl⟩ : ∃ k, steps = k + 1 := ⟨steps - 1, by omega⟩
    have hstage : keyword? "stage" (cs ++ rest) = none :=
      keyword?_property hp h hrest (forall_mem_of_all (by decide)) hp.notStage
    have hparam : keyword? "param" (cs ++ rest) = none :=
      keyword?_property hp h hrest (forall_mem_of_all (by decide)) hp.notParam
    obtain ⟨rest', hread, hrest'⟩ := readProperty_append hp h hrest
      (show 2 * cs.length ≤ steps by omega)
    refine ⟨rest', ?_, hrest'⟩
    rw [readEntry, hstage, hparam]
    simp only [bind, Except.bind, hread]

theorem Entry.ReadsAs.param {p q : ParamEntry} (hp : p.ReadsAs q) :
    (Entry.param p).ReadsAs (.param q) where
  starts h := by
    obtain ⟨rest, -, rfl⟩ := renders_text.mp h
    exact ⟨'p', _, rfl, by decide⟩
  reads {_ rest _} h hrest hsteps :=
    ⟨rest, readEntry_append_param_of_readsAs hp h hrest hsteps, rfl⟩

theorem Entry.ReadsAs.stage {number : Nat} {taskType : String} {entries read : List Entry}
    (hnumber : number < UInt32.size) (htaskType : IsName taskType)
    (hread : List.Forall₂ Entry.ReadsAs entries read) :
    (Entry.stage number taskType entries).ReadsAs (.stage number taskType read) where
  starts h := by
    obtain ⟨rest, -, rfl⟩ := renders_text.mp h
    exact ⟨'s', _, rfl, by decide⟩
  reads := by
    intro cs rest steps h hrest hsteps
    obtain ⟨steps, rfl⟩ : ∃ k, steps = k + 1 := ⟨steps - 1, by omega⟩
    obtain ⟨afterKeyword, hafterKeyword, rfl⟩ := renders_text.mp h
    obtain ⟨g₁, atNumber, ⟨hne₁, hg₁⟩, hatNumber, rfl⟩ := renders_gap.mp hafterKeyword
    obtain ⟨digits, afterNumber, hdigits, hafterNumber, rfl⟩ := renders_cons.mp hatNumber
    obtain ⟨g₂, atName, ⟨hne₂, hg₂⟩, hatName, rfl⟩ := renders_gap.mp hafterNumber
    obtain ⟨g₃, g₄, body, hg₃, hg₄, hbody, rfl⟩ := exists_body hatName
    have hreadBody := readEntries_append hread hbody rest
      (show 2 * body.length + 2 ≤ steps by simp at hsteps; omega)
    have hdigitsWord : ∀ c ∈ digits, isWordChar c = true :=
      fun c hc => isWordChar_of_isDigit (hdigits.1.2 c hc)
    have hkeyword : ∀ tail, keyword? "stage" ("stage".toList ++ (g₁ ++ (digits ++ tail))) =
        some (digits ++ tail) := by
      intro tail
      rw [keyword?_append hne₁ hg₁, skipInline_append_word hdigits.1.1 hdigitsWord]
    have hstopsNumber := fun tail => stops_isDigit (stops_isWordChar_separator hne₂ hg₂ tail)
    have hstopsName := fun tail => stops_isIdentifierChar
      (stops_isWordChar_blank hg₃ (c := '\x7b') (by decide) tail)
    refine ⟨rest, ?_, rfl⟩
    simp only [List.append_assoc, List.cons_append]
    rw [readEntry, hkeyword]
    simp only [bind, Except.bind]
    rw [readStageNumber_append hnumber hdigits (hstopsNumber _)]
    simp only
    rw [readName_eq_ok htaskType (by rw [skipBlank_skipInline, skipBlank_append hg₂])
      (hstopsName _)]
    simp only
    rw [readOpening_append hg₃]
    simp only
    rw [skipBlank_append_entries hg₄ hread hbody, hreadBody]

mutual

theorem Entry.WellFormed.readsAs : {entry : Entry} → entry.WellFormed → entry.ReadsAs entry
  | .property _, hp => .property (Property.WellFormed.readsAs hp)
  | .param _, hp => .param (ParamEntry.WellFormed.readsAs hp)
  | .stage .., ⟨hnumber, htaskType, hentries⟩ =>
      .stage hnumber htaskType (EntriesWellFormed.readsAs hentries)

theorem EntriesWellFormed.readsAs : {entries : List Entry} → EntriesWellFormed entries →
    List.Forall₂ Entry.ReadsAs entries entries
  | [], _ => .nil
  | _ :: _, ⟨hentry, hentries⟩ => .cons (Entry.WellFormed.readsAs hentry)
      (EntriesWellFormed.readsAs hentries)

end

/-- Whatever text a block is written as, another one is read from it. -/
structure WorkflowBlock.ReadsAs (written read : WorkflowBlock) : Prop where
  name : IsName written.jobType
  jobType : read.jobType = written.jobType
  entries : List.Forall₂ Entry.ReadsAs written.entries read.entries

theorem WorkflowBlock.WellFormed.readsAs {b : WorkflowBlock} (hb : b.WellFormed) :
    b.ReadsAs b :=
  ⟨hb.1, rfl, hb.2.readsAs⟩

theorem readWorkflow_append {b read : WorkflowBlock} (hb : b.ReadsAs read) {cs : List Char}
    (h : Renders .free b.pieces cs) (rest : List Char) {steps : Nat}
    (hsteps : 2 * cs.length ≤ steps) :
    ∃ start, keyword? "workflow" (cs ++ rest) = some start ∧
      readWorkflow steps start = .ok (read, rest) := by
  obtain ⟨hname, hjobType, hentries⟩ := hb
  obtain ⟨afterKeyword, hafterKeyword, rfl⟩ := renders_text.mp h
  obtain ⟨g₁, atGap, ⟨hne, hg₁⟩, hatGap, rfl⟩ := renders_gap.mp hafterKeyword
  obtain ⟨g₂, atName, hg₂, hatName, rfl⟩ := renders_gap.mp hatGap
  obtain ⟨g₃, g₄, body, hg₃, hg₄, hbody, rfl⟩ := exists_body hatName
  have hread := readEntries_append hentries hbody rest
    (show 2 * body.length + 2 ≤ steps by simp at hsteps; omega)
  have hstops := fun tail => stops_isIdentifierChar
    (stops_isWordChar_blank hg₃ (c := '\x7b') (by decide) tail)
  simp only [List.append_assoc, List.cons_append]
  refine ⟨_, keyword?_append hne hg₁ _, ?_⟩
  rw [readWorkflow, readName_eq_ok hname (by rw [skipBlank_skipInline, skipBlank_append hg₂])
    (hstops _)]
  simp only [bind, Except.bind]
  rw [readOpening_append hg₃]
  simp only
  rw [skipBlank_append_entries hg₄ hentries hbody, hread, ← hjobType]

theorem skipBlank_textEnd {cs : List Char} (h : Gap.textEnd.Admits cs) : skipBlank cs = [] := by
  rcases h with rfl | ⟨text, htext, rfl⟩
  · rfl
  · rw [skipBlank, if_neg (by decide), if_pos rfl, skipComment_of_notMem htext]

theorem skipBlank_append_workflow {b : WorkflowBlock} {cs : List Char}
    (h : Renders .free b.pieces cs) (rest : List Char) : skipBlank (cs ++ rest) = cs ++ rest := by
  obtain ⟨more, -, rfl⟩ := renders_text.mp h
  exact skipBlank_of_stops (stops_cons_iff.mpr (by decide))

theorem readWorkflows_append {blocks read : List WorkflowBlock}
    (hread : List.Forall₂ WorkflowBlock.ReadsAs blocks read) {cs last : List Char}
    (h : Renders .free (blocks.flatMap fun b => b.pieces ++ [.gap .blank]) cs)
    (hlast : Gap.textEnd.Admits last) {steps : Nat} (hsteps : 2 * cs.length + 1 ≤ steps) :
    readWorkflows steps (skipBlank (cs ++ last)) = .ok read := by
  induction hread generalizing cs steps with
  | nil =>
      have hcs : cs = [] := h
      subst hcs
      rw [List.nil_append, skipBlank_textEnd hlast, readWorkflows]
  | @cons b b' blocks blocks' hb _ ih =>
      obtain ⟨steps, rfl⟩ : ∃ k, steps = k + 1 := ⟨steps - 1, by omega⟩
      rw [List.flatMap_cons] at h
      obtain ⟨first, others, hfirst, hothers, rfl⟩ := renders_append.mp h
      obtain ⟨written, g, hwritten, hgap, rfl⟩ := renders_append.mp hfirst
      have hg : Blank g := renders_singleton.mp hgap
      obtain ⟨start, hkeyword, hreadFirst⟩ := readWorkflow_append hb hwritten
        (g ++ (others ++ last)) (show 2 * written.length ≤ steps by simp at hsteps; omega)
      have hne : written ≠ [] := by
        obtain ⟨more, -, rfl⟩ := renders_text.mp hwritten
        exact List.cons_ne_nil _ _
      have hpos : 0 < written.length := List.length_pos_iff.mpr hne
      have hnext := ih hothers (show 2 * others.length + 1 ≤ steps by simp at hsteps; omega)
      rw [List.append_assoc, List.append_assoc, skipBlank_append_workflow hwritten]
      rw [readWorkflows, hkeyword]
      · simp only [bind, Except.bind, hreadFirst]
        rw [skipBlank_append hg, hnext]
      · exact List.append_ne_nil_of_left_ne_nil hne _

/-- What is parsed from a text that blocks are written as is what each of them is read as. -/
theorem parse_of_readsAs {blocks read : List WorkflowBlock}
    (hread : List.Forall₂ WorkflowBlock.ReadsAs blocks read) {text : String}
    (h : Renders .free (write blocks) text.toList) : parse text = .ok read := by
  obtain ⟨g, more, hg, hmore, hcons⟩ := renders_gap.mp h
  obtain ⟨cs, last, hcs, hlast, rfl⟩ := renders_append.mp hmore
  have hblocks := readWorkflows_append hread hcs (renders_singleton.mp hlast)
    (show 2 * cs.length + 1 ≤ 2 * (text.toList.length + 1) by
      rw [hcons]
      simp
      omega)
  rw [parse, readText, readTextWithin, hcons, skipBlank_append hg, ← hcons, hblocks]
  rfl

/-- Parsing undoes writing: well-formed blocks are what is parsed from every text that they are
written as, in whatever layout and with whatever digits. -/
theorem parse_of_renders {blocks : List WorkflowBlock} (hwell : ∀ b ∈ blocks, b.WellFormed)
    {text : String} (h : Renders .free (write blocks) text.toList) : parse text = .ok blocks := by
  apply parse_of_readsAs _ h
  rw [List.forall₂_same]
  intro b hb
  exact (hwell b hb).readsAs

/-- A workflow with each kind of entry, a list and a constraint. -/
def scattered : WorkflowBlock :=
  ⟨"a", [.stage 7 "b" [.param ⟨"n", "int", true, none, [("k", .word "c")], some "d"⟩,
    .property ⟨"x", [.list [.word "c", .int (-3)]]⟩]]⟩

def scatteredText : String :=
  "# one\nworkflow\ta \x7b\n\n stage 07\nb \x7b param n: int! [k =c\n]\"d\" # two\n"
    ++ "x [c,#\n-03 ] \x7d\n\x7d# three"

def scatteredParts : List String :=
  ["# one\n", "workflow", "\t", "", "a", " ", "\x7b", "\n\n ", "stage", " ", "07", "\n", "b", " ",
    "\x7b", " ", "param", " ", "n", "", ":", " ", "int", "!", " ", "[", "", "k", " ", "=", "", "c",
    "\n", "]", "", "\"d\"", " # two\n", "x", " ", "[", "", "c", "", ",", "#\n", "-03", " ", "]", " ",
    "\x7d", "\n", "\x7d", "", "# three"]

theorem scattered_wellFormed : ∀ b ∈ [scattered], b.WellFormed := by
  have hparam : ParamEntry.WellFormed ⟨"n", "int", true, none, [("k", .word "c")], some "d"⟩ := by
    constructor <;> simp [IsName, IsQuotable, Literal.WellFormed, IsWord] <;> decide
  have hproperty : Property.WellFormed ⟨"x", [.list [.word "c", .int (-3)]]⟩ := by
    constructor <;> simp [IsName, Literal.WellFormed, ItemsWellFormed, IsWord] <;> decide
  intro b hb
  obtain rfl : b = scattered := by simpa using hb
  have ha : IsName "a" := ⟨by decide, forall_mem_of_all (by decide)⟩
  have hb : IsName "b" := ⟨by decide, forall_mem_of_all (by decide)⟩
  refine ⟨ha, ⟨by decide, hb, ?_⟩, trivial⟩
  exact ⟨hparam, hproperty, trivial⟩

theorem scattered_renders :
    Renders .free (write [scattered]) (scatteredParts.map String.toList).flatten := by
  have hone : Blank ('#' :: (" one".toList ++ '\n' :: [])) := .comment (by decide) .nil
  have hempty : Blank ('#' :: ("".toList ++ '\n' :: [])) := .comment (by decide) .nil
  have hspace : Blank [' '] := .space (by decide) .nil
  have hline : Blank ['\n'] := .space (by decide) .nil
  have hlines : Blank ['\n', '\n', ' '] := .space (by decide) (.space (by decide) hspace)
  have hseven : CountSpelledAs 7 ['0', '7'] := ⟨⟨by decide, forall_mem_of_all (by decide)⟩, rfl⟩
  have hthree : (Literal.int (-3)).SpelledAs ['-', '0', '3'] :=
    ⟨true, ['0', '3'], ⟨by decide, forall_mem_of_all (by decide)⟩, rfl, rfl⟩
  have hinline : isInlineBlank ' ' = true := by decide
  have htab : isInlineBlank '\t' = true := by decide
  have hend : LineEnd ['\n'] := ⟨[], '\n', [], by simp [Inline], .inl rfl, hline, rfl⟩
  have htwo : LineEnd (' ' :: '#' :: (" two".toList ++ '\n' :: [])) :=
    ⟨[' '], '#', _, by simp [Inline, hinline], .inr rfl, .comment (by decide) .nil, rfl⟩
  apply renders_flatten
  simp [write, scattered, WorkflowBlock.pieces, Entry.pieces, entryPieces, Property.pieces,
    ParamEntry.pieces, ParamEntry.requiredPieces, ParamEntry.defaultPieces,
    ParamEntry.constraintGroupPieces, ParamEntry.descriptionPieces, constraintsPieces,
    constraintPieces, Literal.pieces, itemPieces, scatteredParts, Piece.Admits, Piece.ofString,
    Piece.quoted, Style.free, Gap.Admits, Inline, hspace, hline, hlines, hseven, hthree, hinline,
    htab, hend, Blank.nil]
  exact ⟨hone, htwo, hempty⟩

theorem scattered_read_back :
    (∀ b ∈ [scattered], b.WellFormed) ∧ Renders .free (write [scattered]) scatteredText.toList ∧
      parse scatteredText = .ok [scattered] := by
  have htext : scatteredText.toList = (scatteredParts.map String.toList).flatten := by rfl
  have hrenders := scattered_renders
  rw [← htext] at hrenders
  exact ⟨scattered_wellFormed, hrenders, parse_of_renders scattered_wellFormed hrenders⟩

end StagedJobs.Catalogue
