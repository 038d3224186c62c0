import StagedJobs.Proofs.Catalogue.LiteralRoundTrip

/-!
Parameters and properties are read back from what they are written as. An entry may go on with parts
that are left out elsewhere, so each part has to be told from those that may follow by the mark ahead.
-/

namespace StagedJobs.Catalogue

/-- A parameter that can be written. -/
structure ParamEntry.WellFormed (p : ParamEntry) : Prop where
  name : IsName p.name
  type : IsName p.type
  default : ∀ x ∈ p.default, x.WellFormed
  constraints : ∀ c ∈ p.constraints, IsName c.1 ∧ c.2.WellFormed
  description : ∀ s ∈ p.description, IsQuotable s

/-- A property that can be written and is not taken for another kind of entry. -/
structure Property.WellFormed (p : Property) : Prop where
  key : IsName p.key
  notStage : p.key ≠ "stage"
  notParam : p.key ≠ "param"
  values : ∀ x ∈ p.values, x.WellFormed

/-- A constraint that can be written, and what is read from it then. -/
structure ConstraintReadsAs (written read : String × Literal) : Prop where
  isName : IsName written.1
  name : read.1 = written.1
  value : written.2.ReadsAs read.2

/-- A parameter that can be written, and what is read from it then. -/
structure ParamEntry.ReadsAs (written read : ParamEntry) : Prop where
  name : IsName written.name
  type : IsName written.type
  default : Option.Rel Literal.ReadsAs written.default read.default
  constraints : List.Forall₂ ConstraintReadsAs written.constraints read.constraints
  description : ∀ s ∈ written.description, IsQuotable s
  read_eq : read = { written with default := read.default, constraints := read.constraints }

/-- A property that can be written, and what is read from it then. -/
structure Property.ReadsAs (written read : Property) : Prop where
  key : IsName written.key
  notStage : written.key ≠ "stage"
  notParam : written.key ≠ "param"
  values : List.Forall₂ Literal.ReadsAs written.values read.values
  read_eq : read = { written with values := read.values }

theorem ParamEntry.WellFormed.readsAs {p : ParamEntry} (hp : p.WellFormed) : p.ReadsAs p where
  name := hp.name
  type := hp.type
  default := by
    cases hdefault : p.default with
    | none => exact .none
    | some x => exact .some (hp.default x hdefault).readsAs
  constraints := by
    rw [List.forall₂_same]
    intro c hc
    exact ⟨(hp.constraints c hc).1, rfl, (hp.constraints c hc).2.readsAs⟩
  description := hp.description
  read_eq := rfl

theorem Property.WellFormed.readsAs {p : Property} (hp : p.WellFormed) : p.ReadsAs p where
  key := hp.key
  notStage := hp.notStage
  notParam := hp.notParam
  values := by
    rw [List.forall₂_same]
    intro x hx
    exact (hp.values x hx).readsAs
  read_eq := rfl

/-- The line goes on with one of the marks, if at all. -/
def Ahead (marks : List Char) (cs : List Char) : Prop := ∀ c ∈ (skipInline cs).head?, c ∈ marks

/-- The marks that an entry ends before. -/
def lineMarks : List Char := ['\n', '#', '\x7d']

theorem Ahead.mono {marks marks' : List Char} {cs : List Char} (h : Ahead marks cs)
    (hsub : ∀ c ∈ marks, c ∈ marks') : Ahead marks' cs := by
  intro c hc
  exact hsub c (h c hc)

theorem Ahead.isInlineBlank_or_mem {marks : List Char} {c : Char} {cs : List Char}
    (h : Ahead marks (c :: cs)) : isInlineBlank c = true ∨ c ∈ marks := by
  by_cases hc : isInlineBlank c = true
  · exact .inl hc
  · right
    apply h c
    rw [skipInline_of_stops (stops_cons_iff.mpr (Bool.eq_false_iff.mpr hc))]
    rfl

theorem Ahead.stops {marks : List Char} {cs : List Char} (h : Ahead marks cs)
    (hmarks : ∀ c ∈ marks, isWordChar c = false) : Stops isWordChar cs := by
  cases cs with
  | nil => exact Stops.nil isWordChar
  | cons c cs =>
      rw [stops_cons_iff]
      rcases h.isInlineBlank_or_mem with hc | hc
      · exact isWordChar_eq_false_of_isInlineBlank hc
      · exact hmarks c hc

theorem readLiteral?_eq_none_of_ahead {cs : List Char} (h : Ahead lineMarks cs) (steps : Nat) :
    readLiteral? steps (skipInline cs) = none := by
  have hmarks : ∀ c ∈ lineMarks, ¬ StartsLiteral c := forall_mem_of_all (by decide)
  exact readLiteral?_eq_none (fun c hc => hmarks c (h c hc)) steps

theorem stops_isWordChar_values {values : List Literal} {cs rest : List Char}
    (h : Renders .free (values.flatMap fun x => .gap .separator :: x.pieces) cs)
    (hrest : Stops isWordChar rest) : Stops isWordChar (cs ++ rest) := by
  cases values with
  | nil =>
      have hcs : cs = [] := h
      subst hcs
      exact hrest
  | cons x values =>
      obtain ⟨g, more, ⟨hne, hg⟩, -, rfl⟩ := renders_gap.mp h
      rw [List.append_assoc]
      exact stops_isWordChar_separator hne (Inline.blank hg) (more ++ rest)

theorem skipInline_append_of_startsLiteral {cs : List Char}
    (hcs : ∃ c rest, cs = c :: rest ∧ StartsLiteral c) (rest : List Char) :
    skipInline (cs ++ rest) = cs ++ rest := by
  obtain ⟨c, more, rfl, hc⟩ := hcs
  refine skipInline_of_stops (stops_cons_iff.mpr ?_)
  have hskipped := hc.isSkipped_eq_false
  simp only [isSkipped, Bool.or_eq_false_iff] at hskipped
  simp [isInlineBlank, hskipped.1]

theorem readValues_append {values read : List Literal}
    (hread : List.Forall₂ Literal.ReadsAs values read) {cs rest : List Char}
    (h : Renders .free (values.flatMap fun x => .gap .separator :: x.pieces) cs)
    (hrest : Ahead lineMarks rest) {start : List Char}
    (hstart : skipInline start = skipInline (cs ++ rest)) {steps : Nat}
    (hsteps : 2 * cs.length + 1 ≤ steps) :
    ∃ rest', readValues steps start = (read, rest') ∧ skipInline rest' = skipInline rest := by
  obtain ⟨steps, rfl⟩ : ∃ k, steps = k + 1 := ⟨steps - 1, by omega⟩
  induction hread generalizing cs start steps with
  | nil =>
      have hcs : cs = [] := h
      subst hcs
      refine ⟨start, ?_, hstart⟩
      rw [readValues, hstart, List.nil_append, readLiteral?_eq_none_of_ahead hrest]
  | cons hx _ ih =>
      rw [List.flatMap_cons] at h
      obtain ⟨first, more, hfirst, hmore, rfl⟩ := renders_append.mp h
      obtain ⟨g, written, ⟨hne, hg⟩, hwritten, rfl⟩ := renders_gap.mp hfirst
      have hskip : skipInline start = written ++ (more ++ rest) := by
        rw [hstart, List.append_assoc, List.append_assoc, skipInline_append hg]
        exact skipInline_append_of_startsLiteral (hx.starts hwritten) _
      have hstops : Stops isWordChar (more ++ rest) :=
        stops_isWordChar_values hmore (hrest.stops (forall_mem_of_all (by decide)))
      have hpos : 0 < g.length := List.length_pos_iff.mpr hne
      have hfirst := hx.reads hwritten hstops
        (show 2 * written.length + 1 ≤ steps by simp at hsteps; omega)
      obtain ⟨steps, rfl⟩ : ∃ k, steps = k + 1 := ⟨steps - 1, by simp at hsteps; omega⟩
      obtain ⟨rest', hothers, hrest'⟩ := ih hmore (skipInline_skipInline (more ++ rest)) steps
        (by simp at hsteps; omega)
      refine ⟨rest', ?_, hrest'⟩
      rw [readValues, hskip, hfirst]
      simp only [hothers]

theorem identifier?_append {s : String} (hs : IsName s) {rest : List Char}
    (hrest : Stops isIdentifierChar rest) : identifier? (s.toList ++ rest) = some (s, rest) :=
  run?_append hs.1 hs.2 hrest

theorem IsName.isWordChar {s : String} (hs : IsName s) : ∀ c ∈ s.toList, isWordChar c = true := by
  intro c hc
  exact isWordChar_of_isIdentifierChar (hs.2 c hc)

theorem skipInline_append_word {word : List Char} (hne : word ≠ [])
    (hword : ∀ c ∈ word, isWordChar c = true) (rest : List Char) :
    skipInline (word ++ rest) = word ++ rest := by
  obtain ⟨c, more, rfl⟩ := List.exists_cons_of_ne_nil hne
  exact skipInline_append_of_startsLiteral ⟨c, more, rfl, .inr (.inr (hword c (by simp)))⟩ rest

theorem skipInline_append_mark {g : List Char} (hg : Inline g) {c : Char}
    (hc : isInlineBlank c = false) (rest : List Char) : skipInline (g ++ c :: rest) = c :: rest := by
  rw [skipInline_append hg]
  exact skipInline_of_stops (stops_cons_iff.mpr hc)

theorem assigned?_append {x y : Literal} (hx : x.ReadsAs y) {cs rest : List Char}
    (h : Renders .free (.gap .inline :: .text ['='] :: .gap .inline :: x.pieces) cs)
    (hrest : Stops isWordChar rest) {steps : Nat} (hsteps : 2 * cs.length + 1 ≤ steps) :
    assigned? steps (cs ++ rest) = some (y, rest) := by
  obtain ⟨g, more, hg, hmore, rfl⟩ := renders_gap.mp h
  obtain ⟨tail, htail, rfl⟩ := renders_text.mp hmore
  obtain ⟨g', written, hg', hwritten, rfl⟩ := renders_gap.mp htail
  have hread := hx.reads hwritten hrest
    (show 2 * written.length + 1 ≤ steps by simp at hsteps; omega)
  simp only [List.append_assoc, List.cons_append, List.nil_append]
  rw [assigned?, skipInline_append_mark hg (by decide)]
  simp only
  rw [skipInline_append hg', skipInline_append_of_startsLiteral (hx.starts hwritten), hread]

theorem stops_isWordChar_assigned {x : Literal} {cs rest : List Char}
    (h : Renders .free (.gap .inline :: .text ['='] :: .gap .inline :: x.pieces) cs) :
    Stops isWordChar (cs ++ rest) := by
  obtain ⟨g, more, hg, hmore, rfl⟩ := renders_gap.mp h
  obtain ⟨tail, -, rfl⟩ := renders_text.mp hmore
  rw [List.append_assoc]
  exact stops_isWordChar_blank (Inline.blank hg) (by decide) (tail ++ rest)

theorem constraint?_append {c d : String × Literal} (hc : ConstraintReadsAs c d)
    {cs rest : List Char} (h : Renders .free (constraintPieces c) cs)
    (hrest : Stops isWordChar rest) {steps : Nat} (hsteps : 2 * cs.length + 1 ≤ steps) :
    constraint? steps (cs ++ rest) = some (d, rest) := by
  obtain ⟨tail, htail, rfl⟩ := renders_text.mp h
  have hread := assigned?_append hc.value htail hrest
    (show 2 * tail.length + 1 ≤ steps by simp at hsteps; omega)
  rw [List.append_assoc, constraint?,
    identifier?_append hc.isName (stops_isIdentifierChar (stops_isWordChar_assigned htail))]
  simp only [Option.bind_eq_bind, Option.bind_some, hread, ← hc.name]

theorem exists_startsLiteral_constraint {c : String × Literal} (hname : IsName c.1) {cs : List Char}
    (h : Renders .free (constraintPieces c) cs) :
    ∃ d rest, cs = d :: rest ∧ StartsLiteral d := by
  obtain ⟨tail, -, rfl⟩ := renders_text.mp h
  obtain ⟨hne, hchars⟩ := hname
  obtain ⟨d, more, hcons⟩ := List.exists_cons_of_ne_nil hne
  have hd : isWordChar d = true := isWordChar_of_isIdentifierChar (hchars d (by simp [hcons]))
  exact ⟨d, more ++ tail, by simp [hcons], .inr (.inr hd)⟩

theorem readConstraints?_append {c d : String × Literal} {constraints read : List (String × Literal)}
    (hc : ConstraintReadsAs c d) (hread : List.Forall₂ ConstraintReadsAs constraints read)
    {cs : List Char} (h : Renders .free (constraintsPieces (c :: constraints)) cs)
    (rest : List Char) {steps : Nat} (hsteps : 2 * cs.length + 2 ≤ steps) :
    readConstraints? steps (cs ++ rest) = some (d :: read, rest) := by
  induction hread generalizing c d cs steps with
  | nil =>
      obtain ⟨steps, rfl⟩ : ∃ k, steps = k + 1 := ⟨steps - 1, by omega⟩
      obtain ⟨part, gap, others, hpart, hgap, hothers, hlength, hskip⟩ :=
        exists_listed h fun part => exists_startsLiteral_constraint hc.isName
      have hothers : others = [] := hothers
      subst hothers
      have hfirst := constraint?_append hc hpart
        (stops_isWordChar_blank hgap (c := ']') (by decide) rest)
        (show 2 * part.length + 1 ≤ steps by omega)
      rw [readConstraints?, hskip, List.nil_append, hfirst]
      simp only [Option.bind_eq_bind, Option.bind_some]
      rw [skipBlank_append_mark hgap (by decide)]
      rfl
  | cons hnext _ ih =>
      obtain ⟨steps, rfl⟩ : ∃ k, steps = k + 1 := ⟨steps - 1, by omega⟩
      obtain ⟨part, gap, others, hpart, hgap, hothers, hlength, hskip⟩ :=
        exists_listed h fun part => exists_startsLiteral_constraint hc.isName
      have hfirst := constraint?_append hc hpart
        (stops_isWordChar_blank hgap (c := ',') (by decide) (others ++ rest))
        (show 2 * part.length + 1 ≤ steps by omega)
      have hothers := ih hnext hothers (show 2 * others.length + 2 ≤ steps by omega)
      rw [readConstraints?, hskip, hfirst]
      simp only [Option.bind_eq_bind, Option.bind_some]
      rw [skipBlank_append_mark hgap (by decide)]
      simp only [hothers, Option.bind_some]

theorem ahead_append_mark {marks : List Char} {g : List Char} (hg : Inline g) {c : Char}
    (hc : isInlineBlank c = false) (hmem : c ∈ marks) (rest : List Char) :
    Ahead marks (g ++ c :: rest) := by
  intro d hd
  rw [skipInline_append_mark hg hc] at hd
  obtain rfl : c = d := by simpa using hd
  exact hmem

/-- A part that may be left out starts with its own mark. -/
theorem ahead_append {pieces : List Piece} {marks : List Char} {c : Char}
    (hpieces : pieces = [] ∨ ∃ written more, pieces = .gap .inline :: .text (c :: written) :: more)
    (hc : isInlineBlank c = false) {cs rest : List Char} (h : Renders .free pieces cs)
    (hrest : Ahead marks rest) : Ahead (c :: marks) (cs ++ rest) := by
  rcases hpieces with rfl | ⟨written, more, rfl⟩
  · have hcs : cs = [] := h
    subst hcs
    exact hrest.mono fun d hd => List.mem_cons_of_mem c hd
  · obtain ⟨g, afterGap, hg, hafterGap, rfl⟩ := renders_gap.mp h
    obtain ⟨tail, -, rfl⟩ := renders_text.mp hafterGap
    rw [List.append_assoc, List.append_assoc, List.cons_append]
    exact ahead_append_mark hg hc List.mem_cons_self _

theorem Ahead.skipInline_ne {marks : List Char} {cs : List Char} (h : Ahead marks cs) {c : Char}
    (hc : c ∉ marks) (rest : List Char) : skipInline cs ≠ c :: rest := by
  intro hcons
  exact hc (h c (by simp [hcons]))

/-- A part that is read nowhere but after its mark. -/
def MarkedBy {α : Type} (mark : Char) (part : List Char → Option α) : Prop :=
  ∀ cs, (∀ rest, skipInline cs ≠ mark :: rest) → part cs = none

theorem markedBy_assigned? (steps : Nat) : MarkedBy '=' (assigned? steps) := by
  intro cs hcs
  rw [assigned?]
  split
  case h_1 rest hskip => exact absurd hskip (hcs rest)
  case h_2 => rfl

theorem markedBy_constraints? (steps : Nat) : MarkedBy '[' (constraints? steps) := by
  intro cs hcs
  rw [constraints?]
  split
  case h_1 rest hskip => exact absurd hskip (hcs rest)
  case h_2 => rfl

theorem markedBy_description? : MarkedBy '"' description? := by
  intro cs hcs
  rw [description?, quoted?]
  exact hcs

theorem Ahead.eq_none {α : Type} {marks : List Char} {cs : List Char} (h : Ahead marks cs)
    {part : List Char → Option α} {c : Char} (hpart : MarkedBy c part) (hc : c ∉ marks) :
    part cs = none :=
  hpart cs (h.skipInline_ne hc)

namespace ParamEntry

variable {p q : ParamEntry} {cs rest : List Char}

theorem optionally_assigned? (hp : p.ReadsAs q) (h : Renders .free p.defaultPieces cs)
    {marks : List Char} (hrest : Ahead marks rest) (hword : ∀ c ∈ marks, isWordChar c = false)
    (hmark : '=' ∉ marks) {steps : Nat} (hsteps : 2 * cs.length + 1 ≤ steps) :
    optionally (assigned? steps) (cs ++ rest) = (q.default, rest) := by
  have hdefault := hp.default
  rw [defaultPieces] at h
  generalize p.default = written at h hdefault
  generalize q.default = read at hdefault ⊢
  cases hdefault with
  | none =>
      have hcs : cs = [] := h
      subst hcs
      rw [List.nil_append, optionally, hrest.eq_none (markedBy_assigned? steps) hmark]
  | some hx => rw [optionally, assigned?_append hx h (hrest.stops hword) hsteps]

theorem optionally_constraints? (hp : p.ReadsAs q)
    (h : Renders .free p.constraintGroupPieces cs) {marks : List Char} (hrest : Ahead marks rest)
    (hmark : '[' ∉ marks) {steps : Nat} (hsteps : 2 * cs.length + 1 ≤ steps) :
    ∃ constraints, optionally (constraints? steps) (cs ++ rest) = (constraints, rest) ∧
      constraints.getD [] = q.constraints := by
  have hread := hp.constraints
  rw [constraintGroupPieces] at h
  generalize p.constraints = written at h hread
  generalize q.constraints = read at hread ⊢
  cases hread with
  | nil =>
      rw [if_pos rfl] at h
      have hcs : cs = [] := h
      subst hcs
      have hnone := hrest.eq_none (markedBy_constraints? steps) hmark
      exact ⟨none, by rw [List.nil_append, optionally, hnone], rfl⟩
  | cons hc hconstraints =>
      rw [if_neg (List.cons_ne_nil _ _)] at h
      obtain ⟨g, more, hg, hmore, rfl⟩ := renders_gap.mp h
      obtain ⟨tail, htail, rfl⟩ := renders_text.mp hmore
      have htail := readConstraints?_append hc hconstraints htail rest
        (show 2 * tail.length + 2 ≤ steps by simp at hsteps; omega)
      refine ⟨some _, ?_, rfl⟩
      rw [optionally, List.append_assoc, List.append_assoc, List.singleton_append, constraints?,
        skipInline_append_mark hg (by decide)]
      simp only [htail]

theorem optionally_description? (hp : p.ReadsAs q) (h : Renders .free p.descriptionPieces cs)
    {marks : List Char} (hrest : Ahead marks rest) (hmark : '"' ∉ marks) :
    optionally description? (cs ++ rest) = (p.description, rest) := by
  rw [descriptionPieces] at h
  cases hdescription : p.description with
  | none =>
      rw [hdescription] at h
      have hcs : cs = [] := h
      subst hcs
      rw [List.nil_append, optionally, hrest.eq_none markedBy_description? hmark]
  | some s =>
      rw [hdescription] at h
      obtain ⟨g, more, hg, hmore, rfl⟩ := renders_gap.mp h
      have hmore : more = '"' :: (s.toList ++ ['"']) := renders_singleton.mp hmore
      subst hmore
      have hs : IsQuotable s := hp.description s (by simp [hdescription])
      have hsome : description? (g ++ '"' :: (s.toList ++ ['"']) ++ rest) = some (s, rest) := by
        rw [List.append_assoc, List.cons_append, description?,
          skipInline_append_mark hg (by decide), quoted?, List.append_assoc, List.singleton_append,
          quotedText?_append hs]
      rw [optionally, hsome]

theorem readRequired_append (h : Renders .free p.requiredPieces cs)
    {marks : List Char} (hrest : Ahead marks rest) (hmark : '!' ∉ marks) :
    readRequired (cs ++ rest) = (p.required, rest) := by
  rw [requiredPieces] at h
  cases hrequired : p.required with
  | true =>
      rw [hrequired] at h
      have hcs : cs = ['!'] := renders_singleton.mp h
      subst hcs
      rfl
  | false =>
      rw [hrequired] at h
      have hcs : cs = [] := h
      subst hcs
      rw [List.nil_append, readRequired]
      rintro rest' rfl
      rcases hrest.isInlineBlank_or_mem with hc | hc
      · exact absurd hc (by decide)
      · exact hmark hc

theorem readParamName_append (hp : p.ReadsAs q) {g : List Char} (hg : Inline g)
    (rest : List Char) :
    readParamName (p.name.toList ++ (g ++ ':' :: rest)) = .ok (p.name, rest) := by
  have hstops := stops_isIdentifierChar
    (stops_isWordChar_blank (Inline.blank hg) (c := ':') (by decide) rest)
  rw [readParamName, identifier?_append hp.name hstops]
  simp only [skipInline_append_mark hg (show isInlineBlank ':' = false by decide)]

theorem ahead_description (h : Renders .free p.descriptionPieces cs)
    (hrest : Ahead lineMarks rest) : Ahead ('"' :: lineMarks) (cs ++ rest) := by
  refine ahead_append ?_ (by decide) h hrest
  rw [descriptionPieces]
  cases p.description with
  | none => exact .inl rfl
  | some s => exact .inr ⟨_, _, rfl⟩

theorem ahead_constraintGroup (h : Renders .free p.constraintGroupPieces cs)
    (hrest : Ahead ('"' :: lineMarks) rest) : Ahead ('[' :: '"' :: lineMarks) (cs ++ rest) := by
  refine ahead_append ?_ (by decide) h hrest
  rw [constraintGroupPieces]
  split
  case isTrue => exact .inl rfl
  case isFalse => exact .inr ⟨_, _, rfl⟩

theorem ahead_default (h : Renders .free p.defaultPieces cs)
    (hrest : Ahead ('[' :: '"' :: lineMarks) rest) :
    Ahead ('=' :: '[' :: '"' :: lineMarks) (cs ++ rest) := by
  refine ahead_append ?_ (by decide) h hrest
  rw [defaultPieces]
  cases p.default with
  | none => exact .inl rfl
  | some x => exact .inr ⟨_, _, rfl⟩

theorem stops_isWordChar_required (h : Renders .free p.requiredPieces cs)
    (hrest : Stops isWordChar rest) : Stops isWordChar (cs ++ rest) := by
  rw [requiredPieces] at h
  split at h
  case isTrue =>
    have hcs : cs = ['!'] := renders_singleton.mp h
    subst hcs
    exact stops_cons_iff.mpr (by decide)
  case isFalse =>
    have hcs : cs = [] := h
    subst hcs
    exact hrest

theorem readParam_append (hp : p.ReadsAs q) (h : Renders .free p.pieces cs)
    (hrest : Ahead lineMarks rest) {steps : Nat} (hsteps : 2 * cs.length + 1 ≤ steps) :
    readParam steps (cs ++ rest) = .ok (q, rest) := by
  obtain ⟨afterName, hafterName, rfl⟩ := renders_text.mp h
  obtain ⟨g, atColon, hg, hatColon, rfl⟩ := renders_gap.mp hafterName
  obtain ⟨afterColon, hafterColon, rfl⟩ := renders_text.mp hatColon
  obtain ⟨g', atType, hg', hatType, rfl⟩ := renders_gap.mp hafterColon
  obtain ⟨afterType, hafterType, rfl⟩ := renders_text.mp hatType
  obtain ⟨upToGroup, description, hupToGroup, hdescription, rfl⟩ := renders_append.mp hafterType
  obtain ⟨upToDefault, group, hupToDefault, hgroup, rfl⟩ := renders_append.mp hupToGroup
  obtain ⟨mark, default, hmark, hdefault, rfl⟩ := renders_append.mp hupToDefault
  simp only [List.length_append] at hsteps
  -- The mark ahead of each part tells it from the parts after it.
  have hafterGroup := ahead_description hdescription hrest
  have hafterDefault := ahead_constraintGroup hgroup hafterGroup
  have hafterMark := ahead_default hdefault hafterDefault
  have hstops := stops_isWordChar_required hmark (hafterMark.stops (forall_mem_of_all (by decide)))
  have hreadDefault := optionally_assigned? hp hdefault hafterDefault
    (forall_mem_of_all (by decide)) (by decide) (show 2 * default.length + 1 ≤ steps by omega)
  obtain ⟨constraints, hreadGroup, hconstraints⟩ := optionally_constraints? hp hgroup hafterGroup
    (by decide) (show 2 * group.length + 1 ≤ steps by omega)
  have hreadDescription := optionally_description? hp hdescription hrest (by decide)
  simp only [List.append_assoc, List.cons_append, List.nil_append]
  rw [readParam, readParamName_append hp hg]
  simp only [bind, Except.bind]
  rw [skipInline_append hg', skipInline_append_word hp.type.1 hp.type.isWordChar, readParamType,
    identifier?_append hp.type (stops_isIdentifierChar hstops)]
  simp only [readRequired_append hmark hafterMark (by decide), hreadDefault, hreadGroup,
    hreadDescription, hconstraints]
  rw [← hp.read_eq]

end ParamEntry

section Property

variable {p q : Property} {cs rest : List Char}

theorem readProperty_append (hp : p.ReadsAs q) (h : Renders .free p.pieces cs)
    (hrest : Ahead lineMarks rest) {steps : Nat} (hsteps : 2 * cs.length ≤ steps) :
    ∃ rest', readProperty steps (cs ++ rest) = .ok (q, rest') ∧
      skipInline rest' = skipInline rest := by
  obtain ⟨values, hvalues, rfl⟩ := renders_text.mp h
  have hstops := stops_isWordChar_values hvalues (hrest.stops (forall_mem_of_all (by decide)))
  have hpos : 0 < p.key.toList.length := List.length_pos_iff.mpr hp.key.1
  obtain ⟨rest', hread, hrest'⟩ := readValues_append hp.values hvalues hrest rfl
    (show 2 * values.length + 1 ≤ steps by rw [List.length_append] at hsteps; omega)
  refine ⟨rest', ?_, hrest'⟩
  rw [List.append_assoc, readProperty, identifier?_append hp.key (stops_isIdentifierChar hstops)]
  simp only [hread]
  rw [← hp.read_eq]

theorem keyword?_property (hp : p.ReadsAs q) (h : Renders .free p.pieces cs)
    (hrest : Ahead lineMarks rest) {word : String}
    (hword : ∀ c ∈ word.toList, isIdentifierChar c = true) (hne : p.key ≠ word) :
    keyword? word (cs ++ rest) = none := by
  obtain ⟨values, hvalues, rfl⟩ := renders_text.mp h
  have hstops := stops_isWordChar_values hvalues (hrest.stops (forall_mem_of_all (by decide)))
  rw [List.append_assoc]
  apply keyword?_eq_none hword _ hp.key.2 (stops_isIdentifierChar hstops)
  intro heq
  exact hne (String.toList_inj.mp heq)

end Property

theorem keyword?_stage_param {g : List Char} (hne : g ≠ []) (hg : Inline g) (rest : List Char) :
    keyword? "stage" ("param".toList ++ (g ++ rest)) = none := by
  refine keyword?_eq_none (forall_mem_of_all (by decide)) (by decide)
    (forall_mem_of_all (by decide)) ?_
  exact stops_isIdentifierChar (stops_isWordChar_separator hne (Inline.blank hg) rest)

end StagedJobs.Catalogue
