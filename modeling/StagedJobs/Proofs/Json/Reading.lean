import StagedJobs.Proofs.Json.Leaves

namespace StagedJobs.Json

open Catalogue

section Spaces

variable {cs rest : List Char}

theorem isSpace_iff {c : Char} : isSpace c = true ↔ c ∈ [' ', '\t', '\n', '\r'] := by
  simp [isSpace, or_assoc]

theorem skipSpace_append (h : Spaces cs) (rest : List Char) :
    skipSpace (cs ++ rest) = skipSpace rest :=
  List.dropWhile_append_of_pos fun c hc => isSpace_iff.mpr (h c hc)

theorem skipSpace_of_stops (h : Stops isSpace cs) : skipSpace cs = cs := by
  cases cs with
  | nil => rfl
  | cons c cs => exact List.dropWhile_cons_of_neg (by simp [stops_cons_iff.mp h])

theorem exists_spaces (cs : List Char) : ∃ between, Spaces between ∧ cs = between ++ skipSpace cs :=
  ⟨cs.takeWhile isSpace, fun _ hc => isSpace_iff.mp (List.mem_takeWhile_imp hc),
    List.takeWhile_append_dropWhile.symm⟩

theorem Spaces.skipSpace_eq_nil (h : Spaces cs) : skipSpace cs = [] := by
  rw [← List.append_nil cs, skipSpace_append h]
  rfl

theorem Spaces.stops_append (h : Spaces cs) (hrest : Stops isNumberChar rest) :
    Stops isNumberChar (cs ++ rest) := by
  cases cs with
  | nil => exact hrest
  | cons c cs =>
      have hspace : ∀ c ∈ [' ', '\t', '\n', '\r'], isNumberChar c = false :=
        forall_mem_of_all (by decide)
      exact stops_cons_iff.mpr (hspace c (h c List.mem_cons_self))

end Spaces

section Sequence

variable {α : Type} {item : List Char → α → Prop} {reader : List Char → Option (α × List Char)}
  {opening closing : Char} {cs rest : List Char} {x : α} {xs : List α} {limit steps : Nat}

/-- The reader takes items of fewer than `limit` characters off a text that does not go on with a
number. Items do not start with a space, or with the bracket that closes a sequence of them. -/
structure Reads (limit : Nat) (closing : Char) (item : List Char → α → Prop)
    (reader : List Char → Option (α × List Char)) : Prop where
  reads : ∀ cs x rest, item cs x → cs.length < limit → Stops isNumberChar rest →
    reader (cs ++ rest) = some (x, rest)
  starts : ∀ cs x, item cs x → ∃ c more, cs = c :: more ∧ isSpace c = false ∧ c ≠ closing

/-- What the reader takes off the front of a text is an item. -/
def Accepts (item : List Char → α → Prop) (reader : List Char → Option (α × List Char)) : Prop :=
  ∀ cs x rest, reader cs = some (x, rest) → ∃ used, item used x ∧ cs = used ++ rest

theorem closing_facts (h : closing ∈ [']', '\x7d']) :
    isNumberChar closing = false ∧ isSpace closing = false ∧ closing ≠ ',' := by
  have hall : ∀ c ∈ [']', '\x7d'], isNumberChar c = false ∧ isSpace c = false ∧ c ≠ ',' :=
    forall_mem_of_all (by decide)
  exact hall closing h

theorem skipSpace_skipSpace (cs : List Char) : skipSpace (skipSpace cs) = skipSpace cs :=
  skipSpace_of_stops (stops_dropWhile isSpace cs)

theorem readItems?_skipSpace (cs : List Char) :
    readItems? closing reader steps (skipSpace cs) = readItems? closing reader steps cs := by
  cases steps with
  | zero => rfl
  | succ steps => rw [readItems?, readItems?, skipSpace_skipSpace]

theorem skipSpace_mark {between : List Char} {mark : Char} (h : Spaces between)
    (hmark : isSpace mark = false) (rest : List Char) :
    skipSpace (between ++ mark :: rest) = mark :: rest := by
  rw [skipSpace_append h]
  exact skipSpace_of_stops (stops_cons_iff.mpr hmark)

theorem Reads.reader_eq {before after : List Char} {mark : Char}
    (h : Reads limit closing item reader) (hbefore : Spaces before) (hx : item cs x)
    (hlimit : cs.length < limit) (hafter : Spaces after) (hmark : isNumberChar mark = false)
    (rest : List Char) :
    reader (skipSpace (before ++ (cs ++ (after ++ mark :: rest)))) =
      some (x, after ++ mark :: rest) := by
  have hread := h.reads cs x (after ++ mark :: rest) hx hlimit
    (hafter.stops_append (stops_cons_iff.mpr hmark))
  obtain ⟨c, more, rfl, hc, -⟩ := h.starts cs x hx
  rwa [List.cons_append, skipSpace_mark hbefore hc]

theorem readItems?_of_spells (hreads : Reads limit closing item reader)
    (hclosing : closing ∈ [']', '\x7d']) (h : SpellsItems item cs xs) (hlimit : cs.length < limit)
    (hsteps : cs.length < steps) (rest : List Char) :
    readItems? closing reader steps (cs ++ closing :: rest) = some (xs, rest) := by
  obtain ⟨hnumber, hspace, hcomma⟩ := closing_facts hclosing
  induction h generalizing steps with
  | last hbefore hx hafter =>
      obtain ⟨steps, rfl⟩ := Nat.exists_eq_succ_of_ne_zero (Nat.ne_zero_of_lt hsteps)
      simp only [List.length_append] at hlimit
      have hread := hreads.reader_eq hbefore hx (by omega) hafter hnumber rest
      simp [readItems?, hread, skipSpace_mark hafter hspace, hcomma]
  | @cons before cs after ds x xs hbefore hx hafter hxs ih =>
      obtain ⟨steps, rfl⟩ := Nat.exists_eq_succ_of_ne_zero (Nat.ne_zero_of_lt hsteps)
      simp only [List.length_append, List.length_cons] at hlimit hsteps
      have hmore : readItems? closing reader steps (ds ++ closing :: rest) = some (xs, rest) :=
        ih (by omega) (by omega)
      have hcommaNumber : isNumberChar ',' = false := by decide
      have hread :=
        hreads.reader_eq hbefore hx (by omega) hafter hcommaNumber (ds ++ closing :: rest)
      have hskip : skipSpace (after ++ ',' :: (ds ++ closing :: rest)) = _ :=
        skipSpace_mark hafter (by decide) _
      simp [readItems?, hread, hskip, hmore]

theorem readItems?_eq_some (haccepts : Accepts item reader)
    (h : readItems? closing reader steps cs = some (xs, rest)) :
    ∃ used, SpellsItems item used xs ∧ cs = used ++ closing :: rest := by
  -- Spaces go to the item that they precede, or to the one that they follow.
  induction steps generalizing cs xs with
  | zero => cases h
  | succ steps ih =>
      simp only [readItems?, bind, Option.bind_eq_some_iff, Prod.exists] at h
      obtain ⟨x, after, hx, h⟩ := h
      obtain ⟨used, hused, hcs⟩ := haccepts _ _ _ hx
      obtain ⟨before, hbefore, hbeforeEq⟩ := exists_spaces cs
      obtain ⟨between, hbetween, hbetweenEq⟩ := exists_spaces after
      split at h
      case h_1 => cases h
      case h_2 mark more hmark =>
        have hall : cs = before ++ (used ++ (between ++ mark :: more)) := by
          rw [hbeforeEq, hcs, hbetweenEq, hmark]
        split at h
        case isTrue hcomma =>
          subst hcomma
          simp only [Option.bind_eq_some_iff, Prod.exists, Option.some.injEq, Prod.mk.injEq] at h
          obtain ⟨ys, after', hys, rfl, rfl⟩ := h
          obtain ⟨ds, hds, rfl⟩ := ih hys
          exact ⟨_, .cons hbefore hused hbetween hds, by simp [hall]⟩
        case isFalse =>
          split at h
          case isFalse => cases h
          case isTrue hclosing =>
            subst hclosing
            obtain ⟨rfl, rfl⟩ := Prod.mk.inj (Option.some.inj h)
            exact ⟨_, .last hbefore hused hbetween, by simp [hall]⟩

theorem SpellsItems.starts (h : SpellsItems item cs xs) (hreads : Reads limit closing item reader)
    (rest : List Char) : ∃ c more, skipSpace (cs ++ rest) = c :: more ∧ c ≠ closing := by
  have hfirst : ∀ before cs x rest, Spaces before → item cs x →
      ∃ c more, skipSpace (before ++ (cs ++ rest)) = c :: more ∧ c ≠ closing := by
    intro before cs x rest hbefore hx
    obtain ⟨c, more, rfl, hc, hne⟩ := hreads.starts cs x hx
    exact ⟨c, more ++ rest, skipSpace_mark hbefore hc _, hne⟩
  cases h with
  | last hbefore hx => simpa using hfirst _ _ _ _ hbefore hx
  | cons hbefore hx => simpa using hfirst _ _ _ _ hbefore hx

theorem readSequence?_of_spells (hreads : Reads limit closing item reader)
    (hclosing : closing ∈ [']', '\x7d'])
    (h : SpellsSequence opening closing item (opening :: cs) xs) (hlimit : cs.length ≤ limit)
    (hsteps : cs.length ≤ steps) (rest : List Char) :
    readSequence? steps closing reader (cs ++ rest) = some (xs, rest) := by
  cases h with
  | empty hbetween =>
      rw [List.append_assoc, List.singleton_append, readSequence?,
        skipSpace_mark hbetween (closing_facts hclosing).2.1]
      simp
  | @items ds _ hitems =>
      simp only [List.length_append, List.length_singleton] at hlimit hsteps
      obtain ⟨c, more, hskip, hne⟩ := hitems.starts hreads (closing :: rest)
      have hread := readItems?_of_spells hreads hclosing hitems hlimit hsteps rest
      rw [← readItems?_skipSpace, hskip] at hread
      rw [List.append_assoc, List.singleton_append, readSequence?, hskip]
      simp [hne, hread]

theorem readSequence?_eq_some (haccepts : Accepts item reader) (opening : Char)
    (h : readSequence? steps closing reader cs = some (xs, rest)) :
    ∃ used, SpellsSequence opening closing item (opening :: used) xs ∧ cs = used ++ rest := by
  rw [readSequence?] at h
  obtain ⟨between, hbetween, hcs⟩ := exists_spaces cs
  split at h
  case h_1 => cases h
  case h_2 c more hskip =>
    split at h
    case isTrue hclosing =>
      subst hclosing
      obtain ⟨rfl, rfl⟩ := Prod.mk.inj (Option.some.inj h)
      exact ⟨_, .empty hbetween, by rw [hcs, hskip]; simp⟩
    case isFalse =>
      rw [← hskip, readItems?_skipSpace] at h
      obtain ⟨used, hused, rfl⟩ := readItems?_eq_some haccepts h
      exact ⟨_, .items hused, by simp⟩

end Sequence

section Values

variable {cs rest : List Char} {v : Value} {depth steps : Nat}

/-- The characters that no value without parts starts with. -/
def nonLeafStarts : List Char := [' ', '\t', '\n', '\r', '[', ']', '\x7b', '\x7d']

theorem SpellsLeaf.starts (h : SpellsLeaf cs v) :
    ∃ c more, cs = c :: more ∧ c ∉ nonLeafStarts := by
  have hdigit : ∀ c ∈ nonLeafStarts, c.isDigit = false := forall_mem_of_all (by decide)
  cases h with
  | null => exact ⟨'n', _, rfl, by decide⟩
  | boolTrue => exact ⟨'t', _, rfl, by decide⟩
  | boolFalse => exact ⟨'f', _, rfl, by decide⟩
  | string h =>
      obtain ⟨ds, -, rfl⟩ := h
      exact ⟨'"', _, rfl, by decide⟩
  | number h =>
      obtain ⟨negative, ds, hds, rfl⟩ := h
      cases negative with
      | true => exact ⟨'-', ds, rfl, by decide⟩
      | false =>
          obtain ⟨c, more, rfl, hc⟩ := hds.exists_digit
          refine ⟨c, more, rfl, ?_⟩
          intro hmem
          rw [hdigit c hmem] at hc
          cases hc

theorem SpellsSequence.starts {α : Type} {opening closing : Char} {item : List Char → α → Prop}
    {xs : List α} (h : SpellsSequence opening closing item cs xs) : ∃ more, cs = opening :: more := by
  cases h with
  | empty => exact ⟨_, rfl⟩
  | items => exact ⟨_, rfl⟩

theorem Spells.starts (h : Spells depth cs v) :
    ∃ c more, cs = c :: more ∧ isSpace c = false ∧ c ≠ ']' := by
  have hleaf : SpellsLeaf cs v → ∃ c more, cs = c :: more ∧ isSpace c = false ∧ c ≠ ']' := by
    intro h
    obtain ⟨c, more, rfl, hc⟩ := h.starts
    simp only [nonLeafStarts, List.mem_cons, not_or] at hc
    refine ⟨c, more, rfl, ?_, hc.2.2.2.2.2.1⟩
    simp [isSpace, hc]
  cases depth with
  | zero => exact hleaf h
  | succ depth =>
      rcases h with h | ⟨items, h, rfl⟩ | ⟨fields, h, rfl⟩
      · exact hleaf h
      · obtain ⟨more, rfl⟩ := h.starts
        exact ⟨_, more, rfl, by decide, by decide⟩
      · obtain ⟨more, rfl⟩ := h.starts
        exact ⟨_, more, rfl, by decide, by decide⟩

theorem readValue?_leaf (h : SpellsLeaf cs v) (hsteps : cs.length < steps)
    (hrest : Stops isNumberChar rest) (depth : Nat) :
    readValue? steps depth (cs ++ rest) = some (v, rest) := by
  have hread := readLeaf?_of_spells h hsteps hrest
  obtain ⟨c, more, rfl, hc⟩ := h.starts
  rw [List.cons_append] at hread ⊢
  rw [readValue?, hread]
  · rintro _ after - heq
    obtain ⟨rfl, -⟩ := List.cons.inj heq
    exact hc (by decide)
  · rintro _ after - heq
    obtain ⟨rfl, -⟩ := List.cons.inj heq
    exact hc (by decide)

theorem reads_field {item : List Char → Value → Prop} {reader : List Char → Option (Value × List Char)}
    (h : Reads steps ']' item reader) :
    Reads steps '\x7d' (SpellsField item) (readField? steps reader) where
  reads := by
    rintro cs ⟨name, v⟩ rest ⟨ks, before, after, ds, hks, hbefore, hafter, hds, rfl⟩ hlength hrest
    simp only [List.length_append, List.length_cons] at hlength
    have hlt : ks.length < steps := by omega
    have hname := readString?_of_spells hks hlt (before ++ ':' :: (after ++ (ds ++ rest)))
    have hvalue := h.reads ds v rest hds (by omega) hrest
    obtain ⟨c, more, rfl, hc, -⟩ := h.starts ds v hds
    simp only [List.append_assoc, List.cons_append] at hname hvalue ⊢
    have hcolon : skipSpace (before ++ ':' :: (after ++ c :: (more ++ rest))) = _ :=
      skipSpace_mark hbefore (by decide) _
    simp [readField?, hname, hcolon, skipSpace_mark hafter hc, hvalue]
  starts := by
    rintro cs field ⟨ks, before, after, ds, ⟨es, -, rfl⟩, -, -, -, rfl⟩
    exact ⟨'"', _, rfl, by decide, by decide⟩

theorem reads_value (steps depth : Nat) :
    Reads steps ']' (Spells depth) (readValue? steps depth) := by
  -- The parts of a value nest one level less; `steps` bounds the lengths at every level.
  induction depth with
  | zero =>
      refine ⟨?_, fun cs v h => Spells.starts h⟩
      intro cs v rest h hlength hrest
      exact readValue?_leaf h hlength hrest 0
  | succ depth ih =>
      refine ⟨?_, fun cs v h => h.starts⟩
      rintro cs v rest (h | ⟨items, h, rfl⟩ | ⟨fields, h, rfl⟩) hlength hrest
      · exact readValue?_leaf h hlength hrest _
      · obtain ⟨more, rfl⟩ := h.starts
        have hlength' : more.length ≤ steps := by
          rw [List.length_cons] at hlength
          omega
        have hread := readSequence?_of_spells ih (by decide) h hlength' hlength' rest
        simp [readValue?, hread]
      · obtain ⟨more, rfl⟩ := h.starts
        have hlength' : more.length ≤ steps := by
          rw [List.length_cons] at hlength
          omega
        have hread := readSequence?_of_spells (reads_field ih) (by decide) h hlength' hlength' rest
        simp [readValue?, hread]

theorem accepts_field {item : List Char → Value → Prop}
    {reader : List Char → Option (Value × List Char)} (h : Accepts item reader) :
    Accepts (SpellsField item) (readField? steps reader) := by
  rintro cs ⟨name, v⟩ rest hread
  simp only [readField?, bind, Option.bind_eq_some_iff, Prod.exists] at hread
  obtain ⟨name', after, hname, hread⟩ := hread
  obtain ⟨ks, hks, rfl⟩ := readString?_eq_some hname
  obtain ⟨before, hbefore, hbeforeEq⟩ := exists_spaces after
  split at hread
  case h_2 => cases hread
  case h_1 more hcolon =>
    obtain ⟨between, hbetween, hbetweenEq⟩ := exists_spaces more
    simp only [Option.bind_eq_some_iff, Prod.exists, Option.some.injEq, Prod.mk.injEq] at hread
    obtain ⟨v', rest', hvalue, ⟨rfl, rfl⟩, rfl⟩ := hread
    obtain ⟨ds, hds, heq⟩ := h _ _ _ hvalue
    refine ⟨_, ⟨ks, before, between, ds, hks, hbefore, hbetween, hds, rfl⟩, ?_⟩
    rw [hbeforeEq, hcolon, hbetweenEq, heq]
    simp

theorem accepts_value (steps depth : Nat) : Accepts (Spells depth) (readValue? steps depth) := by
  induction depth with
  | zero =>
      intro cs v rest h
      exact readLeaf?_eq_some (by simpa [readValue?] using h)
  | succ depth ih =>
      intro cs v rest h
      unfold readValue? at h
      split at h
      case h_1 heq =>
        cases heq
        simp only [bind, Option.bind_eq_some_iff, Prod.exists, Option.some.injEq,
          Prod.mk.injEq] at h
        obtain ⟨items, after, hitems, rfl, rfl⟩ := h
        obtain ⟨used, hused, rfl⟩ := readSequence?_eq_some ih '[' hitems
        exact ⟨_, .inr (.inl ⟨items, hused, rfl⟩), rfl⟩
      case h_2 heq =>
        cases heq
        simp only [bind, Option.bind_eq_some_iff, Prod.exists, Option.some.injEq,
          Prod.mk.injEq] at h
        obtain ⟨fields, after, hfields, rfl, rfl⟩ := h
        obtain ⟨used, hused, rfl⟩ := readSequence?_eq_some (accepts_field ih) '\x7b' hfields
        exact ⟨_, .inr (.inr ⟨fields, hused, rfl⟩), rfl⟩
      case h_3 =>
        obtain ⟨used, hused, rfl⟩ := readLeaf?_eq_some h
        exact ⟨used, .inl hused, rfl⟩

end Values

/-- A text is read as the value that it denotes, and as nothing where it denotes none. -/
theorem ofText?_eq_some_iff {text : String} {v : Value} :
    Value.ofText? text = some v ↔ Denotes text v := by
  simp only [Value.ofText?, bind, Option.bind_eq_some_iff, Prod.exists]
  constructor
  · rintro ⟨v', rest, hread, h⟩
    split at h
    case isFalse => cases h
    case isTrue hrest =>
      obtain rfl := Option.some.inj h
      obtain ⟨cs, hcs, heq⟩ := accepts_value _ _ _ _ _ hread
      obtain ⟨before, hbefore, hbeforeEq⟩ := exists_spaces text.toList
      obtain ⟨after, hafter, hafterEq⟩ := exists_spaces rest
      have hnil : skipSpace rest = [] := by simpa using hrest
      refine ⟨before, cs, after, hbefore, hcs, hafter, ?_⟩
      rw [hbeforeEq, heq, hafterEq, hnil, List.append_nil]
  · rintro ⟨before, cs, after, hbefore, hcs, hafter, heq⟩
    have hlength : cs.length < text.toList.length + 1 := by
      rw [heq, List.length_append, List.length_append]
      omega
    have hstops : Stops isNumberChar (after ++ []) := hafter.stops_append (Stops.nil _)
    rw [List.append_nil] at hstops
    have hread := (reads_value _ maxDepth).reads cs v after hcs hlength hstops
    obtain ⟨c, more, rfl, hc, -⟩ := hcs.starts
    rw [List.cons_append] at hread heq
    refine ⟨v, after, ?_, by simp [hafter.skipSpace_eq_nil]⟩
    rwa [heq, skipSpace_mark hbefore hc, ← heq]

end StagedJobs.Json
