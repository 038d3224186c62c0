import StagedJobs.Proofs.Catalogue.RoundTrip

namespace StagedJobs.Catalogue

/-- Digits under a sign, and digits of a fraction behind a point; without these there is no point. -/
structure Numeral where
  negative : Bool
  whole : List Char
  fraction : List Char
  whole_digits : Digits whole
  fraction_digits : ∀ c ∈ fraction, c.isDigit = true

namespace Numeral

variable (n : Numeral)

def fractionText : List Char := if n.fraction = [] then [] else '.' :: n.fraction

def text : String := String.ofList (signText n.negative ++ (n.whole ++ n.fractionText))

/-- The number that a numeral without a fraction stands for. -/
def integer : Int := signedValue n.negative n.whole

/-- The binary64 number nearest to the one that the numeral stands for. -/
def nearest : Binary64 := (Decimal.ofDigits n.negative n.whole n.fraction 0).toBinary64

/-- The literal that the numeral is read as. -/
def literal : Literal :=
  if n.fraction = [] then
    match int64? n.integer with
    | some i => .int i
    | none => .word n.text
  else .float n.nearest

theorem toList_text : n.text.toList = signText n.negative ++ (n.whole ++ n.fractionText) :=
  String.toList_ofList

theorem text_ne_nil : n.text.toList ≠ [] := by
  rw [toList_text]
  exact List.append_ne_nil_of_right_ne_nil _
    (List.append_ne_nil_of_left_ne_nil n.whole_digits.1 _)

theorem isWordChar_text : ∀ c ∈ n.text.toList, isWordChar c = true := by
  intro c hc
  rw [toList_text, List.mem_append, List.mem_append] at hc
  rcases hc with hsign | hwhole | hfraction
  · obtain rfl := eq_of_mem_signText hsign
    decide
  · exact isWordChar_of_isDigit (n.whole_digits.2 c hwhole)
  · rw [fractionText] at hfraction
    split at hfraction
    · simp at hfraction
    · rcases List.mem_cons.mp hfraction with rfl | hdigit
      · decide
      · exact isWordChar_of_isDigit (n.fraction_digits c hdigit)

theorem scalar?_append {rest : List Char} (hrest : Stops isWordChar rest) :
    scalar? (n.text.toList ++ rest) = some (n.literal, rest) := by
  have hspelled : ∀ x, Literal.SpelledAs x n.text.toList →
      scalar? (n.text.toList ++ rest) = some (x, rest) := by
    intro x hx
    rw [scalar?, number?_append hx hrest]
    rfl
  by_cases hfraction : n.fraction = []
  · have htext : n.text.toList = signText n.negative ++ n.whole := by
      rw [toList_text, fractionText, if_pos hfraction, List.append_nil]
    rw [literal, if_pos hfraction]
    cases hint : int64? n.integer with
    | some i =>
        apply hspelled
        exact ⟨n.negative, n.whole, n.whole_digits, (int64?_eq_some hint).symm, htext⟩
    | none =>
        -- The digits are found but refused, and the whole word is tried again.
        refine scalar?_of_number?_eq_none n.text_ne_nil n.isWordChar_text hrest ?_
        rw [htext, List.append_assoc, number?_signText n.negative n.whole_digits, numeral?,
          spanDigits_append n.whole_digits.2 (stops_isDigit hrest)]
        rw [integer] at hint
        simp [spanFraction_of_stops hrest, n.whole_digits.1, hint]
  · have htext : n.text.toList = signText n.negative ++ n.whole ++ '.' :: n.fraction := by
      rw [toList_text, fractionText, if_neg hfraction, List.append_assoc]
    rw [literal, if_neg hfraction]
    apply hspelled
    exact ⟨n.negative, n.whole, n.fraction, n.whole_digits, ⟨hfraction, n.fraction_digits⟩, rfl, htext⟩

end Numeral

theorem Literal.readsAs_numeral (n : Numeral) : (Literal.word n.text).ReadsAs n.literal :=
  .word n.text_ne_nil n.isWordChar_text n.scalar?_append

mutual

/-- A literal that can be written, with numerals among its words. -/
def Literal.WellWritten : Literal → Prop
  | .quoted s => IsQuotable s
  | .word s => IsWord s ∨ ∃ n : Numeral, s = n.text
  | .int _ => True
  | .float _ => True
  | .list items => ItemsWellWritten items

def ItemsWellWritten : List Literal → Prop
  | [] => True
  | x :: xs => x.WellWritten ∧ ItemsWellWritten xs

end

mutual

/-- The literal that a literal is read as, each word as the scalar at its start. -/
def Literal.asRead : Literal → Literal
  | .quoted s => .quoted s
  | .word s => ((scalar? s.toList).map (·.1)).getD (.word s)
  | .int n => .int n
  | .float x => .float x
  | .list items => .list (itemsAsRead items)

def itemsAsRead : List Literal → List Literal
  | [] => []
  | x :: xs => x.asRead :: itemsAsRead xs

end

theorem Literal.asRead_eq_of_scalar? {s : String} {x : Literal}
    (h : ∀ {rest}, Stops isWordChar rest → scalar? (s.toList ++ rest) = some (x, rest)) :
    (Literal.word s).asRead = x := by
  have hread := h (Stops.nil isWordChar)
  rw [List.append_nil] at hread
  rw [asRead, hread]
  rfl

theorem Literal.asRead_numeral (n : Numeral) : (Literal.word n.text).asRead = n.literal :=
  asRead_eq_of_scalar? n.scalar?_append

mutual

theorem Literal.WellWritten.readsAs : {x : Literal} → x.WellWritten → x.ReadsAs x.asRead
  | .quoted _, hs => .quoted hs
  | .word s, hs => by
      rcases hs with hs | ⟨n, rfl⟩
      · rw [Literal.asRead_eq_of_scalar? (scalar?_word hs)]
        exact .word hs.1 hs.2.1 (scalar?_word hs)
      · rw [Literal.asRead_numeral]
        exact Literal.readsAs_numeral n
  | .int _, _ => .number rfl
  | .float _, _ => .number rfl
  | .list _, hitems => .list (ItemsWellWritten.readsAs hitems)

theorem ItemsWellWritten.readsAs : {items : List Literal} → ItemsWellWritten items →
    List.Forall₂ Literal.ReadsAs items (itemsAsRead items)
  | [], _ => .nil
  | _ :: _, ⟨hx, hitems⟩ => .cons (Literal.WellWritten.readsAs hx) (ItemsWellWritten.readsAs hitems)

end

/-- A property that can be written, with numerals among its values. -/
structure Property.WellWritten (p : Property) : Prop where
  key : IsName p.key
  notStage : p.key ≠ "stage"
  notParam : p.key ≠ "param"
  values : ItemsWellWritten p.values

/-- A property with its values as they are read. -/
def Property.asRead (p : Property) : Property := { p with values := itemsAsRead p.values }

theorem Property.WellWritten.readsAs {p : Property} (hp : p.WellWritten) : p.ReadsAs p.asRead where
  key := hp.key
  notStage := hp.notStage
  notParam := hp.notParam
  values := hp.values.readsAs
  read_eq := rfl

/-- A parameter that can be written, with numerals for its default and in its constraints. -/
structure ParamEntry.WellWritten (p : ParamEntry) : Prop where
  name : IsName p.name
  type : IsName p.type
  default : ∀ x ∈ p.default, x.WellWritten
  constraints : ∀ c ∈ p.constraints, IsName c.1 ∧ c.2.WellWritten
  description : ∀ s ∈ p.description, IsQuotable s

/-- A parameter with its default and its constraints as they are read. -/
def ParamEntry.asRead (p : ParamEntry) : ParamEntry :=
  { p with
    default := p.default.map Literal.asRead
    constraints := p.constraints.map fun c => (c.1, c.2.asRead) }

theorem ParamEntry.WellWritten.readsAs {p : ParamEntry} (hp : p.WellWritten) :
    p.ReadsAs p.asRead where
  name := hp.name
  type := hp.type
  default := by
    rw [asRead]
    cases hdefault : p.default with
    | none => exact .none
    | some x => exact .some (hp.default x hdefault).readsAs
  constraints := by
    rw [asRead, List.forall₂_map_right_iff, List.forall₂_same]
    intro c hc
    exact ⟨(hp.constraints c hc).1, rfl, (hp.constraints c hc).2.readsAs⟩
  description := hp.description
  read_eq := rfl

mutual

/-- An entry that can be written, with numerals wherever literals stand. -/
def Entry.WellWritten : Entry → Prop
  | .property p => p.WellWritten
  | .param p => p.WellWritten
  | .stage number taskType entries =>
    number < UInt32.size ∧ IsName taskType ∧ EntriesWellWritten entries

def EntriesWellWritten : List Entry → Prop
  | [] => True
  | entry :: entries => entry.WellWritten ∧ EntriesWellWritten entries

end

mutual

/-- The entry that an entry is read as. -/
def Entry.asRead : Entry → Entry
  | .property p => .property p.asRead
  | .param p => .param p.asRead
  | .stage number taskType entries => .stage number taskType (entriesAsRead entries)

def entriesAsRead : List Entry → List Entry
  | [] => []
  | entry :: entries => entry.asRead :: entriesAsRead entries

end

theorem asRead_mem_entriesAsRead {entry : Entry} {entries : List Entry} (h : entry ∈ entries) :
    entry.asRead ∈ entriesAsRead entries := by
  induction entries with
  | nil => simp at h
  | cons first entries ih =>
      rcases List.mem_cons.mp h with rfl | h
      · exact List.mem_cons_self
      · exact List.mem_cons_of_mem _ (ih h)

mutual

theorem Entry.WellWritten.readsAs : {entry : Entry} → entry.WellWritten → entry.ReadsAs entry.asRead
  | .property _, hp => .property (Property.WellWritten.readsAs hp)
  | .param _, hp => .param (ParamEntry.WellWritten.readsAs hp)
  | .stage .., ⟨hnumber, htaskType, hentries⟩ =>
      .stage hnumber htaskType (EntriesWellWritten.readsAs hentries)

theorem EntriesWellWritten.readsAs : {entries : List Entry} → EntriesWellWritten entries →
    List.Forall₂ Entry.ReadsAs entries (entriesAsRead entries)
  | [], _ => .nil
  | _ :: _, ⟨hentry, hentries⟩ => .cons (Entry.WellWritten.readsAs hentry)
      (EntriesWellWritten.readsAs hentries)

end

namespace WorkflowBlock

/-- A block that can be written, with numerals wherever literals stand. -/
def WellWritten (b : WorkflowBlock) : Prop := IsName b.jobType ∧ EntriesWellWritten b.entries

/-- The block that a block is read as. -/
def asRead (b : WorkflowBlock) : WorkflowBlock := ⟨b.jobType, entriesAsRead b.entries⟩

theorem WellWritten.readsAs {b : WorkflowBlock} (hb : b.WellWritten) : b.ReadsAs b.asRead :=
  ⟨hb.1, rfl, hb.2.readsAs⟩

end WorkflowBlock

/-- Well-written blocks are parsed from every text that they are written as, numerals as literals. -/
theorem parse_of_wellWritten {blocks : List WorkflowBlock} (hwell : ∀ b ∈ blocks, b.WellWritten)
    {text : String} (h : Renders .free (write blocks) text.toList) :
    parse text = .ok (blocks.map (·.asRead)) := by
  apply parse_of_readsAs _ h
  rw [List.forall₂_map_right_iff, List.forall₂_same]
  intro b hb
  exact (hwell b hb).readsAs

end StagedJobs.Catalogue
