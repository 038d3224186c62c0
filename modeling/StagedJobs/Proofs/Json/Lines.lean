import StagedJobs.CommandLine.Session

namespace StagedJobs

open CommandLine

/-- A line of a text: how many steps it is moved in, and what stands on it. -/
structure Line where
  depth : Nat
  text : String

namespace Line

/-- Two spaces for each step. -/
def indentation (depth : Nat) : String := String.ofList (List.replicate (2 * depth) ' ')

def written (l : Line) : String := indentation l.depth ++ l.text

/-- Puts text in front of what stands on the first line. -/
def after (name : String) : List Line → List Line
  | [] => []
  | l :: ls => ⟨l.depth, name ++ l.text⟩ :: ls

/-- Puts text behind what stands on the last line. -/
def before (mark : String) : List Line → List Line
  | [] => []
  | [l] => [⟨l.depth, l.text ++ mark⟩]
  | l :: m :: ls => l :: before mark (m :: ls)

/-- The lines of parts, a comma behind each of them but the last one. -/
def separated : List (List Line) → List Line
  | [] => []
  | [part] => part
  | part :: next :: parts => before "," part ++ separated (next :: parts)

/-- Parts between brackets. Where there are no parts, both brackets are on one line. -/
def bracketed (depth : Nat) (opening closing : String) (parts : List (List Line)) : List Line :=
  if parts.isEmpty then [⟨depth, opening ++ closing⟩]
  else ⟨depth, opening⟩ :: (separated parts ++ [⟨depth, closing⟩])

end Line

mutual

/-- The lines that a value is laid out over. Each item, field and bracket has a line of its own, one step
further in for each bracket that is open. -/
def Value.lines (depth : Nat) : Value → List Line
  | .list items => Line.bracketed depth "[" "]" (itemLines (depth + 1) items)
  | .object fields => Line.bracketed depth "\x7b" "\x7d" (fieldLines (depth + 1) fields)
  | .null => [⟨depth, "null"⟩]
  | .bool b => [⟨depth, Value.boolText b⟩]
  | .number n => [⟨depth, n.text⟩]
  | .string s => [⟨depth, Json.stringText s⟩]

def itemLines (depth : Nat) : List Value → List (List Line)
  | [] => []
  | x :: xs => x.lines depth :: itemLines depth xs

def fieldLines (depth : Nat) : List (String × Value) → List (List Line)
  | [] => []
  | (k, x) :: xs => Line.after (Json.stringText k ++ ": ") (x.lines depth) :: fieldLines depth xs

end

namespace Line

variable {ls more : List Line} {depth : Nat}

theorem indentation_succ (depth : Nat) : indentation (depth + 1) = indentation depth ++ "  " := by
  rw [← String.toList_inj, indentation, indentation, Nat.mul_succ, String.toList_append,
    String.toList_ofList, String.toList_ofList, ← List.replicate_append_replicate]
  rfl

/-- The first of the lines is moved in by so many steps. -/
def StartsAt (depth : Nat) (ls : List Line) : Prop := ∃ text more, ls = ⟨depth, text⟩ :: more

theorem StartsAt.after (h : StartsAt depth ls) (name : String) : StartsAt depth (after name ls) := by
  obtain ⟨text, more, rfl⟩ := h
  exact ⟨_, _, rfl⟩

theorem StartsAt.before (h : StartsAt depth ls) (mark : String) :
    StartsAt depth (before mark ls) := by
  obtain ⟨text, more, rfl⟩ := h
  cases more with
  | nil => exact ⟨_, _, rfl⟩
  | cons m more => exact ⟨_, _, rfl⟩

theorem StartsAt.append (h : StartsAt depth ls) (more : List Line) : StartsAt depth (ls ++ more) := by
  obtain ⟨text, rest, rfl⟩ := h
  exact ⟨_, _, rfl⟩

/-- Lines one below the other, of which the first goes on with a line that is written already. -/
def goingOn : List Line → String
  | [] => ""
  | l :: ls => l.text ++ String.join (ls.map fun m => "\n" ++ m.written)

theorem goingOn_after (h : StartsAt depth ls) (name : String) :
    goingOn (Line.after name ls) = name ++ goingOn ls := by
  obtain ⟨text, more, rfl⟩ := h
  simp [Line.after, goingOn, String.append_assoc]

theorem goingOn_append (hls : ls ≠ []) (hmore : StartsAt depth more) :
    goingOn (ls ++ more) = goingOn ls ++ ("\n" ++ indentation depth) ++ goingOn more := by
  obtain ⟨l, ls, rfl⟩ := List.exists_cons_of_ne_nil hls
  obtain ⟨text, more, rfl⟩ := hmore
  simp [goingOn, written, String.append_assoc]

theorem goingOn_before (hls : ls ≠ []) (mark : String) :
    goingOn (Line.before mark ls) = goingOn ls ++ mark := by
  induction ls with
  | nil => exact absurd rfl hls
  | cons l ls ih =>
      cases ls with
      | nil => simp [Line.before, goingOn]
      | cons m ls =>
          have hstart : StartsAt m.depth (m :: ls) := ⟨m.text, ls, rfl⟩
          have hl : [l] ≠ [] := by simp
          rw [Line.before, ← List.singleton_append, goingOn_append hl (hstart.before mark),
            ih (by simp), ← String.append_assoc, ← goingOn_append hl hstart, List.singleton_append]

theorem goingOn_separated {parts : List (List Line)} (h : ∀ part ∈ parts, StartsAt depth part) :
    (parts ≠ [] → StartsAt depth (separated parts)) ∧
      goingOn (separated parts) =
        String.intercalate ("," ++ ("\n" ++ indentation depth)) (parts.map goingOn) := by
  induction parts with
  | nil => exact ⟨fun hne => absurd rfl hne, rfl⟩
  | cons part parts ih =>
      have hpart := h part List.mem_cons_self
      cases parts with
      | nil => exact ⟨fun _ => hpart, by simp [separated]⟩
      | cons next parts =>
          obtain ⟨hstart, hgoing⟩ := ih fun p hp => h p (List.mem_cons_of_mem _ hp)
          have hne : part ≠ [] := by
            obtain ⟨text, more, rfl⟩ := hpart
            simp
          have hne' : Line.before "," part ≠ [] := by
            obtain ⟨text, more, heq⟩ := hpart.before ","
            simp [heq]
          refine ⟨fun _ => (hpart.before ",").append _, ?_⟩
          rw [separated, goingOn_append hne' (hstart (by simp)), goingOn_before hne, hgoing]
          simp [String.intercalate_cons_cons, String.append_assoc]

theorem goingOn_bracketed {parts : List (List Line)} (opening closing : String)
    (h : ∀ part ∈ parts, StartsAt (depth + 1) part) :
    goingOn (bracketed depth opening closing parts) =
      Value.block (indentation depth) opening closing (parts.map goingOn) := by
  rw [bracketed, Value.block, List.isEmpty_map]
  split
  case isTrue => simp [goingOn]
  case isFalse hne =>
    have hne' : parts ≠ [] := by simpa using hne
    obtain ⟨hstart, hgoing⟩ := goingOn_separated h
    have hlines : separated parts ≠ [] := by
      obtain ⟨text, more, heq⟩ := hstart hne'
      simp [heq]
    have hlast : StartsAt depth [⟨depth, closing⟩] := ⟨closing, [], rfl⟩
    rw [← List.singleton_append, goingOn_append (by simp) ((hstart hne').append _),
      goingOn_append hlines hlast, hgoing, indentation_succ]
    simp [goingOn, String.append_assoc]

theorem lines_written (h : StartsAt 0 ls) : lines (ls.map written) = goingOn ls ++ "\n" := by
  obtain ⟨text, more, rfl⟩ := h
  have hjoin : ∀ (said : String) (ls : List Line),
      said ++ String.join (ls.map fun m => "\n" ++ m.written) ++ "\n" =
        said ++ "\n" ++ String.join (ls.map fun m => m.written ++ "\n") := by
    intro said ls
    induction ls generalizing said with
    | nil => simp
    | cons l ls ih =>
        have hnext := ih (said ++ "\n" ++ l.written)
        simpa [String.append_assoc] using hnext
  rw [goingOn, hjoin, lines]
  simp [written, indentation, Function.comp_def, String.append_assoc]

end Line

theorem Value.startsAt_lines (v : Value) (depth : Nat) : Line.StartsAt depth (v.lines depth) := by
  have hbracketed : ∀ opening closing parts,
      Line.StartsAt depth (Line.bracketed depth opening closing parts) := by
    intro opening closing parts
    rw [Line.bracketed]
    split
    · exact ⟨_, _, rfl⟩
    · exact ⟨_, _, rfl⟩
  cases v with
  | list items => exact hbracketed _ _ _
  | object fields => exact hbracketed _ _ _
  | _ => exact ⟨_, _, rfl⟩

theorem startsAt_itemLines {depth : Nat} {items : List Value} :
    ∀ part ∈ itemLines depth items, Line.StartsAt depth part := by
  induction items with
  | nil => simp [itemLines]
  | cons x xs ih => simpa [itemLines] using ⟨x.startsAt_lines depth, ih⟩

theorem startsAt_fieldLines {depth : Nat} {fields : List (String × Value)} :
    ∀ part ∈ fieldLines depth fields, Line.StartsAt depth part := by
  induction fields with
  | nil => simp [fieldLines]
  | cons field fields ih =>
      simpa [fieldLines] using ⟨(field.2.startsAt_lines depth).after _, ih⟩

mutual

theorem Value.goingOn_lines (v : Value) (depth : Nat) :
    Line.goingOn (v.lines depth) = v.prettyFrom (Line.indentation depth) := by
  match v with
  | .list items =>
      rw [Value.lines, Line.goingOn_bracketed _ _ startsAt_itemLines, goingOn_itemLines items,
        Line.indentation_succ, Value.prettyFrom]
  | .object fields =>
      rw [Value.lines, Line.goingOn_bracketed _ _ startsAt_fieldLines, goingOn_fieldLines fields,
        Line.indentation_succ, Value.prettyFrom]
  | .null => simp [Value.lines, Line.goingOn, Value.prettyFrom]
  | .bool b => simp [Value.lines, Line.goingOn, Value.prettyFrom]
  | .number n => simp [Value.lines, Line.goingOn, Value.prettyFrom]
  | .string s => simp [Value.lines, Line.goingOn, Value.prettyFrom]

theorem goingOn_itemLines (items : List Value) (depth : Nat) :
    (itemLines depth items).map Line.goingOn =
      Value.prettyItems (Line.indentation depth) items := by
  match items with
  | [] => rfl
  | x :: xs =>
      rw [itemLines, List.map_cons, x.goingOn_lines, goingOn_itemLines xs, Value.prettyItems]

theorem goingOn_fieldLines (fields : List (String × Value)) (depth : Nat) :
    (fieldLines depth fields).map Line.goingOn =
      Value.prettyFields (Line.indentation depth) fields := by
  match fields with
  | [] => rfl
  | (k, x) :: xs =>
      rw [fieldLines, List.map_cons, Line.goingOn_after (x.startsAt_lines depth), x.goingOn_lines,
        goingOn_fieldLines xs, Value.prettyFields]

end

theorem Value.pretty_eq_lines (v : Value) :
    v.pretty ++ "\n" = CommandLine.lines ((v.lines 0).map Line.written) := by
  rw [Line.lines_written (v.startsAt_lines 0), v.goingOn_lines]
  rfl

end StagedJobs
