import StagedJobs.Json.Reader
import StagedJobs.Proofs.Catalogue.Lexemes

namespace StagedJobs.Json

open Catalogue

/-- What may stand around the parts of a text. -/
def Spaces (cs : List Char) : Prop := ∀ c ∈ cs, c ∈ [' ', '\t', '\n', '\r']

theorem spaces_nil : Spaces [] := by simp [Spaces]

/-- A hexadecimal digit, in either case, and its value. -/
def HexDigit (c : Char) (n : Nat) : Prop :=
  n < 16 ∧ (c = Nat.digitChar n ∨ c = (Nat.digitChar n).toUpper)

inductive CodeUnit : List Char → Nat → Prop
  | digits {a b c d : Char} {i j k l : Nat} (ha : HexDigit a i) (hb : HexDigit b j)
      (hc : HexDigit c k) (hd : HexDigit d l) :
      CodeUnit [a, b, c, d] (((i * 16 + j) * 16 + k) * 16 + l)

/-- The marks that stand for one character after a backslash. -/
def shortEscapes : List (Char × Char) :=
  [('"', '"'), ('\\', '\\'), ('/', '/'), ('b', Char.ofNat 0x08), ('f', Char.ofNat 0x0c),
   ('n', '\n'), ('r', '\r'), ('t', '\t')]

/-- The ways to write a character of a string. No character has the code of a surrogate, so one of
these stands for something only as half of a pair. -/
inductive SpellsChar : List Char → Char → Prop
  | plain {c : Char} (hcode : 0x20 ≤ c.toNat) (hquote : c ≠ '"') (hescape : c ≠ '\\') :
      SpellsChar [c] c
  | short {mark c : Char} (h : (mark, c) ∈ shortEscapes) : SpellsChar ['\\', mark] c
  | unit {c : Char} {cs : List Char} (h : CodeUnit cs c.toNat) : SpellsChar ('\\' :: 'u' :: cs) c
  | pair {c : Char} {cs ds : List Char} {high low : Nat} (hhigh : CodeUnit cs (0xd800 + high))
      (hlow : CodeUnit ds (0xdc00 + low)) (hhighBound : high < 0x400) (hlowBound : low < 0x400)
      (h : c.toNat = 0x10000 + high * 0x400 + low) :
      SpellsChar ('\\' :: 'u' :: (cs ++ '\\' :: 'u' :: ds)) c

inductive SpellsChars : List Char → List Char → Prop
  | nil : SpellsChars [] []
  | cons {cs ds s : List Char} {c : Char} (hc : SpellsChar cs c) (h : SpellsChars ds s) :
      SpellsChars (cs ++ ds) (c :: s)

def SpellsString (cs : List Char) (s : String) : Prop :=
  ∃ ds, SpellsChars ds s.toList ∧ cs = '"' :: (ds ++ ['"'])

/-- Digits that do not start with a zero, or a zero alone. -/
def WholeDigits (cs : List Char) : Prop := Digits cs ∧ (cs.head? = some '0' → cs.length = 1)

/-- The digits behind the point, where there is one. -/
inductive SpellsFraction : List Char → List Char → Prop
  | absent : SpellsFraction [] []
  | point {digits : List Char} (h : Digits digits) : SpellsFraction ('.' :: digits) digits

/-- The power of ten at the end of a numeral, where there is one. -/
inductive SpellsPower : List Char → Int → Prop
  | absent : SpellsPower [] 0
  | positive {mark : Char} {sign digits : List Char} (hmark : mark ∈ ['e', 'E'])
      (hsign : sign ∈ [[], ['+']]) (h : Digits digits) :
      SpellsPower (mark :: (sign ++ digits)) (signedValue false digits)
  | negative {mark : Char} {digits : List Char} (hmark : mark ∈ ['e', 'E']) (h : Digits digits) :
      SpellsPower (mark :: '-' :: digits) (signedValue true digits)

/-- The digits stand for a whole number under the sign, and not for minus zero. -/
def IsWhole (negative : Bool) (digits : List Char) (n : Whole) : Prop :=
  n.val = signedValue negative digits ∧ ¬ (negative = true ∧ n.val = 0)

/-- What follows the sign of a numeral. -/
inductive SpellsMagnitude (negative : Bool) : List Char → Number → Prop
  | whole {digits : List Char} {n : Whole} (hdigits : WholeDigits digits)
      (h : IsWhole negative digits n) : SpellsMagnitude negative digits (.whole n)
  /-- Minus zero, and numbers that 64 bits do not hold. -/
  | beyond {digits : List Char} {n : Number} (hdigits : WholeDigits digits)
      (hbeyond : ∀ m, ¬ IsWhole negative digits m)
      (h : floatNumber? negative digits [] 0 = some n) : SpellsMagnitude negative digits n
  | decimal {digits cs fraction ds : List Char} {power : Int} {n : Number}
      (hdigits : WholeDigits digits) (hfraction : SpellsFraction cs fraction)
      (hpower : SpellsPower ds power) (hne : cs ++ ds ≠ [])
      (h : floatNumber? negative digits fraction power = some n) :
      SpellsMagnitude negative (digits ++ (cs ++ ds)) n

/-- A number, with a minus sign or without a sign. -/
def SpellsNumber (cs : List Char) (n : Number) : Prop :=
  ∃ negative ds, SpellsMagnitude negative ds n ∧ cs = signText negative ++ ds

inductive SpellsLeaf : List Char → Value → Prop
  | null : SpellsLeaf ['n', 'u', 'l', 'l'] .null
  | boolTrue : SpellsLeaf ['t', 'r', 'u', 'e'] (.bool true)
  | boolFalse : SpellsLeaf ['f', 'a', 'l', 's', 'e'] (.bool false)
  | string {cs : List Char} {s : String} (h : SpellsString cs s) : SpellsLeaf cs (.string s)
  | number {cs : List Char} {n : Number} (h : SpellsNumber cs n) : SpellsLeaf cs (.number n)

section Sequence

variable {α : Type}

/-- One or more items with commas between them. -/
inductive SpellsItems (item : List Char → α → Prop) : List Char → List α → Prop
  | last {before cs after : List Char} {x : α} (hbefore : Spaces before) (hx : item cs x)
      (hafter : Spaces after) : SpellsItems item (before ++ (cs ++ after)) [x]
  | cons {before cs after ds : List Char} {x : α} {xs : List α} (hbefore : Spaces before)
      (hx : item cs x) (hafter : Spaces after) (hxs : SpellsItems item ds xs) :
      SpellsItems item (before ++ (cs ++ (after ++ ',' :: ds))) (x :: xs)

/-- Items between two brackets, none included. -/
inductive SpellsSequence (opening closing : Char) (item : List Char → α → Prop) :
    List Char → List α → Prop
  | empty {between : List Char} (h : Spaces between) :
      SpellsSequence opening closing item (opening :: (between ++ [closing])) []
  | items {cs : List Char} {xs : List α} (h : SpellsItems item cs xs) :
      SpellsSequence opening closing item (opening :: (cs ++ [closing])) xs

end Sequence

/-- A name, a colon and a value. -/
def SpellsField (value : List Char → Value → Prop) (cs : List Char) (field : String × Value) :
    Prop :=
  ∃ ks before after ds, SpellsString ks field.1 ∧ Spaces before ∧ Spaces after ∧
    value ds field.2 ∧ cs = ks ++ (before ++ ':' :: (after ++ ds))

/-- A value in which lists and objects nest at most `depth` deep. Of fields of one name the last
counts. -/
def Spells : Nat → List Char → Value → Prop
  | 0, cs, v => SpellsLeaf cs v
  | depth + 1, cs, v => SpellsLeaf cs v ∨
    (∃ items, SpellsSequence '[' ']' (Spells depth) cs items ∧ v = .list items) ∨
      ∃ fields, SpellsSequence '\x7b' '\x7d' (SpellsField (Spells depth)) cs fields ∧
        v = .object (KeyMap.ofList fields).entries

theorem spells_of_leaf {cs : List Char} {v : Value} (h : SpellsLeaf cs v) :
    ∀ depth, Spells depth cs v
  | 0 => h
  | _ + 1 => .inl h

/-- The value that a whole text stands for, spaces around it left out. -/
def Denotes (text : String) (v : Value) : Prop :=
  ∃ before cs after, Spaces before ∧ Spells maxDepth cs v ∧ Spaces after ∧
    text.toList = before ++ (cs ++ after)

theorem denotes_of_leaf {text : String} {v : Value} (h : SpellsLeaf text.toList v) :
    Denotes text v :=
  ⟨[], text.toList, [], spaces_nil, spells_of_leaf h maxDepth, spaces_nil, by simp⟩

end StagedJobs.Json
