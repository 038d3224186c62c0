import StagedJobs.Text.AlphanumericRanges

namespace StagedJobs.Text

/-- The characters with the property White_Space, as closed ranges. -/
def blankRanges : List (Nat × Nat) :=
  [(0x09, 0x0d), (0x20, 0x20), (0x85, 0x85), (0xa0, 0xa0), (0x1680, 0x1680), (0x2000, 0x200a),
   (0x2028, 0x2029), (0x202f, 0x202f), (0x205f, 0x205f), (0x3000, 0x3000)]

def within (ranges : List (Nat × Nat)) (c : Char) : Bool :=
  ranges.any fun (first, last) => first ≤ c.toNat && c.toNat ≤ last

/-- White space of any script. -/
def isBlank (c : Char) : Bool := within blankRanges c

/-- Letters and numbers of any script. -/
def isAlphanumeric (c : Char) : Bool :=
  if c.toNat < 128 then c.isAlphanum else within alphanumericRanges c

def trim (s : String) : String :=
  String.ofList ((s.toList.dropWhile isBlank).reverse.dropWhile isBlank).reverse

/-- A text with its ASCII letters in lower case, and all others as they are. -/
def lowerAscii (s : String) : String := String.ofList (s.toList.map Char.toLower)

/-- The text behind a word, if it starts with that word. -/
def afterWord? (word : String) (cs : List Char) : Option (List Char) :=
  if word.toList.isPrefixOf cs then some (cs.drop word.length) else none

end StagedJobs.Text
