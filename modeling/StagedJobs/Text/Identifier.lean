namespace StagedJobs

def isLowerAlphanumeric (c : Char) : Bool := c.isLower || c.isDigit

/-- An identifier is a non-empty run of small ASCII letters, digits, `_` and `-` that starts and ends
with a letter or a digit. -/
def isIdentifier (s : String) : Bool :=
  match s.toList.head?, s.toList.getLast? with
  | some first, some last =>
    isLowerAlphanumeric first && isLowerAlphanumeric last
      && s.toList.all fun c => isLowerAlphanumeric c || c = '_' || c = '-'
  | _, _ => false

end StagedJobs
