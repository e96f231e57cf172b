/-! # Lines of a text

A line ends at a line feed; one carriage return before the line feed belongs
to the line end. The last line needs no line feed, in which case a carriage
return at its end is part of the line, and no line follows a final line feed.
-/

namespace TallyRules.Text

/-- Puts a character in front of the first line, or begins a line with it. -/
def consLine (c : Char) : List (List Char) → List (List Char)
  | [] => [[c]]
  | line :: lines => (c :: line) :: lines

def lineChars : List Char → List (List Char)
  | [] => []
  | '\n' :: cs => [] :: lineChars cs
  | '\r' :: '\n' :: cs => [] :: lineChars cs
  | c :: cs => consLine c (lineChars cs)

def lines (s : String) : List String :=
  (lineChars s.toList).map String.ofList

end TallyRules.Text
