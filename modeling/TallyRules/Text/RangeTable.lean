/-! # Tables of code point ranges

A class of characters is written as a list of closed ranges of code points.
-/

namespace TallyRules.Text

/-- A class of characters, as closed ranges of code points in increasing order. -/
abbrev RangeTable := List (Nat × Nat)

def RangeTable.contains (table : RangeTable) (n : Nat) : Bool :=
  table.any fun range => range.1 ≤ n && n ≤ range.2

end TallyRules.Text
