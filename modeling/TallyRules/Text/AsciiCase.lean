/-! # Letter case

Labels and column names are compared without regard to the case of the ASCII
letters; every other character stands for itself.
-/

namespace TallyRules.Text

/-- Replaces each ASCII capital by its small letter. -/
def lower (s : String) : String :=
  String.ofList (s.toList.map Char.toLower)

def eqIgnoringCase (s t : String) : Bool :=
  s.toList.map Char.toLower == t.toList.map Char.toLower

@[simp]
theorem eqIgnoringCase_iff {s t : String} :
    eqIgnoringCase s t = true ↔ s.toList.map Char.toLower = t.toList.map Char.toLower := by
  simp [eqIgnoringCase]

/-- Whether `word` occurs in the text, its characters next to each other. -/
def occursIn (word : List Char) : List Char → Bool
  | [] => word.isEmpty
  | c :: cs => word.isPrefixOf (c :: cs) || occursIn word cs

end TallyRules.Text
