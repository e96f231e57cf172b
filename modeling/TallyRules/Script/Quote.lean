/-! # Quoted texts in scripts

A script holds a text between single quotation marks. A backslash stands
before each quotation mark and each backslash of the text, and nowhere else.
-/

namespace TallyRules.Script

def escapeChar (c : Char) : List Char :=
  if c = '\\' ∨ c = '\'' then ['\\', c] else [c]

def quotedChars (cs : List Char) : List Char :=
  '\'' :: cs.flatMap escapeChar ++ ['\'']

def quoted (s : String) : String :=
  String.ofList (quotedChars s.toList)

end TallyRules.Script
