import TallyRules.Json.Basic
import TallyRules.Number.Layout

/-! # JSON texts

A value is written on one line without spaces, or over several lines with an
indentation of two spaces. Only the quotation mark, the backslash and the
control characters below U+0020 are escaped. There is no text for infinities
and for what is not a number: `null` stands in their place.
-/

namespace TallyRules.Json

def escapeChar (c : Char) : List Char :=
  match c with
  | '"' => ['\\', '"']
  | '\\' => ['\\', '\\']
  | '\x08' => ['\\', 'b']
  | '\t' => ['\\', 't']
  | '\n' => ['\\', 'n']
  | '\x0c' => ['\\', 'f']
  | '\r' => ['\\', 'r']
  | c =>
    if c.toNat < 0x20 then
      ['\\', 'u', '0', '0', Nat.digitChar (c.toNat / 16), Nat.digitChar (c.toNat % 16)]
    else [c]

def quoted (s : String) : String :=
  String.ofList ('"' :: s.toList.flatMap escapeChar ++ ['"'])

def Number.text : Number → String
  | .integer n => toString n
  | .float x => if x.units?.isSome then x.text .json else "null"

mutual

def text : Json → String
  | null => "null"
  | bool b => if b then "true" else "false"
  | number n => n.text
  | string s => quoted s
  | array items => "[" ++ itemsText items ++ "]"
  | object members => "\x7b" ++ membersText members ++ "\x7d"

def itemsText : List Json → String
  | [] => ""
  | [item] => text item
  | item :: items => text item ++ "," ++ itemsText items

def membersText : List (String × Json) → String
  | [] => ""
  | [(name, value)] => quoted name ++ ":" ++ text value
  | (name, value) :: members => quoted name ++ ":" ++ text value ++ "," ++ membersText members

end

/-- A new line, indented by two spaces for each level. -/
def newline (level : Nat) : String :=
  "\n" ++ String.ofList (List.replicate (2 * level) ' ')

mutual

/-- The value over several lines, inside so many arrays and objects. -/
def indented (level : Nat) : Json → String
  | array [] => "[]"
  | array items => "[" ++ indentedItems (level + 1) items ++ newline level ++ "]"
  | object [] => "\x7b\x7d"
  | object members => "\x7b" ++ indentedMembers (level + 1) members ++ newline level ++ "\x7d"
  | value => text value

def indentedItems (level : Nat) : List Json → String
  | [] => ""
  | [item] => newline level ++ indented level item
  | item :: items => newline level ++ indented level item ++ "," ++ indentedItems level items

def indentedMembers (level : Nat) : List (String × Json) → String
  | [] => ""
  | [(name, value)] => newline level ++ quoted name ++ ": " ++ indented level value
  | (name, value) :: members =>
    newline level ++ quoted name ++ ": " ++ indented level value ++ "," ++
      indentedMembers level members

end

def pretty (value : Json) : String :=
  indented 0 value

end TallyRules.Json
