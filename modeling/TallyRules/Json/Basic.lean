import TallyRules.Number.Binary64

/-! # JSON values

An object is the list of its members in the order in which they are written.
Integers of 64 bits are kept apart from other numbers. Sorting puts the
members of every object in the order of their names, by code point, and keeps
the last of those with one name.
-/

namespace TallyRules

/-- A number: an integer of 64 bits, with or without sign, or a floating-point number. -/
inductive Json.Number
  | integer (n : Int)
  | float (x : Binary64)
  deriving DecidableEq

inductive Json
  | null
  | bool (b : Bool)
  | number (n : Json.Number)
  | string (s : String)
  | array (items : List Json)
  | object (members : List (String × Json))
  deriving Inhabited

namespace Json

/-- Puts a member in its place, in the stead of one with the same name. -/
def insertMember (name : String) (value : Json) : List (String × Json) → List (String × Json)
  | [] => [(name, value)]
  | (other, old) :: members =>
    if name < other then (name, value) :: (other, old) :: members
    else if name = other then (name, value) :: members
    else (other, old) :: insertMember name value members

mutual

/-- The value with the members of every object sorted. -/
def sorted : Json → Json
  | array items => array (sortedItems items)
  | object members => object (sortedMembers members [])
  | value => value

def sortedItems : List Json → List Json
  | [] => []
  | item :: items => sorted item :: sortedItems items

/-- Adds the members, each sorted, to those already in order. -/
def sortedMembers : List (String × Json) → List (String × Json) → List (String × Json)
  | [], done => done
  | (name, value) :: members, done =>
    sortedMembers members (insertMember name (sorted value) done)

end

end Json

end TallyRules
