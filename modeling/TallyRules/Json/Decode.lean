import TallyRules.Json.Reading

/-! # Reading typed content

A reader asks a reading for content of one type, and stops at the first thing
that is wrong. Arrays and objects that are kept may be nested only to a certain
depth; the room of a reader is the depth that is left to it. Records are
written as objects, in which unknown fields are skipped, or as arrays of their
fields.
-/

namespace TallyRules.Json

abbrev Result (α : Type) := Except ReadError α

/-- The depth to which kept values may be nested. -/
def greatestDepth : Nat := 127

def stop {α : Type} (fault : Fault) : Result α :=
  .error (.fault fault)

def close {α : Type} (ending : Option Fault) (a : α) : Result α :=
  match ending with
  | none => .ok a
  | some fault => stop fault

/-- Goes one level down, if there is room. -/
def enter {α : Type} (room : Nat) (inside : Nat → Result α) : Result α :=
  match room with
  | 0 => stop .malformed
  | room + 1 => inside room

namespace Reading

def found : Reading → Result Found
  | absent => stop .ended
  | broken fault => stop fault
  | null => .ok .null
  | bool b => .ok (.bool b)
  | number (.ok n) => .ok (.number n)
  | number (.error fault) => stop fault
  | string (.ok s) => .ok (.string s)
  | string (.error fault) => stop fault
  | array .. => .ok .sequence
  | object .. => .ok .map

/-- Refuses the value as one of another type than expected. -/
def refuse {α : Type} (r : Reading) (expected : String) : Result α := do
  throw (.mismatch (.wrongType (← r.found) expected))

def toText : Reading → Result String
  | string (.ok s) => .ok s
  | r => r.refuse "a string"

def toOptionalText : Reading → Result (Option String)
  | null => .ok none
  | r => some <$> r.toText

def toUnit : Reading → Result Unit
  | null => .ok ()
  | r => r.refuse "unit"

mutual

def toJson (room : Nat) : Reading → Result Json
  | absent => stop .ended
  | broken fault => stop fault
  | null => .ok .null
  | bool b => .ok (.bool b)
  | number n => (n.map Json.number).mapError .fault
  | string s => (s.map Json.string).mapError .fault
  | array items ending =>
    match room with
    | 0 => stop .malformed
    | room + 1 => do
      let items ← itemsToJson room items
      close ending (.array items)
  | object members ending =>
    match room with
    | 0 => stop .malformed
    | room + 1 => do
      let members ← membersToJson room members
      close ending (.object members)

def itemsToJson (room : Nat) : List Reading → Result (List Json)
  | [] => .ok []
  | item :: items => return (← toJson room item) :: (← itemsToJson room items)

def membersToJson (room : Nat) : List Member → Result (List (String × Json))
  | [] => .ok []
  | (.error fault, _) :: _ => stop fault
  | (.ok name, value) :: members =>
    return (name, ← toJson room value) :: (← membersToJson room members)

end

def toList {α : Type} (room : Nat) (item : Nat → Reading → Result α) : Reading → Result (List α)
  | array items ending => enter room fun room => do
    close ending (← items.mapM (item room))
  | r => r.refuse "a sequence"

end Reading

/-- A field of a record, and how its content changes the record. -/
structure FieldReader (σ : Type) where
  name : String
  read : (room : Nat) → Reading → σ → Result σ

def FieldReader.text {σ : Type} (name : String) (set : String → σ → σ) : FieldReader σ :=
  ⟨name, fun _ r s => return set (← r.toText) s⟩

namespace Reading

variable {σ α : Type}

/-- Reads the members of an object one by one. A field may be given only once. -/
def readMembers (fields : List (FieldReader σ)) (room : Nat) (ending : Option Fault) :
    (given : List String) → List Member → σ → Result σ
  | _, [], s => close ending s
  | _, (.error fault, _) :: _, _ => stop fault
  | given, (.ok name, value) :: members, s =>
    match fields.find? (·.name = name) with
    | none => readMembers fields room ending given members s
    | some field =>
      if name ∈ given then throw (.mismatch (.duplicateField name))
      else do
        let s ← field.read room value s
        readMembers fields room ending (name :: given) members s

def readItems (room : Nat) (ending : Option Fault) :
    List (FieldReader σ) → List Reading → σ → Result σ
  | _, [], s => close ending s
  | [], _ :: _, _ => stop .malformed
  | field :: fields, item :: items, s => do
    let s ← field.read room item s
    readItems room ending fields items s

/-- Reads a record, in which fields that are not given stay as they are in `start`. -/
def toRecord (room : Nat) (name : String) (fields : List (FieldReader σ)) (start : σ) :
    Reading → Result σ
  | array items ending => enter room fun room => readItems room ending fields items start
  | object members ending => enter room fun room =>
    readMembers fields room ending [] members start
  | r => r.refuse ("struct " ++ name)

/-- Reads one of several variants, written as its name alone or as an object of one member with
the name and the content. -/
def toVariant (room : Nat) (names : List String)
    (content : (room : Nat) → (name : String) → Option Reading → Result α) : Reading → Result α
  | absent => stop .ended
  | string (.error fault) => stop fault
  | string (.ok name) =>
    if name ∈ names then content room name none
    else throw (.mismatch (.unknownVariant name names))
  | object members ending => enter room fun room =>
    match members with
    | [] => stop (ending.getD .malformed)
    | (.error fault, _) :: _ => stop fault
    | (.ok name, value) :: others => do
      if name ∉ names then throw (.mismatch (.unknownVariant name names))
      let a ← content room name (some value)
      if others.isEmpty then close ending a else stop .malformed
  | _ => stop .malformed

/-- Reads a variant that has no content. -/
def toName (room : Nat) (names : List (String × α)) (r : Reading) : Result α :=
  r.toVariant room (names.map (·.1)) fun _ name content => do
    if let some value := content then value.toUnit
    match names.lookup name with
    | some a => return a
    | none => stop .malformed

end Reading

/-- Reads the one value that a text consists of. -/
def decode {α : Type} (read : (room : Nat) → Reading → Result α) (text : String) : Result α := do
  let scan := Reading.ofChars text.toList
  let a ← read greatestDepth scan.reading
  match scan.next.map Reading.skipSpace with
  | .ok [] => return a
  | .ok _ => stop .malformed
  | .error fault => stop fault

end TallyRules.Json
