import TallyRules.Json.Numeral
import TallyRules.Text.ByteLength

/-! # JSON texts as they are read

A text is read from the left, and the first thing wrong with it counts. Which
one that is depends on what the reader wants: a value that is kept is read more
strictly than one that is skipped, and a value of the wrong type is refused
before the rest of it is looked at. A reading therefore holds the faults of a
text in the places where they are met, and no text is refused before somebody
asks for its content.
-/

namespace TallyRules.Json

/-- A value as it stands in a text. -/
inductive Reading
  /-- The text ends before the value. -/
  | absent
  /-- No value begins like this. -/
  | broken (fault : Fault)
  | null
  | bool (b : Bool)
  | number (value : Except Fault Number)
  | string (text : Except Fault String)
  /-- The items, and the fault at which one that skips the array stops. -/
  | array (items : List Reading) (ending : Option Fault)
  /-- The members with their names, and the fault at which one that skips the object stops. A
  name that is not a text between quotation marks is a fault, whatever stands in its place. -/
  | object (members : List (Except Fault String × Reading)) (ending : Option Fault)
  deriving Inhabited

abbrev Member := Except Fault String × Reading

/-- A value, and what follows it or the fault at which one that skips the value stops. -/
structure Scan (α : Type) where
  reading : α
  next : Except Fault (List Char)

def Scan.fault? {α : Type} (scan : Scan α) : Option Fault :=
  match scan.next with
  | .ok _ => none
  | .error fault => some fault

namespace Reading

def isSpace (c : Char) : Bool :=
  c = ' ' || c = '\t' || c = '\n' || c = '\r'

def skipSpace (cs : List Char) : List Char :=
  cs.dropWhile isSpace

def hexDigit? (c : Char) : Option Nat :=
  if '0' ≤ c ∧ c ≤ '9' then some (c.toNat - '0'.toNat)
  else if 'a' ≤ c ∧ c ≤ 'f' then some (c.toNat - 'a'.toNat + 10)
  else if 'A' ≤ c ∧ c ≤ 'F' then some (c.toNat - 'A'.toNat + 10)
  else none

/-- The number that four hexadecimal digits stand for. -/
def hexUnit? (a b c d : Char) : Option Nat := do
  return (((← hexDigit? a) * 16 + (← hexDigit? b)) * 16 + (← hexDigit? c)) * 16 + (← hexDigit? d)

/-- The character that a letter stands for after a backslash. -/
def unescape? : Char → Option Char
  | '"' => some '"'
  | '\\' => some '\\'
  | '/' => some '/'
  | 'b' => some '\x08'
  | 'f' => some '\x0c'
  | 'n' => some '\n'
  | 'r' => some '\r'
  | 't' => some '\t'
  | _ => none

/-- A part of a quoted text: a character, or a unit of 16 bits written in hexadecimal. -/
inductive Piece
  | char (c : Char)
  | unit (n : Nat)

def scanPieces : List Char → Scan (List Piece)
  | [] => ⟨[], .error .ended⟩
  | '"' :: cs => ⟨[], .ok cs⟩
  | ['\\'] => ⟨[], .error .ended⟩
  | '\\' :: 'u' :: a :: b :: c :: d :: cs =>
    match hexUnit? a b c d with
    | some n =>
      let ⟨pieces, next⟩ := scanPieces cs
      ⟨.unit n :: pieces, next⟩
    | none => ⟨[], .error .malformed⟩
  | '\\' :: 'u' :: cs => ⟨[], .error (if Text.byteLength cs < 4 then .ended else .malformed)⟩
  | '\\' :: c :: cs =>
    match unescape? c with
    | some c =>
      let ⟨pieces, next⟩ := scanPieces cs
      ⟨.char c :: pieces, next⟩
    | none => ⟨[], .error .malformed⟩
  | c :: cs =>
    if c.toNat < 0x20 then ⟨[], .error .malformed⟩
    else
      let ⟨pieces, next⟩ := scanPieces cs
      ⟨.char c :: pieces, next⟩

/-- The first unit of a pair that stands for one character. -/
def isLeading (n : Nat) : Bool :=
  0xD800 ≤ n && n < 0xDC00

def isTrailing (n : Nat) : Bool :=
  0xDC00 ≤ n && n < 0xE000

/-- The text of the pieces, which end with a fault or with a quotation mark. Units that stand for
half a character come in pairs. -/
def textOf (ending : Option Fault) : List Piece → Except Fault (List Char)
  | [] => match ending with
    | none => .ok []
    | some fault => .error fault
  | .char c :: pieces => (textOf ending pieces).map (c :: ·)
  | .unit n :: pieces =>
    if isTrailing n then .error .malformed
    else if isLeading n then
      match pieces with
      | [] => .error (ending.getD .malformed)
      | .char _ :: _ => .error .malformed
      | .unit m :: pieces =>
        if isTrailing m then
          (textOf ending pieces).map (Char.ofNat (0x10000 + (n - 0xD800) * 0x400 + (m - 0xDC00)) :: ·)
        else .error .malformed
    else (textOf ending pieces).map (Char.ofNat n :: ·)

def scanText (cs : List Char) : Scan (Except Fault String) :=
  let scan := scanPieces cs
  ⟨(textOf scan.fault? scan.reading).map String.ofList, scan.next⟩

/-- What follows a word, of which the first letter has been seen. -/
def scanWord : (word : List Char) → List Char → Except Fault (List Char)
  | [], cs => .ok cs
  | _ :: _, [] => .error .ended
  | w :: word, c :: cs => if c = w then scanWord word cs else .error .malformed

def scanConstant (word : String) (value : Reading) (cs : List Char) : Scan Reading :=
  match scanWord word.toList cs with
  | .ok cs => ⟨value, .ok cs⟩
  | .error fault => ⟨broken fault, .error fault⟩

/-- A number, from its minus sign or first digit. One out of range can still be skipped. -/
def scanNumber (cs : List Char) : Scan Reading :=
  match Numeral.scan cs with
  | .ok (numeral, cs) => ⟨number (numeral.value.elim (.error .malformed) .ok), .ok cs⟩
  | .error fault => ⟨number (.error fault), .error .malformed⟩

mutual

/-- A value, after the space before it. -/
def scanValue : (fuel : Nat) → List Char → Scan Reading
  | 0, _ => ⟨absent, .error .ended⟩
  | fuel + 1, cs =>
    match skipSpace cs with
    | [] => ⟨absent, .error .ended⟩
    | '"' :: cs =>
      let ⟨text, next⟩ := scanText cs
      ⟨string text, next⟩
    | '[' :: cs =>
      match skipSpace cs with
      | [] => ⟨array [] (some .ended), .error .ended⟩
      | ']' :: cs => ⟨array [] none, .ok cs⟩
      | cs =>
        let scan := scanItems fuel cs
        ⟨array scan.reading scan.fault?, scan.next⟩
    | '{' :: cs =>
      match skipSpace cs with
      | [] => ⟨object [] (some .ended), .error .ended⟩
      | '}' :: cs => ⟨object [] none, .ok cs⟩
      | cs =>
        let scan := scanMembers fuel cs
        ⟨object scan.reading scan.fault?, scan.next⟩
    | 'n' :: cs => scanConstant "ull" null cs
    | 't' :: cs => scanConstant "rue" (bool true) cs
    | 'f' :: cs => scanConstant "alse" (bool false) cs
    | c :: cs =>
      if c = '-' ∨ c.isDigit then scanNumber (c :: cs)
      else ⟨broken .malformed, .error .malformed⟩

/-- The items of an array up to its closing bracket, from the place of an item. -/
def scanItems : (fuel : Nat) → List Char → Scan (List Reading)
  | 0, _ => ⟨[], .error .ended⟩
  | fuel + 1, cs =>
    let ⟨item, next⟩ := scanValue fuel cs
    match next.map skipSpace with
    | .error fault => ⟨[item], .error fault⟩
    | .ok [] => ⟨[item], .error .ended⟩
    | .ok (']' :: cs) => ⟨[item], .ok cs⟩
    | .ok (',' :: cs) =>
      let ⟨items, next⟩ := scanItems fuel cs
      ⟨item :: items, next⟩
    | .ok _ => ⟨[item], .error .malformed⟩

def scanMembers : (fuel : Nat) → List Char → Scan (List Member)
  | 0, _ => ⟨[], .error .ended⟩
  | fuel + 1, cs =>
    match skipSpace cs with
    | [] => ⟨[(.error .ended, absent)], .error .ended⟩
    | '"' :: cs =>
      let ⟨name, next⟩ := scanText cs
      match next.map skipSpace with
      | .error fault => ⟨[(name, broken fault)], .error fault⟩
      | .ok [] => ⟨[(name, absent)], .error .ended⟩
      | .ok (':' :: cs) =>
        let ⟨value, next⟩ := scanValue fuel cs
        match next.map skipSpace with
        | .error fault => ⟨[(name, value)], .error fault⟩
        | .ok [] => ⟨[(name, value)], .error .ended⟩
        | .ok ('}' :: cs) => ⟨[(name, value)], .ok cs⟩
        | .ok (',' :: cs) =>
          let ⟨members, next⟩ := scanMembers fuel cs
          ⟨(name, value) :: members, next⟩
        | .ok _ => ⟨[(name, value)], .error .malformed⟩
      | .ok _ => ⟨[(name, broken .malformed)], .error .malformed⟩
    | _ => ⟨[(.error .malformed, broken .malformed)], .error .malformed⟩

end

/-- The value that a text begins with. Each value takes a character or is looked for once at the
place of an item. -/
def ofChars (cs : List Char) : Scan Reading :=
  scanValue (2 * cs.length + 2) cs

end Reading

end TallyRules.Json
