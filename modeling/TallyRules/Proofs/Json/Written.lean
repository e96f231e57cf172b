import TallyRules.Json.Decode

/-! # JSON texts that are read back

A quoted text is read back whatever characters it holds. A value without
numbers is read back from its text, in which nothing is left over.
-/

namespace TallyRules.Json

theorem toList_quoted (s : String) :
    (quoted s).toList = '"' :: (s.toList.flatMap escapeChar ++ ['"']) := by
  simp [quoted]

theorem toList_array (items : List Json) :
    (array items).text.toList = '[' :: ((itemsText items).toList ++ [']']) := by
  simp [text]

theorem toList_object (members : List (String × Json)) :
    (object members).text.toList = '\x7b' :: ((membersText members).toList ++ ['}']) := by
  simp [text]

theorem toList_itemsText_cons (item next : Json) (items : List Json) :
    (itemsText (item :: next :: items)).toList =
      item.text.toList ++ ',' :: (itemsText (next :: items)).toList := by
  have h : itemsText (item :: next :: items) = item.text ++ "," ++ itemsText (next :: items) := rfl
  simp [h]

theorem toList_membersText_singleton (name : String) (value : Json) :
    (membersText [(name, value)]).toList = (quoted name).toList ++ ':' :: value.text.toList := by
  simp [membersText]

theorem toList_membersText_cons (name : String) (value : Json) (next : String × Json)
    (members : List (String × Json)) :
    (membersText ((name, value) :: next :: members)).toList =
      (quoted name).toList ++ ':' ::
        (value.text.toList ++ ',' :: (membersText (next :: members)).toList) := by
  have h : membersText ((name, value) :: next :: members) =
      quoted name ++ ":" ++ value.text ++ "," ++ membersText (next :: members) := rfl
  simp [h]

namespace Reading

variable {cs rest : List Char}

theorem skipSpace_cons {c : Char} (h : isSpace c = false) (cs : List Char) :
    skipSpace (c :: cs) = c :: cs := by
  rw [skipSpace, List.dropWhile_cons_of_neg (by simp [h])]

theorem map_skipSpace {c : Char} (h : isSpace c = false) (cs : List Char) :
    (Except.ok (c :: cs) : Except Fault (List Char)).map skipSpace = .ok (c :: cs) :=
  congrArg Except.ok (skipSpace_cons h cs)

theorem scanPieces_cons {c : Char} (hq : c ≠ '"') (hb : c ≠ '\\') (cs : List Char) :
    scanPieces (c :: cs) =
      if c.toNat < 0x20 then ⟨[], .error .malformed⟩
      else ⟨.char c :: (scanPieces cs).reading, (scanPieces cs).next⟩ := by
  rw [scanPieces]
  all_goals simp [hq, hb]

theorem hexUnit?_digitChar {n : Nat} (h : n < 0x20) :
    hexUnit? '0' '0' (Nat.digitChar (n / 16)) (Nat.digitChar (n % 16)) = some n := by
  revert n
  decide

theorem exists_piece (c : Char) (cs : List Char) :
    ∃ piece, scanPieces (escapeChar c ++ cs) =
        ⟨piece :: (scanPieces cs).reading, (scanPieces cs).next⟩ ∧
      ∀ pieces, textOf none (piece :: pieces) = (textOf none pieces).map (c :: ·) := by
  unfold escapeChar
  split
  case h_8 =>
    rename_i hq hb _ _ _ _ _
    split
    · rename_i hc
      refine ⟨.unit c.toNat, ?_, fun pieces => ?_⟩
      · simp [scanPieces, hexUnit?_digitChar hc]
      · have ht : isTrailing c.toNat = false := by simp [isTrailing]; omega
        have hl : isLeading c.toNat = false := by simp [isLeading]; omega
        rw [textOf.eq_def]
        simp [ht, hl]
    · rename_i hc
      refine ⟨.char c, ?_, fun _ => rfl⟩
      rw [List.singleton_append, scanPieces_cons hq hb, if_neg hc]
  all_goals exact ⟨.char _, rfl, fun _ => rfl⟩

theorem exists_pieces (s rest : List Char) :
    ∃ pieces, scanPieces (s.flatMap escapeChar ++ '"' :: rest) = ⟨pieces, .ok rest⟩ ∧
      textOf none pieces = .ok s := by
  induction s with
  | nil => exact ⟨[], rfl, rfl⟩
  | cons c s ih =>
    obtain ⟨pieces, hscan, htext⟩ := ih
    obtain ⟨piece, hpiece, hone⟩ := exists_piece c (s.flatMap escapeChar ++ '"' :: rest)
    refine ⟨piece :: pieces, ?_, ?_⟩
    · rw [List.flatMap_cons, List.append_assoc, hpiece, hscan]
    · rw [hone, htext]
      rfl

/-- Nothing in a quoted text ends it early, and each character is read as itself. -/
theorem scanText_quoted (s : String) (rest : List Char) :
    scanText (s.toList.flatMap escapeChar ++ '"' :: rest) = ⟨.ok s, .ok rest⟩ := by
  obtain ⟨pieces, hscan, htext⟩ := exists_pieces s.toList rest
  rw [scanText, hscan]
  simp [Scan.fault?, htext, Except.map]

end Reading

mutual

/-- What is read where a value is written. -/
def reading : Json → Reading
  | null => .null
  | bool b => .bool b
  | number n => .number (.ok n)
  | string s => .string (.ok s)
  | array items => .array (readings items) none
  | object members => .object (memberReadings members) none

def readings : List Json → List Reading
  | [] => []
  | item :: items => reading item :: readings items

def memberReadings : List (String × Json) → List Member
  | [] => []
  | (name, value) :: members => (.ok name, reading value) :: memberReadings members

end

mutual

def NoNumber : Json → Prop
  | number _ => False
  | array items => NoNumberIn items
  | object members => NoNumberUnder members
  | null => True
  | bool _ => True
  | string _ => True

def NoNumberIn : List Json → Prop
  | [] => True
  | item :: items => NoNumber item ∧ NoNumberIn items

def NoNumberUnder : List (String × Json) → Prop
  | [] => True
  | (_, value) :: members => NoNumber value ∧ NoNumberUnder members

end

namespace Reading

variable {cs rest : List Char} {fuel : Nat}

/-- A text begins with a character that stands neither between values nor at the end of an array. -/
theorem exists_cons_text {value : Json} (h : value.NoNumber) :
    ∃ c cs, value.text.toList = c :: cs ∧ isSpace c = false ∧ c ≠ ']' := by
  cases value with
  | number n => exact absurd h (by simp [NoNumber])
  | null => exact ⟨'n', _, rfl, by decide, by decide⟩
  | bool b =>
    cases b
    · exact ⟨'f', _, rfl, by decide, by decide⟩
    · exact ⟨'t', _, rfl, by decide, by decide⟩
  | string s => exact ⟨'"', _, by rw [text, toList_quoted], by decide, by decide⟩
  | array items => exact ⟨'[', _, toList_array items, by decide, by decide⟩
  | object members => exact ⟨'{', _, toList_object members, by decide, by decide⟩

theorem scanValue_quoted (fuel : Nat) (s : String) (rest : List Char) :
    scanValue (fuel + 1) ((quoted s).toList ++ rest) = ⟨string (.ok s), .ok rest⟩ := by
  have h := scanText_quoted s rest
  rw [toList_quoted, List.cons_append, List.append_assoc, List.singleton_append, scanValue,
    skipSpace_cons (by decide)]
  simp only [h]

theorem scanValue_array {c : Char} (hs : isSpace c = false) (hc : c ≠ ']')
    {items : List Reading} (h : scanItems fuel (c :: cs) = ⟨items, .ok rest⟩) :
    scanValue (fuel + 1) ('[' :: c :: cs) = ⟨array items none, .ok rest⟩ := by
  rw [scanValue, skipSpace_cons (by decide)]
  simp only [skipSpace_cons hs]
  split
  · contradiction
  · rename_i heq
    exact absurd (List.cons.inj heq).1 hc
  · rw [h]
    rfl

theorem scanValue_object {members : List Member}
    (h : scanMembers fuel ('"' :: cs) = ⟨members, .ok rest⟩) :
    scanValue (fuel + 1) ('\x7b' :: '"' :: cs) = ⟨object members none, .ok rest⟩ := by
  rw [scanValue, skipSpace_cons (by decide)]
  simp only [skipSpace_cons (show isSpace '"' = false by decide)]
  split
  · contradiction
  · rename_i heq
    cases heq
  · rw [h]
    rfl

theorem scanItems_last {item : Reading} (h : scanValue fuel cs = ⟨item, .ok (']' :: rest)⟩) :
    scanItems (fuel + 1) cs = ⟨[item], .ok rest⟩ := by
  rw [scanItems, h]
  rfl

theorem scanItems_next {item : Reading} {items : List Reading} {more : List Char}
    (h : scanValue fuel cs = ⟨item, .ok (',' :: more)⟩)
    (hn : scanItems fuel more = ⟨items, .ok rest⟩) :
    scanItems (fuel + 1) cs = ⟨item :: items, .ok rest⟩ := by
  simp only [scanItems, h, map_skipSpace (show isSpace ',' = false by decide), hn]

theorem scanMembers_last (name : String) {value : Reading}
    (h : scanValue fuel cs = ⟨value, .ok ('}' :: rest)⟩) :
    scanMembers (fuel + 1) ((quoted name).toList ++ ':' :: cs) =
      ⟨[(.ok name, value)], .ok rest⟩ := by
  have hname := scanText_quoted name (':' :: cs)
  rw [toList_quoted, List.cons_append, List.append_assoc, List.singleton_append, scanMembers,
    skipSpace_cons (by decide)]
  simp only [hname, map_skipSpace (show isSpace ':' = false by decide), h,
    map_skipSpace (show isSpace '}' = false by decide)]

theorem scanMembers_next (name : String) {value : Reading} {members : List Member}
    {more : List Char} (h : scanValue fuel cs = ⟨value, .ok (',' :: more)⟩)
    (hn : scanMembers fuel more = ⟨members, .ok rest⟩) :
    scanMembers (fuel + 1) ((quoted name).toList ++ ':' :: cs) =
      ⟨(.ok name, value) :: members, .ok rest⟩ := by
  have hname := scanText_quoted name (':' :: cs)
  rw [toList_quoted, List.cons_append, List.append_assoc, List.singleton_append, scanMembers,
    skipSpace_cons (by decide)]
  simp only [hname, map_skipSpace (show isSpace ':' = false by decide), h,
    map_skipSpace (show isSpace ',' = false by decide), hn]

theorem length_text_pos {value : Json} (h : value.NoNumber) : 0 < value.text.toList.length := by
  obtain ⟨c, cs, hc, -⟩ := exists_cons_text h
  rw [hc]
  exact Nat.zero_lt_succ _

theorem exists_cons_itemsText {item : Json} (h : item.NoNumber) (items : List Json)
    (rest : List Char) :
    ∃ c cs, (itemsText (item :: items)).toList ++ rest = c :: cs ∧ isSpace c = false ∧ c ≠ ']' := by
  obtain ⟨c, cs, hc, hs, he⟩ := exists_cons_text h
  cases items with
  | nil => exact ⟨c, cs ++ rest, by rw [itemsText, hc, List.cons_append], hs, he⟩
  | cons next items =>
    rw [toList_itemsText_cons, hc]
    exact ⟨c, _, rfl, hs, he⟩

theorem exists_cons_membersText (member : String × Json) (members : List (String × Json))
    (rest : List Char) :
    ∃ cs, (membersText (member :: members)).toList ++ rest = '"' :: cs := by
  obtain ⟨name, value⟩ := member
  cases members with
  | nil =>
    rw [toList_membersText_singleton, toList_quoted]
    exact ⟨_, rfl⟩
  | cons next members =>
    rw [toList_membersText_cons, toList_quoted]
    exact ⟨_, rfl⟩

mutual

theorem scanValue_text : (value : Json) → value.NoNumber → (fuel : Nat) → (rest : List Char) →
    value.text.toList.length ≤ fuel →
      scanValue fuel (value.text.toList ++ rest) = ⟨value.reading, .ok rest⟩
  | value, h => by
    intro fuel rest hf
    obtain ⟨fuel, rfl⟩ : ∃ n, fuel = n + 1 := by
      have hpos := length_text_pos h
      exact ⟨fuel - 1, by omega⟩
    cases value with
    | null => rfl
    | bool b => cases b <;> rfl
    | number n =>
      rw [NoNumber] at h
      exact h.elim
    | string s => exact scanValue_quoted fuel s rest
    | array items =>
      rw [NoNumber] at h
      rw [toList_array, List.length_cons, List.length_append, List.length_singleton] at hf
      have hi := scanItems_text items h fuel rest (by omega)
      cases items with
      | nil => rfl
      | cons item items =>
        have hi := hi (List.cons_ne_nil item items)
        rw [NoNumberIn] at h
        obtain ⟨c, cs, hc, hs, he⟩ := exists_cons_itemsText h.1 items (']' :: rest)
        rw [hc] at hi
        rw [toList_array, List.cons_append, List.append_assoc, List.singleton_append, hc]
        exact scanValue_array hs he hi
    | object members =>
      rw [NoNumber] at h
      rw [toList_object, List.length_cons, List.length_append, List.length_singleton] at hf
      have hm := scanMembers_text members h fuel rest (by omega)
      cases members with
      | nil => rfl
      | cons member members =>
        have hm := hm (List.cons_ne_nil member members)
        obtain ⟨cs, hc⟩ := exists_cons_membersText member members ('}' :: rest)
        rw [hc] at hm
        rw [toList_object, List.cons_append, List.append_assoc, List.singleton_append, hc]
        exact scanValue_object hm

theorem scanItems_text : (items : List Json) → NoNumberIn items → (fuel : Nat) →
    (rest : List Char) → (itemsText items).toList.length < fuel → items ≠ [] →
      scanItems fuel ((itemsText items).toList ++ ']' :: rest) = ⟨readings items, .ok rest⟩
  | [], _ => fun _ _ _ hn => absurd rfl hn
  | item :: items, h => by
    intro fuel rest hf _
    obtain ⟨fuel, rfl⟩ : ∃ n, fuel = n + 1 := ⟨fuel - 1, by omega⟩
    rw [NoNumberIn] at h
    have hv := scanValue_text item h.1 fuel
    have hi := scanItems_text items h.2 fuel rest
    cases items with
    | nil =>
      rw [itemsText] at hf ⊢
      exact scanItems_last (hv _ (by omega))
    | cons next items =>
      rw [toList_itemsText_cons] at hf ⊢
      rw [List.length_append, List.length_cons] at hf
      rw [List.append_assoc]
      exact scanItems_next (hv _ (by omega)) (hi (by omega) (List.cons_ne_nil next items))

theorem scanMembers_text : (members : List (String × Json)) → NoNumberUnder members →
    (fuel : Nat) → (rest : List Char) → (membersText members).toList.length < fuel →
    members ≠ [] →
      scanMembers fuel ((membersText members).toList ++ '}' :: rest) =
        ⟨memberReadings members, .ok rest⟩
  | [], _ => fun _ _ _ hn => absurd rfl hn
  | (name, value) :: members, h => by
    intro fuel rest hf _
    obtain ⟨fuel, rfl⟩ : ∃ n, fuel = n + 1 := ⟨fuel - 1, by omega⟩
    rw [NoNumberUnder] at h
    have hv := scanValue_text value h.1 fuel
    have hm := scanMembers_text members h.2 fuel rest
    cases members with
    | nil =>
      rw [toList_membersText_singleton] at hf ⊢
      rw [List.length_append, List.length_cons] at hf
      rw [List.append_assoc]
      exact scanMembers_last name (hv _ (by omega))
    | cons next members =>
      rw [toList_membersText_cons] at hf ⊢
      simp only [List.length_append, List.length_cons] at hf
      simp only [List.append_assoc, List.cons_append]
      exact scanMembers_next name (hv _ (by omega))
        (hm (by omega) (List.cons_ne_nil next members))

end

end Reading

theorem decode_of_ofChars {α : Type} (read : (room : Nat) → Reading → Result α) {text : String}
    {reading : Reading} (h : Reading.ofChars text.toList = ⟨reading, .ok []⟩) :
    decode read text = read greatestDepth reading := by
  rw [decode, h]
  cases read greatestDepth reading <;> rfl

/-- What a value without numbers is read as is decided by the value, not by its text. -/
theorem decode_text {α : Type} (read : (room : Nat) → Reading → Result α) {value : Json}
    (h : value.NoNumber) : decode read value.text = read greatestDepth value.reading := by
  refine decode_of_ofChars read ?_
  have hv := Reading.scanValue_text value h (2 * value.text.toList.length + 2) [] (by omega)
  rwa [List.append_nil] at hv

end TallyRules.Json
