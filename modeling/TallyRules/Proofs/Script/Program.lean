import TallyRules.Proofs.Script.Reading
import TallyRules.Proofs.Script.Statement

/-! # Reading printed scripts

The text of a script has one reading: the script without the parentheses of
its expressions, and with its statements grouped to the right.
-/

namespace TallyRules.Script

theorem Expr.reading_tokens {e : Expr} (h : e.Readable) {us : List Token} (hu : Ends 0 us) :
    Reading 0 none (e.tokens ++ us) e.bare us :=
  ((derives_tokens h).of_le (Nat.zero_le _) e.level_le).reading (Nat.le_refl 0)
    (hu.mono (Nat.zero_le 1)) (.done (by omega) hu)

theorem Expr.reading_before {e : Expr} (h : e.Readable) {t : Token} (ht : t.level? = none)
    (us : List Token) : Reading 0 none (e.tokens ++ t :: us) e.bare (t :: us) :=
  reading_tokens h (ends_cons_of_none ht 0 us)

namespace Stmt

def entryTokens (entry : String × Expr) : List Token :=
  .string entry.1 :: .colon :: entry.2.tokens

def entriesTokens : List (String × Expr) → List Token
  | [] => []
  | [entry] => entryTokens entry
  | entry :: entries => entryTokens entry ++ .comma :: entriesTokens entries

def tokens : Stmt → List Token
  | assign target value => target.tokens ++ .assign :: value.tokens ++ [.semicolon]
  | add target value => target.tokens ++ .plusAssign :: value.tokens ++ [.semicolon]
  | define n value => .word "def" :: .word n :: .assign :: value.tokens ++ [.semicolon]
  | when c body =>
    .word "if" :: .parenOpen :: c.tokens ++ .parenClose :: .braceOpen :: body.tokens ++
      [.braceClose]
  | forEach n list body =>
    .word "for" :: .parenOpen :: .word n :: .word "in" :: list.tokens ++
      .parenClose :: .braceOpen :: body.tokens ++ [.braceClose]
  | returnMap entries =>
    .word "return" :: .bracketOpen :: entriesTokens entries ++ [.bracketClose, .semicolon]
  | seq a b => a.tokens ++ b.tokens

/-- One statement after another, grouped to the right. -/
def followedBy : Stmt → Stmt → Stmt
  | seq a b, s => seq a (b.followedBy s)
  | a, s => seq a s

def bareEntry (entry : String × Expr) : String × Expr :=
  (entry.1, entry.2.bare)

/-- The script without the parentheses of its expressions, grouped to the right. -/
def bare : Stmt → Stmt
  | assign target value => assign target.bare value.bare
  | add target value => add target.bare value.bare
  | define n value => define n value.bare
  | when c body => when c.bare body.bare
  | forEach n list body => forEach n list.bare body.bare
  | returnMap entries => returnMap (entries.map bareEntry)
  | seq a b => a.bare.followedBy b.bare

/-- What is assigned stands in no parentheses, and a map has entries. -/
def Readable : Stmt → Prop
  | assign target value => target.Readable ∧ target.bare = target ∧ value.Readable
  | add target value => target.Readable ∧ target.bare = target ∧ value.Readable
  | define n value => isName n ∧ n ∉ keywords ∧ value.Readable
  | when c body => c.Readable ∧ body.Readable
  | forEach n list body => isName n ∧ n ∉ keywords ∧ list.Readable ∧ body.Readable
  | returnMap entries => entries ≠ [] ∧ ∀ entry ∈ entries, entry.2.Readable
  | seq a b => a.Readable ∧ b.Readable

theorem lexes_entry {entry : String × Expr} (h : entry.2.Readable) {rest : List Char}
    (hr : entry.2.Stops rest) {ts : List Token} (ht : Lexes rest ts) :
    Lexes ((entryText entry).toList ++ rest) (entryTokens entry ++ ts) := by
  have hi := (entry.2.lexes_text h hr ht).space.colon
  have hi := Lexes.token (scanToken_quoted entry.1 _) hi
  simpa [entryText, entryTokens] using hi

theorem lexes_entries {entries : List (String × Expr)} (h : ∀ entry ∈ entries, entry.2.Readable)
    {rest : List Char} {ts : List Token} (ht : Lexes (']' :: rest) ts) :
    Lexes ((String.intercalate ", " (entries.map entryText)).toList ++ ']' :: rest)
      (entriesTokens entries ++ ts) := by
  induction entries with
  | nil => exact ht
  | cons entry entries ih =>
    rw [List.forall_mem_cons] at h
    cases entries with
    | nil =>
      have hi := lexes_entry h.1 (Expr.stops_cons rfl (by decide) rest) ht
      simpa [entriesTokens] using hi
    | cons next entries =>
      have hi := lexes_entry h.1 (Expr.stops_cons rfl (by decide) _) (ih h.2).space.comma
      simpa [entriesTokens] using hi

theorem lexes_text {s : Stmt} (h : s.Readable) {rest : List Char} {ts : List Token}
    (ht : Lexes rest ts) : Lexes (s.text.toList ++ rest) (s.tokens ++ ts) := by
  induction s generalizing rest ts with
  | assign target value =>
    obtain ⟨htarget, -, hvalue⟩ := h
    have hi := value.lexes_text hvalue (Expr.stops_cons rfl (by decide) rest) ht.semicolon
    have hi := target.lexes_text htarget (Expr.stops_cons rfl (by decide) _) hi.assign.space
    simpa [text, tokens] using hi
  | add target value =>
    obtain ⟨htarget, -, hvalue⟩ := h
    have hi := value.lexes_text hvalue (Expr.stops_cons rfl (by decide) rest) ht.semicolon
    have hi := target.lexes_text htarget (Expr.stops_cons rfl (by decide) _)
      hi.space.plusAssign.space
    simpa [text, tokens] using hi
  | define n value =>
    obtain ⟨hn, -, hvalue⟩ := h
    have hi := value.lexes_text hvalue (Expr.stops_cons rfl (by decide) rest) ht.semicolon
    have hi := (hi.assign.space.word hn rfl).space.word (n := "def") rfl rfl
    simpa [text, tokens] using hi
  | when c body ih =>
    obtain ⟨hc, hbody⟩ := h
    have hi := (ih hbody ht.braceClose.space).space.braceOpen
    have hi := c.lexes_text hc (Expr.stops_cons rfl (by decide) _) hi.space.parenClose
    have hi := hi.parenOpen.space.word (n := "if") rfl rfl
    simpa [text, tokens] using hi
  | forEach n list body ih =>
    obtain ⟨hn, -, hlist, hbody⟩ := h
    have hi := (ih hbody ht.braceClose.space).space.braceOpen
    have hi := list.lexes_text hlist (Expr.stops_cons rfl (by decide) _) hi.space.parenClose
    have hi := (hi.space.word (n := "in") rfl rfl).space.word hn rfl
    have hi := hi.parenOpen.space.word (n := "for") rfl rfl
    simpa [text, tokens] using hi
  | returnMap entries =>
    have hi := lexes_entries h.2 ht.semicolon.bracketClose
    have hi := hi.bracketOpen.space.word (n := "return") rfl rfl
    simpa [text, tokens] using hi
  | seq a b iha ihb =>
    have hi := iha h.1 (ihb h.2 ht).space
    simpa [text, tokens] using hi

theorem readingEntries {entries : List (String × Expr)} (hne : entries ≠ [])
    (h : ∀ entry ∈ entries, entry.2.Readable) {us : List Token} (hu : Ends 0 us)
    (hc : us.head? ≠ some .comma) :
    ReadingEntries (entriesTokens entries ++ us) (entries.map bareEntry) us := by
  induction entries with
  | nil => exact absurd rfl hne
  | cons entry entries ih =>
    rw [List.forall_mem_cons] at h
    cases entries with
    | nil => exact .last (Expr.reading_tokens h.1 hu) hc
    | cons next entries =>
      have hr := Expr.reading_before h.1 (t := .comma) rfl
        (entriesTokens (next :: entries) ++ us)
      simpa [entriesTokens, entryTokens, bareEntry] using
        ReadingEntries.cons (k := entry.1) hr (ih (by simp) h.2)

theorem followedBy_assoc (a b s : Stmt) :
    (a.followedBy b).followedBy s = a.followedBy (b.followedBy s) := by
  induction a with
  | seq a c _ ih => rw [followedBy, followedBy, ih, followedBy]
  | _ => rfl

/-- Tokens that are read in the same way at the end of a sequence and before the rest of it. -/
def ReadAs (ts : List Token) (s : Stmt) : Prop :=
  (∀ us, Closes us → ReadingStmt true (ts ++ us) s us) ∧
    ∀ us b rest, ReadingStmt true us b rest → ReadingStmt true (ts ++ us) (s.followedBy b) rest

theorem ReadAs.single {ts : List Token} {s : Stmt} (hs : ∀ b, s.followedBy b = seq s b)
    (h : ∀ us, ReadingStmt false (ts ++ us) s us) : ReadAs ts s := by
  constructor
  · intro us hu
    exact .last (h us) hu
  · intro us b rest hb
    rw [hs]
    exact .seq (h us) hb

theorem ReadAs.seq {ts us : List Token} {a b : Stmt} (ha : ReadAs ts a) (hb : ReadAs us b) :
    ReadAs (ts ++ us) (a.followedBy b) := by
  constructor
  · intro vs hv
    rw [List.append_assoc]
    exact ha.2 _ _ _ (hb.1 vs hv)
  · intro vs c rest hc
    rw [List.append_assoc, followedBy_assoc]
    exact ha.2 _ _ _ (hb.2 vs c rest hc)

theorem closes_braceClose (us : List Token) : Closes (.braceClose :: us) := by
  rintro _ ⟨⟩
  rfl

theorem readAs_tokens {s : Stmt} (h : s.Readable) : ReadAs s.tokens s.bare := by
  induction s with
  | assign target value =>
    obtain ⟨htarget, -, hvalue⟩ := h
    refine .single (fun _ => rfl) fun us => ?_
    have hv := Expr.reading_before hvalue (t := .semicolon) rfl us
    have ht := Expr.reading_before htarget (t := .assign) rfl
      (value.tokens ++ .semicolon :: us)
    simpa [tokens, bare] using ReadingStmt.assign ht hv
  | add target value =>
    obtain ⟨htarget, -, hvalue⟩ := h
    refine .single (fun _ => rfl) fun us => ?_
    have hv := Expr.reading_before hvalue (t := .semicolon) rfl us
    have ht := Expr.reading_before htarget (t := .plusAssign) rfl
      (value.tokens ++ .semicolon :: us)
    simpa [tokens, bare] using ReadingStmt.add ht hv
  | define n value =>
    obtain ⟨-, hn, hvalue⟩ := h
    refine .single (fun _ => rfl) fun us => ?_
    have hv := Expr.reading_before hvalue (t := .semicolon) rfl us
    simpa [tokens, bare] using ReadingStmt.define rfl hn hv
  | when c body ih =>
    obtain ⟨hc, hbody⟩ := h
    refine .single (fun _ => rfl) fun us => ?_
    have hb := (ih hbody).1 _ (closes_braceClose us)
    have hc := Expr.reading_before hc (t := .parenClose) rfl
      (.braceOpen :: (body.tokens ++ .braceClose :: us))
    simpa [tokens, bare] using ReadingStmt.when rfl hc hb
  | forEach n list body ih =>
    obtain ⟨-, hn, hlist, hbody⟩ := h
    refine .single (fun _ => rfl) fun us => ?_
    have hb := (ih hbody).1 _ (closes_braceClose us)
    have hl := Expr.reading_before hlist (t := .parenClose) rfl
      (.braceOpen :: (body.tokens ++ .braceClose :: us))
    simpa [tokens, bare] using ReadingStmt.forEach rfl hn rfl hl hb
  | returnMap entries =>
    refine .single (fun _ => rfl) fun us => ?_
    have he := readingEntries h.1 h.2
      (ends_cons_of_none (t := .bracketClose) rfl 0 (.semicolon :: us)) (by simp)
    simpa [tokens, bare] using ReadingStmt.returnMap rfl he
  | seq a b iha ihb => exact (iha h.1).seq (ihb h.2)

theorem lexes_tokens {s : Stmt} (h : s.Readable) : Lexes s.text.toList s.tokens := by
  simpa using lexes_text h .nil

/-- The text of a script has one reading. -/
theorem readsScript_text_iff {s : Stmt} (h : s.Readable) (t : Stmt) :
    ReadsScript s.text t ↔ t = s.bare := by
  have hl := lexes_tokens h
  have hr : ReadingStmt true s.tokens s.bare [] := by
    simpa using (readAs_tokens h).1 [] (by simp [Closes])
  constructor
  · exact fun ht => ht.unique ⟨s.tokens, hl, hr⟩
  · rintro rfl
    exact ⟨s.tokens, hl, hr⟩

end Stmt

end TallyRules.Script
