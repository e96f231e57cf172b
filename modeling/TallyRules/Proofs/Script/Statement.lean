import TallyRules.Proofs.Script.Execution
import TallyRules.Proofs.Script.Reading

/-! # The grammar of scripts

The first token of a statement tells its form. A sequence goes on up to a
closing brace or the end, and the rest of it is grouped first. So a list of
tokens has at most one reading as a script.
-/

namespace TallyRules.Script

/-- No statement begins with what follows. -/
def Closes (ts : List Token) : Prop :=
  ∀ t ∈ ts.head?, t = .braceClose

inductive ReadingEntries : List Token → List (String × Expr) → List Token → Prop
  | last {k ts v us} (hv : Reading 0 none ts v us) (hu : us.head? ≠ some .comma) :
      ReadingEntries (.string k :: .colon :: ts) [(k, v)] us
  | cons {k ts v us es rest} (hv : Reading 0 none ts v (.comma :: us))
      (he : ReadingEntries us es rest) :
      ReadingEntries (.string k :: .colon :: ts) ((k, v) :: es) rest

/-- A reading of one statement, or of all up to the end of a sequence, which leaves the rest. -/
inductive ReadingStmt : Bool → List Token → Stmt → List Token → Prop
  | assign {ts target us value rest} (ht : Reading 0 none ts target (.assign :: us))
      (hv : Reading 0 none us value (.semicolon :: rest)) :
      ReadingStmt false ts (.assign target value) rest
  | add {ts target us value rest} (ht : Reading 0 none ts target (.plusAssign :: us))
      (hv : Reading 0 none us value (.semicolon :: rest)) :
      ReadingStmt false ts (.add target value) rest
  | define {w n us value rest} (hw : w = "def") (hn : n ∉ keywords)
      (hv : Reading 0 none us value (.semicolon :: rest)) :
      ReadingStmt false (.word w :: .word n :: .assign :: us) (.define n value) rest
  | when {w ts c us body rest} (hw : w = "if")
      (hc : Reading 0 none ts c (.parenClose :: .braceOpen :: us))
      (hb : ReadingStmt true us body (.braceClose :: rest)) :
      ReadingStmt false (.word w :: .parenOpen :: ts) (.when c body) rest
  | forEach {w n v ts list us body rest} (hw : w = "for") (hn : n ∉ keywords) (hv : v = "in")
      (hl : Reading 0 none ts list (.parenClose :: .braceOpen :: us))
      (hb : ReadingStmt true us body (.braceClose :: rest)) :
      ReadingStmt false (.word w :: .parenOpen :: .word n :: .word v :: ts)
        (.forEach n list body) rest
  | returnMap {w ts entries rest} (hw : w = "return")
      (he : ReadingEntries ts entries (.bracketClose :: .semicolon :: rest)) :
      ReadingStmt false (.word w :: .bracketOpen :: ts) (.returnMap entries) rest
  | last {ts s rest} (hs : ReadingStmt false ts s rest) (hr : Closes rest) :
      ReadingStmt true ts s rest
  | seq {ts a us b rest} (ha : ReadingStmt false ts a us) (hb : ReadingStmt true us b rest) :
      ReadingStmt true ts (.seq a b) rest

def ReadsScript (text : String) (s : Stmt) : Prop :=
  ∃ ts, Lexes text.toList ts ∧ ReadingStmt true ts s []

theorem Reading.not_closes {n : Nat} {ts us : List Token} {a : Expr}
    (h : Reading n none ts a us) : ¬ Closes ts := by
  intro hc
  cases h with
  | atom ht =>
    obtain rfl := hc _ rfl
    cases ht
  | _ => simp [Closes] at hc

theorem ReadingStmt.not_closes {several : Bool} {ts us : List Token} {s : Stmt}
    (h : ReadingStmt several ts s us) : ¬ Closes ts := by
  induction h with
  | assign ht => exact ht.not_closes
  | add ht => exact ht.not_closes
  | last _ _ ih => exact ih
  | seq _ _ ih => exact ih
  | _ => simp [Closes]

theorem ReadingEntries.unique {ts us rest : List Token} {es es' : List (String × Expr)}
    (h : ReadingEntries ts es us) (h' : ReadingEntries ts es' rest) : es = es' ∧ us = rest := by
  induction h generalizing es' rest with
  | last hv hu =>
    cases h' with
    | last hv' =>
      obtain ⟨rfl, rfl⟩ := hv.unique hv'
      exact ⟨rfl, rfl⟩
    | cons hv' =>
      obtain ⟨rfl, rfl⟩ := hv.unique hv'
      simp at hu
  | cons hv _ ih =>
    cases h' with
    | last hv' hu =>
      obtain ⟨rfl, rfl⟩ := hv.unique hv'
      simp at hu
    | cons hv' he' =>
      obtain ⟨rfl, hu⟩ := hv.unique hv'
      cases hu
      obtain ⟨rfl, rfl⟩ := ih he'
      exact ⟨rfl, rfl⟩

/-- A word that only begins statements begins no expression. -/
theorem Reading.not_keyword {w : String} (hw : w ∈ ["def", "if", "for", "return"]) {n : Nat}
    {ts us : List Token} {a : Expr} : ¬ Reading n none (.word w :: ts) a us := by
  refine Reading.not_word ?_
  simp only [List.mem_cons, List.not_mem_nil, or_false] at hw
  rcases hw with rfl | rfl | rfl | rfl <;> rfl

theorem ReadingStmt.unique {several : Bool} {ts us rest : List Token} {s s' : Stmt}
    (h : ReadingStmt several ts s us) (h' : ReadingStmt several ts s' rest) :
    s = s' ∧ us = rest := by
  induction h generalizing s' rest with
  | assign ht hv =>
    cases h' with
    | assign ht' hv' =>
      obtain ⟨rfl, hu⟩ := ht.unique ht'
      cases hu
      obtain ⟨rfl, hu⟩ := hv.unique hv'
      cases hu
      exact ⟨rfl, rfl⟩
    | add ht' => cases (ht.unique ht').2
    | define hw | when hw | forEach hw | returnMap hw =>
      exact absurd ht (Reading.not_keyword (by simp [hw]))
  | add ht hv =>
    cases h' with
    | assign ht' => cases (ht.unique ht').2
    | add ht' hv' =>
      obtain ⟨rfl, hu⟩ := ht.unique ht'
      cases hu
      obtain ⟨rfl, hu⟩ := hv.unique hv'
      cases hu
      exact ⟨rfl, rfl⟩
    | define hw | when hw | forEach hw | returnMap hw =>
      exact absurd ht (Reading.not_keyword (by simp [hw]))
  | define hw _ hv =>
    cases h' with
    | assign ht' | add ht' => exact absurd ht' (Reading.not_keyword (by simp [hw]))
    | define _ _ hv' =>
      obtain ⟨rfl, hu⟩ := hv.unique hv'
      cases hu
      exact ⟨rfl, rfl⟩
  | when hw hc _ ih =>
    cases h' with
    | assign ht' | add ht' => exact absurd ht' (Reading.not_keyword (by simp [hw]))
    | when _ hc' hb' =>
      obtain ⟨rfl, hu⟩ := hc.unique hc'
      cases hu
      obtain ⟨rfl, hu⟩ := ih hb'
      cases hu
      exact ⟨rfl, rfl⟩
    | forEach hw' => simp [hw] at hw'
  | forEach hw _ _ hl _ ih =>
    cases h' with
    | assign ht' | add ht' => exact absurd ht' (Reading.not_keyword (by simp [hw]))
    | when hw' => simp [hw] at hw'
    | forEach _ _ _ hl' hb' =>
      obtain ⟨rfl, hu⟩ := hl.unique hl'
      cases hu
      obtain ⟨rfl, hu⟩ := ih hb'
      cases hu
      exact ⟨rfl, rfl⟩
  | returnMap hw he =>
    cases h' with
    | assign ht' | add ht' => exact absurd ht' (Reading.not_keyword (by simp [hw]))
    | returnMap _ he' =>
      obtain ⟨rfl, hu⟩ := he.unique he'
      cases hu
      exact ⟨rfl, rfl⟩
  | last _ hr ih =>
    cases h' with
    | last hs' => exact ih hs'
    -- both read the same first statement, and what follows either begins another or does not
    | seq ha' hb' =>
      obtain ⟨-, rfl⟩ := ih ha'
      exact absurd hr hb'.not_closes
  | seq _ hb iha ihb =>
    cases h' with
    | last hs' hr' =>
      obtain ⟨-, rfl⟩ := iha hs'
      exact absurd hr' hb.not_closes
    | seq ha' hb' =>
      obtain ⟨rfl, rfl⟩ := iha ha'
      obtain ⟨rfl, rfl⟩ := ihb hb'
      exact ⟨rfl, rfl⟩

theorem ReadsScript.unique {text : String} {a b : Stmt} (ha : ReadsScript text a)
    (hb : ReadsScript text b) : a = b := by
  obtain ⟨ts, hl, hr⟩ := ha
  obtain ⟨us, hl', hr'⟩ := hb
  obtain rfl := hl.unique hl'
  exact (hr.unique hr').1

end TallyRules.Script
