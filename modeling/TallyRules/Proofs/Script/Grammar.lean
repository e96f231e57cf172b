import TallyRules.Proofs.Script.Token

/-! # The grammar of expressions

Operations have levels, and the operands of an operation are of its level or a
tighter one: the left operand may be of the same level, the right one may not.
Parentheses hold an expression of any level and are not part of what is read.
A list of tokens has at most one reading: an operand is followed by what binds
it tightest, so that each token decides how the reading goes on.
-/

namespace TallyRules.Script

/-- The level of an operation; the greater, the tighter. -/
def BinaryOp.level : BinaryOp → Nat
  | or => 0
  | and => 1
  | eq => 2
  | ne => 2
  | gt => 3
  | mul => 4
  | div => 4

def keywords : List String :=
  ["null", "true", "false", "double", "def", "if", "for", "in", "return"]

def Token.atom? : Token → Option Expr
  | word "null" => some .null
  | word "true" => some (.bool true)
  | word "false" => some (.bool false)
  | word n => if n ∈ keywords then none else some (.var n)
  | integer n => some (.integer n)
  | long n => some (.long n)
  | double x => some (.double x)
  | string s => some (.string s)
  | _ => none

/-- The expressions that some tokens derive at a level: below 5 those of the operations, at 5
those with a prefix, and at 6 those without. -/
inductive Derives : Nat → List Token → Expr → Prop
  | tighter {n ts e} (hn : n < 6) (h : Derives (n + 1) ts e) : Derives n ts e
  | binary {op xs ys a b} (ha : Derives op.level xs a) (hb : Derives (op.level + 1) ys b) :
      Derives op.level (xs ++ .op op :: ys) (.binary op a b)
  | not {ts e} (h : Derives 5 ts e) : Derives 5 (.bang :: ts) (.not e)
  | asDouble {ts e} (h : Derives 5 ts e) :
      Derives 5 (.parenOpen :: .word "double" :: .parenClose :: ts) (.asDouble e)
  | index {xs ys a k} (ha : Derives 6 xs a) (hk : Derives 0 ys k) :
      Derives 6 (xs ++ .bracketOpen :: ys ++ [.bracketClose]) (.index a k)
  | property {xs a n} (ha : Derives 6 xs a) : Derives 6 (xs ++ [.dot, .word n]) (.property a n)
  | call {xs a n} (ha : Derives 6 xs a) :
      Derives 6 (xs ++ [.dot, .word n, .parenOpen, .parenClose]) (.call a n)
  | callWith {xs ys a b n} (ha : Derives 6 xs a) (hb : Derives 0 ys b) :
      Derives 6 (xs ++ .dot :: .word n :: .parenOpen :: ys ++ [.parenClose]) (.callWith a n b)
  | paren {ts e} (h : Derives 0 ts e) : Derives 6 (.parenOpen :: ts ++ [.parenClose]) e
  | atom {t e} (h : t.atom? = some e) : Derives 6 [t] e

/-- The level at which a token goes on with what stands before it, if it does. -/
def Token.level? : Token → Option Nat
  | op o => some o.level
  | dot => some 6
  | bracketOpen => some 6
  | parenOpen => some 7
  | _ => none

/-- What follows does not go on with an expression of a level. -/
def Ends (n : Nat) (ts : List Token) : Prop :=
  ∀ l ∈ ts.head?.bind Token.level?, l < n

/-- A reading at a level, from left to right: of an expression, or of what follows an operand. It
takes as much as it can and leaves the rest. -/
inductive Reading : Nat → Option Expr → List Token → Expr → List Token → Prop
  | atom {n t a ts e rest} (ha : t.atom? = some a) (h : Reading n (some a) ts e rest) :
      Reading n none (t :: ts) e rest
  | paren {n ts a us e rest} (ha : Reading 0 none ts a (.parenClose :: us))
      (h : Reading n (some a) us e rest) : Reading n none (.parenOpen :: ts) e rest
  | not {n ts a us e rest} (ha : Reading 5 none ts a us)
      (h : Reading n (some (.not a)) us e rest) : Reading n none (.bang :: ts) e rest
  | asDouble {n ts a us e rest} (ha : Reading 5 none ts a us)
      (h : Reading n (some (.asDouble a)) us e rest) :
      Reading n none (.parenOpen :: .word "double" :: .parenClose :: ts) e rest
  | index {n a ts k us e rest} (hk : Reading 0 none ts k (.bracketClose :: us))
      (h : Reading n (some (.index a k)) us e rest) :
      Reading n (some a) (.bracketOpen :: ts) e rest
  | property {n a m us e rest} (hu : us.head? ≠ some .parenOpen)
      (h : Reading n (some (.property a m)) us e rest) :
      Reading n (some a) (.dot :: .word m :: us) e rest
  | call {n a m us e rest} (h : Reading n (some (.call a m)) us e rest) :
      Reading n (some a) (.dot :: .word m :: .parenOpen :: .parenClose :: us) e rest
  | callWith {n a m ts b us e rest} (hb : Reading 0 none ts b (.parenClose :: us))
      (h : Reading n (some (.callWith a m b)) us e rest) :
      Reading n (some a) (.dot :: .word m :: .parenOpen :: ts) e rest
  | binary {n a op ts b us e rest} (hn : n ≤ op.level) (hb : Reading (op.level + 1) none ts b us)
      (h : Reading n (some (.binary op a b)) us e rest) :
      Reading n (some a) (.op op :: ts) e rest
  | done {n a ts} (hn : n ≤ 6) (h : Ends n ts) : Reading n (some a) ts a ts

theorem Reading.not_word {w : String} (hw : (Token.word w).atom? = none) {n : Nat}
    {ts us : List Token} {a : Expr} : ¬ Reading n none (.word w :: ts) a us := by
  intro h
  cases h with
  | atom ht => simp [hw] at ht

theorem Reading.not_close {n : Nat} {ts us : List Token} {a : Expr} :
    ¬ Reading n none (.parenClose :: ts) a us := by
  intro h
  cases h with
  | atom ht => cases ht

/-- Each token decides how a reading goes on. -/
theorem Reading.unique {n : Nat} {m : Option Expr} {ts us rest : List Token} {a b : Expr}
    (ha : Reading n m ts a us) (hb : Reading n m ts b rest) : a = b ∧ us = rest := by
  induction ha generalizing b rest with
  | atom ht _ ih =>
    cases hb with
    | atom ht' h =>
      cases ht.symm.trans ht'
      exact ih h
    | _ => cases ht
  | paren hp _ ihp ih =>
    cases hb with
    | atom ht => cases ht
    | paren hp' h =>
      obtain ⟨rfl, hu⟩ := ihp hp'
      cases hu
      exact ih h
    -- the name of a type is no expression, so it cannot stand in plain parentheses
    | asDouble => exact absurd hp (not_word rfl)
  | not hp _ ihp ih =>
    cases hb with
    | atom ht => cases ht
    | not hp' h =>
      obtain ⟨rfl, rfl⟩ := ihp hp'
      exact ih h
  | asDouble hp _ ihp ih =>
    cases hb with
    | atom ht => cases ht
    | paren hp' => exact absurd hp' (not_word rfl)
    | asDouble hp' h =>
      obtain ⟨rfl, rfl⟩ := ihp hp'
      exact ih h
  | index hk _ ihk ih =>
    cases hb with
    | index hk' h =>
      obtain ⟨rfl, hu⟩ := ihk hk'
      cases hu
      exact ih h
    | done hn he => exact absurd (he 6 rfl) (by omega)
  | property hu _ ih =>
    cases hb with
    | property _ h => exact ih h
    | call => simp at hu
    | callWith => simp at hu
    | done hn he => exact absurd (he 6 rfl) (by omega)
  | call _ ih =>
    cases hb with
    | property hu => simp at hu
    | call h => exact ih h
    | callWith hp => exact absurd hp not_close
    | done hn he => exact absurd (he 6 rfl) (by omega)
  | callWith hp _ ihp ih =>
    cases hb with
    | property hu => simp at hu
    | call => exact absurd hp not_close
    | callWith hp' h =>
      obtain ⟨rfl, hu⟩ := ihp hp'
      cases hu
      exact ih h
    | done hn he => exact absurd (he 6 rfl) (by omega)
  | binary hn hp _ ihp ih =>
    cases hb with
    | binary _ hp' h =>
      obtain ⟨rfl, rfl⟩ := ihp hp'
      exact ih h
    | done _ he => exact absurd (he _ rfl) (by omega)
  | done hn he =>
    cases hb with
    | index => exact absurd (he 6 rfl) (by omega)
    | property => exact absurd (he 6 rfl) (by omega)
    | call => exact absurd (he 6 rfl) (by omega)
    | callWith => exact absurd (he 6 rfl) (by omega)
    | binary hn' => exact absurd (he _ rfl) (by omega)
    | done => exact ⟨rfl, rfl⟩

theorem BinaryOp.level_le (op : BinaryOp) : op.level ≤ 4 := by
  cases op <;> decide

theorem Ends.mono {m n : Nat} {ts : List Token} (h : Ends m ts) (hm : m ≤ n) : Ends n ts :=
  fun l hl => Nat.lt_of_lt_of_le (h l hl) hm

theorem ends_nil (n : Nat) : Ends n [] := by
  intro l hl
  cases hl

theorem ends_cons {n l : Nat} {t : Token} {ts : List Token} (h : t.level? = some l) (hl : l < n) :
    Ends n (t :: ts) := by
  intro k hk
  have hk : some l = some k := by simpa [h] using hk
  cases hk
  exact hl

theorem ends_cons_of_none {t : Token} (h : t.level? = none) (n : Nat) (ts : List Token) :
    Ends n (t :: ts) := by
  intro k hk
  simp [h] at hk

theorem Ends.head?_ne {ts : List Token} (h : Ends 7 ts) : ts.head? ≠ some .parenOpen := by
  intro ht
  have := h 7 (by simp [ht, Token.level?])
  omega

theorem Ends.of_six {ts : List Token} (h : Ends 6 ts) : Ends 5 ts := by
  cases ts with
  | nil => exact ends_nil 5
  | cons t ts =>
    cases ht : t.level? with
    | none => exact ends_cons_of_none ht 5 ts
    | some l =>
      refine ends_cons ht ?_
      have hl : l < 6 := h l (by simp [ht])
      cases t <;> simp only [Token.level?, Option.some.injEq, reduceCtorEq] at ht
      case op o =>
        have := o.level_le
        omega
      all_goals omega

theorem Reading.stop {t : Token} (h : t.level? = none) (a : Expr) (ts : List Token) :
    Reading 0 (some a) (t :: ts) a (t :: ts) :=
  .done (by omega) (ends_cons_of_none h 0 ts)

/-- A reading goes on after what a list of tokens derives, where that ends. -/
theorem Derives.reading {n : Nat} {ts : List Token} {a : Expr} (h : Derives n ts a) {m : Nat}
    (hm : m ≤ n) {us rest : List Token} {e : Expr} (hu : Ends (n + 1) us)
    (hr : Reading m (some a) us e rest) : Reading m none (ts ++ us) e rest := by
  induction h generalizing m us rest e with
  | tighter _ _ ih => exact ih (by omega) (hu.mono (by omega)) hr
  | @binary op xs ys a b _ _ iha ihb =>
    have hop := op.level_le
    have hb : Reading (op.level + 1) none (ys ++ us) b us :=
      ihb (Nat.le_refl _) (hu.mono (by omega)) (.done (by omega) hu)
    have ha : Reading m none (xs ++ .op op :: (ys ++ us)) e rest :=
      iha hm (ends_cons rfl (by omega)) (.binary hm hb hr)
    simpa using ha
  | not _ ih =>
    exact .not (ih (Nat.le_refl 5) hu (.done (by omega) hu.of_six)) hr
  | asDouble _ ih =>
    exact .asDouble (ih (Nat.le_refl 5) hu (.done (by omega) hu.of_six)) hr
  | @index xs ys a k _ _ iha ihk =>
    have hk : Reading 0 none (ys ++ .bracketClose :: us) k (.bracketClose :: us) :=
      ihk (Nat.le_refl 0) (ends_cons_of_none rfl 1 us) (.stop rfl _ us)
    have ha : Reading m none (xs ++ .bracketOpen :: (ys ++ .bracketClose :: us)) e rest :=
      iha hm (ends_cons rfl (by omega)) (.index hk hr)
    simpa using ha
  | @property xs a n _ ih =>
    have ha : Reading m none (xs ++ .dot :: .word n :: us) e rest :=
      ih hm (ends_cons rfl (by omega)) (.property hu.head?_ne hr)
    simpa using ha
  | @call xs a n _ ih =>
    have ha : Reading m none (xs ++ .dot :: .word n :: .parenOpen :: .parenClose :: us) e rest :=
      ih hm (ends_cons rfl (by omega)) (.call hr)
    simpa using ha
  | @callWith xs ys a b n _ _ iha ihb =>
    have hb : Reading 0 none (ys ++ .parenClose :: us) b (.parenClose :: us) :=
      ihb (Nat.le_refl 0) (ends_cons_of_none rfl 1 us) (.stop rfl _ us)
    have ha : Reading m none
        (xs ++ .dot :: .word n :: .parenOpen :: (ys ++ .parenClose :: us)) e rest :=
      iha hm (ends_cons rfl (by omega)) (.callWith hb hr)
    simpa using ha
  | @paren ts a _ ih =>
    have ha : Reading 0 none (ts ++ .parenClose :: us) a (.parenClose :: us) :=
      ih (Nat.le_refl 0) (ends_cons_of_none rfl 1 us) (.stop rfl _ us)
    simpa using Reading.paren ha hr
  | atom ht => exact .atom ht hr

theorem Derives.unique {ts : List Token} {a b : Expr} (ha : Derives 0 ts a)
    (hb : Derives 0 ts b) : a = b := by
  have hra := ha.reading (Nat.le_refl 0) (ends_nil 1) (.done (by omega) (ends_nil 0))
  have hrb := hb.reading (Nat.le_refl 0) (ends_nil 1) (.done (by omega) (ends_nil 0))
  exact (hra.unique hrb).1

end TallyRules.Script
