import Mathlib.Data.List.TakeWhile

/-! # Lists put together from parts

Where an item of a list comes from: the run of a class of items that a list
begins with, the first item with a property, and the part that an item of a
concatenation has its place in.
-/

namespace TallyRules

variable {α β : Type*}

section Runs

variable {p : α → Bool} {xs ys : List α}

theorem takeWhile_append (hx : ∀ x ∈ xs, p x) (hy : ∀ y ∈ ys.head?, p y = false) :
    (xs ++ ys).takeWhile p = xs := by
  rw [List.takeWhile_append_of_pos hx]
  cases ys with
  | nil => simp
  | cons y ys => simp [hy y rfl]

theorem dropWhile_append (hx : ∀ x ∈ xs, p x) (hy : ∀ y ∈ ys.head?, p y = false) :
    (xs ++ ys).dropWhile p = ys := by
  rw [List.dropWhile_append_of_pos hx]
  cases ys with
  | nil => simp
  | cons y ys => simp [hy y rfl]

theorem head?_dropWhile (p : α → Bool) (xs : List α) :
    ∀ x ∈ (xs.dropWhile p).head?, p x = false := by
  intro x hx
  have h := List.head?_dropWhile_not p xs
  rwa [show (xs.dropWhile p).head? = some x from hx] at h

end Runs

theorem exists_find?_iff {p : α → Prop} [DecidablePred p] {f : α → β} {l : List α} {b : β} :
    (∃ a, l.find? (fun a => decide (p a)) = some a ∧ b = f a) ↔
      ∃ before a after, l = before ++ a :: after ∧ (∀ c ∈ before, ¬ p c) ∧ p a ∧ b = f a := by
  simp only [List.find?_eq_some_iff_append, decide_eq_true_eq, Bool.not_eq_true',
    decide_eq_false_iff_not]
  constructor
  · rintro ⟨a, ⟨ha, before, after, hl, hb⟩, hf⟩
    exact ⟨before, a, after, hl, hb, ha, hf⟩
  · rintro ⟨before, a, after, hl, hb, ha, hf⟩
    exact ⟨a, ⟨ha, before, after, hl, hb⟩, hf⟩

section Concatenation

variable {f : α → List β}

theorem flatMap_filter_of_nil {p : α → Bool} (h : ∀ a, p a = false → f a = []) (l : List α) :
    (l.filter p).flatMap f = l.flatMap f := by
  induction l with
  | nil => rfl
  | cons a l ih =>
    cases hp : p a with
    | true => rw [List.filter_cons_of_pos hp, List.flatMap_cons, List.flatMap_cons, ih]
    | false =>
      rw [List.filter_cons_of_neg (by simp [hp]), List.flatMap_cons, h a hp, ih, List.nil_append]

theorem exists_getElem?_of_flatMap {l : List α} {n : Nat} {b : β}
    (h : (l.flatMap f)[n]? = some b) :
    ∃ i a j, l[i]? = some a ∧ n = ((l.take i).flatMap f).length + j ∧ (f a)[j]? = some b := by
  induction l generalizing n with
  | nil => cases h
  | cons a l ih =>
    rw [List.flatMap_cons] at h
    by_cases hn : n < (f a).length
    · rw [List.getElem?_append_left hn] at h
      exact ⟨0, a, n, rfl, by simp, h⟩
    · rw [List.getElem?_append_right (Nat.le_of_not_lt hn)] at h
      obtain ⟨i, other, j, hi, hj, hb⟩ := ih h
      refine ⟨i + 1, other, j, hi, ?_, hb⟩
      rw [List.take_succ_cons, List.flatMap_cons, List.length_append]
      omega

end Concatenation

end TallyRules
