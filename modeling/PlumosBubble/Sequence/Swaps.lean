import Mathlib.Data.List.Basic

/-! A text in which some words give way to another word: it is as before exactly if each of them
was this word. A word is made of the letters of `p`, and ends where they end. -/

namespace PlumosBubble.Sequence

variable {α : Type*}

/-- What stands in the place of `s`, and the words that have given way to `new`. -/
inductive Swaps (p : α → Bool) (new : List α) : List α → List α → List (List α) → Prop
  | nil : Swaps p new [] [] []
  | keep {c : α} {s t : List α} {words : List (List α)} (h : Swaps p new s t words) :
      Swaps p new (c :: s) (c :: t) words
  | swap {word s t : List α} {words : List (List α)} (hne : word ≠ [])
      (hword : word.all p = true) (hhead : s.head?.any p = false) (h : Swaps p new s t words) :
      Swaps p new (word ++ s) (new ++ t) (word :: words)

namespace Swaps

variable {p : α → Bool} {new s t s' t' : List α} {words more : List (List α)}

theorem refl (p : α → Bool) (new s : List α) : Swaps p new s s [] := by
  induction s with
  | nil => exact .nil
  | cons c s ih => exact .keep ih

theorem keep_all (x : List α) (h : Swaps p new s t words) :
    Swaps p new (x ++ s) (x ++ t) words := by
  induction x with
  | nil => exact h
  | cons c x ih => exact .keep ih

theorem append (h : Swaps p new s t words) (h' : Swaps p new s' t' more)
    (hhead : s'.head?.any p = false) : Swaps p new (s ++ s') (t ++ t') (words ++ more) := by
  induction h with
  | nil => exact h'
  | keep _ ih => exact .keep ih
  | @swap word s t words hne hword hrest _ ih =>
    rw [List.append_assoc, List.append_assoc, List.cons_append]
    refine .swap hne hword ?_ ih
    cases s with
    | nil => exact hhead
    | cons c s => exact hrest

theorem head_eq (h : Swaps p new s t words) (hhead : s.head?.any p = false) :
    t.head? = s.head? := by
  cases h with
  | nil => rfl
  | keep _ => rfl
  | @swap word _ _ _ hne hword _ _ =>
    cases word with
    | nil => exact absurd rfl hne
    | cons c word =>
      rw [List.all_cons, Bool.and_eq_true] at hword
      exact absurd (hhead.symm.trans hword.1) Bool.false_ne_true

theorem takeWhile_word {word : List α} (hword : word.all p = true)
    (hhead : s.head?.any p = false) : (word ++ s).takeWhile p = word := by
  rw [List.takeWhile_append_of_pos (List.all_eq_true.mp hword)]
  cases s with
  | nil => simp
  | cons c s =>
    have hc : p c = false := hhead
    simp [hc]

theorem eq_iff (hnew : new.all p = true) (h : Swaps p new s t words) :
    t = s ↔ ∀ word ∈ words, word = new := by
  induction h with
  | nil => simp
  | keep _ ih => rw [List.cons.injEq, and_iff_right rfl, ih]
  | @swap word s t words hne hword hhead h ih =>
    rw [List.forall_mem_cons, ← ih]
    constructor
    · intro heq
      have hhead' : t.head?.any p = false := by
        rw [h.head_eq hhead]
        exact hhead
      have hsame : new = word := by
        rw [← takeWhile_word hnew hhead', heq, takeWhile_word hword hhead]
      subst hsame
      exact ⟨rfl, List.append_cancel_left heq⟩
    · rintro ⟨rfl, rfl⟩
      rfl

end Swaps

end PlumosBubble.Sequence
