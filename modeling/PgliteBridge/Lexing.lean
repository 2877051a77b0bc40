import Mathlib.Tactic.Common

/-!
# Runs

A run of a class of characters goes as far as the class does.  Where a run starts, its end is determined.
-/

namespace Lexing

variable {α : Type} {p : α → Bool} {word word' rest rest' : List α}

/-- `word` is in the class, and what follows it does not begin with the class. -/
structure Run (p : α → Bool) (word rest : List α) : Prop where
  word : ∀ a ∈ word, p a = true
  boundary : ∀ a ∈ rest.head?, p a = false

theorem run_takeWhile (p : α → Bool) (text : List α) : Run p (text.takeWhile p) (text.dropWhile p) where
  word := List.all_eq_true.mp List.all_takeWhile
  boundary a ha := by
    have hhead := List.head?_dropWhile_not p text
    rw [ha] at hhead
    exact hhead

theorem Run.takeWhile (h : Run p word rest) : (word ++ rest).takeWhile p = word := by
  rw [List.takeWhile_append_of_pos h.word]
  cases rest with
  | nil => simp
  | cons a rest => simp [h.boundary a rfl]

theorem Run.dropWhile (h : Run p word rest) : (word ++ rest).dropWhile p = rest := by
  rw [List.dropWhile_append_of_pos h.word]
  cases rest with
  | nil => rfl
  | cons a rest => simp [h.boundary a rfl]

theorem Run.unique (h : Run p word rest) (h' : Run p word' rest') (htext : word ++ rest = word' ++ rest') :
    word = word' ∧ rest = rest' := by
  constructor
  · rw [← h.takeWhile, htext, h'.takeWhile]
  · rw [← h.dropWhile, htext, h'.dropWhile]

end Lexing
