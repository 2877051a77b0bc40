import Mathlib.Tactic.Common

/-!
# Machines that answer

A machine answers every input with an output and a next state.  Two machines whose states are related give the same
answers for ever if one step keeps them related and answers alike (`Simulation.run`).
-/

/-- A step: the state after an input, and the answer to it. -/
abbrev Machine (σ ι ο : Type) := σ → ι → σ × ο

namespace Machine

variable {σ τ ι ο : Type} {m : Machine σ ι ο} {m' : Machine τ ι ο}

/-- The state after a list of inputs, and the answers in order. -/
def run (m : Machine σ ι ο) (s : σ) : List ι → σ × List ο
  | [] => (s, [])
  | i :: is => ((run m (m s i).1 is).1, (m s i).2 :: (run m (m s i).1 is).2)

@[simp] theorem run_nil (m : Machine σ ι ο) (s : σ) : m.run s [] = (s, []) := rfl

@[simp] theorem run_cons (m : Machine σ ι ο) (s : σ) (i : ι) (is : List ι) :
    m.run s (i :: is) = ((m.run (m s i).1 is).1, (m s i).2 :: (m.run (m s i).1 is).2) := rfl

theorem run_append (m : Machine σ ι ο) (s : σ) (is js : List ι) :
    m.run s (is ++ js) = ((m.run (m.run s is).1 js).1, (m.run s is).2 ++ (m.run (m.run s is).1 js).2) := by
  induction is generalizing s with
  | nil => simp
  | cons i is ih => simp [ih]

/-- What one step keeps, a run keeps. -/
theorem run_invariant {inv : σ → Prop} (hstep : ∀ s i, inv s → inv (m s i).1) {s : σ} (h : inv s) (is : List ι) :
    inv (m.run s is).1 := by
  induction is generalizing s with
  | nil => exact h
  | cons i is ih => exact ih (hstep s i h)

/-- One step keeps the states related, and the answers are the same. -/
structure Simulation (m : Machine σ ι ο) (m' : Machine τ ι ο) (related : σ → τ → Prop) : Prop where
  answer : ∀ {s t}, related s t → ∀ i, (m s i).2 = (m' t i).2
  next : ∀ {s t}, related s t → ∀ i, related (m s i).1 (m' t i).1

variable {related : σ → τ → Prop}

theorem Simulation.run (h : Simulation m m' related) {s : σ} {t : τ} (hst : related s t) (is : List ι) :
    (m.run s is).2 = (m'.run t is).2 ∧ related (m.run s is).1 (m'.run t is).1 := by
  induction is generalizing s t with
  | nil => exact ⟨rfl, hst⟩
  | cons i is ih =>
    obtain ⟨hanswers, hrelated⟩ := ih (h.next hst i)
    refine ⟨?_, hrelated⟩
    rw [run_cons, run_cons, h.answer hst i, hanswers]

end Machine
