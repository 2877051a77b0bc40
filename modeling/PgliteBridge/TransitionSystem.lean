import Mathlib.Tactic.Common

/-!
# Transition systems

A system is given by a partial step function: `step s a` is the state after action `a`, `none` when `a` is not enabled.
`Run step cond s t` says that a run leads from `s` to `t` all of whose steps meet `cond`; an invariant has to be kept by
such steps only (`Run.invariant`).  `replay` runs a list of actions and checks the condition on the way.
-/

namespace TransitionSystem

variable {σ α : Type} {step : σ → α → Option σ} {cond : σ → α → Prop} {s t u : σ}

inductive Run (step : σ → α → Option σ) (cond : σ → α → Prop) (s : σ) : σ → Prop
  | refl : Run step cond s s
  | snoc {t u : σ} {a : α} : Run step cond s t → cond t a → step t a = some u → Run step cond s u

/-- What holds at the start and is kept by every step that meets the condition, holds in every state of a run. -/
theorem Run.invariant {inv : σ → Prop} (start : inv s)
    (keep : ∀ t a u, inv t → cond t a → step t a = some u → inv u) (run : Run step cond s t) : inv t := by
  induction run with
  | refl => exact start
  | snoc _ hcond hstep ih => exact keep _ _ _ ih hcond hstep

theorem Run.trans (hst : Run step cond s t) (htu : Run step cond t u) : Run step cond s u := by
  induction htu with
  | refl => exact hst
  | snoc _ hcond hstep ih => exact ih.snoc hcond hstep

/-- A weaker condition. -/
theorem Run.mono {cond' : σ → α → Prop} (h : ∀ t a, cond t a → cond' t a) (run : Run step cond s t) :
    Run step cond' s t := by
  induction run with
  | refl => exact .refl
  | snoc _ hcond hstep ih => exact ih.snoc (h _ _ hcond) hstep

/-- The state after a list of actions, if each is enabled and meets the condition. -/
def replay (step : σ → α → Option σ) (cond : σ → α → Prop) [∀ s a, Decidable (cond s a)] (s : σ) : List α → Option σ
  | [] => some s
  | a :: as => if cond s a then (step s a).bind fun t => replay step cond t as else none

theorem replay_append [∀ s a, Decidable (cond s a)] {as bs : List α} (hst : replay step cond s as = some t)
    (htu : replay step cond t bs = some u) : replay step cond s (as ++ bs) = some u := by
  induction as generalizing s with
  | nil =>
    cases hst
    exact htu
  | cons a as ih =>
    simp only [replay, List.cons_append] at hst ⊢
    split at hst
    · rename_i hcond
      rw [if_pos hcond]
      cases hstep : step s a with
      | none => rw [hstep] at hst; cases hst
      | some s' =>
        rw [hstep] at hst
        exact ih hst
    · cases hst

theorem run_of_replay [∀ s a, Decidable (cond s a)] {as : List α} (h : replay step cond s as = some t) :
    Run step cond s t := by
  induction as generalizing s with
  | nil =>
    cases h
    exact .refl
  | cons a as ih =>
    simp only [replay] at h
    split at h
    · rename_i hcond
      cases hstep : step s a with
      | none => rw [hstep] at h; cases h
      | some u =>
        rw [hstep] at h
        exact (Run.refl.snoc hcond hstep).trans (ih h)
    · cases h

/-- What is computed of the last state of a replay holds at the end of a run. -/
theorem exists_run [∀ s a, Decidable (cond s a)] (as : List α) {p : σ → Prop} [DecidablePred p]
    (h : (replay step cond s as).any (fun t => decide (p t)) = true) : ∃ t, Run step cond s t ∧ p t := by
  rw [Option.any_eq_true] at h
  obtain ⟨t, ht, hp⟩ := h
  exact ⟨t, run_of_replay ht, of_decide_eq_true hp⟩

/-! ### Runs that come to an end -/

/-- `u` is one step behind `t`. -/
def Next (step : σ → α → Option σ) (cond : σ → α → Prop) (u t : σ) : Prop := ∃ a, cond t a ∧ step t a = some u

/-- Where each step lowers a rank, no run goes on for ever. -/
theorem acc_of_rank {ρ : Type} {lt : ρ → ρ → Prop} (hlt : WellFounded lt) (rank : σ → ρ) {inv : σ → Prop}
    (start : inv s) (keep : ∀ t a u, inv t → cond t a → step t a = some u → inv u)
    (lower : ∀ t a u, inv t → cond t a → step t a = some u → lt (rank u) (rank t)) : Acc (Next step cond) s := by
  have hall : ∀ r t, rank t = r → inv t → Acc (Next step cond) t := by
    intro r
    induction r using hlt.induction with
    | h r ih =>
      intro t hr ht
      refine Acc.intro t fun u ⟨a, hcond, hstep⟩ => ?_
      exact ih (rank u) (hr ▸ lower t a u ht hcond hstep) u rfl (keep t a u ht hcond hstep)
  exact hall _ s rfl start

/-- The last state of such a run. -/
theorem exists_last (h : Acc (Next step cond) s) : ∃ t, Run step cond s t ∧ ∀ a, cond t a → step t a = none := by
  induction h with
  | intro s _ ih =>
    by_cases hnext : ∃ a u, cond s a ∧ step s a = some u
    · obtain ⟨a, u, hcond, hstep⟩ := hnext
      obtain ⟨t, run, hlast⟩ := ih u ⟨a, hcond, hstep⟩
      exact ⟨t, (Run.refl.snoc hcond hstep).trans run, hlast⟩
    · refine ⟨s, .refl, fun a hcond => ?_⟩
      cases hstep : step s a with
      | none => rfl
      | some u => exact absurd ⟨a, u, hcond, hstep⟩ hnext

end TransitionSystem
