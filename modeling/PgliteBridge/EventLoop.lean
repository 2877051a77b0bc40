import Mathlib.Logic.Function.Basic
import Mathlib.Data.List.Basic

/-!
# Promises and their microtask queue

A promise is settled at most once.  A reaction registered on an unsettled promise waits there, in the order of
registration; settling the promise moves its reactions to the end of the job queue, which runs first in, first out.
What a reaction does is up to the program: here it is a label of type `κ`, a job is a label with the outcome it is
called with.
-/

structure EventLoop (ι κ β : Type) where
  outcome : ι → Option β := fun _ => none
  reactions : ι → List κ := fun _ => []
  jobs : List (κ × β) := []

namespace EventLoop

variable {ι κ β γ : Type} [DecidableEq ι] {loop : EventLoop ι κ β} {i j : ι} {k k' : κ} {b b' : β}

/-- `promise.then`. -/
def react (loop : EventLoop ι κ β) (i : ι) (k : κ) : EventLoop ι κ β :=
  match loop.outcome i with
  | some b => { loop with jobs := loop.jobs ++ [(k, b)] }
  | none => { loop with reactions := Function.update loop.reactions i (loop.reactions i ++ [k]) }

/-- Resolves or rejects a promise; the second time does nothing. -/
def settle (loop : EventLoop ι κ β) (i : ι) (b : β) : EventLoop ι κ β :=
  match loop.outcome i with
  | some _ => loop
  | none =>
    { outcome := Function.update loop.outcome i (some b)
      reactions := Function.update loop.reactions i []
      jobs := loop.jobs ++ (loop.reactions i).map fun k => (k, b) }

/-- A job of the loop's own. -/
def enqueue (loop : EventLoop ι κ β) (k : κ) (b : β) : EventLoop ι κ β :=
  { loop with jobs := loop.jobs ++ [(k, b)] }

/-- What is waiting in the job queue, of the jobs `f` selects. -/
def queued (loop : EventLoop ι κ β) (f : κ → Option γ) : List γ :=
  loop.jobs.filterMap fun job => f job.1

/-- What is waiting on the promise `i`, of the reactions `f` selects. -/
def waiting (loop : EventLoop ι κ β) (f : κ → Option γ) (i : ι) : List γ :=
  (loop.reactions i).filterMap f

/-! ### What one operation changes -/

omit [DecidableEq ι] in
@[simp] theorem enqueue_outcome : (loop.enqueue k b).outcome = loop.outcome := rfl

omit [DecidableEq ι] in
@[simp] theorem enqueue_reactions : (loop.enqueue k b).reactions = loop.reactions := rfl

omit [DecidableEq ι] in
@[simp] theorem enqueue_jobs : (loop.enqueue k b).jobs = loop.jobs ++ [(k, b)] := rfl

@[simp] theorem react_outcome : (loop.react i k).outcome = loop.outcome := by
  unfold react
  split <;> rfl

theorem mem_reactions_react (h : k' ∈ (loop.react i k).reactions j) :
    k' ∈ loop.reactions j ∨ (j = i ∧ k' = k) := by
  unfold react at h
  split at h
  · exact .inl h
  · by_cases hj : j = i
    · subst hj
      simpa using h
    · simp only [Function.update_of_ne hj] at h
      exact .inl h

theorem mem_jobs_react {job : κ × β} (h : job ∈ (loop.react i k).jobs) :
    job ∈ loop.jobs ∨ (job.1 = k ∧ loop.outcome i = some job.2) := by
  unfold react at h
  split at h
  · rename_i b hi
    simp only [List.mem_append, List.mem_singleton] at h
    rcases h with h | rfl
    · exact .inl h
    · exact .inr ⟨rfl, hi⟩
  · exact .inl h

theorem jobs_subset_react {job : κ × β} (h : job ∈ loop.jobs) : job ∈ (loop.react i k).jobs := by
  unfold react
  split
  · exact List.mem_append_left _ h
  · exact h

theorem reactions_subset_react (h : k' ∈ loop.reactions j) : k' ∈ (loop.react i k).reactions j := by
  unfold react
  split
  · exact h
  · by_cases hj : j = i
    · subst hj
      simpa using .inl h
    · simpa [Function.update_of_ne hj] using h

theorem settle_outcome_self : (loop.settle i b).outcome i ≠ none := by
  unfold settle
  split
  · rename_i b' hi
    simp [hi]
  · simp

theorem settle_outcome_of_ne (h : j ≠ i) : (loop.settle i b).outcome j = loop.outcome j := by
  unfold settle
  split
  · rfl
  · simp [Function.update_of_ne h]

theorem settle_outcome_mono (h : loop.outcome j ≠ none) : (loop.settle i b).outcome j ≠ none := by
  by_cases hj : j = i
  · subst hj
    exact settle_outcome_self
  · rwa [settle_outcome_of_ne hj]

theorem mem_reactions_settle (h : k ∈ (loop.settle i b).reactions j) : k ∈ loop.reactions j := by
  unfold settle at h
  split at h
  · exact h
  · by_cases hj : j = i
    · subst hj
      simp at h
    · simpa [Function.update_of_ne hj] using h

theorem mem_jobs_settle {job : κ × β} (h : job ∈ (loop.settle i b).jobs) :
    job ∈ loop.jobs ∨ job.1 ∈ loop.reactions i := by
  unfold settle at h
  split at h
  · exact .inl h
  · simp only [List.mem_append, List.mem_map] at h
    rcases h with h | ⟨k, hk, rfl⟩
    · exact .inl h
    · exact .inr hk

theorem jobs_subset_settle {job : κ × β} (h : job ∈ loop.jobs) : job ∈ (loop.settle i b).jobs := by
  unfold settle
  split
  · exact h
  · exact List.mem_append_left _ h

/-! ### Reading the queue -/

omit [DecidableEq ι] in
theorem queued_enqueue (f : κ → Option γ) : (loop.enqueue k b).queued f = loop.queued f ++ (f k).toList := by
  simp only [queued, enqueue, List.filterMap_append]
  cases hk : f k <;> simp [hk]

omit [DecidableEq ι] in
theorem waiting_enqueue (f : κ → Option γ) : (loop.enqueue k b).waiting f j = loop.waiting f j := rfl

theorem queued_react (f : κ → Option γ) (h : loop.outcome i = none) : (loop.react i k).queued f = loop.queued f := by
  simp [react, queued, h]

theorem waiting_react (f : κ → Option γ) (h : loop.outcome i = none) :
    (loop.react i k).waiting f i = loop.waiting f i ++ (f k).toList := by
  simp only [react, waiting, h, Function.update_self, List.filterMap_append]
  cases hk : f k <;> simp [hk]

theorem waiting_react_of_ne (f : κ → Option γ) (h : j ≠ i) : (loop.react i k).waiting f j = loop.waiting f j := by
  unfold react waiting
  split <;> simp [Function.update_of_ne h]

/-- A reaction that `f` does not select. -/
theorem queued_react_none {f : κ → Option γ} (h : f k = none) : (loop.react i k).queued f = loop.queued f := by
  unfold react queued
  split <;> simp [h]

theorem waiting_react_none {f : κ → Option γ} (h : f k = none) : (loop.react i k).waiting f j = loop.waiting f j := by
  by_cases hj : j = i
  · subst hj
    unfold react waiting
    split <;> simp [h]
  · exact waiting_react_of_ne f hj

/-- Settling a promise queues what waits on it, behind everything queued before. -/
theorem queued_settle (f : κ → Option γ) (h : loop.outcome i = none) :
    (loop.settle i b).queued f = loop.queued f ++ loop.waiting f i := by
  simp only [settle, queued, waiting, h, List.filterMap_append, List.filterMap_map]
  rfl

theorem waiting_settle_self (f : κ → Option γ) (h : loop.outcome i = none) : (loop.settle i b).waiting f i = [] := by
  simp [settle, waiting, h]

theorem waiting_settle_of_ne (f : κ → Option γ) (h : j ≠ i) : (loop.settle i b).waiting f j = loop.waiting f j := by
  unfold settle waiting
  split <;> simp [Function.update_of_ne h]

/-- Nothing of `f` waits on the settled promise. -/
theorem queued_settle_nil {f : κ → Option γ} (h : loop.waiting f i = []) :
    (loop.settle i b).queued f = loop.queued f := by
  cases hi : loop.outcome i with
  | none => rw [queued_settle f hi, h, List.append_nil]
  | some b' => simp [settle, hi]

theorem waiting_settle_nil {f : κ → Option γ} (h : loop.waiting f i = []) :
    (loop.settle i b).waiting f j = loop.waiting f j := by
  by_cases hj : j = i
  · subst hj
    cases hi : loop.outcome j with
    | none => rw [waiting_settle_self f hi, h]
    | some b' => simp [settle, hi]
  · exact waiting_settle_of_ne f hj

/-! ### What settles a promise -/

/-- The promise `i` is settled, or the reaction `k` that will settle it is queued, or waits on the promise `j`. -/
def Fed (loop : EventLoop ι κ β) (i : ι) (k : κ) (j : ι) : Prop :=
  loop.outcome i ≠ none ∨ (∃ b, (k, b) ∈ loop.jobs) ∨ (k ∈ loop.reactions j ∧ loop.outcome j = none)

theorem fed_react : (loop.react j k).Fed i k j := by
  unfold react
  cases h : loop.outcome j with
  | none => exact .inr (.inr ⟨by simp, h⟩)
  | some b => exact .inr (.inl ⟨b, by simp⟩)

theorem Fed.react {l : ι} (h : loop.Fed i k j) : (loop.react l k').Fed i k j := by
  rcases h with h | ⟨b, h⟩ | ⟨h, hj⟩
  · exact .inl (by simpa using h)
  · exact .inr (.inl ⟨b, jobs_subset_react h⟩)
  · exact .inr (.inr ⟨reactions_subset_react h, by simpa using hj⟩)

theorem Fed.settle {l : ι} (h : loop.Fed i k j) : (loop.settle l b).Fed i k j := by
  rcases h with h | ⟨b', h⟩ | ⟨h, hj⟩
  · exact .inl (settle_outcome_mono h)
  · exact .inr (.inl ⟨b', jobs_subset_settle h⟩)
  · by_cases hl : j = l
    · subst hl
      refine .inr (.inl ⟨b, ?_⟩)
      simp only [EventLoop.settle, hj, List.mem_append, List.mem_map]
      exact .inr ⟨k, h, rfl⟩
    · refine .inr (.inr ⟨?_, by rwa [settle_outcome_of_ne hl]⟩)
      unfold EventLoop.settle
      split
      · exact h
      · simpa [Function.update_of_ne hl] using h

omit [DecidableEq ι] in
theorem Fed.enqueue (h : loop.Fed i k j) : (loop.enqueue k' b).Fed i k j := by
  rcases h with h | ⟨b', h⟩ | h
  · exact .inl h
  · exact .inr (.inl ⟨b', List.mem_append_left _ h⟩)
  · exact .inr (.inr h)

omit [DecidableEq ι] in
/-- In an idle loop a promise is settled with the one it waits on. -/
theorem Fed.idle (h : loop.Fed i k j) (hidle : loop.jobs = []) (hj : loop.outcome j ≠ none) :
    loop.outcome i ≠ none := by
  rcases h with h | ⟨b, h⟩ | ⟨_, h⟩
  · exact h
  · rw [hidle] at h
    cases h
  · exact absurd h hj

omit [DecidableEq ι] in
/-- Another job is taken from the queue. -/
theorem Fed.pop {rest : List (κ × β)} (h : loop.Fed i k j) (hjobs : loop.jobs = (k', b) :: rest) (hk : k ≠ k') :
    Fed { loop with jobs := rest } i k j := by
  rcases h with h | ⟨b', h⟩ | h
  · exact .inl h
  · rw [hjobs, List.mem_cons] at h
    rcases h with h | h
    · cases h
      exact absurd rfl hk
    · exact .inr (.inl ⟨b', h⟩)
  · exact .inr (.inr h)

/-! ### Reactions still to run -/

/-- The reaction `k` is queued or waits on a promise. -/
def Live (loop : EventLoop ι κ β) (k : κ) : Prop := (∃ b, (k, b) ∈ loop.jobs) ∨ ∃ i, k ∈ loop.reactions i

theorem live_react (h : (loop.react i k').Live k) : loop.Live k ∨ k = k' := by
  rcases h with ⟨b, h⟩ | ⟨j, h⟩
  · rcases mem_jobs_react h with h | ⟨h, _⟩
    · exact .inl (.inl ⟨b, h⟩)
    · exact .inr h
  · rcases mem_reactions_react h with h | ⟨_, h⟩
    · exact .inl (.inr ⟨j, h⟩)
    · exact .inr h

theorem live_settle (h : (loop.settle i b).Live k) : loop.Live k := by
  rcases h with ⟨b', h⟩ | ⟨j, h⟩
  · rcases mem_jobs_settle h with h | h
    · exact .inl ⟨b', h⟩
    · exact .inr ⟨i, h⟩
  · exact .inr ⟨j, mem_reactions_settle h⟩

omit [DecidableEq ι] in
theorem live_enqueue (h : (loop.enqueue k' b).Live k) : loop.Live k ∨ k = k' := by
  rcases h with ⟨b', h⟩ | h
  · rw [enqueue_jobs, List.mem_append, List.mem_singleton] at h
    rcases h with h | h
    · exact .inl (.inl ⟨b', h⟩)
    · cases h
      exact .inr rfl
  · exact .inl (.inr h)

omit [DecidableEq ι] in
theorem live_pop {rest : List (κ × β)} (hjobs : loop.jobs = (k', b) :: rest)
    (h : Live { loop with jobs := rest } k) : loop.Live k := by
  rcases h with ⟨b', h⟩ | h
  · exact .inl ⟨b', hjobs ▸ List.mem_cons_of_mem _ h⟩
  · exact .inr h

theorem Live.react (h : loop.Live k) : (loop.react i k').Live k := by
  rcases h with ⟨b, h⟩ | ⟨j, h⟩
  · exact .inl ⟨b, jobs_subset_react h⟩
  · exact .inr ⟨j, reactions_subset_react h⟩

theorem Live.settle (h : loop.Live k) : (loop.settle i b).Live k := by
  rcases h with ⟨b', h⟩ | ⟨j, h⟩
  · exact .inl ⟨b', jobs_subset_settle h⟩
  · by_cases hj : j = i
    · subst hj
      unfold EventLoop.settle
      split
      · exact .inr ⟨j, h⟩
      · refine .inl ⟨b, ?_⟩
        simp only [List.mem_append, List.mem_map]
        exact .inr ⟨k, h, rfl⟩
    · refine .inr ⟨j, ?_⟩
      unfold EventLoop.settle
      split
      · exact h
      · simpa [Function.update_of_ne hj] using h

omit [DecidableEq ι] in
theorem Live.enqueue (h : loop.Live k) : (loop.enqueue k' b).Live k := by
  rcases h with ⟨b', h⟩ | h
  · exact .inl ⟨b', List.mem_append_left _ h⟩
  · exact .inr h

omit [DecidableEq ι] in
theorem live_enqueue_self : (loop.enqueue k b).Live k := .inl ⟨b, by simp⟩

theorem live_react_self : (loop.react i k).Live k := by
  unfold EventLoop.react
  split
  · exact .inl ⟨_, List.mem_append_right _ (List.mem_singleton_self _)⟩
  · exact .inr ⟨i, by simp⟩

omit [DecidableEq ι] in
theorem Live.pop {rest : List (κ × β)} (h : loop.Live k) (hjobs : loop.jobs = (k', b) :: rest) (hk : k ≠ k') :
    Live { loop with jobs := rest } k := by
  rcases h with ⟨b', h⟩ | h
  · rw [hjobs, List.mem_cons] at h
    rcases h with h | h
    · cases h
      exact absurd rfl hk
    · exact .inl ⟨b', h⟩
  · exact .inr h

end EventLoop
