import PgliteBridge.SessionLockOrder

/-!
# Cancelling a claim on the session

`cancel` first hands the session of the cancelled id to the head of the queue and then removes the id from the queue.
So nothing of the id is left (`Cancelled`) unless it owns the session and its own second call is next in line
(`cancel_final_iff`).
-/

namespace PgliteBridge

namespace LockLedger

variable {ι : Type} [DecidableEq ι]

/-- The waiters of other ids. -/
def others (l : LockLedger ι) (id : ι) : List (Waiter ι) := l.waitQueue.filter (·.id ≠ id)

/-- Nothing is left of an id, and the others go on. -/
structure Cancelled (l : LockLedger ι) (id : ι) (l' : LockLedger ι) : Prop where
  unowned : l'.owner ≠ some id
  unqueued : ∀ waiter ∈ l'.waitQueue, waiter.id ≠ id
  rejected : ∀ waiter ∈ l.waitQueue, waiter.id = id → .rejected waiter ∈ l'.verdicts
  kept : l.owner ≠ some id → l'.owner = l.owner ∧ l'.waitQueue = l.others id
  handedOn : l.owner = some id → l'.owner = (l.others id).head?.map Waiter.id ∧ l'.waitQueue = (l.others id).tail

/-- The head of the queue is another call of the owner. -/
def NextInLine (l : LockLedger ι) (id : ι) : Prop :=
  l.owner = some id ∧ ∃ waiter ∈ l.waitQueue.head?, waiter.id = id

variable {l : LockLedger ι} {id : ι}

private theorem mem_filter_id {queue : List (Waiter ι)} {waiter : Waiter ι} (hmem : waiter ∈ queue)
    (hid : waiter.id = id) : Verdict.rejected waiter ∈ (queue.filter (·.id = id)).map Verdict.rejected :=
  List.mem_map_of_mem (List.mem_filter.mpr ⟨hmem, by simpa using hid⟩)

/-- The id does not own the session: its calls are taken out of the queue. -/
private theorem cancelled_of_not_owner (howner : l.owner ≠ some id) : l.Cancelled id (l.cancel id) := by
  have hcancel : l.cancel id = { l with
      waitQueue := l.others id
      verdicts := l.verdicts ++ (l.waitQueue.filter (·.id = id)).map .rejected } := by
    unfold cancel
    rw [if_neg howner]
    rfl
  rw [hcancel]
  exact
    { unowned := howner
      unqueued := fun waiter hmem => by simpa using (List.mem_filter.mp hmem).2
      rejected := fun waiter hmem hid => List.mem_append_right _ (mem_filter_id hmem hid)
      kept := fun _ => ⟨rfl, rfl⟩
      handedOn := fun he => absurd he howner }

/-- The owner, with nobody waiting. -/
private theorem cancelled_of_alone (howner : l.owner = some id) (hqueue : l.waitQueue = []) :
    l.Cancelled id (l.cancel id) := by
  have hcancel : l.cancel id = { l with owner := none } := by
    unfold cancel
    rw [if_pos howner]
    simp [drainWaitQueue, hqueue]
  have hothers : l.others id = [] := by simp [others, hqueue]
  rw [hcancel]
  exact
    { unowned := fun he => by cases he
      unqueued := fun waiter hmem => by simp [hqueue] at hmem
      rejected := fun waiter hmem => by simp [hqueue] at hmem
      kept := fun hne => absurd howner hne
      handedOn := fun _ => by simp [hothers, hqueue] }

/-- The owner, with a call at the head of the queue. -/
private theorem cancel_grants (howner : l.owner = some id) {next : Waiter ι} {rest : List (Waiter ι)}
    (hqueue : l.waitQueue = next :: rest) : l.cancel id = { l with
      owner := some next.id
      waitQueue := rest.filter (·.id ≠ id)
      verdicts := l.verdicts ++ [.granted next] ++ (rest.filter (·.id = id)).map .rejected } := by
  unfold cancel
  rw [if_pos howner]
  simp only [drainWaitQueue, hqueue]

private theorem cancelled_of_other (howner : l.owner = some id) {next : Waiter ι} {rest : List (Waiter ι)}
    (hqueue : l.waitQueue = next :: rest) (hnext : next.id ≠ id) : l.Cancelled id (l.cancel id) := by
  have hothers : l.others id = next :: rest.filter (·.id ≠ id) := by
    rw [others, hqueue, List.filter_cons, if_pos (by simpa using hnext)]
  rw [cancel_grants howner hqueue]
  exact
    { unowned := fun he => hnext (Option.some.inj he)
      unqueued := fun waiter hmem => by simpa using (List.mem_filter.mp hmem).2
      rejected := fun waiter hmem hid => by
        rw [hqueue] at hmem
        rcases List.mem_cons.mp hmem with rfl | hmem
        · exact absurd hid hnext
        · exact List.mem_append_right _ (mem_filter_id hmem hid)
      kept := fun hne => absurd howner hne
      handedOn := fun _ => by simp [hothers] }

private theorem cancelled_iff (l : LockLedger ι) (id : ι) : l.Cancelled id (l.cancel id) ↔ ¬ l.NextInLine id := by
  constructor
  · rintro hcancelled ⟨howner, waiter, hhead, hid⟩
    obtain ⟨rest, hqueue⟩ : ∃ rest, l.waitQueue = waiter :: rest := List.head?_eq_some_iff.mp hhead
    -- the session goes to the second call of the id
    have hunowned := hcancelled.unowned
    rw [cancel_grants howner hqueue, hid] at hunowned
    exact hunowned rfl
  · intro hnot
    by_cases howner : l.owner = some id
    · cases hqueue : l.waitQueue with
      | nil => exact cancelled_of_alone howner hqueue
      | cons next rest =>
        refine cancelled_of_other howner hqueue fun hid => hnot ⟨howner, next, ?_, hid⟩
        rw [hqueue]
        rfl
    · exact cancelled_of_not_owner howner

/-- After any calls, `cancel` is final unless the id owns the session and is also the next in line. -/
theorem cancel_final_iff (calls : List (LockCall ι)) (id : ι) :
    (calls.foldl call {}).Cancelled id ((calls.foldl call {}).cancel id) ↔ ¬ (calls.foldl call {}).NextInLine id :=
  cancelled_iff _ id

/-- An id that waits twice is granted the session, cancelled, and granted it again. -/
theorem cancel_not_final : ¬ ∀ (calls : List (LockCall Nat)) (id : Nat),
    (calls.foldl call {}).Cancelled id ((calls.foldl call {}).cancel id) := by
  intro hclaim
  have hfinal := hclaim [.acquire 0, .acquire 1, .acquire 1, .release 0] 1
  exact hfinal.unowned (by decide)

end LockLedger

end PgliteBridge
