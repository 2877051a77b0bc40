import Mathlib.Tactic.Common
import Mathlib.Data.List.Basic

/-!
# The session lock

`SessionLock` (`utils/session-lock.ts`) over any type of ids.  An operation answers with the lock after it, the
`acquire` calls it settles, in order, and its boolean result.  Ownership is taken by `acquire` or granted to the first
waiter, and is given up by its owner only.
-/

namespace PgliteBridge

def STATUS_IDLE : UInt8 := 0x49

/-- How a pending `acquire(id)` settles. -/
inductive Settlement (ι : Type)
  | resolved (id : ι)
  | rejected (id : ι)
deriving DecidableEq, Repr

structure SessionLock (ι : Type) where
  owner : Option ι := none
  waitQueue : List ι := []
deriving DecidableEq, Repr

namespace SessionLock

variable {ι : Type} [DecidableEq ι]

structure Outcome (ι : Type) where
  lock : SessionLock ι
  settled : List (Settlement ι) := []
  result : Bool := false
deriving DecidableEq, Repr

/-- Grants the session to the next waiter. -/
def drainWaitQueue (l : SessionLock ι) : Outcome ι :=
  match l.waitQueue with
  | [] => { lock := l }
  | next :: rest => { lock := { owner := some next, waitQueue := rest }, settled := [.resolved next] }

def acquire (l : SessionLock ι) (id : ι) : Outcome ι :=
  if l.owner = none then { lock := { l with owner := some id }, settled := [.resolved id] }
  else if l.owner = some id then { lock := l, settled := [.resolved id] }
  else { lock := { l with waitQueue := l.waitQueue ++ [id] } }

def isOwner (l : SessionLock ι) (id : ι) : Bool := l.owner == some id

def hold (l : SessionLock ι) (id : ι) : Outcome ι :=
  if l.owner = none then { lock := { l with owner := some id }, result := true }
  else { lock := l, result := l.owner == some id }

def release (l : SessionLock ι) (id : ι) : Outcome ι :=
  if l.owner = some id then { drainWaitQueue { l with owner := none } with result := true }
  else { lock := l }

def updateStatus (l : SessionLock ι) (id : ι) (status : UInt8) : Outcome ι :=
  if status = STATUS_IDLE ∧ l.owner = some id then { drainWaitQueue { l with owner := none } with result := true }
  else { lock := l }

def cancel (l : SessionLock ι) (id : ι) : Outcome ι :=
  let drained := if l.owner = some id then drainWaitQueue { l with owner := none } else { lock := l }
  let waiting := drained.lock.waitQueue
  { lock := { drained.lock with waitQueue := waiting.filter (· ≠ id) }
    settled := drained.settled ++ (waiting.filter (· = id)).map .rejected
    result := decide (l.owner = some id) || waiting.any (· = id) }

/-! ### Who owns the session afterwards -/

/-- The `acquire` calls an operation resolves are calls of the new owner. -/
def Outcome.Grants (o : Outcome ι) : Prop := ∀ id, .resolved id ∈ o.settled → o.lock.owner = some id

omit [DecidableEq ι] in
private theorem drainWaitQueue_grants (l : SessionLock ι) : l.drainWaitQueue.Grants := by
  intro id h
  unfold drainWaitQueue at h ⊢
  split at h
  · cases h
  · rename_i next rest hq
    rw [List.mem_singleton] at h
    cases h
    rfl

theorem acquire_grants (l : SessionLock ι) (id : ι) : (l.acquire id).Grants := by
  intro other h
  unfold acquire at h ⊢
  split
  · rename_i hfree
    rw [if_pos hfree, List.mem_singleton] at h
    cases h
    rfl
  · rename_i hfree
    rw [if_neg hfree] at h
    split
    · rename_i howner
      rw [if_pos howner, List.mem_singleton] at h
      cases h
      exact howner
    · rename_i howner
      rw [if_neg howner] at h
      cases h

theorem release_grants (l : SessionLock ι) (id : ι) : (l.release id).Grants := by
  unfold release
  split
  · exact drainWaitQueue_grants _
  · intro other h
    cases h

theorem updateStatus_grants (l : SessionLock ι) (id : ι) (status : UInt8) : (l.updateStatus id status).Grants := by
  unfold updateStatus
  split
  · exact drainWaitQueue_grants _
  · intro other h
    cases h

theorem cancel_grants (l : SessionLock ι) (id : ι) : (l.cancel id).Grants := by
  intro other h
  simp only [cancel, List.mem_append, List.mem_map, reduceCtorEq, and_false, exists_false, or_false] at h
  simp only [cancel]
  split
  · rename_i howner
    rw [if_pos howner] at h
    exact drainWaitQueue_grants _ other h
  · rename_i howner
    rw [if_neg howner] at h
    cases h

/-- `acquire` never takes the session from its owner. -/
theorem acquire_owner {l : SessionLock ι} {id other : ι} (h : l.owner = some other) :
    (l.acquire id).lock.owner = some other := by
  unfold acquire
  rw [if_neg (by simp [h])]
  split <;> exact h

theorem release_not_owner {l : SessionLock ι} {id : ι} (h : l.owner ≠ some id) : l.release id = { lock := l } :=
  if_neg h

theorem updateStatus_not_owner {l : SessionLock ι} {id : ι} (status : UInt8) (h : l.owner ≠ some id) :
    l.updateStatus id status = { lock := l } :=
  if_neg fun hs => h hs.2

theorem updateStatus_not_idle {l : SessionLock ι} {id : ι} {status : UInt8} (h : status ≠ STATUS_IDLE) :
    l.updateStatus id status = { lock := l } :=
  if_neg fun hs => h hs.1

theorem cancel_owner {l : SessionLock ι} {id other : ι} (h : l.owner = some other) (hne : other ≠ id) :
    (l.cancel id).lock.owner = some other := by
  have howner : l.owner ≠ some id := by
    rw [h]
    exact fun he => hne (Option.some.inj he)
  simp only [cancel, if_neg howner]
  exact h

end SessionLock

end PgliteBridge
