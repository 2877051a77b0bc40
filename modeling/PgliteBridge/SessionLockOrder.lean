import PgliteBridge.SessionLock
import PgliteBridge.TransitionSystem

/-!
# The order of the session lock

The lock with the promises of its `acquire` calls: a call is known by its number, a waiter keeps the number of its call,
and the verdicts are what has been settled.  Without the numbers it is `SessionLock` (`call_erases`).
-/

namespace PgliteBridge

open TransitionSystem

/-- An `acquire(id)`, with the number of the call. -/
structure Waiter (ι : Type) where
  id : ι
  ticket : Nat
deriving DecidableEq, Repr

/-- How the promise of an `acquire` is settled: by the call itself, by a grant, or by `cancel`. -/
inductive Verdict (ι : Type)
  | admitted (waiter : Waiter ι)
  | granted (waiter : Waiter ι)
  | rejected (waiter : Waiter ι)
deriving DecidableEq, Repr

namespace Verdict

variable {ι : Type}

def waiter : Verdict ι → Waiter ι
  | .admitted waiter | .granted waiter | .rejected waiter => waiter

def ticket (verdict : Verdict ι) : Nat := verdict.waiter.ticket

def settlement : Verdict ι → Settlement ι
  | .admitted waiter | .granted waiter => .resolved waiter.id
  | .rejected waiter => .rejected waiter.id

/-- The number of a call that waited until it was granted. -/
def granted? : Verdict ι → Option Nat
  | .granted waiter => some waiter.ticket
  | _ => none

def isRejected : Verdict ι → Bool
  | .rejected _ => true
  | _ => false

end Verdict

inductive LockCall (ι : Type)
  | acquire (id : ι)
  | hold (id : ι)
  | updateStatus (id : ι) (status : UInt8)
  | release (id : ι)
  | cancel (id : ι)
deriving DecidableEq, Repr

def LockCall.id {ι : Type} : LockCall ι → ι
  | .acquire id | .hold id | .updateStatus id _ | .release id | .cancel id => id

def SessionLock.call {ι : Type} [DecidableEq ι] (l : SessionLock ι) : LockCall ι → SessionLock.Outcome ι
  | .acquire id => l.acquire id
  | .hold id => l.hold id
  | .updateStatus id status => l.updateStatus id status
  | .release id => l.release id
  | .cancel id => l.cancel id

structure LockLedger (ι : Type) where
  owner : Option ι := none
  waitQueue : List (Waiter ι) := []
  /-- the number of `acquire` calls so far -/
  acquires : Nat := 0
  verdicts : List (Verdict ι) := []
deriving DecidableEq, Repr

namespace LockLedger

variable {ι : Type}

def drainWaitQueue (l : LockLedger ι) : LockLedger ι :=
  match l.waitQueue with
  | [] => l
  | next :: rest => { l with owner := some next.id, waitQueue := rest, verdicts := l.verdicts ++ [.granted next] }

variable [DecidableEq ι]

def acquire (l : LockLedger ι) (id : ι) : LockLedger ι :=
  let waiter : Waiter ι := ⟨id, l.acquires⟩
  let l := { l with acquires := l.acquires + 1 }
  if l.owner = none then { l with owner := some id, verdicts := l.verdicts ++ [.admitted waiter] }
  else if l.owner = some id then { l with verdicts := l.verdicts ++ [.admitted waiter] }
  else { l with waitQueue := l.waitQueue ++ [waiter] }

def hold (l : LockLedger ι) (id : ι) : LockLedger ι :=
  if l.owner = none then { l with owner := some id } else l

def release (l : LockLedger ι) (id : ι) : LockLedger ι :=
  if l.owner = some id then drainWaitQueue { l with owner := none } else l

def updateStatus (l : LockLedger ι) (id : ι) (status : UInt8) : LockLedger ι :=
  if status = STATUS_IDLE ∧ l.owner = some id then drainWaitQueue { l with owner := none } else l

def cancel (l : LockLedger ι) (id : ι) : LockLedger ι :=
  let drained := if l.owner = some id then drainWaitQueue { l with owner := none } else l
  { drained with
    waitQueue := drained.waitQueue.filter (·.id ≠ id)
    verdicts := drained.verdicts ++ (drained.waitQueue.filter (·.id = id)).map .rejected }

def call (l : LockLedger ι) : LockCall ι → LockLedger ι
  | .acquire id => l.acquire id
  | .hold id => l.hold id
  | .updateStatus id status => l.updateStatus id status
  | .release id => l.release id
  | .cancel id => l.cancel id

def step (l : LockLedger ι) (c : LockCall ι) : Option (LockLedger ι) := some (l.call c)

/-- No id calls `acquire` while a call of it is unsettled. -/
def OneUnsettled (l : LockLedger ι) : LockCall ι → Prop
  | .acquire id => ∀ waiter ∈ l.waitQueue, waiter.id ≠ id
  | _ => True

instance (l : LockLedger ι) : (c : LockCall ι) → Decidable (l.OneUnsettled c)
  | .acquire id => inferInstanceAs (Decidable (∀ waiter ∈ l.waitQueue, waiter.id ≠ id))
  | .hold _ | .updateStatus .. | .release _ | .cancel _ => isTrue trivial

/-! ### The lock without the numbers -/

/-- What the code has: the owner and the ids in the queue. -/
def lock (l : LockLedger ι) : SessionLock ι where
  owner := l.owner
  waitQueue := l.waitQueue.map Waiter.id

/-- What an operation answers is what the lock without the numbers answers. -/
structure Erases (l l' : LockLedger ι) (o : SessionLock.Outcome ι) : Prop where
  lock : l'.lock = o.lock
  verdicts : l'.verdicts.map Verdict.settlement = l.verdicts.map Verdict.settlement ++ o.settled

omit [DecidableEq ι] in
private theorem erases_self (l : LockLedger ι) : Erases l l { lock := l.lock } := ⟨rfl, by simp⟩

omit [DecidableEq ι] in
private theorem drainWaitQueue_erases (l : LockLedger ι) : Erases l l.drainWaitQueue l.lock.drainWaitQueue := by
  cases hqueue : l.waitQueue with
  | nil =>
    have hlock : l.lock.waitQueue = [] := by simp [lock, hqueue]
    unfold drainWaitQueue SessionLock.drainWaitQueue
    rw [hqueue, hlock]
    exact erases_self l
  | cons next rest =>
    have hlock : l.lock.waitQueue = next.id :: rest.map Waiter.id := by simp [lock, hqueue]
    unfold drainWaitQueue SessionLock.drainWaitQueue
    rw [hqueue, hlock]
    exact ⟨rfl, by simp [Verdict.settlement]⟩

private theorem acquire_erases (l : LockLedger ι) (id : ι) : Erases l (l.acquire id) (l.lock.acquire id) := by
  unfold acquire SessionLock.acquire
  by_cases hfree : l.owner = none
  · rw [if_pos hfree, if_pos (show l.lock.owner = none from hfree)]
    exact ⟨rfl, by simp [Verdict.settlement]⟩
  · rw [if_neg hfree, if_neg (show l.lock.owner ≠ none from hfree)]
    by_cases howner : l.owner = some id
    · rw [if_pos howner, if_pos (show l.lock.owner = some id from howner)]
      exact ⟨rfl, by simp [Verdict.settlement]⟩
    · rw [if_neg howner, if_neg (show l.lock.owner ≠ some id from howner)]
      exact ⟨by simp [lock], by simp⟩

private theorem hold_erases (l : LockLedger ι) (id : ι) : Erases l (l.hold id) (l.lock.hold id) := by
  unfold hold SessionLock.hold
  by_cases hfree : l.owner = none
  · rw [if_pos hfree, if_pos (show l.lock.owner = none from hfree)]
    exact ⟨rfl, by simp⟩
  · rw [if_neg hfree, if_neg (show l.lock.owner ≠ none from hfree)]
    exact ⟨rfl, by simp⟩

omit [DecidableEq ι] in
/-- What the owner gives up goes to the next waiter. -/
private theorem giveUp_erases (l : LockLedger ι) {p : Prop} [Decidable p] (result : Bool) :
    Erases l (if p then drainWaitQueue { l with owner := none } else l)
      (if p then { SessionLock.drainWaitQueue { l.lock with owner := none } with result } else { lock := l.lock }) := by
  by_cases h : p
  · have hdrain := drainWaitQueue_erases { l with owner := none }
    rw [if_pos h, if_pos h]
    exact ⟨hdrain.lock, hdrain.verdicts⟩
  · rw [if_neg h, if_neg h]
    exact erases_self l

private theorem cancel_erases (l : LockLedger ι) (id : ι) : Erases l (l.cancel id) (l.lock.cancel id) := by
  have hdrain : Erases l (if l.owner = some id then drainWaitQueue { l with owner := none } else l)
      (if l.owner = some id then SessionLock.drainWaitQueue { l.lock with owner := none } else { lock := l.lock }) := by
    by_cases howner : l.owner = some id
    · rw [if_pos howner, if_pos howner]
      have hdrain := drainWaitQueue_erases { l with owner := none }
      exact ⟨hdrain.lock, hdrain.verdicts⟩
    · rw [if_neg howner, if_neg howner]
      exact erases_self l
  unfold cancel SessionLock.cancel
  rw [show l.lock.owner = l.owner from rfl]
  generalize (if l.owner = some id then drainWaitQueue { l with owner := none } else l) = drained at hdrain ⊢
  generalize (if l.owner = some id then SessionLock.drainWaitQueue { l.lock with owner := none }
    else { lock := l.lock }) = o at hdrain ⊢
  have hqueue : o.lock.waitQueue = drained.waitQueue.map Waiter.id := by rw [← hdrain.lock]; rfl
  refine ⟨?_, ?_⟩
  · have howner : o.lock.owner = drained.owner := by rw [← hdrain.lock]; rfl
    simp only [lock, hqueue, howner, List.filter_map]
    rfl
  · simp only [List.map_append, hdrain.verdicts, hqueue, List.map_map, List.filter_map, List.append_assoc]
    rfl

theorem call_erases (l : LockLedger ι) (c : LockCall ι) : Erases l (l.call c) (l.lock.call c) := by
  cases c with
  | acquire id => exact acquire_erases l id
  | hold id => exact hold_erases l id
  | updateStatus id status => exact giveUp_erases l true
  | release id => exact giveUp_erases l true
  | cancel id => exact cancel_erases l id

/-! ### What is kept -/

/-- Nobody waits for a free session, the waiters are granted in the order in which they queued, and no call is settled
twice. -/
structure Orderly (l : LockLedger ι) : Prop where
  idle : l.owner = none → l.waitQueue = []
  fifo : (l.verdicts.filterMap Verdict.granted? ++ l.waitQueue.map Waiter.ticket).Pairwise (· < ·)
  once : (l.verdicts.map Verdict.ticket ++ l.waitQueue.map Waiter.ticket).Nodup

/-- An orderly lock whose owner does not wait, and where no id waits twice. -/
structure Regular (l : LockLedger ι) : Prop extends Orderly l where
  numbered : ∀ ticket ∈ l.verdicts.map Verdict.ticket ++ l.waitQueue.map Waiter.ticket, ticket < l.acquires
  apart : ∀ waiter ∈ l.waitQueue, l.owner ≠ some waiter.id
  single : (l.waitQueue.map Waiter.id).Nodup

/-- Everything that an operation on the session can do. -/
inductive Change (l : LockLedger ι) (c : LockCall ι) : LockLedger ι → Prop
  | same (hc : ∀ id, c ≠ .acquire id) : Change l c l
  | hold (hc : c = .hold c.id) (howner : l.owner = none) : Change l c { l with owner := some c.id }
  | entry (hc : c = .acquire c.id) (howner : l.owner = none ∨ l.owner = some c.id) :
      Change l c { l with
        owner := some c.id
        acquires := l.acquires + 1
        verdicts := l.verdicts ++ [.admitted ⟨c.id, l.acquires⟩] }
  | wait (hc : c = .acquire c.id) (howner : l.owner ≠ none ∧ l.owner ≠ some c.id) :
      Change l c { l with acquires := l.acquires + 1, waitQueue := l.waitQueue ++ [⟨c.id, l.acquires⟩] }
  | free (howner : l.owner = some c.id) (hqueue : l.waitQueue = []) : Change l c { l with owner := none }
  | grant {next : Waiter ι} {rest : List (Waiter ι)} (howner : l.owner = some c.id)
      (hqueue : l.waitQueue = next :: rest) :
      Change l c { l with
        owner := some next.id
        waitQueue := rest
        verdicts := l.verdicts ++ [.granted next] }
  | withdraw (hc : c = .cancel c.id) (howner : l.owner ≠ some c.id) :
      Change l c { l with
        waitQueue := l.waitQueue.filter (·.id ≠ c.id)
        verdicts := l.verdicts ++ (l.waitQueue.filter (·.id = c.id)).map .rejected }

variable {l : LockLedger ι} {c : LockCall ι}

/-- The owner gives up the session. -/
private theorem giveUp_change (howner : l.owner = some c.id) :
    Change l c (drainWaitQueue { l with owner := none }) := by
  unfold drainWaitQueue
  cases hqueue : l.waitQueue with
  | nil =>
    dsimp only
    rw [show ({ l with owner := none, waitQueue := [] } : LockLedger ι) = { l with owner := none } by rw [← hqueue]]
    exact .free howner hqueue
  | cons next rest => exact .grant howner hqueue

/-- After its owner has cancelled, no call of it is left to withdraw. -/
private theorem cancel_change (h : l.Regular) (id : ι) : Change l (.cancel id) (l.cancel id) := by
  unfold cancel
  by_cases howner : l.owner = some id
  · rw [if_pos howner]
    have hqueue : ∀ waiter ∈ (drainWaitQueue { l with owner := none }).waitQueue, waiter.id ≠ id := by
      intro waiter hmem he
      refine h.apart waiter ?_ (by rw [howner, he])
      unfold drainWaitQueue at hmem
      dsimp only at hmem
      split at hmem
      · exact hmem
      · rename_i next rest hqueue
        rw [hqueue]
        exact List.mem_cons_of_mem _ hmem
    have hkeep : (drainWaitQueue { l with owner := none }).waitQueue.filter (·.id ≠ id) =
        (drainWaitQueue { l with owner := none }).waitQueue :=
      List.filter_eq_self.mpr fun waiter hmem => by simpa using hqueue waiter hmem
    have hnone : (drainWaitQueue { l with owner := none }).waitQueue.filter (·.id = id) = [] :=
      List.filter_eq_nil_iff.mpr fun waiter hmem => by simpa using hqueue waiter hmem
    dsimp only
    rw [hkeep, hnone, List.map_nil, List.append_nil]
    exact giveUp_change (c := .cancel id) howner
  · rw [if_neg howner]
    exact .withdraw rfl howner

/-- What one operation does. -/
private theorem call_change (h : l.Regular) (c : LockCall ι) : Change l c (l.call c) := by
  cases c with
  | acquire id =>
    simp only [call, acquire]
    by_cases hfree : l.owner = none
    · rw [if_pos hfree]
      exact .entry rfl (Or.inl hfree)
    · rw [if_neg hfree]
      by_cases howner : l.owner = some id
      · rw [if_pos howner]
        have hadmit : Change l (.acquire id) _ := .entry rfl (Or.inr howner)
        rwa [show (some (LockCall.acquire id).id) = l.owner from howner.symm] at hadmit
      · rw [if_neg howner]
        exact .wait rfl ⟨hfree, howner⟩
  | hold id =>
    simp only [call, hold]
    by_cases hfree : l.owner = none
    · rw [if_pos hfree]
      exact .hold rfl hfree
    · rw [if_neg hfree]
      exact .same fun _ he => by cases he
  | updateStatus id status =>
    simp only [call, updateStatus]
    by_cases hidle : status = STATUS_IDLE ∧ l.owner = some id
    · rw [if_pos hidle]
      exact giveUp_change (c := .updateStatus id status) hidle.2
    · rw [if_neg hidle]
      exact .same fun _ he => by cases he
  | release id =>
    simp only [call, release]
    by_cases howner : l.owner = some id
    · rw [if_pos howner]
      exact giveUp_change (c := .release id) howner
    · rw [if_neg howner]
      exact .same fun _ he => by cases he
  | cancel id => exact cancel_change h id

/-- The numbers of the calls that wait after a withdrawal, and of the ones withdrawn, are those that waited before. -/
private theorem withdraw_perm (queue : List (Waiter ι)) (id : ι) :
    (((queue.filter (·.id = id)).map Verdict.rejected).map Verdict.ticket ++
      (queue.filter (·.id ≠ id)).map Waiter.ticket).Perm (queue.map Waiter.ticket) := by
  have hperm : (queue.filter (·.id = id) ++ queue.filter (fun waiter => !decide (waiter.id = id))).Perm queue :=
    List.filter_append_perm _ queue
  have hmap := hperm.map Waiter.ticket
  rw [List.map_append] at hmap
  rw [List.map_map]
  simpa [Function.comp_def, Verdict.ticket, Verdict.waiter] using hmap

omit [DecidableEq ι] in
private theorem rejected_granted (queue : List (Waiter ι)) :
    (queue.map Verdict.rejected).filterMap Verdict.granted? = [] := by
  rw [List.filterMap_map]
  exact List.filterMap_eq_nil_iff.mpr fun _ _ => rfl

private theorem Regular.change {l' : LockLedger ι} (h : l.Regular) (hc : l.OneUnsettled c) (hchange : Change l c l') :
    l'.Regular := by
  cases hchange with
  | same => exact h
  | hold _ howner =>
    have hqueue := h.idle howner
    exact
      { idle := fun he => by cases he
        fifo := h.fifo
        once := h.once
        numbered := h.numbered
        apart := fun waiter hmem => by simp [hqueue] at hmem
        single := h.single }
  | entry he howner =>
    refine ⟨⟨fun he' => (by cases he'), ?_, ?_⟩, fun ticket hmem => ?_, fun waiter hmem he' => ?_, h.single⟩
    · have hnone : [Verdict.admitted ⟨c.id, l.acquires⟩].filterMap Verdict.granted? = [] := rfl
      rw [List.filterMap_append, hnone, List.append_nil]
      exact h.fifo
    · -- the new number is larger than all others
      have hperm : ((l.verdicts ++ [Verdict.admitted ⟨c.id, l.acquires⟩]).map Verdict.ticket ++
          l.waitQueue.map Waiter.ticket).Perm
          (l.acquires :: (l.verdicts.map Verdict.ticket ++ l.waitQueue.map Waiter.ticket)) := by
        rw [List.map_append, List.append_assoc]
        exact List.perm_middle
      rw [hperm.nodup_iff, List.nodup_cons]
      exact ⟨fun hmem => Nat.lt_irrefl _ (h.numbered _ hmem), h.once⟩
    · have hcases : ticket ∈ l.verdicts.map Verdict.ticket ++ l.waitQueue.map Waiter.ticket ∨ ticket = l.acquires := by
        simp only [List.map_append, List.mem_append, List.map_cons, List.map_nil, List.mem_singleton,
          Verdict.ticket, Verdict.waiter] at hmem ⊢
        tauto
      rcases hcases with hold | rfl
      · exact Nat.lt_succ_of_lt (h.numbered ticket hold)
      · exact Nat.lt_succ_self _
    · rcases howner with howner | howner
      · have hqueue := h.idle howner
        simp [hqueue] at hmem
      · exact h.apart waiter hmem (howner.trans he')
  | wait he howner =>
    refine ⟨⟨fun he' => absurd he' howner.1, ?_, ?_⟩, fun ticket hmem => ?_, fun waiter hmem => ?_, ?_⟩
    · rw [List.map_append, ← List.append_assoc, List.pairwise_append]
      refine ⟨h.fifo, List.pairwise_singleton _ _, fun ticket hmem ticket' hmem' => ?_⟩
      rw [List.map_cons, List.map_nil, List.mem_singleton] at hmem'
      rw [hmem']
      refine h.numbered ticket ?_
      rcases List.mem_append.mp hmem with hmem | hmem
      · obtain ⟨verdict, hverdict, hgranted⟩ := List.mem_filterMap.mp hmem
        refine List.mem_append_left _ (List.mem_map.mpr ⟨verdict, hverdict, ?_⟩)
        cases verdict with
        | granted waiter => exact Option.some.inj hgranted
        | admitted => cases hgranted
        | rejected => cases hgranted
      · exact List.mem_append_right _ hmem
    · rw [List.map_append, ← List.append_assoc, List.nodup_append]
      refine ⟨h.once, List.pairwise_singleton _ _, fun ticket hmem ticket' hmem' => ?_⟩
      rw [List.map_cons, List.map_nil, List.mem_singleton] at hmem'
      rw [hmem']
      exact Nat.ne_of_lt (h.numbered ticket hmem)
    · rw [List.map_append, ← List.append_assoc, List.mem_append] at hmem
      rcases hmem with hmem | hmem
      · exact Nat.lt_succ_of_lt (h.numbered ticket hmem)
      · rw [List.map_cons, List.map_nil, List.mem_singleton] at hmem
        rw [hmem]
        exact Nat.lt_succ_self _
    · rcases List.mem_append.mp hmem with hmem | hmem
      · exact h.apart waiter hmem
      · rw [List.mem_singleton.mp hmem]
        exact howner.2
    · have hfresh : ∀ waiter ∈ l.waitQueue, waiter.id ≠ c.id := by
        rw [he] at hc
        exact hc
      rw [List.map_append, List.nodup_append]
      refine ⟨h.single, List.pairwise_singleton _ _, fun id hmem id' hmem' => ?_⟩
      obtain ⟨waiter, hwaiter, rfl⟩ := List.mem_map.mp hmem
      rw [List.map_cons, List.map_nil, List.mem_singleton] at hmem'
      rw [hmem']
      exact hfresh waiter hwaiter
  | free howner hqueue =>
    exact
      { idle := fun _ => hqueue
        fifo := h.fifo
        once := h.once
        numbered := h.numbered
        apart := fun waiter hmem => by simp [hqueue] at hmem
        single := h.single }
  | @grant next rest howner hqueue =>
    have hfifo := h.fifo
    have honce := h.once
    have hnumbered := h.numbered
    have hsingle := h.single
    rw [hqueue, List.map_cons] at hfifo honce hnumbered hsingle
    have htickets : (l.verdicts ++ [Verdict.granted next]).map Verdict.ticket ++ rest.map Waiter.ticket =
        l.verdicts.map Verdict.ticket ++ next.ticket :: rest.map Waiter.ticket := by
      simp [Verdict.ticket, Verdict.waiter]
    refine ⟨⟨fun he => (by cases he), ?_, ?_⟩, fun ticket hmem => ?_, fun waiter hmem he => ?_, ?_⟩
    · simpa [Verdict.granted?] using hfifo
    · rw [htickets]
      exact honce
    · rw [htickets] at hmem
      exact hnumbered ticket hmem
    · rw [List.nodup_cons] at hsingle
      exact hsingle.1 (List.mem_map.mpr ⟨waiter, hmem, (Option.some.inj he).symm⟩)
    · exact (List.nodup_cons.mp hsingle).2
  | withdraw he howner =>
    have hsub : (l.waitQueue.filter (·.id ≠ c.id)).Sublist l.waitQueue := List.filter_sublist
    have hperm : ((l.verdicts ++ (l.waitQueue.filter (·.id = c.id)).map Verdict.rejected).map Verdict.ticket ++
        (l.waitQueue.filter (·.id ≠ c.id)).map Waiter.ticket).Perm
        (l.verdicts.map Verdict.ticket ++ l.waitQueue.map Waiter.ticket) := by
      rw [List.map_append, List.append_assoc]
      exact (withdraw_perm l.waitQueue c.id).append_left _
    refine ⟨⟨fun hfree => ?_, ?_, ?_⟩, fun ticket hmem => ?_, fun waiter hmem => ?_, ?_⟩
    · dsimp only
      rw [h.idle hfree]
      rfl
    · rw [List.filterMap_append, rejected_granted, List.append_nil]
      exact h.fifo.sublist ((hsub.map _).append_left _)
    · exact hperm.nodup_iff.mpr h.once
    · exact h.numbered ticket (hperm.mem_iff.mp hmem)
    · exact h.apart waiter (hsub.subset hmem)
    · exact h.single.sublist (hsub.map _)

omit [DecidableEq ι] in
private theorem initial_regular : ({} : LockLedger ι).Regular where
  idle _ := rfl
  fifo := List.Pairwise.nil
  once := List.nodup_nil
  numbered _ hmem := by cases hmem
  apart _ hmem := by cases hmem
  single := List.nodup_nil

/-- A call settles `new`: a grant makes the waiter the owner, only the caller of `cancel` is rejected, and the others
wait as before, in the same order, but for the one that is granted. -/
structure Proper (l : LockLedger ι) (c : LockCall ι) (new : List (Verdict ι)) : Prop where
  verdicts : (l.call c).verdicts = l.verdicts ++ new
  admitted : ∀ waiter, .admitted waiter ∈ new → c = .acquire waiter.id ∧ (l.call c).owner = some waiter.id
  granted : ∀ waiter, .granted waiter ∈ new → l.owner ≠ some waiter.id ∧ (l.call c).owner = some waiter.id
  rejected : ∀ waiter, .rejected waiter ∈ new → c = .cancel waiter.id
  single : (new.filter (!·.isRejected)).length ≤ 1
  inert : ∀ id status, (c = .release id ∧ l.owner ≠ some id) ∨
    (c = .updateStatus id status ∧ (l.owner ≠ some id ∨ status ≠ STATUS_IDLE)) → l.call c = l
  others : (l.call c).waitQueue.filter (·.id ≠ c.id) =
    l.waitQueue.filter fun waiter => waiter.id ≠ c.id ∧ .granted waiter ∉ new

private theorem call_inert {id : ι} {status : UInt8} (h : (c = .release id ∧ l.owner ≠ some id) ∨
    (c = .updateStatus id status ∧ (l.owner ≠ some id ∨ status ≠ STATUS_IDLE))) : l.call c = l := by
  rcases h with ⟨rfl, howner⟩ | ⟨rfl, hne⟩
  · exact if_neg howner
  · exact if_neg fun hboth => hne.elim (fun howner => howner hboth.2) fun hstatus => hstatus hboth.1

private theorem call_proper (h : l.Regular) (c : LockCall ι) : ∃ new, l.Proper c new := by
  have hchange := call_change h c
  have hinert : ∀ id status, (c = .release id ∧ l.owner ≠ some id) ∨
      (c = .updateStatus id status ∧ (l.owner ≠ some id ∨ status ≠ STATUS_IDLE)) → l.call c = l :=
    fun _ _ => call_inert
  -- nothing is settled, and the others wait as before
  have hnone : (l.call c).verdicts = l.verdicts →
      (l.call c).waitQueue.filter (·.id ≠ c.id) = l.waitQueue.filter (·.id ≠ c.id) → l.Proper c [] :=
    fun hverdicts hothers =>
      { verdicts := by rw [hverdicts, List.append_nil]
        admitted := fun _ hmem => by cases hmem
        granted := fun _ hmem => by cases hmem
        rejected := fun _ hmem => by cases hmem
        single := Nat.zero_le _
        inert := hinert
        others := by simpa using hothers }
  generalize hcall : l.call c = l' at hchange
  cases hchange with
  | same _ => exact ⟨[], hnone (by rw [hcall]) (by rw [hcall])⟩
  | hold _ _ => exact ⟨[], hnone (by rw [hcall]) (by rw [hcall])⟩
  | entry he howner =>
    refine ⟨[.admitted ⟨c.id, l.acquires⟩], ?_, fun waiter hmem => ?_, fun _ hmem => ?_, fun _ hmem => ?_,
      ?_, hinert, ?_⟩
    · rw [hcall]
    · cases List.mem_singleton.mp hmem
      rw [hcall]
      exact ⟨he, rfl⟩
    · cases List.mem_singleton.mp hmem
    · cases List.mem_singleton.mp hmem
    · exact Nat.le_refl 1
    · rw [hcall]
      simp
  | wait he howner => exact ⟨[], hnone (by rw [hcall]) (by rw [hcall]; simp [List.filter_append])⟩
  | free howner hqueue => exact ⟨[], hnone (by rw [hcall]) (by rw [hcall])⟩
  | @grant next rest howner hqueue =>
    have hsingle := h.single
    have hapart := h.apart
    rw [hqueue] at hsingle hapart
    rw [List.map_cons, List.nodup_cons] at hsingle
    have hnext : next.id ≠ c.id := fun he => hapart next List.mem_cons_self (by rw [he]; exact howner)
    refine ⟨[.granted next], ?_, fun _ hmem => ?_, fun waiter hmem => ?_, fun _ hmem => ?_, ?_, hinert, ?_⟩
    · rw [hcall]
    · cases List.mem_singleton.mp hmem
    · cases List.mem_singleton.mp hmem
      rw [hcall]
      exact ⟨hapart next List.mem_cons_self, rfl⟩
    · cases List.mem_singleton.mp hmem
    · exact Nat.le_refl 1
    · rw [hcall, hqueue, List.filter_cons_of_neg (by simp)]
      refine List.filter_congr fun waiter hmem => ?_
      have hne : waiter ≠ next := fun he => hsingle.1 (he ▸ List.mem_map_of_mem hmem)
      simp [hne]
  | withdraw he howner =>
    refine ⟨(l.waitQueue.filter (·.id = c.id)).map .rejected, ?_, fun _ hmem => ?_, fun _ hmem => ?_,
      fun waiter hmem => ?_,
      ?_, hinert, ?_⟩
    · rw [hcall]
    · obtain ⟨_, -, he'⟩ := List.mem_map.mp hmem
      cases he'
    · obtain ⟨_, -, he'⟩ := List.mem_map.mp hmem
      cases he'
    · obtain ⟨waiter', hmem', he'⟩ := List.mem_map.mp hmem
      cases he'
      have hid : waiter.id = c.id := by simpa using (List.mem_filter.mp hmem').2
      rw [hid]
      exact he
    · rw [List.filter_map]
      simp [Function.comp_def, Verdict.isRejected]
    · rw [hcall]
      simp [List.filter_filter]

/-- In every run the lock is orderly, and so is every call. -/
theorem session_lock_orderly (run : Run step OneUnsettled ({} : LockLedger ι) l) :
    l.Orderly ∧ ∀ c, ∃ new, l.Proper c new := by
  have hregular : l.Regular := run.invariant initial_regular fun t c _ ht hc hstep => by
    cases hstep
    exact ht.change hc (call_change ht c)
  exact ⟨hregular.toOrderly, call_proper hregular⟩

/-- Three ids compete; the second gives up. -/
def competing : List (LockCall Nat) :=
  [.acquire 0, .acquire 1, .acquire 2, .hold 1, .updateStatus 0 0x54, .cancel 1, .release 1, .acquire 0,
    .updateStatus 0 STATUS_IDLE, .acquire 0]

theorem session_lock_orderly_competing : ∃ l : LockLedger Nat, Run step OneUnsettled {} l ∧
    l.verdicts.map Verdict.settlement = [.resolved 0, .rejected 1, .resolved 0, .resolved 2] ∧
      l.waitQueue = [⟨0, 4⟩] ∧ l.Orderly ∧ ∀ c, ∃ new, l.Proper c new := by
  have hexists : ∃ l : LockLedger Nat, Run step OneUnsettled {} l ∧
      l.verdicts.map Verdict.settlement = [.resolved 0, .rejected 1, .resolved 0, .resolved 2] ∧
        l.waitQueue = [⟨0, 4⟩] := exists_run competing (by decide)
  obtain ⟨l, run, hverdicts, hqueue⟩ := hexists
  exact ⟨l, run, hverdicts, hqueue, session_lock_orderly run⟩

end LockLedger

end PgliteBridge
