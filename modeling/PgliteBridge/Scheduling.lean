import PgliteBridge.LocalSteps
import Mathlib

/-!
# The scheduling invariant

Where the batches of the drain loops are.  A duplex in the wait queue of the lock awaits `acquire`, one with a batch in
the queue of `runExclusive` or in PGlite awaits that batch, and neither queue holds a duplex twice.  A half-closed
duplex has nothing to drain, and once a teardown has decided about its ROLLBACK no batch of the duplex runs any more.
The invariant holds in every reachable state (`wellScheduled`).
-/

namespace PgliteBridge

open TransitionSystem

/-- How far the operation has come that the drain loop awaits. -/
def Duplex.stage (d : Duplex) : Option OpStage :=
  match d.drain with
  | .busy op => some op.stage
  | _ => none

/-- The teardown reads the status now, or has read it. -/
def Duplex.decided (d : Duplex) : Bool := d.rollback != .notStarted && d.rollback != .awaitingCall

/-- A ROLLBACK is in PGlite or in the queue of `runExclusive`. -/
def Duplex.rolling (d : Duplex) : Bool := d.rollback == .queued || d.rollback == .running

/-- A change that moves neither the drain loop nor the teardown. -/
structure Duplex.SameSchedule (d d' : Duplex) : Prop where
  drain : d'.drain = d.drain
  ended : d'.ended = d.ended
  writable : d'.writable = d.writable
  rollback : d'.rollback = d.rollback
  live : d'.live = true → d.live = true

/-- `processMessage` leaves the schedule alone, and only a Terminate asks for the rollback. -/
theorem Duplex.processMessage_same (d : Duplex) (message : Bytes) : d.SameSchedule (d.processMessage message).1 ∧
    ((d.processMessage message).2 = .terminate → (d.processMessage message).1.live = false) := by
  have hcopy : ∀ capture msgType, d.SameSchedule (d.processCopy capture msgType message).1 ∧
      (d.processCopy capture msgType message).2 ≠ .terminate := by
    intro capture msgType
    unfold Duplex.processCopy
    split
    · exact ⟨⟨rfl, rfl, rfl, rfl, fun h => h⟩, fun h => by cases h⟩
    · split
      · dsimp only
        split <;> exact ⟨⟨rfl, rfl, rfl, rfl, fun h => h⟩, fun h => by cases h⟩
      · exact ⟨⟨rfl, rfl, rfl, rfl, fun h => h⟩, fun h => by cases h⟩
  have hquery : d.SameSchedule (d.processQuery message).1 ∧ (d.processQuery message).2 ≠ .terminate := by
    unfold Duplex.processQuery
    split <;> exact ⟨⟨rfl, rfl, rfl, rfl, fun h => h⟩, fun h => by cases h⟩
  unfold Duplex.processMessage
  dsimp only
  split
  · have hlive : d.terminate.live = false := by simp [Duplex.live, Duplex.terminate]
    refine ⟨⟨rfl, rfl, rfl, rfl, fun h => ?_⟩, fun _ => hlive⟩
    rw [hlive] at h
    cases h
  · split
    · obtain ⟨hs, hn⟩ := hcopy _ _
      exact ⟨hs, fun he => absurd he hn⟩
    · split
      · exact ⟨⟨rfl, rfl, rfl, rfl, fun h => h⟩, fun h => by cases h⟩
      · split
        · exact ⟨⟨rfl, rfl, rfl, rfl, fun h => h⟩, fun h => by cases h⟩
        · split
          · obtain ⟨hs, hn⟩ := hquery
            exact ⟨hs, fun he => absurd he hn⟩
          · exact ⟨⟨rfl, rfl, rfl, rfl, fun h => h⟩, fun h => by cases h⟩

/-- The duplex whose `acquire` settles. -/
def Settlement.id {ι : Type} : Settlement ι → ι
  | .resolved id => id
  | .rejected id => id

private theorem Settlement.eq_id {ι : Type} (settlement : Settlement ι) :
    settlement = .resolved settlement.id ∨ settlement = .rejected settlement.id := by
  cases settlement with
  | resolved id => exact Or.inl rfl
  | rejected id => exact Or.inr rfl

namespace SessionLock

variable {ι : Type} [DecidableEq ι] {l : SessionLock ι} {id : ι}

/-- An operation that takes waiters out of the queue, and settles only calls of waiters it took out. -/
structure Shrinks (l : SessionLock ι) (outcome : Outcome ι) : Prop where
  nodup : outcome.lock.waitQueue.Nodup
  queue : ∀ id ∈ outcome.lock.waitQueue, id ∈ l.waitQueue
  settled : (outcome.settled.map Settlement.id).Nodup
  out : ∀ settlement ∈ outcome.settled, settlement.id ∈ l.waitQueue ∧ settlement.id ∉ outcome.lock.waitQueue

omit [DecidableEq ι] in
private theorem shrinks_drainWaitQueue (h : l.waitQueue.Nodup) :
    l.Shrinks (drainWaitQueue { l with owner := none }) := by
  rcases l with ⟨owner, _ | ⟨next, rest⟩⟩
  · exact ⟨h, fun id hmem => hmem, List.nodup_nil, fun _ hmem => by cases hmem⟩
  · rw [List.nodup_cons] at h
    refine ⟨h.2, fun id hmem => List.mem_cons_of_mem _ hmem, List.nodup_singleton _, ?_⟩
    intro settlement hmem
    rw [drainWaitQueue, List.mem_singleton] at hmem
    rw [hmem]
    exact ⟨List.mem_cons_self .., h.1⟩

omit [DecidableEq ι] in
private theorem shrinks_refl (h : l.waitQueue.Nodup) : l.Shrinks { lock := l } :=
  ⟨h, fun _ hmem => hmem, List.nodup_nil, fun _ hmem => by cases hmem⟩

private theorem shrinks_release (h : l.waitQueue.Nodup) : l.Shrinks (l.release id) := by
  unfold release
  split
  · obtain ⟨hn, hq, hs, ho⟩ := shrinks_drainWaitQueue h
    exact ⟨hn, hq, hs, ho⟩
  · exact shrinks_refl h

private theorem shrinks_updateStatus (h : l.waitQueue.Nodup) (status : UInt8) :
    l.Shrinks (l.updateStatus id status) := by
  unfold updateStatus
  split
  · obtain ⟨hn, hq, hs, ho⟩ := shrinks_drainWaitQueue h
    exact ⟨hn, hq, hs, ho⟩
  · exact shrinks_refl h

private theorem shrinks_cancel (h : l.waitQueue.Nodup) : l.Shrinks (l.cancel id) := by
  -- the owner's cancel grants the session first
  have hdrained : l.Shrinks (if l.owner = some id then drainWaitQueue { l with owner := none } else { lock := l }) := by
    split
    · exact shrinks_drainWaitQueue h
    · exact shrinks_refl h
  unfold cancel
  dsimp only
  generalize (if l.owner = some id then drainWaitQueue { l with owner := none } else { lock := l }) =
    drained at hdrained
  obtain ⟨hn, hq, hs, ho⟩ := hdrained
  have hfilter : ∀ settlement ∈ (drained.lock.waitQueue.filter (· = id)).map Settlement.rejected,
      settlement.id = id ∧ id ∈ drained.lock.waitQueue := by
    intro settlement hmem
    obtain ⟨other, hother, rfl⟩ := List.mem_map.1 hmem
    rw [List.mem_filter, decide_eq_true_eq] at hother
    obtain ⟨hin, rfl⟩ := hother
    exact ⟨rfl, hin⟩
  refine ⟨hn.filter _, fun other hmem => hq other (List.mem_of_mem_filter hmem), ?_, ?_⟩
  · rw [List.map_append, List.nodup_append]
    refine ⟨hs, ?_, ?_⟩
    · rw [List.map_map]
      have hid : (Settlement.id ∘ Settlement.rejected : ι → ι) = fun other => other := rfl
      rw [hid, List.map_id']
      exact hn.filter _
    · intro a ha b hb hab
      obtain ⟨settlement, hmem, rfl⟩ := List.mem_map.1 ha
      obtain ⟨settlement', hmem', rfl⟩ := List.mem_map.1 hb
      obtain ⟨hid, hin⟩ := hfilter settlement' hmem'
      exact (ho settlement hmem).2 (by rw [hab, hid]; exact hin)
  · intro settlement hmem
    rw [List.mem_append] at hmem
    rcases hmem with hmem | hmem
    · obtain ⟨hin, hnot⟩ := ho settlement hmem
      exact ⟨hin, fun hf => hnot (List.mem_of_mem_filter hf)⟩
    · obtain ⟨hid, hin⟩ := hfilter settlement hmem
      rw [hid]
      refine ⟨hq id hin, fun hf => ?_⟩
      rw [List.mem_filter] at hf
      simp at hf

end SessionLock

namespace System

variable {ι : Type} [DecidableEq ι]

omit [DecidableEq ι] in
def waitQueue (s : System ι) : List ι := s.lock.elim [] SessionLock.waitQueue

/-- The duplex of a batch; recovery Syncs and ROLLBACKs do not count. -/
def batchId : ι × CallKind → Option ι
  | (id, .batch _) => some id
  | _ => none

/-- The duplex of a ROLLBACK. -/
def rollbackId : ι × CallKind → Option ι
  | (id, .rollback) => some id
  | _ => none

def runningOp (s : System ι) : Option (ι × CallKind) := s.running.map fun call => (call.id, call.kind)

/-- What is in PGlite, and what is in the queue of `runExclusive`. -/
def ops (s : System ι) : List (ι × CallKind) := s.runningOp.toList ++ s.mutex

def batches (s : System ι) : List ι := s.ops.filterMap batchId

def rollbacks (s : System ι) : List ι := s.ops.filterMap rollbackId

structure WellScheduled (s : System ι) : Prop where
  queue : s.waitQueue.Nodup
  waiters : ∀ id ∈ s.waitQueue, (s.duplex id).stage = some .acquiring
  unique : s.batches.Nodup
  queued : ∀ id ∈ s.batches, (s.duplex id).stage = some .queued
  ended : ∀ id, (s.duplex id).ended = true → (s.duplex id).drain = .idle ∧ (s.duplex id).writable = []
  rollback : ∀ id, (s.duplex id).rollback ≠ .notStarted → (s.duplex id).ended = true ∨ (s.duplex id).live = false
  single : s.rollbacks.Nodup
  rolling : ∀ id ∈ s.rollbacks, (s.duplex id).rolling = true
  decided : ∀ op ∈ s.runningOp, (s.duplex op.1).decided = true → batchId op = none

variable {s s' : System ι} {id : ι} {f : Duplex → Duplex}

namespace WellScheduled

omit [DecidableEq ι] in
theorem of_eq (h : WellScheduled s) (hd : s'.duplex = s.duplex) (hq : s'.waitQueue = s.waitQueue)
    (hr : s'.runningOp = s.runningOp) (hm : s'.mutex = s.mutex) : WellScheduled s' := by
  have hops : s'.ops = s.ops := by rw [ops, ops, hr, hm]
  have hb : s'.batches = s.batches := by rw [batches, batches, hops]
  have hr' : s'.rollbacks = s.rollbacks := by rw [rollbacks, rollbacks, hops]
  refine ⟨?_, ?_, ?_, ?_, ?_, ?_, ?_, ?_, ?_⟩
  · rw [hq]
    exact h.queue
  · rw [hq, hd]
    exact h.waiters
  · rw [hb]
    exact h.unique
  · rw [hb, hd]
    exact h.queued
  · rw [hd]
    exact h.ended
  · rw [hd]
    exact h.rollback
  · rw [hr']
    exact h.single
  · rw [hr', hd]
    exact h.rolling
  · rw [hr, hd]
    exact h.decided

omit [DecidableEq ι] in
theorem not_ended (h : WellScheduled s) (hdrain : (s.duplex id).drain ≠ .idle) : (s.duplex id).ended = false := by
  by_contra he
  rw [Bool.not_eq_false] at he
  exact hdrain (h.ended id he).1

omit [DecidableEq ι] in
theorem not_waiting (h : WellScheduled s) (hstage : (s.duplex id).stage ≠ some .acquiring) : id ∉ s.waitQueue :=
  fun hmem => hstage (h.waiters id hmem)

omit [DecidableEq ι] in
theorem not_batch (h : WellScheduled s) (hstage : (s.duplex id).stage ≠ some .queued) : id ∉ s.batches :=
  fun hmem => hstage (h.queued id hmem)

/-- A change of one duplex. -/
private theorem modify (h : WellScheduled s)
    (hstage : (f (s.duplex id)).stage = (s.duplex id).stage ∨ id ∉ s.waitQueue ∧ id ∉ s.batches)
    (hended : (f (s.duplex id)).ended = true → (f (s.duplex id)).drain = .idle ∧ (f (s.duplex id)).writable = [])
    (hrollback : (f (s.duplex id)).rollback ≠ .notStarted →
      (f (s.duplex id)).ended = true ∨ (f (s.duplex id)).live = false)
    (hrolling : id ∈ s.rollbacks → (f (s.duplex id)).rolling = true)
    (hdecided : (f (s.duplex id)).decided = true → ∀ op ∈ s.runningOp, op.1 = id → batchId op = none) :
    WellScheduled (s.modify id f) := by
  have hstage' : ∀ other stage, (other = id → (f (s.duplex id)).stage = (s.duplex id).stage) →
      (s.duplex other).stage = some stage → ((s.modify id f).duplex other).stage = some stage := by
    intro other stage hsame hs
    by_cases ho : other = id
    · subst ho
      rw [modify_same, hsame rfl]
      exact hs
    · rw [modify_other ho]
      exact hs
  refine ⟨h.queue, ?_, h.unique, ?_, ?_, ?_, h.single, ?_, ?_⟩
  · intro other hmem
    refine hstage' other _ (fun ho => ?_) (h.waiters other hmem)
    rcases hstage with hs | ⟨hq, _⟩
    · exact hs
    · exact absurd (ho ▸ hmem) hq
  · intro other hmem
    refine hstage' other _ (fun ho => ?_) (h.queued other hmem)
    rcases hstage with hs | ⟨_, hb⟩
    · exact hs
    · exact absurd (ho ▸ hmem) hb
  · intro other
    by_cases ho : other = id
    · subst ho
      rw [modify_same]
      exact hended
    · rw [modify_other ho]
      exact h.ended other
  · intro other
    by_cases ho : other = id
    · subst ho
      rw [modify_same]
      exact hrollback
    · rw [modify_other ho]
      exact h.rollback other
  · intro other hmem
    by_cases ho : other = id
    · subst ho
      rw [modify_same]
      exact hrolling hmem
    · rw [modify_other ho]
      exact h.rolling other hmem
  · intro op hop hdec
    by_cases ho : op.1 = id
    · rw [ho, modify_same] at hdec
      exact hdecided hdec op hop ho
    · rw [modify_other ho] at hdec
      exact h.decided op hop hdec

theorem same (h : WellScheduled s) (hf : (s.duplex id).SameSchedule (f (s.duplex id))) :
    WellScheduled (s.modify id f) := by
  refine h.modify ?_ ?_ ?_ ?_ ?_
  · left
    simp only [Duplex.stage, hf.drain]
  · rw [hf.ended, hf.drain, hf.writable]
    exact h.ended id
  · rw [hf.rollback, hf.ended]
    intro hr
    rcases h.rollback id hr with he | hl
    · exact Or.inl he
    · right
      by_contra hlive
      rw [Bool.not_eq_false] at hlive
      rw [hf.live hlive] at hl
      cases hl
  · rw [Duplex.rolling, hf.rollback]
    exact h.rolling id
  · intro hdec op hop ho
    refine h.decided op hop ?_
    rw [ho, Duplex.decided, ← hf.rollback]
    exact hdec

/-- A change of the drain loop alone, of a duplex that is in no queue. -/
theorem drain (h : WellScheduled s) (hq : id ∉ s.waitQueue) (hb : id ∉ s.batches)
    (he : (s.duplex id).ended = false) (g : Duplex → Drain) :
    WellScheduled (s.modify id fun d => { d with drain := g d }) := by
  refine h.modify (Or.inr ⟨hq, hb⟩) ?_ (h.rollback id) (h.rolling id) ?_
  · intro hended
    rw [he] at hended
    cases hended
  · intro hdec op hop ho
    refine h.decided op hop ?_
    rw [ho]
    exact hdec

/-! ### The lock -/

private theorem settleOne (h : WellScheduled s) {settlement : Settlement ι} {id : ι}
    (hid : settlement = .resolved id ∨ settlement = .rejected id) (hstage : (s.duplex id).stage = some .acquiring)
    (hq : id ∉ s.waitQueue) : WellScheduled (s.settleOne settlement) := by
  have hb : id ∉ s.batches := h.not_batch (by simp [hstage])
  have hdrain : (s.duplex id).drain ≠ .idle := by
    intro hidle
    simp [Duplex.stage, hidle] at hstage
  rcases hid with rfl | rfl
  · simp only [System.settleOne]
    refine h.modify (Or.inr ⟨hq, hb⟩) ?_ ?_ ?_ ?_
    · intro he
      have he' : (s.duplex id).ended = true := by
        split at he <;> exact he
      rw [h.not_ended hdrain] at he'
      cases he'
    · have := h.rollback id
      split <;> exact this
    · have := h.rolling id
      split <;> exact this
    · intro hdec op hop ho
      refine h.decided op hop ?_
      rw [ho]
      split at hdec <;> exact hdec
  · exact h.drain hq hb (h.not_ended hdrain) fun _ => .failing

end WellScheduled

private theorem settleOne_waitQueue (settlement : Settlement ι) : (s.settleOne settlement).waitQueue = s.waitQueue := by
  cases settlement <;> rfl

theorem settleOne_other {settlement : Settlement ι} (h : settlement.id ≠ id) :
    (s.settleOne settlement).duplex id = s.duplex id := by
  cases settlement with
  | resolved other =>
    simp only [settleOne]
    exact modify_other (Ne.symm h)
  | rejected other =>
    simp only [settleOne]
    exact modify_other (Ne.symm h)

namespace WellScheduled

/-- Settling the `acquire` calls of waiters that have left the queue. -/
private theorem settle {settled : List (Settlement ι)} (h : WellScheduled s)
    (hnodup : (settled.map Settlement.id).Nodup)
    (hout : ∀ settlement ∈ settled, (s.duplex (settlement.id)).stage = some .acquiring ∧
      settlement.id ∉ s.waitQueue) : WellScheduled (settled.foldl System.settleOne s) := by
  induction settled generalizing s with
  | nil => exact h
  | cons settlement settled ih =>
    rw [List.map_cons, List.nodup_cons] at hnodup
    obtain ⟨hstage, hq⟩ := hout settlement (List.mem_cons_self ..)
    refine ih (h.settleOne (settlement.eq_id) hstage hq) hnodup.2 fun other hmem => ?_
    obtain ⟨hstage', hq'⟩ := hout other (List.mem_cons_of_mem _ hmem)
    have hne : settlement.id ≠ other.id := by
      intro he
      exact hnodup.1 (he ▸ List.mem_map_of_mem hmem)
    rw [settleOne_other hne, settleOne_waitQueue]
    exact ⟨hstage', hq'⟩

/-- The queue shrinks, and the settled calls are those of duplexes that are in it no more. -/
private theorem applyLock {outcome : SessionLock.Outcome ι} (h : WellScheduled s)
    (hnodup : outcome.lock.waitQueue.Nodup)
    (hwait : ∀ id ∈ outcome.lock.waitQueue, (s.duplex id).stage = some .acquiring)
    (hsettled : (outcome.settled.map Settlement.id).Nodup)
    (hout : ∀ settlement ∈ outcome.settled, (s.duplex (settlement.id)).stage = some .acquiring ∧
      settlement.id ∉ outcome.lock.waitQueue) : WellScheduled (s.applyLock outcome) := by
  have hlock : WellScheduled { s with lock := some outcome.lock } :=
    ⟨hnodup, hwait, h.unique, h.queued, h.ended, h.rollback, h.single, h.rolling, h.decided⟩
  exact hlock.settle hsettled hout

private theorem shrink {l : SessionLock ι} {outcome : SessionLock.Outcome ι} (h : WellScheduled s)
    (hl : s.lock = some l)
    (hs : l.Shrinks outcome) : WellScheduled (s.applyLock outcome) := by
  have hqueue : s.waitQueue = l.waitQueue := by
    rw [waitQueue, hl]
    rfl
  refine h.applyLock hs.nodup ?_ hs.settled ?_
  · intro id hmem
    exact h.waiters id (by rw [hqueue]; exact hs.queue id hmem)
  · intro settlement hmem
    obtain ⟨hin, hnot⟩ := hs.out settlement hmem
    exact ⟨h.waiters _ (by rw [hqueue]; exact hin), hnot⟩

omit [DecidableEq ι] in
private theorem queue_of_lock {l : SessionLock ι} (h : WellScheduled s) (hl : s.lock = some l) :
    l.waitQueue.Nodup := by
  have := h.queue
  rwa [waitQueue, hl] at this

private theorem release (h : WellScheduled s) : WellScheduled (s.release id) := by
  unfold System.release
  split
  · rename_i l hl
    exact h.shrink hl (SessionLock.shrinks_release (h.queue_of_lock hl))
  · exact h

private theorem cancel (h : WellScheduled s) : WellScheduled (s.cancel id) := by
  unfold System.cancel
  split
  · rename_i l hl
    exact h.shrink hl (SessionLock.shrinks_cancel (h.queue_of_lock hl))
  · exact h

private theorem updateStatus (h : WellScheduled s) (status : UInt8) : WellScheduled (s.updateStatus id status) := by
  unfold System.updateStatus
  split
  · rename_i l hl
    split
    · exact h
    · exact h.shrink hl (SessionLock.shrinks_updateStatus (h.queue_of_lock hl) status)
  · exact h

/-- A batch goes to `acquire`: it is admitted at once, or its duplex joins the wait queue. -/
private theorem acquireSession (h : WellScheduled s) (hactive : (s.duplex id).drain = .active) (batch : Bytes)
    (mode : RfqMode) : WellScheduled (s.acquireSession id batch mode) := by
  have hstage : (s.duplex id).stage = none := by simp [Duplex.stage, hactive]
  have hq : id ∉ s.waitQueue := h.not_waiting (by simp [hstage])
  have hb : id ∉ s.batches := h.not_batch (by simp [hstage])
  have hended : (s.duplex id).ended = false := h.not_ended (by simp [hactive])
  have hbusy := h.drain hq hb hended fun _ => .busy { batch, mode, stage := .acquiring }
  have hacquiring : ((s.modify id fun d =>
      { d with drain := .busy { batch, mode, stage := .acquiring } }).duplex id).stage = some .acquiring := by
    rw [modify_same]
    rfl
  unfold System.acquireSession
  simp only [modify_lock]
  split
  · rename_i l hl
    have hqueue : s.waitQueue = l.waitQueue := by
      rw [waitQueue, hl]
      rfl
    rw [hqueue] at hq
    have hwait : ∀ other ∈ l.waitQueue, ((s.modify id fun d =>
        { d with drain := .busy { batch, mode, stage := .acquiring } }).duplex other).stage = some .acquiring := by
      intro other hmem
      have hne : other ≠ id := fun he => hq (he ▸ hmem)
      rw [modify_other hne]
      exact h.waiters other (by rw [hqueue]; exact hmem)
    have hnodup := h.queue_of_lock hl
    unfold SessionLock.acquire
    split
    · refine hbusy.applyLock hnodup hwait (List.nodup_singleton _) ?_
      intro settlement hmem
      rw [List.mem_singleton.1 hmem]
      exact ⟨hacquiring, hq⟩
    · split
      · refine hbusy.applyLock hnodup hwait (List.nodup_singleton _) ?_
        intro settlement hmem
        rw [List.mem_singleton.1 hmem]
        exact ⟨hacquiring, hq⟩
      · refine hbusy.applyLock ?_ ?_ List.nodup_nil (fun _ hmem => by cases hmem)
        · exact hnodup.append (List.nodup_singleton _) (by
            intro other hmem hmem'
            rw [List.mem_singleton.1 hmem'] at hmem
            exact hq hmem)
        · intro other hmem
          rw [List.mem_append, List.mem_singleton] at hmem
          rcases hmem with hmem | rfl
          · exact hwait other hmem
          · exact hacquiring
  · rename_i hl
    refine hbusy.settleOne (Or.inl rfl) hacquiring ?_
    simp [waitQueue, hl]

/-! ### Teardown and recovery -/

/-- The status is read once the duplex takes no more batches and none of its batches runs. -/
private theorem decideRollback (h : WellScheduled s) (hdown : (s.duplex id).ended = true ∨ (s.duplex id).live = false)
    (hroll : (s.duplex id).rolling = false) (hno : ∀ op ∈ s.runningOp, op.1 = id → batchId op = none) :
    WellScheduled (s.decideRollback id) := by
  refine h.modify (Or.inl rfl) (h.ended id) (fun _ => hdown) (fun hmem => ?_) fun _ => hno
  rw [h.rolling id hmem] at hroll
  cases hroll

omit [DecidableEq ι] in
private theorem not_running_batch {op : ι × CallKind} (hidle : ∀ call ∈ s.running, call.id = id → call.kind = .rollback)
    (hop : op ∈ s.runningOp) (hid : op.1 = id) : batchId op = none := by
  rw [runningOp, Option.mem_def, Option.map_eq_some_iff] at hop
  obtain ⟨call, hrun, rfl⟩ := hop
  have hkind := hidle call hrun hid
  simp only [batchId, hkind]

private theorem rollbackIfInTransaction (h : WellScheduled s)
    (hdown : (s.duplex id).ended = true ∨ (s.duplex id).live = false) :
    WellScheduled (s.rollbackIfInTransaction id) := by
  unfold System.rollbackIfInTransaction
  split
  · rename_i hnot
    have hroll : (s.duplex id).rolling = false := by
      rw [Duplex.rolling, hnot]
      rfl
    split
    · refine h.modify (Or.inl rfl) (h.ended id) (fun _ => hdown) (fun hmem => ?_) (fun hdec => by cases hdec)
      rw [h.rolling id hmem] at hroll
      cases hroll
    · rename_i hcall
      refine h.decideRollback hdown hroll fun op hop hid => not_running_batch (fun call hrun hc => ?_) hop hid
      by_contra hkind
      refine hcall ?_
      rw [System.inCall, Option.any_eq_true]
      exact ⟨call, hrun, by simp [hc, hkind]⟩
  · exact h

theorem destroyDuplex (h : WellScheduled s) : WellScheduled (s.destroyDuplex id) := by
  unfold System.destroyDuplex
  split
  · exact h
  · have hlive : (tearDown (s.duplex id)).live = false := rfl
    have htorn : WellScheduled (s.modify id tearDown) := by
      refine h.modify (Or.inl rfl) (fun he => ⟨(h.ended id he).1, rfl⟩) (fun _ => Or.inr hlive) (h.rolling id) ?_
      intro hdec op hop ho
      refine h.decided op hop ?_
      rw [ho]
      exact hdec
    refine htorn.rollbackIfInTransaction (Or.inr ?_)
    rw [modify_same]
    exact hlive

private theorem deliverRecoverySync (h : WellScheduled s) : WellScheduled (s.deliverRecoverySync id) := by
  unfold System.deliverRecoverySync
  split
  · exact h
  · split <;> exact h.same ⟨rfl, rfl, rfl, rfl, fun h => h⟩

private theorem releasePortal (h : WellScheduled s) : WellScheduled (s.releasePortal id) := by
  unfold System.releasePortal
  split
  · exact h
  · split
    · exact h.deliverRecoverySync
    · split
      · exact h.same ⟨rfl, rfl, rfl, rfl, fun h => h⟩
      · exact h

private theorem judgePortal (h : WellScheduled s) : WellScheduled (s.judgePortal id) := by
  unfold System.judgePortal
  split
  · have hclear : WellScheduled (s.modify id fun d => { d with portalRecoveryRequested := false }) :=
      h.same ⟨rfl, rfl, rfl, rfl, fun h => h⟩
    dsimp only
    split
    · exact hclear.deliverRecoverySync
    · exact hclear
  · exact h

/-! ### The drain loop -/

omit [DecidableEq ι] in
/-- The drain loop is between two awaits: its duplex is in no queue and has not ended. -/
private theorem active (h : WellScheduled s) (hstage : (s.duplex id).stage = none)
    (hdrain : (s.duplex id).drain ≠ .idle) :
    id ∉ s.waitQueue ∧ id ∉ s.batches ∧ (s.duplex id).ended = false :=
  ⟨h.not_waiting (by simp [hstage]), h.not_batch (by simp [hstage]), h.not_ended hdrain⟩

private theorem processNext {d : Duplex} {next : Duplex.Next} (h : WellScheduled s)
    (hactive : (s.duplex id).drain = .active) (hd : (s.duplex id).SameSchedule d)
    (hterm : next = .terminate → d.live = false) : WellScheduled (s.processNext id d next) := by
  have hstage : (s.duplex id).stage = none := by simp [Duplex.stage, hactive]
  obtain ⟨hq, hb, he⟩ := h.active hstage (by simp [hactive])
  have hsame : WellScheduled (s.modify id fun _ => d) := h.same (f := fun _ => d) hd
  -- the loop goes on to another state with the record `d`
  have hmoved : ∀ g : Drain, WellScheduled (s.modify id fun _ => { d with drain := g }) := by
    intro g
    have hg := h.same (f := fun _ => { d with drain := .active })
      ⟨hactive.symm, hd.ended, hd.writable, hd.rollback, hd.live⟩
    refine h.modify (Or.inr ⟨hq, hb⟩) (fun hended => ?_) ?_ ?_ ?_
    · have : d.ended = true := hended
      rw [hd.ended, he] at this
      cases this
    · have := hg.rollback id
      rw [modify_same] at this
      exact this
    · rw [Duplex.rolling, hd.rollback]
      exact h.rolling id
    · intro hdec op hop ho
      refine h.decided op hop ?_
      rw [ho, Duplex.decided, ← hd.rollback]
      exact hdec
  cases next with
  | again => exact hsame
  | run batch mode =>
    refine hsame.acquireSession ?_ batch mode
    rw [modify_same, hd.drain]
    exact hactive
  | terminate =>
    refine (hmoved .terminating).rollbackIfInTransaction (Or.inr ?_)
    rw [modify_same]
    exact hterm rfl
  | throw message => exact hmoved .failing

private theorem process (h : WellScheduled s) (hs : s.process id = some s') : WellScheduled s' := by
  unfold System.process at hs
  split at hs
  · rename_i hactive
    have hstage : (s.duplex id).stage = none := by simp [Duplex.stage, hactive]
    obtain ⟨hq, hb, he⟩ := h.active hstage (by simp [hactive])
    split at hs
    · cases hs
      refine h.modify (Or.inr ⟨hq, hb⟩) (fun hended => ?_) (h.rollback id) (h.rolling id) fun hdec op hop ho => ?_
      · rw [he] at hended
        cases hended
      · refine h.decided op hop ?_
        rw [ho]
        exact hdec
    · cases hs
      exact h.drain hq hb he fun _ => .failing
    · rename_i message rest _
      cases hs
      have hrest : (s.duplex id).SameSchedule { s.duplex id with input := rest } :=
        ⟨rfl, rfl, rfl, rfl, fun h => h⟩
      unfold processTaken
      dsimp only
      split
      · exact h.processNext hactive hrest fun hterm => by cases hterm
      · obtain ⟨hsame, hterm⟩ := Duplex.processMessage_same { s.duplex id with input := rest } message
        exact h.processNext hactive ⟨hsame.drain, hsame.ended, hsame.writable, hsame.rollback, hsame.live⟩ hterm
  · rename_i hfailing
    have hstage : (s.duplex id).stage = none := by simp [Duplex.stage, hfailing]
    obtain ⟨hq, hb, he⟩ := h.active hstage (by simp [hfailing])
    cases hs
    refine destroyDuplex
      (h.modify (Or.inr ⟨hq, hb⟩) (fun hended => ?_) (h.rollback id) (h.rolling id) fun hdec op hop ho => ?_)
    · rw [he] at hended
      cases hended
    · refine h.decided op hop ?_
      rw [ho]
      exact hdec
  · cases hs

/-! ### Protocol calls -/

section Calls

variable {call : Call ι} {kind : CallKind} {mutex : List (ι × CallKind)} {response : List ResponseFrame}

private theorem filterMap_push {α β : Type} (g : α → Option β) (l : List α) (a : α) :
    (l ++ [a]).filterMap g = l.filterMap g ++ (g a).toList := by
  rw [List.filterMap_append]
  cases h : g a <;> simp [h]

private theorem filterMap_pop {α β : Type} (g : α → Option β) (l : List α) (a : α) :
    (a :: l).filterMap g = (g a).toList ++ l.filterMap g := by
  rw [List.filterMap_cons]
  cases g a <;> rfl

private theorem nodup_push {β : Type} {l : List β} (h : l.Nodup) (o : Option β) (ho : ∀ b, o = some b → b ∉ l) :
    (l ++ o.toList).Nodup := by
  cases o with
  | none =>
    rw [Option.toList_none, List.append_nil]
    exact h
  | some b =>
    refine h.append (List.nodup_singleton b) ?_
    intro other hmem hmem'
    rw [List.mem_singleton.1 hmem'] at hmem
    exact ho b rfl hmem

omit [DecidableEq ι] in
/-- An operation joins the queue of `runExclusive`. -/
private theorem push (h : WellScheduled s) (op : ι × CallKind)
    (hbatch : ∀ id, batchId op = some id → id ∉ s.batches ∧ (s.duplex id).stage = some .queued)
    (hrollback : ∀ id, rollbackId op = some id → id ∉ s.rollbacks ∧ (s.duplex id).rolling = true) :
    WellScheduled { s with mutex := s.mutex ++ [op] } := by
  have hops : ({ s with mutex := s.mutex ++ [op] } : System ι).ops = s.ops ++ [op] := by
    simp only [ops, runningOp, List.append_assoc]
  refine ⟨h.queue, h.waiters, ?_, ?_, h.ended, h.rollback, ?_, ?_, h.decided⟩
  · rw [batches, hops, filterMap_push]
    exact nodup_push h.unique _ fun id hid => (hbatch id hid).1
  · rw [batches, hops, filterMap_push]
    intro id hmem
    rw [List.mem_append, Option.mem_toList] at hmem
    rcases hmem with hmem | hop
    · exact h.queued id hmem
    · exact (hbatch id hop).2
  · rw [rollbacks, hops, filterMap_push]
    exact nodup_push h.single _ fun id hid => (hrollback id hid).1
  · rw [rollbacks, hops, filterMap_push]
    intro id hmem
    rw [List.mem_append, Option.mem_toList] at hmem
    rcases hmem with hmem | hop
    · exact h.rolling id hmem
    · exact (hrollback id hop).2

omit [DecidableEq ι] in
/-- The first operation, running or queued, is taken out; it is the only one of its duplex. -/
private theorem drop (h : WellScheduled s) (s' : System ι) (hd : s'.duplex = s.duplex) (hl : s'.lock = s.lock)
    (hops : s.ops = (id, kind) :: s'.ops) (hrun : s'.running = none) :
    WellScheduled s' ∧ (∀ mode, kind = .batch mode → id ∉ s'.batches ∧ (s.duplex id).stage = some .queued) ∧
      (kind = .rollback → id ∉ s'.rollbacks ∧ (s.duplex id).rolling = true) := by
  have hbatches : s.batches = (batchId (id, kind)).toList ++ s'.batches := by
    rw [batches, hops, filterMap_pop]
    rfl
  have hrollbacks : s.rollbacks = (rollbackId (id, kind)).toList ++ s'.rollbacks := by
    rw [rollbacks, hops, filterMap_pop]
    rfl
  have hunique := h.unique
  have hsingle := h.single
  rw [hbatches] at hunique
  rw [hrollbacks] at hsingle
  refine ⟨⟨?_, ?_, hunique.of_append_right, ?_, ?_, ?_, hsingle.of_append_right, ?_, ?_⟩, ?_, ?_⟩
  · rw [waitQueue, hl]
    exact h.queue
  · rw [waitQueue, hl, hd]
    exact h.waiters
  · intro other hmem
    rw [hd]
    exact h.queued other (by rw [hbatches]; exact List.mem_append_right _ hmem)
  · rw [hd]
    exact h.ended
  · rw [hd]
    exact h.rollback
  · intro other hmem
    rw [hd]
    exact h.rolling other (by rw [hrollbacks]; exact List.mem_append_right _ hmem)
  · intro op hop
    rw [runningOp, hrun] at hop
    cases hop
  · rintro mode rfl
    exact ⟨(List.nodup_cons.1 hunique).1, h.queued id (by rw [hbatches]; exact List.mem_cons_self ..)⟩
  · rintro rfl
    exact ⟨(List.nodup_cons.1 hsingle).1, h.rolling id (by rw [hrollbacks]; exact List.mem_cons_self ..)⟩

omit [DecidableEq ι] in
/-- The call at the head of the queue goes to PGlite. -/
private theorem opened (h : WellScheduled s) (hidle : s.running = none)
    (hmutex : s.mutex = (call.id, call.kind) :: mutex)
    (hdecided : (s.duplex call.id).decided = true → batchId (call.id, call.kind) = none) :
    WellScheduled { s with mutex, running := some call } := by
  have hops : ({ s with mutex, running := some call } : System ι).ops = s.ops := by
    simp only [ops, runningOp, hidle, hmutex, Option.map_none, Option.map_some, Option.toList_none,
      Option.toList_some, List.nil_append, List.singleton_append]
  refine ⟨h.queue, h.waiters, ?_, ?_, h.ended, h.rollback, ?_, ?_, ?_⟩
  · rw [batches, hops]
    exact h.unique
  · rw [batches, hops]
    exact h.queued
  · rw [rollbacks, hops]
    exact h.single
  · rw [rollbacks, hops]
    exact h.rolling
  · intro op hop
    cases hop
    exact hdecided

omit [DecidableEq ι] in
/-- The running call goes on. -/
private theorem advance (h : WellScheduled s) (call' : Call ι) (hrun : s.running = some call) (hid : call'.id = call.id)
    (hkind : call'.kind = call.kind) (session : Option ι) :
    WellScheduled (s.setCall call' session) := by
  refine h.of_eq rfl rfl ?_ rfl
  simp only [runningOp, setCall, hrun, Option.map_some, hid, hkind]

omit [DecidableEq ι] in
private theorem setSession (h : WellScheduled s) (session : Option ι) : WellScheduled { s with session } :=
  h.of_eq rfl rfl rfl rfl

omit [DecidableEq ι] in
theorem ops_of_running (hrun : s.running = some call) :
    s.ops = (call.id, call.kind) :: ({ s with running := none } : System ι).ops := by
  simp only [ops, runningOp, hrun, Option.map_none, Option.map_some, Option.toList_none, Option.toList_some,
    List.nil_append, List.singleton_append]

omit [DecidableEq ι] in
theorem ops_of_mutex (hidle : s.running = none) (hmutex : s.mutex = (id, kind) :: mutex) :
    s.ops = (id, kind) :: ({ s with mutex } : System ι).ops := by
  simp only [ops, runningOp, hidle, hmutex, Option.map_none, Option.toList_none, List.nil_append]

private theorem batchDone_live (d : Duplex) (h : d.live = false) : (batchDone d).live = false := by
  unfold batchDone Duplex.live at *
  cases hp : d.phase <;> simp_all

private theorem callDone_rollback (d : Duplex) : ((callDone d).rollback = .notStarted ↔ d.rollback = .notStarted) ∧
    (d.rolling = true → (callDone d).rolling = true) := by
  unfold callDone
  split
  · rename_i hr
    simp [hr, Duplex.rolling]
  · exact ⟨Iff.rfl, fun hr => hr⟩

/-- The duplex of an operation that has returned goes on. -/
private theorem resume (h : WellScheduled s) (hrun : s.running = none) {f : Duplex → Duplex}
    (hdrain : (f (s.duplex id)).drain = (s.duplex id).drain ∧ (f (s.duplex id)).writable = (s.duplex id).writable ∨
      id ∉ s.batches ∧ (s.duplex id).stage = some .queued)
    (hended : (f (s.duplex id)).ended = (s.duplex id).ended)
    (hrollback : (f (s.duplex id)).rollback ≠ .notStarted → (s.duplex id).rollback ≠ .notStarted)
    (hrolling : id ∈ s.rollbacks → (f (s.duplex id)).rolling = true)
    (hlive : (s.duplex id).live = false → (f (s.duplex id)).live = false) : WellScheduled (s.modify id f) := by
  refine h.modify ?_ ?_ ?_ hrolling ?_
  · rcases hdrain with ⟨hd, _⟩ | ⟨hb, hstage⟩
    · left
      simp only [Duplex.stage, hd]
    · exact Or.inr ⟨h.not_waiting (by simp [hstage]), hb⟩
  · rw [hended]
    intro he
    rcases hdrain with ⟨hd, hw⟩ | ⟨hb, hstage⟩
    · rw [hd, hw]
      exact h.ended id he
    · rw [Duplex.stage, (h.ended id he).1] at hstage
      cases hstage
  · intro hr
    rw [hended]
    exact (h.rollback id (hrollback hr)).imp_right hlive
  · intro _ op hop
    rw [runningOp, hrun] at hop
    cases hop

theorem finishCall (h : WellScheduled s) (hrun : s.running = some call) : WellScheduled (s.finishCall call) := by
  obtain ⟨hstop, hbatch, hroll⟩ := h.drop { s with running := none } rfl rfl (ops_of_running hrun) rfl
  unfold System.finishCall
  split
  · rename_i mode hkind
    refine hstop.resume rfl (Or.inr (hbatch mode hkind)) rfl ?_ ?_ (batchDone_live _)
    · exact fun hr hn => hr ((callDone_rollback _).1.2 hn)
    · exact fun hmem => (callDone_rollback _).2 (hstop.rolling _ hmem)
  · refine hstop.resume rfl (Or.inl ⟨rfl, rfl⟩) rfl ?_ ?_ (fun hl => hl)
    · exact fun hr hn => hr ((callDone_rollback _).1.2 hn)
    · exact fun hmem => (callDone_rollback _).2 (hstop.rolling _ hmem)
  · rename_i hkind
    obtain ⟨hnot, hrolling⟩ := hroll hkind
    refine hstop.resume rfl (Or.inl ⟨rfl, rfl⟩) rfl ?_ (fun hmem => absurd hmem hnot) (fun hl => hl)
    intro _ hn
    have hn' : (s.duplex call.id).rollback = .notStarted := hn
    rw [Duplex.rolling, hn'] at hrolling
    cases hrolling

private theorem start (h : WellScheduled s) (hidle : s.running = none) (hmutex : s.mutex = (id, kind) :: mutex) :
    WellScheduled ({ s with mutex }.startCall id kind response) := by
  obtain ⟨hpop, hbatch, hroll⟩ := h.drop { s with mutex } rfl rfl (ops_of_mutex hidle hmutex) hidle
  unfold startCall
  cases kind with
  | rollback =>
    obtain ⟨_, hrolling⟩ := hroll rfl
    have hopen : WellScheduled { s with mutex, running := some { id, kind := .rollback } } :=
      h.opened hidle hmutex fun _ => rfl
    refine hopen.modify (f := fun d => { d with rollback := .running }) (Or.inl rfl) (h.ended id)
      (fun _ => h.rollback id ?_) (fun _ => rfl) ?_
    · intro hn
      rw [Duplex.rolling, hn] at hrolling
      cases hrolling
    · intro _ op hop _
      cases hop
      rfl
  | batch mode =>
    obtain ⟨hb, hstage⟩ := hbatch mode rfl
    dsimp only
    split
    · rename_i hlive
      have hopen : WellScheduled { s with mutex, running := some { id, kind := .batch mode, response } } := by
        refine h.opened hidle hmutex fun hdec => ?_
        have hr : (s.duplex id).rollback ≠ .notStarted := by
          rw [Duplex.decided, Bool.and_eq_true, bne_iff_ne] at hdec
          exact hdec.1
        rcases h.rollback id hr with he | hl
        · rw [Duplex.stage, (h.ended id he).1] at hstage
          cases hstage
        · rw [show (s.duplex id).live = true from hlive] at hl
          cases hl
      exact hopen.same (f := Duplex.startCall) ⟨rfl, rfl, rfl, rfl, fun h => h⟩
    · exact hpop.resume hidle (Or.inr ⟨hb, hstage⟩) rfl (fun hr => hr) (hpop.rolling id) (batchDone_live _)
  | recovery =>
    dsimp only
    split
    · have hopen : WellScheduled { s with mutex, running := some { id, kind := .recovery, response } } :=
        h.opened hidle hmutex fun _ => rfl
      exact hopen.same (f := fun d => { d.startCall with recovery := some .running })
        ⟨rfl, rfl, rfl, rfl, fun h => h⟩
    · exact hpop.same ⟨rfl, rfl, rfl, rfl, fun h => h⟩

private theorem onChunk_same (d : Duplex) (fr : ResponseFrame) : d.SameSchedule (d.onChunk fr) := by
  unfold Duplex.onChunk
  split <;> exact ⟨rfl, rfl, rfl, rfl, fun h => h⟩

private theorem receive {fr : ResponseFrame} (h : WellScheduled s) (hrun : s.running = some call) :
    WellScheduled (s.receive call response fr) := by
  cases fr with
  | errorResponse =>
    rw [receive_errorResponse]
    have hs := onChunk_same (s.duplex call.id).onErrorResponse .errorResponse
    have hchunk : WellScheduled (s.modify call.id fun d => d.onErrorResponse.onChunk .errorResponse) :=
      h.same (f := fun d => d.onErrorResponse.onChunk .errorResponse)
        ⟨hs.drain, hs.ended, hs.writable, hs.rollback, hs.live⟩
    exact hchunk.advance { call with response, held := none } hrun rfl rfl _
  | other =>
    rw [receive_other]
    have hchunk : WellScheduled (s.modify call.id fun d => d.onChunk .other) := h.same (onChunk_same _ _)
    exact hchunk.advance { call with response, held := none } hrun rfl rfl _
  | readyForQuery status =>
    have hnoted : WellScheduled (s.noteReadyForQuery call response status) := by
      have hstatus : WellScheduled (s.modify call.id fun d => d.onReadyForQuery status) :=
        h.same ⟨rfl, rfl, rfl, rfl, fun h => h⟩
      exact WellScheduled.updateStatus (hstatus.advance
        { call with response, held := if call.kind.mode.suppresses then some status else none } hrun rfl rfl _) status
    rw [receive_readyForQuery]
    split
    · exact hnoted
    · exact hnoted.same (onChunk_same _ _)

theorem flushHeld (h : WellScheduled s) : WellScheduled (s.flushHeld call) := by
  unfold System.flushHeld
  split
  · refine h.same ?_
    split
    · exact ⟨rfl, rfl, rfl, rfl, fun h => h⟩
    · exact onChunk_same _ _
  · exact h

theorem settlePortal (h : WellScheduled s) {synced : Bool} : WellScheduled (s.settlePortal call synced) := by
  have hportal : ∀ suspended, WellScheduled (s.modify call.id fun d => { d with portalSuspended := suspended }) :=
    fun _ => h.same ⟨rfl, rfl, rfl, rfl, fun h => h⟩
  unfold System.settlePortal
  dsimp only
  split
  · exact (hportal true).setSession _
  · split
    · exact ((hportal false).setSession _).release
    · exact hportal false

theorem settlePortal_running {synced : Bool} : (s.settlePortal call synced).running = s.running := by
  unfold System.settlePortal
  dsimp only
  split
  · rfl
  · split
    · rw [local_release.running]
      rfl
    · rfl

theorem flushHeld_running : (s.flushHeld call).running = s.running := by
  unfold System.flushHeld
  split <;> rfl

private theorem flushCall (h : WellScheduled s) (hrun : s.running = some call) : WellScheduled (s.flushCall call) := by
  have hheld : WellScheduled (s.flushHeld call) := h.flushHeld
  have hrun' : (s.flushHeld call).running = some call := flushHeld_running.trans hrun
  unfold System.flushCall
  dsimp only
  split
  · split
    · exact hheld.advance { call with recovering := true } hrun' rfl rfl (s.flushHeld call).session
    · exact hheld.settlePortal.finishCall (settlePortal_running.trans hrun')
  · exact hheld.finishCall hrun'

private theorem recoveredCall {ok : Bool} (h : WellScheduled s) (hrun : s.running = some call) :
    WellScheduled (s.recoveredCall call ok) := by
  unfold System.recoveredCall
  cases ok with
  | true => exact h.settlePortal.finishCall (settlePortal_running.trans hrun)
  | false =>
    have hlocal : Local none s (s.destroyDuplex call.id) := local_destroyDuplex
    exact h.destroyDuplex.settlePortal.finishCall (settlePortal_running.trans (hlocal.running.trans hrun))

private theorem throwCall (h : WellScheduled s) (hrun : s.running = some call) (hkind : call.kind ≠ .rollback) :
    WellScheduled (s.throwCall call) := by
  obtain ⟨hstop, hbatch, _⟩ := h.drop { s with running := none } rfl rfl (ops_of_running hrun) rfl
  unfold System.throwCall
  split
  · rename_i mode hmode
    refine hstop.resume rfl (Or.inr (hbatch mode hmode)) rfl ?_ ?_ (fun hl => hl)
    · exact fun hr hn => hr ((callDone_rollback _).1.2 hn)
    · exact fun hmem => (callDone_rollback _).2 (hstop.rolling _ hmem)
  · have hdone : WellScheduled ({ s with running := none }.modify call.id fun d =>
        callDone { d with recovery := none }) := by
      refine hstop.resume rfl (Or.inl ⟨rfl, rfl⟩) rfl ?_ ?_ (fun hl => hl)
      · exact fun hr hn => hr ((callDone_rollback _).1.2 hn)
      · exact fun hmem => (callDone_rollback _).2 (hstop.rolling _ hmem)
    dsimp only
    split
    · exact hdone
    · exact hdone.destroyDuplex
  · rename_i hroll
    exact absurd hroll hkind

end Calls

/-! ### Steps and runs -/

omit [DecidableEq ι] in
theorem admitted_stage {op : Op} (h : s.admitted id = some op) :
    (s.duplex id).stage = some .admitted ∧ (s.duplex id).drain ≠ .idle := by
  unfold System.admitted at h
  split at h
  · rename_i op' hdrain
    split at h
    · rename_i hstage
      refine ⟨by simp [Duplex.stage, hdrain, hstage], by simp [hdrain]⟩
    · cases h
  · cases h

omit [DecidableEq ι] in
private theorem idle_nowhere (h : WellScheduled s) (hidle : (s.duplex id).drain = .idle) :
    id ∉ s.waitQueue ∧ id ∉ s.batches := by
  have hstage : (s.duplex id).stage = none := by simp [Duplex.stage, hidle]
  exact ⟨h.not_waiting (by simp [hstage]), h.not_batch (by simp [hstage])⟩

theorem step {a : Action ι} (h : WellScheduled s) (hs : s.step a = some s') : WellScheduled s' := by
  cases a with
  | write id chunk =>
    simp only [System.step] at hs
    split at hs
    · cases hs
    · rename_i hguard
      cases hs
      rw [not_or, Bool.not_eq_true, Bool.not_eq_true] at hguard
      refine h.modify (Or.inl rfl) (fun he => ?_) (h.rollback id) (h.rolling id) fun hdec op hop ho => ?_
      · rw [hguard.2] at he
        cases he
      · refine h.decided op hop ?_
        rw [ho]
        exact hdec
  | deliver id count =>
    simp only [System.step] at hs
    split at hs
    · cases hs
    · rename_i hguard
      simp only [not_or, not_not, Nat.not_lt] at hguard
      obtain ⟨_, hidle, hcount, hlen⟩ := hguard
      have hended : (s.duplex id).ended = false := by
        by_contra he
        rw [Bool.not_eq_false] at he
        rw [(h.ended id he).2, List.length_nil] at hlen
        omega
      obtain ⟨hq, hb⟩ := h.idle_nowhere hidle
      have hmoved : ∀ f : Duplex → Duplex, (f (s.duplex id)).ended = (s.duplex id).ended →
          (f (s.duplex id)).rollback = (s.duplex id).rollback →
          (f (s.duplex id)).live = (s.duplex id).live → WellScheduled (s.modify id f) := by
        intro f he hr hl
        refine h.modify (Or.inr ⟨hq, hb⟩) ?_ ?_ ?_ ?_
        · rw [he, hended]
          exact fun hfalse => by cases hfalse
        · rw [he, hr, hl]
          exact h.rollback id
        · rw [Duplex.rolling, hr]
          exact h.rolling id
        · intro hdec op hop ho
          refine h.decided op hop ?_
          rw [ho, Duplex.decided, ← hr]
          exact hdec
      split at hs
      · cases hs
        exact hmoved _ rfl rfl rfl
      · cases hs
        exact hmoved _ rfl rfl rfl
  | process id => exact h.process hs
  | tail id =>
    simp only [System.step] at hs
    split at hs
    · cases hs
    · cases hs
      exact WellScheduled.judgePortal (h.same ⟨rfl, rfl, rfl, rfl, fun h => h⟩)
  | pgliteReady id =>
    simp only [System.step] at hs
    split at hs
    · rename_i op hop
      cases hs
      obtain ⟨hstage, hidle⟩ := admitted_stage hop
      have hq : id ∉ s.waitQueue := h.not_waiting (by simp [hstage])
      have hb : id ∉ s.batches := h.not_batch (by simp [hstage])
      have hdrain := h.drain hq hb (h.not_ended hidle) fun _ => .busy { op with stage := .queued }
      refine hdrain.push (id, .batch op.mode) ?_ (fun _ hop => by cases hop)
      intro other hother
      cases hother
      refine ⟨hb, ?_⟩
      rw [modify_same]
      rfl
    · cases hs
  | pgliteNotReady id =>
    simp only [System.step] at hs
    split at hs
    · rename_i op hop
      cases hs
      obtain ⟨hstage, hidle⟩ := admitted_stage hop
      exact h.drain (h.not_waiting (by simp [hstage])) (h.not_batch (by simp [hstage]))
        (h.not_ended hidle) fun _ => .failing
    · cases hs
  | recoveryReady id =>
    simp only [System.step] at hs
    split at hs
    · cases hs
      exact (h.same (f := fun d => { d with recovery := some .queued }) ⟨rfl, rfl, rfl, rfl, fun h => h⟩).push
        (id, .recovery) (fun _ hop => by cases hop) (fun _ hop => by cases hop)
    · cases hs
  | recoveryNotReady id =>
    simp only [System.step] at hs
    split at hs
    · cases hs
      have hdone : WellScheduled (s.modify id fun d => { d with recovery := none }) :=
        h.same ⟨rfl, rfl, rfl, rfl, fun h => h⟩
      split
      · exact hdone
      · exact hdone.destroyDuplex
    · cases hs
  | queryRollback id ok =>
    simp only [System.step] at hs
    split at hs
    · rename_i hquery
      cases hs
      have hdec : (s.duplex id).decided = true := by
        rw [Duplex.decided, hquery]
        rfl
      have hnot : id ∉ s.rollbacks := by
        intro hmem
        have hrolling := h.rolling id hmem
        rw [Duplex.rolling, hquery] at hrolling
        cases hrolling
      have hmoved : ∀ next : Rollback, WellScheduled (s.modify id fun d => { d with rollback := next }) := by
        intro next
        refine h.modify (Or.inl rfl) (h.ended id) (fun _ => h.rollback id ?_) (fun hmem => absurd hmem hnot)
          fun _ op hop ho => ?_
        · simp [hquery]
        · refine h.decided op hop ?_
          rw [ho]
          exact hdec
      split
      · refine (hmoved .queued).push (id, .rollback) (fun _ hop => by cases hop) ?_
        intro other hother
        cases hother
        refine ⟨hnot, ?_⟩
        rw [modify_same]
        rfl
      · exact hmoved .settled
    · cases hs
  | start response =>
    simp only [System.step] at hs
    split at hs
    · rename_i id kind mutex hidle hmutex
      cases hs
      exact h.start hidle hmutex
    · cases hs
  | frame =>
    simp only [System.step] at hs
    split at hs
    · rename_i call hrun
      split at hs
      · cases hs
        exact h.receive hrun
      · cases hs
    · cases hs
  | flush =>
    simp only [System.step] at hs
    split at hs
    · rename_i call hrun
      split at hs
      · cases hs
      · cases hs
        exact h.flushCall hrun
    · cases hs
  | recovered ok =>
    simp only [System.step] at hs
    split at hs
    · rename_i call hrun
      split at hs
      · cases hs
        exact h.recoveredCall hrun
      · cases hs
    · cases hs
  | throw =>
    simp only [System.step] at hs
    split at hs
    · rename_i call hrun
      split at hs
      · cases hs
      · rename_i hguard
        cases hs
        exact h.throwCall hrun fun hkind => hguard (Or.inl hkind)
    · cases hs
  | rolledBack ok =>
    simp only [System.step] at hs
    split at hs
    · rename_i call hrun
      split at hs
      · cases hs
        have hfinish := h.finishCall hrun
        split
        · exact (hfinish.same (f := fun d => { d with lastSeenRfqStatus := some RFQ_STATUS_IDLE })
            ⟨rfl, rfl, rfl, rfl, fun h => h⟩).setSession none
        · exact hfinish
      · cases hs
    · cases hs
  | releaseAbandonedPortalHold id =>
    cases hs
    exact h.releasePortal
  | final id =>
    simp only [System.step] at hs
    split at hs
    · cases hs
    · rename_i hguard
      cases hs
      simp only [not_or, not_not] at hguard
      obtain ⟨_, _, hidle, hwritable⟩ := hguard
      have hended : WellScheduled (s.modify id fun d => { d with ended := true, finalWaits := true }) := by
        refine h.modify (Or.inl rfl) (fun _ => ⟨hidle, hwritable⟩) (fun _ => Or.inl rfl) (h.rolling id) ?_
        intro hdec op hop ho
        refine h.decided op hop ?_
        rw [ho]
        exact hdec
      refine hended.rollbackIfInTransaction (Or.inl ?_)
      rw [modify_same]
  | destroy id =>
    simp only [System.step] at hs
    split at hs
    · cases hs
    · cases hs
      exact h.destroyDuplex
  | decide id =>
    simp only [System.step] at hs
    split at hs
    · rename_i hdeciding
      cases hs
      have hroll : (s.duplex id).rolling = false := by
        rw [Duplex.rolling, hdeciding]
        rfl
      refine h.decideRollback (h.rollback id (by simp [hdeciding])) hroll fun op hop ho => ?_
      refine h.decided op hop ?_
      rw [ho, Duplex.decided, hdeciding]
      rfl
    · cases hs
  | finalRelease id =>
    simp only [System.step] at hs
    split at hs
    · cases hs
      have hdone : WellScheduled (s.modify id fun d => { d with finalWaits := false }) :=
        h.same ⟨rfl, rfl, rfl, rfl, fun h => h⟩
      split
      · exact hdone
      · exact hdone.release.same ⟨rfl, rfl, rfl, rfl, fun h => h⟩
    · cases hs
  | destroyCancel id =>
    simp only [System.step] at hs
    split at hs
    · cases hs
      exact WellScheduled.cancel (h.same ⟨rfl, rfl, rfl, rfl, fun h => h⟩)
    · cases hs
  | terminateRelease id =>
    simp only [System.step] at hs
    split at hs
    · rename_i hguard
      cases hs
      have hstage : (s.duplex id).stage = none := by simp [Duplex.stage, hguard.1]
      obtain ⟨hq, hb, he⟩ := h.active hstage (by simp [hguard.1])
      exact (h.drain hq hb he fun _ => .active).release.same ⟨rfl, rfl, rfl, rfl, fun h => h⟩
    · cases hs

end WellScheduled

omit [DecidableEq ι] in
theorem wellScheduled_initial (locked : Bool) (cap : ι → Nat) : WellScheduled (initial locked cap) := by
  have hqueue : (initial locked cap).waitQueue = [] := by cases locked <;> rfl
  constructor
  case queue => rw [hqueue]; exact List.nodup_nil
  case waiters => simp [hqueue]
  case unique => exact List.nodup_nil
  case queued => exact fun _ hmem => by cases hmem
  case ended => exact fun _ he => by cases he
  case rollback => exact fun _ hr => absurd rfl hr
  case single => exact List.nodup_nil
  case rolling => exact fun _ hmem => by cases hmem
  case decided => exact fun _ hop => by cases hop

theorem wellScheduled {cond : System ι → Action ι → Prop} (locked : Bool) (cap : ι → Nat)
    (run : Run System.step cond (initial locked cap) s) : WellScheduled s :=
  run.invariant (wellScheduled_initial locked cap) fun _ _ _ h _ hs => h.step hs

end System

end PgliteBridge
