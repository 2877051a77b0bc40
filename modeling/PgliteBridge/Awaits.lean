import PgliteBridge.EndOfStream

/-!
# What the duplexes wait for

In every run of the duplexes of one PGlite, what a duplex waits for is on its way (`Due`).  A batch that waits in
`acquire` is in the queue of the lock, an operation that waits for `runExclusive` is in its queue, a teardown has its
rollback, and who owns the session or waits for it can still be served or will hand it over (`Tracked`).
-/

namespace PgliteBridge

open TransitionSystem

/-! ### The lock -/

namespace SessionLock

variable {ι : Type} [DecidableEq ι] {l : SessionLock ι} {id : ι}

structure Fair (l : SessionLock ι) : Prop where
  nodup : l.waitQueue.Nodup
  apart : ∀ id, l.owner = some id → id ∉ l.waitQueue
  free : l.owner = none → l.waitQueue = []

/-- Waiters leave the queue by being settled, and only a waiter becomes the owner. -/
structure Passes (l : SessionLock ι) (outcome : Outcome ι) : Prop where
  fair : outcome.lock.Fair
  settled : ∀ id ∈ outcome.settled.map Settlement.id, id ∈ l.waitQueue
  queue : ∀ id, id ∈ outcome.lock.waitQueue ↔ id ∈ l.waitQueue ∧ id ∉ outcome.settled.map Settlement.id
  owner : ∀ id, outcome.lock.owner = some id → l.owner = some id ∨ id ∈ l.waitQueue

omit [DecidableEq ι] in
private theorem passes_refl (h : l.Fair) : l.Passes { lock := l } :=
  ⟨h, fun _ hmem => by (cases hmem), fun _ => by simp, fun _ ho => Or.inl ho⟩

omit [DecidableEq ι] in
private theorem passes_drainWaitQueue (h : l.Fair) : l.Passes (drainWaitQueue { l with owner := none }) := by
  rcases l with ⟨owner, _ | ⟨next, rest⟩⟩
  · exact ⟨⟨List.nodup_nil, fun _ ho => by (cases ho), fun _ => rfl⟩, fun _ hmem => by (cases hmem),
      fun _ => by simp [drainWaitQueue],
      fun _ ho => by (cases ho)⟩
  · obtain ⟨hnext, hrest⟩ := List.nodup_cons.1 h.nodup
    refine ⟨⟨hrest, fun id ho => ?_, fun ho => by (cases ho)⟩, fun id hmem => ?_, fun id => ?_, fun id ho => ?_⟩
    · cases ho
      exact hnext
    · rw [List.mem_singleton.1 hmem]
      exact List.mem_cons_self
    · simp only [drainWaitQueue, List.map_cons, List.map_nil, List.mem_cons, Settlement.id, List.not_mem_nil, or_false]
      constructor
      · intro hmem
        exact ⟨Or.inr hmem, fun he => hnext (he ▸ hmem)⟩
      · rintro ⟨he | hmem, hne⟩
        · exact absurd he hne
        · exact hmem
    · cases ho
      exact Or.inr List.mem_cons_self

theorem passes_release (h : l.Fair) : l.Passes (l.release id) := by
  unfold release
  split
  · obtain ⟨hf, hs, hq, ho⟩ := passes_drainWaitQueue h
    exact ⟨hf, hs, hq, ho⟩
  · exact passes_refl h

theorem passes_updateStatus (h : l.Fair) (status : UInt8) : l.Passes (l.updateStatus id status) := by
  unfold updateStatus
  split
  · obtain ⟨hf, hs, hq, ho⟩ := passes_drainWaitQueue h
    exact ⟨hf, hs, hq, ho⟩
  · exact passes_refl h

theorem passes_cancel (h : l.Fair) : l.Passes (l.cancel id) := by
  have hdrained : l.Passes (if l.owner = some id then drainWaitQueue { l with owner := none } else { lock := l }) := by
    split
    · exact passes_drainWaitQueue h
    · exact passes_refl h
  unfold cancel
  dsimp only
  generalize (if l.owner = some id then drainWaitQueue { l with owner := none } else { lock := l }) = drained
    at hdrained
  obtain ⟨hf, hs, hq, ho⟩ := hdrained
  have hrejected : ∀ other,
      other ∈ ((drained.lock.waitQueue.filter (· = id)).map Settlement.rejected).map Settlement.id ↔
        other ∈ drained.lock.waitQueue ∧ other = id := by
    intro other
    simp [Settlement.id]
  refine ⟨⟨hf.nodup.filter _, fun other hother hmem => ?_, fun hnone => ?_⟩, fun other hmem => ?_, fun other => ?_, ho⟩
  · exact hf.apart other hother (List.mem_of_mem_filter hmem)
  · rw [hf.free hnone]
    rfl
  · rw [List.map_append, List.mem_append, hrejected] at hmem
    rcases hmem with hmem | ⟨hmem, -⟩
    · exact hs other hmem
    · exact ((hq other).1 hmem).1
  · rw [List.map_append, List.mem_append, hrejected, List.mem_filter, hq]
    simp only [decide_eq_true_eq]
    constructor
    · rintro ⟨⟨hin, hout⟩, hne⟩
      exact ⟨hin, fun hmem => hmem.elim hout fun he => hne he.2⟩
    · rintro ⟨hin, hout⟩
      have hmem : other ∉ drained.settled.map Settlement.id := fun hmem => hout (Or.inl hmem)
      exact ⟨⟨hin, hmem⟩, fun he => hout (Or.inr ⟨⟨hin, hmem⟩, he⟩)⟩

/-- Behind its `release` an owner has no more to do with the session. -/
theorem release_leaves (h : l.Fair) (hq : id ∉ l.waitQueue) :
    (l.release id).lock.owner ≠ some id ∧ id ∉ (l.release id).lock.waitQueue := by
  refine ⟨fun ho => ?_, fun hmem => hq (((passes_release h).queue id).1 hmem).1⟩
  unfold release at ho
  split at ho
  · rcases l with ⟨owner, _ | ⟨next, rest⟩⟩
    · cases ho
    · cases ho
      exact hq List.mem_cons_self
  · rename_i hne
    exact hne ho

private theorem cancel_leaves (h : l.Fair) (id : ι) :
    (l.cancel id).lock.owner ≠ some id ∧ id ∉ (l.cancel id).lock.waitQueue := by
  constructor
  · intro ho
    simp only [cancel] at ho
    split at ho
    · rename_i howner
      have hq := h.apart id howner
      rcases l with ⟨owner, _ | ⟨next, rest⟩⟩
      · cases ho
      · cases ho
        exact hq List.mem_cons_self
    · rename_i hne
      exact hne ho
  · intro hmem
    simp [cancel] at hmem

end SessionLock

/-! ### What a duplex waits for -/

/-- A duplex with a right to the session can be served, or a teardown will hand the session over. -/
structure Duplex.MayHold (d : Duplex) : Prop where
  tornDown : d.tornDown = true → d.destroyWaits = true
  terminated : d.phase = .terminated → d.drain = .terminating ∨ d.destroyWaits = true
  ended : d.ended = true → d.finalWaits = true ∨ d.destroyWaits = true

namespace System

variable {ι : Type} [DecidableEq ι]

def Claims (s : System ι) (id : ι) : Prop := s.owner = some id ∨ id ∈ s.waitQueue

/-- What the duplex waits for has been asked for. -/
structure Tracked (s : System ι) (id : ι) (d : Duplex) : Prop where
  acquiring : d.stage = some .acquiring ↔ id ∈ s.waitQueue
  batch : d.stage = some .queued → ∃ mode, (id, .batch mode) ∈ s.ops
  recovery : d.recovery = some .queued ∨ d.recovery = some .running → (id, .recovery) ∈ s.ops
  rollback : d.rolling = true → (id, .rollback) ∈ s.ops
  awaiting : d.rollback = .awaitingCall → s.inCall id = true
  stages : d.stage ≠ some .running ∧ d.recovery ≠ some .acquiring
  waits : d.finalWaits = true ∨ d.destroyWaits = true ∨ d.drain = .terminating → d.rollback ≠ .notStarted
  cleared : d.tornDown = true → d.input = []
  holds : s.Claims id → d.MayHold

structure Due (s : System ι) : Prop where
  tracked : ∀ id, s.Tracked id (s.duplex id)
  fair : ∀ l, s.lock = some l → l.Fair

/-- A change that concerns nothing that is waited for. -/
structure Untracked (d d' : Duplex) : Prop where
  drain : d'.drain = d.drain
  recovery : d'.recovery = d.recovery
  rollback : d'.rollback = d.rollback
  tornDown : d'.tornDown = d.tornDown
  phase : d'.phase = d.phase
  ended : d'.ended = d.ended
  finalWaits : d'.finalWaits = d.finalWaits
  destroyWaits : d'.destroyWaits = d.destroyWaits
  input : d.tornDown = true → d.input = [] → d'.input = []

variable {s s' : System ι} {id : ι} {f : Duplex → Duplex} {d d' : Duplex}

omit [DecidableEq ι] in
theorem waitQueue_of_lock {l : SessionLock ι} (hl : s.lock = some l) : s.waitQueue = l.waitQueue := by
  rw [waitQueue, hl]
  rfl

omit [DecidableEq ι] in
private theorem claims_of_lock {l : SessionLock ι} (hl : s.lock = some l) :
    s.Claims id ↔ l.owner = some id ∨ id ∈ l.waitQueue := by
  rw [Claims, owner_of_lock hl, waitQueue_of_lock hl]

/-- A change of one duplex. -/
private theorem Due.modify (h : Due s) (hf : s.Tracked id (s.duplex id) → s.Tracked id (f (s.duplex id))) :
    Due (s.modify id f) := by
  refine ⟨fun other => ?_, h.fair⟩
  have hsame : ∀ d, s.Tracked other d → (s.modify id f).Tracked other d := fun _ ht =>
    ⟨ht.acquiring, ht.batch, ht.recovery, ht.rollback, ht.awaiting, ht.stages, ht.waits, ht.cleared, ht.holds⟩
  apply hsame
  by_cases ho : other = id
  · subst ho
    rw [modify_same]
    exact hf (h.tracked other)
  · rw [modify_other ho]
    exact h.tracked other

private theorem Tracked.untracked (h : s.Tracked id d) (hd : Untracked d d') : s.Tracked id d' := by
  have hstage : d'.stage = d.stage := by rw [Duplex.stage, hd.drain, Duplex.stage]
  refine ⟨?_, ?_, ?_, ?_, ?_, ?_, ?_, ?_, fun hc => ⟨?_, ?_, ?_⟩⟩
  · rw [hstage]
    exact h.acquiring
  · rw [hstage]
    exact h.batch
  · rw [hd.recovery]
    exact h.recovery
  · rw [Duplex.rolling, hd.rollback]
    exact h.rollback
  · rw [hd.rollback]
    exact h.awaiting
  · rw [hstage, hd.recovery]
    exact h.stages
  · rw [hd.finalWaits, hd.destroyWaits, hd.drain, hd.rollback]
    exact h.waits
  · rw [hd.tornDown]
    exact fun ht => hd.input ht (h.cleared ht)
  · rw [hd.tornDown, hd.destroyWaits]
    exact (h.holds hc).tornDown
  · rw [hd.phase, hd.drain, hd.destroyWaits]
    exact (h.holds hc).terminated
  · rw [hd.ended, hd.finalWaits, hd.destroyWaits]
    exact (h.holds hc).ended

private theorem Due.same (h : Due s) (hf : Untracked (s.duplex id) (f (s.duplex id))) : Due (s.modify id f) :=
  h.modify fun ht => ht.untracked hf

/-- The drain loop goes on: to an await that has been asked for, or to none. -/
private theorem Tracked.drain (h : s.Tracked id d) (hq : id ∉ s.waitQueue) (hterm : d.drain ≠ .terminating)
    (drain : Drain)
    (hdrain : drain ≠ .terminating) (hacq : ({ d with drain } : Duplex).stage ≠ some .acquiring)
    (hqueued : ({ d with drain } : Duplex).stage = some .queued → ∃ mode, (id, .batch mode) ∈ s.ops)
    (hrunning : ({ d with drain } : Duplex).stage ≠ some .running) : s.Tracked id { d with drain } := by
  refine ⟨⟨fun ha => absurd ha hacq, fun hmem => absurd hmem hq⟩, hqueued, h.recovery, h.rollback, h.awaiting,
    ⟨hrunning, h.stages.2⟩, ?_, h.cleared, fun hc => ⟨(h.holds hc).tornDown, fun hp => ?_, (h.holds hc).ended⟩⟩
  · rintro (hw | hw | hw)
    · exact h.waits (Or.inl hw)
    · exact h.waits (Or.inr (Or.inl hw))
    · exact absurd hw hdrain
  · exact Or.inr (((h.holds hc).terminated hp).resolve_left hterm)

/-- The drain loop awaits nothing. -/
private theorem Tracked.loop (h : s.Tracked id d) (hq : id ∉ s.waitQueue) (hterm : d.drain ≠ .terminating)
    {drain : Drain}
    (hdrain : drain = .idle ∨ drain = .active ∨ drain = .failing) : s.Tracked id { d with drain } := by
  have hstage : ({ d with drain } : Duplex).stage = none := by rcases hdrain with rfl | rfl | rfl <;> rfl
  refine h.drain hq hterm _ ?_ ?_ ?_ ?_
  · rcases hdrain with rfl | rfl | rfl <;> exact fun he => by cases he
  · exact fun he => by cases hstage.symm.trans he
  · exact fun he => by cases hstage.symm.trans he
  · exact fun he => by cases hstage.symm.trans he

/-- The delivery of a recovery Sync goes on. -/
private theorem Tracked.recover (h : s.Tracked id d) (recovery : Option OpStage) (hne : recovery ≠ some .acquiring)
    (hmem : recovery = some .queued ∨ recovery = some .running → (id, .recovery) ∈ s.ops) :
    s.Tracked id { d with recovery } := by
  refine ⟨h.acquiring, h.batch, hmem, h.rollback, h.awaiting, ⟨h.stages.1, hne⟩, h.waits, h.cleared, fun hc => ?_⟩
  obtain ⟨htorn, hterm, hended⟩ := h.holds hc
  exact ⟨htorn, hterm, hended⟩

/-- The rollback of a teardown goes on. -/
private theorem Tracked.roll (h : s.Tracked id d) (rollback : Rollback) (hstarted : rollback ≠ .notStarted)
    (hmem : rollback = .queued ∨ rollback = .running → (id, .rollback) ∈ s.ops)
    (hcall : rollback = .awaitingCall → s.inCall id = true) : s.Tracked id { d with rollback } := by
  refine ⟨h.acquiring, h.batch, h.recovery, fun hr => hmem ?_, hcall, h.stages, fun _ => hstarted, h.cleared,
    fun hc => ?_⟩
  · simpa [Duplex.rolling] using hr
  · obtain ⟨htorn, hterm, hended⟩ := h.holds hc
    exact ⟨htorn, hterm, hended⟩

/-! ### The lock -/

/-- A settled `acquire` lets the drain loop go on, or stops it. -/
def settledDrain : Settlement ι → Drain → Drain
  | .resolved _, .busy op => .busy { op with stage := .admitted }
  | .resolved _, drain => drain
  | .rejected _, _ => .failing

private theorem settleOne_at (settlement : Settlement ι) : (s.settleOne settlement).duplex settlement.id =
    { s.duplex settlement.id with drain := settledDrain settlement (s.duplex settlement.id).drain } := by
  cases settlement with
  | resolved other =>
    simp only [settleOne, Settlement.id]
    rw [modify_same]
    cases hd : (s.duplex other).drain <;> simp [settledDrain, ← hd]
  | rejected other =>
    simp only [settleOne, Settlement.id]
    rw [modify_same]
    rfl

/-- Admitted, or stopped by an error. -/
def Through (drain : Drain) : Prop := drain = .failing ∨ ∃ op, drain = .busy op ∧ op.stage = .admitted

omit [DecidableEq ι] in
theorem through_settled (settlement : Settlement ι) {drain : Drain}
    (h : Through drain ∨ ∃ op, drain = .busy op) : Through (settledDrain settlement drain) := by
  cases settlement with
  | rejected other => exact Or.inl rfl
  | resolved other =>
    rcases h with (rfl | ⟨op, rfl, -⟩) | ⟨op, rfl⟩
    · exact Or.inl rfl
    · exact Or.inr ⟨_, rfl, rfl⟩
    · exact Or.inr ⟨_, rfl, rfl⟩

/-- The duplexes behind a list of settlements. -/
theorem settle_duplex (settled : List (Settlement ι)) (s : System ι) (id : ι) :
    ∃ drain, (settled.foldl System.settleOne s).duplex id = { s.duplex id with drain } ∧
      (id ∉ settled.map Settlement.id → drain = (s.duplex id).drain) ∧
      (Through (s.duplex id).drain ∨ id ∈ settled.map Settlement.id ∧ (∃ op, (s.duplex id).drain = .busy op) →
        Through drain) := by
  induction settled generalizing s with
  | nil => exact ⟨_, rfl, fun _ => rfl, fun h => h.resolve_right fun hmem => (by cases hmem.1)⟩
  | cons settlement settled ih =>
    obtain ⟨drain, hdrain, hout, hin⟩ := ih (s.settleOne settlement)
    by_cases hid : settlement.id = id
    · subst hid
      rw [settleOne_at] at hdrain hout hin
      refine ⟨drain, hdrain, fun hmem => absurd List.mem_cons_self hmem, fun h => hin (Or.inl ?_)⟩
      exact through_settled settlement (h.imp_right fun hmem => hmem.2)
    · rw [settleOne_other hid] at hdrain hout hin
      refine ⟨drain, hdrain, fun hmem => hout fun hin => hmem (List.mem_cons_of_mem _ hin), fun h => hin ?_⟩
      refine h.imp_right fun hmem => ⟨?_, hmem.2⟩
      exact (List.mem_cons.1 hmem.1).resolve_left (Ne.symm hid)

theorem applyLock_frame (outcome : SessionLock.Outcome ι) : (s.applyLock outcome).lock = some outcome.lock ∧
    (s.applyLock outcome).running = s.running ∧ (s.applyLock outcome).mutex = s.mutex := by
  have hsettle : ∀ (settled : List (Settlement ι)) (s : System ι), (settled.foldl System.settleOne s).lock = s.lock ∧
      (settled.foldl System.settleOne s).running = s.running ∧ (settled.foldl System.settleOne s).mutex = s.mutex := by
    intro settled
    induction settled with
    | nil => exact fun s => ⟨rfl, rfl, rfl⟩
    | cons settlement settled ih =>
      intro s
      obtain ⟨hl, hr, hm⟩ := ih (s.settleOne settlement)
      have hone : (s.settleOne settlement).lock = s.lock ∧ (s.settleOne settlement).running = s.running ∧
          (s.settleOne settlement).mutex = s.mutex := by cases settlement <;> exact ⟨rfl, rfl, rfl⟩
      exact ⟨hl.trans hone.1, hr.trans hone.2.1, hm.trans hone.2.2⟩
  exact hsettle outcome.settled { s with lock := some outcome.lock }

omit [DecidableEq ι] in
theorem stage_of_busy {op : Op} (h : d.drain = .busy op) : d.stage = some op.stage := by rw [Duplex.stage, h]

omit [DecidableEq ι] in
theorem busy_of_stage {stage : OpStage} (h : d.stage = some stage) : ∃ op, d.drain = .busy op := by
  unfold Duplex.stage at h
  split at h
  · exact ⟨_, by assumption⟩
  · cases h

private theorem Due.applyLock {l : SessionLock ι} {outcome : SessionLock.Outcome ι} (h : Due s) (hl : s.lock = some l)
    (hp : l.Passes outcome) : Due (s.applyLock outcome) := by
  obtain ⟨hlock, hrunning, hmutex⟩ := applyLock_frame (s := s) outcome
  have hops : (s.applyLock outcome).ops = s.ops := by rw [ops, runningOp, hrunning, hmutex]; rfl
  have hcall : ∀ id, (s.applyLock outcome).inCall id = s.inCall id := fun id => by rw [inCall, hrunning]; rfl
  have hqueue := waitQueue_of_lock hlock
  have hqueue' := waitQueue_of_lock hl
  refine ⟨fun id => ?_, fun l' hl' => ?_⟩
  · obtain ⟨drain, hd, hout, hin⟩ := settle_duplex outcome.settled { s with lock := some outcome.lock } id
    change (s.applyLock outcome).duplex id = { s.duplex id with drain } at hd
    have hclaims : (s.applyLock outcome).Claims id → s.Claims id := by
      rw [claims_of_lock hlock, claims_of_lock hl]
      rintro (ho | hq)
      · exact hp.owner id ho
      · exact Or.inr ((hp.queue id).1 hq).1
    have ht := h.tracked id
    rw [hd]
    by_cases hmem : id ∈ outcome.settled.map Settlement.id
    · obtain ⟨op, hop⟩ := busy_of_stage (ht.acquiring.2 (hqueue' ▸ hp.settled id hmem))
      have hthrough := hin (Or.inr ⟨hmem, op, hop⟩)
      have hleft : id ∉ (s.applyLock outcome).waitQueue := by
        rw [hqueue, hp.queue]
        exact fun hq => hq.2 hmem
      have hstage : ({ s.duplex id with drain } : Duplex).stage = none ∨
          ({ s.duplex id with drain } : Duplex).stage = some .admitted := by
        rcases hthrough with rfl | ⟨op, rfl, hstage⟩
        · exact Or.inl rfl
        · exact Or.inr (congrArg some hstage)
      have hterm : drain ≠ .terminating := by
        rcases hthrough with rfl | ⟨op, rfl, -⟩ <;> exact fun he => by cases he
      refine ⟨⟨fun ha => ?_, fun hq => absurd hq hleft⟩, fun hq => ?_, ?_, ?_, ?_, ⟨fun hr => ?_, ht.stages.2⟩, ?_,
        ht.cleared, fun hc => ⟨(ht.holds (hclaims hc)).tornDown, fun hphase => ?_, (ht.holds (hclaims hc)).ended⟩⟩
      · rcases hstage with hs | hs <;> cases hs.symm.trans ha
      · rcases hstage with hs | hs <;> cases hs.symm.trans hq
      · rw [hops]
        exact ht.recovery
      · rw [hops]
        exact ht.rollback
      · rw [hcall]
        exact ht.awaiting
      · rcases hstage with hs | hs <;> cases hs.symm.trans hr
      · rintro (hw | hw | hw)
        · exact ht.waits (Or.inl hw)
        · exact ht.waits (Or.inr (Or.inl hw))
        · exact absurd hw hterm
      · refine Or.inr (((ht.holds (hclaims hc)).terminated hphase).resolve_left fun hdrain => ?_)
        cases hop.symm.trans hdrain
    · rw [hout hmem]
      refine ⟨?_, ?_, ?_, ?_, ?_, ht.stages, ht.waits, ht.cleared, fun hc => ht.holds (hclaims hc)⟩
      · rw [hqueue, hp.queue, ← hqueue']
        exact ht.acquiring.trans ⟨fun hq => ⟨hq, hmem⟩, fun hq => hq.1⟩
      · rw [hops]
        exact ht.batch
      · rw [hops]
        exact ht.recovery
      · rw [hops]
        exact ht.rollback
      · rw [hcall]
        exact ht.awaiting
  · rw [hlock] at hl'
    cases hl'
    exact hp.fair

private theorem Due.release (h : Due s) : Due (s.release id) := by
  unfold System.release
  split
  · rename_i l hl
    exact h.applyLock hl (SessionLock.passes_release (h.fair l hl))
  · exact h

private theorem Due.cancel (h : Due s) : Due (s.cancel id) := by
  unfold System.cancel
  split
  · rename_i l hl
    exact h.applyLock hl (SessionLock.passes_cancel (h.fair l hl))
  · exact h

private theorem Due.updateStatus (h : Due s) (status : UInt8) : Due (s.updateStatus id status) := by
  unfold System.updateStatus
  split
  · rename_i l hl
    split
    · exact h
    · exact h.applyLock hl (SessionLock.passes_updateStatus (h.fair l hl) status)
  · exact h

/-- The lock changes with one duplex: the others keep their place in the queue. -/
private theorem Due.modify_lock {l : SessionLock ι} (h : Due s) (hfair : l.Fair)
    (hqueue : ∀ other, other ≠ id → (other ∈ l.waitQueue ↔ other ∈ s.waitQueue))
    (howner : ∀ other, other ≠ id → l.owner = some other → s.Claims other)
    (hd : ({ s with lock := some l } : System ι).Tracked id (f (s.duplex id))) :
    Due (({ s with lock := some l } : System ι).modify id f) := by
  refine ⟨fun other => ?_, fun l' hl' => ?_⟩
  · have hsame : ∀ d, ({ s with lock := some l } : System ι).Tracked other d →
        (({ s with lock := some l } : System ι).modify id f).Tracked other d := fun _ ht =>
      ⟨ht.acquiring, ht.batch, ht.recovery, ht.rollback, ht.awaiting, ht.stages, ht.waits, ht.cleared, ht.holds⟩
    apply hsame
    by_cases ho : other = id
    · subst ho
      rw [modify_same]
      exact hd
    · rw [modify_other ho]
      have ht := h.tracked other
      refine ⟨ht.acquiring.trans (hqueue other ho).symm, ht.batch, ht.recovery, ht.rollback, ht.awaiting, ht.stages,
        ht.waits, ht.cleared, fun hc => ht.holds ?_⟩
      rcases hc with hown | hq
      · exact howner other ho hown
      · exact Or.inr ((hqueue other ho).1 hq)
  · cases hl'
    exact hfair

/-- A batch of a duplex that can be served. -/
private theorem Due.acquireSession (h : Due s) (hactive : (s.duplex id).drain = .active)
    (htorn : (s.duplex id).tornDown = false) (hphase : (s.duplex id).phase ≠ .terminated)
    (hended : (s.duplex id).ended = false) (batch : Bytes) (mode : RfqMode) :
    Due (s.acquireSession id batch mode) := by
  have ht := h.tracked id
  have hidle : (s.duplex id).drain ≠ .terminating := by
    rw [hactive]
    exact fun he => by cases he
  have hq : id ∉ s.waitQueue := fun hmem => by
    have := ht.acquiring.2 hmem
    rw [Duplex.stage, hactive] at this
    cases this
  have hhold : ∀ drain, ({ s.duplex id with drain } : Duplex).MayHold := fun drain =>
    ⟨fun he => (by cases htorn.symm.trans he), fun he => absurd he hphase, fun he => (by cases hended.symm.trans he)⟩
  -- the duplex with its batch, admitted or waiting
  have hbusy : ∀ (l : SessionLock ι) (stage : OpStage),
      (stage = .acquiring ∧ id ∈ l.waitQueue ∨ stage = .admitted ∧ id ∉ l.waitQueue) →
      ({ s with lock := some l } : System ι).Tracked id { s.duplex id with drain := .busy { batch, mode, stage } } := by
    intro l stage hstage
    refine ⟨?_, fun he => ?_, ht.recovery, ht.rollback, ht.awaiting, ⟨fun he => ?_, ht.stages.2⟩, ?_, ht.cleared,
      fun _ => hhold _⟩
    · rcases hstage with ⟨rfl, hin⟩ | ⟨rfl, hout⟩
      · exact ⟨fun _ => hin, fun _ => rfl⟩
      · exact ⟨fun he => (by cases he), fun hin => absurd hin hout⟩
    · rcases hstage with ⟨rfl, -⟩ | ⟨rfl, -⟩ <;> cases he
    · rcases hstage with ⟨rfl, -⟩ | ⟨rfl, -⟩ <;> cases he
    · rintro (hw | hw | hw)
      · exact ht.waits (Or.inl hw)
      · exact ht.waits (Or.inr (Or.inl hw))
      · cases hw
  unfold System.acquireSession
  dsimp only
  split
  · rename_i l hlock
    have hl : s.lock = some l := hlock
    have hqueue := waitQueue_of_lock hl
    have hfair := h.fair l hl
    have hgrant : ∀ l' : SessionLock ι, l'.Fair → l'.waitQueue = l.waitQueue → l'.owner = some id →
        Due ((s.modify id fun d => { d with drain := .busy { batch, mode, stage := .acquiring } }).applyLock
          { lock := l', settled := [.resolved id] }) := by
      intro l' hfair' hsame howner
      have hstate : (s.modify id fun d => { d with drain := .busy { batch, mode, stage := .acquiring } }).applyLock
          { lock := l', settled := [.resolved id] } = ({ s with lock := some l' } : System ι).modify id fun d =>
          { d with drain := .busy { batch, mode, stage := .admitted } } := by
        simp [System.applyLock, System.settleOne, System.modify]
      rw [hstate]
      refine h.modify_lock hfair' (fun other _ => by rw [hsame, hqueue]) (fun other ho hown => ?_)
        (hbusy l' _ (Or.inr ⟨rfl, ?_⟩))
      · exact absurd (Option.some.inj (hown.symm.trans howner)) ho
      · rw [hsame, ← hqueue]
        exact hq
    unfold SessionLock.acquire
    split
    · rename_i hfree
      refine hgrant _ ⟨hfair.nodup, fun other ho hmem => ?_, fun he => (by cases he)⟩ rfl rfl
      rw [hfair.free hfree] at hmem
      cases hmem
    · split
      · rename_i howner
        exact hgrant l hfair rfl howner
      · rename_i hfree hother
        have hstate : (s.modify id fun d => { d with drain := .busy { batch, mode, stage := .acquiring } }).applyLock
            { lock := { l with waitQueue := l.waitQueue ++ [id] } } =
            ({ s with lock := some { l with waitQueue := l.waitQueue ++ [id] } } : System ι).modify id fun d =>
            { d with drain := .busy { batch, mode, stage := .acquiring } } := rfl
        rw [hstate]
        refine h.modify_lock ⟨?_, fun other ho hmem => ?_, fun ho => absurd ho hfree⟩ (fun other ho => ?_)
          (fun other ho hown => ?_) (hbusy _ _ (Or.inl ⟨rfl, by simp⟩))
        · refine hfair.nodup.append (List.nodup_singleton _) ?_
          intro other hmem hmem'
          rw [List.mem_singleton.1 hmem', ← hqueue] at hmem
          exact hq hmem
        · rcases List.mem_append.1 hmem with hmem | hmem
          · exact hfair.apart other ho hmem
          · rw [List.mem_singleton.1 hmem] at ho
            exact hother ho
        · rw [hqueue, List.mem_append, List.mem_singleton]
          exact ⟨fun hm => hm.resolve_right ho, Or.inl⟩
        · rw [claims_of_lock hl]
          exact Or.inl hown
  · rename_i hl
    have hstate : (s.modify id fun d => { d with drain := .busy { batch, mode, stage := .acquiring } }).settleOne
        (.resolved id) = s.modify id fun d => { d with drain := .busy { batch, mode, stage := .admitted } } := by
      simp [System.settleOne, System.modify]
    rw [hstate]
    exact h.modify fun ht => ht.drain hq hidle _ (fun he => by cases he) (fun he => by cases he)
      (fun he => by cases he) (fun he => by cases he)

/-! ### Teardown and recovery -/

theorem modify_modify (g : Duplex → Duplex) : (s.modify id f).modify id g = s.modify id fun d => g (f d) := by
  simp [System.modify]

/-- `rollbackIfInTransaction`, as a change of `rollbackPromise`. -/
theorem rollbackIfInTransaction_eq (s : System ι) (id : ι) : ∃ rollback,
    s.rollbackIfInTransaction id = s.modify id (fun d => { d with rollback }) ∧ rollback ≠ .notStarted ∧
      (rollback = (s.duplex id).rollback ∨
        rollback ≠ .queued ∧ rollback ≠ .running ∧ (rollback = .awaitingCall → s.inCall id = true)) := by
  unfold System.rollbackIfInTransaction
  split
  · split
    · rename_i hcall
      exact ⟨.awaitingCall, rfl, fun he => (by cases he), Or.inr ⟨fun he => (by cases he), fun he => (by cases he),
        fun _ => hcall⟩⟩
    · refine ⟨if (s.duplex id).inTransaction && s.mayUse id then .querying else .settled, ?_, ?_, Or.inr ?_⟩
      · simp [System.decideRollback, System.modify]
      · split <;> exact fun he => by cases he
      · split <;> exact ⟨fun he => (by cases he), fun he => (by cases he), fun he => (by cases he)⟩
  · rename_i hr
    refine ⟨(s.duplex id).rollback, ?_, hr, Or.inl rfl⟩
    exact (congrArg (fun duplex => ({ s with duplex } : System ι)) (Function.update_eq_self id s.duplex)).symm

/-- A teardown: the change that begins it, and its rollback. -/
private theorem Due.tearing (h : Due s) (hstage : (f (s.duplex id)).stage = (s.duplex id).stage)
    (hrecovery : (f (s.duplex id)).recovery = (s.duplex id).recovery)
    (hrollback : (f (s.duplex id)).rollback = (s.duplex id).rollback)
    (hcleared : (f (s.duplex id)).tornDown = true → (f (s.duplex id)).input = [])
    (hholds : s.Claims id → (f (s.duplex id)).MayHold) : Due ((s.modify id f).rollbackIfInTransaction id) := by
  obtain ⟨rollback, heq, hstarted, hmove⟩ := rollbackIfInTransaction_eq (s.modify id f) id
  rw [heq, modify_modify]
  rw [modify_same, hrollback] at hmove
  refine h.modify fun ht => ⟨?_, ?_, ?_, fun hr => ?_, fun ha => ?_, ⟨?_, ?_⟩, fun _ => hstarted, hcleared,
    fun hc => ?_⟩
  · exact Iff.trans (by rw [← hstage]; rfl) ht.acquiring
  · exact fun hq => ht.batch (hstage ▸ hq)
  · exact fun hr => ht.recovery (hrecovery ▸ hr)
  · rcases hmove with rfl | ⟨hqueued, hrunning, -⟩
    · exact ht.rollback hr
    · simp only [Duplex.rolling, Bool.or_eq_true, beq_iff_eq] at hr
      exact absurd hr (not_or.2 ⟨hqueued, hrunning⟩)
  · rcases hmove with rfl | ⟨-, -, hcall⟩
    · exact ht.awaiting ha
    · exact hcall ha
  · exact fun hr => ht.stages.1 (hstage ▸ hr)
  · exact fun hr => ht.stages.2 (hrecovery ▸ hr)
  · obtain ⟨htorn, hterm, hended⟩ := hholds hc
    exact ⟨htorn, hterm, hended⟩

private theorem Due.destroyDuplex (h : Due s) : Due (s.destroyDuplex id) := by
  unfold System.destroyDuplex
  split
  · exact h
  · exact h.tearing rfl rfl rfl (fun _ => rfl) fun _ => ⟨fun _ => rfl, fun _ => Or.inr rfl, fun _ => Or.inr rfl⟩

private theorem Due.deliverRecoverySync (h : Due s) : Due (s.deliverRecoverySync id) := by
  unfold System.deliverRecoverySync
  split
  · exact h
  · split
    · refine h.modify fun ht => ht.recover (some .admitted) (fun he => by cases he) fun hr => ?_
      rcases hr with hr | hr <;> cases hr
    · exact h.same ⟨rfl, rfl, rfl, rfl, rfl, rfl, rfl, rfl, fun _ hi => hi⟩

private theorem Due.releasePortal (h : Due s) : Due (s.releasePortal id) := by
  unfold System.releasePortal
  split
  · exact h
  · split
    · exact h.deliverRecoverySync
    · split
      · exact h.same ⟨rfl, rfl, rfl, rfl, rfl, rfl, rfl, rfl, fun _ hi => hi⟩
      · exact h

private theorem Due.judgePortal (h : Due s) : Due (s.judgePortal id) := by
  unfold System.judgePortal
  split
  · have hclear : Due (s.modify id fun d => { d with portalRecoveryRequested := false }) :=
      h.same ⟨rfl, rfl, rfl, rfl, rfl, rfl, rfl, rfl, fun _ hi => hi⟩
    dsimp only
    split
    · exact hclear.deliverRecoverySync
    · exact hclear
  · exact h

/-! ### The drain loop -/

/-- What a message may change: the drain loop stays as it was. -/
structure Served (d d' : Duplex) : Prop where
  drain : d'.drain = d.drain
  recovery : d'.recovery = d.recovery
  rollback : d'.rollback = d.rollback
  tornDown : d'.tornDown = d.tornDown
  ended : d'.ended = d.ended
  finalWaits : d'.finalWaits = d.finalWaits
  destroyWaits : d'.destroyWaits = d.destroyWaits

/-- Only a Terminate changes the phase. -/
theorem served_processMessage (d : Duplex) (message : Bytes) : Served d (d.processMessage message).1 ∧
    ((d.processMessage message).1.phase = d.phase ∨ (d.processMessage message).2 = .terminate) := by
  have hcopy : ∀ capture msgType, Served d (d.processCopy capture msgType message).1 ∧
      (d.processCopy capture msgType message).1.phase = d.phase := by
    intro capture msgType
    unfold Duplex.processCopy
    split
    · exact ⟨⟨rfl, rfl, rfl, rfl, rfl, rfl, rfl⟩, rfl⟩
    · split
      · dsimp only
        split <;> exact ⟨⟨rfl, rfl, rfl, rfl, rfl, rfl, rfl⟩, rfl⟩
      · exact ⟨⟨rfl, rfl, rfl, rfl, rfl, rfl, rfl⟩, rfl⟩
  have hquery : Served d (d.processQuery message).1 ∧ (d.processQuery message).1.phase = d.phase := by
    unfold Duplex.processQuery
    split <;> exact ⟨⟨rfl, rfl, rfl, rfl, rfl, rfl, rfl⟩, rfl⟩
  unfold Duplex.processMessage
  dsimp only
  split
  · exact ⟨⟨rfl, rfl, rfl, rfl, rfl, rfl, rfl⟩, Or.inr rfl⟩
  · split
    · exact ⟨(hcopy _ _).1, Or.inl (hcopy _ _).2⟩
    · split
      · exact ⟨⟨rfl, rfl, rfl, rfl, rfl, rfl, rfl⟩, Or.inl rfl⟩
      · split
        · exact ⟨⟨rfl, rfl, rfl, rfl, rfl, rfl, rfl⟩, Or.inl rfl⟩
        · split
          · exact ⟨hquery.1, Or.inl hquery.2⟩
          · exact ⟨⟨rfl, rfl, rfl, rfl, rfl, rfl, rfl⟩, Or.inl rfl⟩

/-- The loop goes on behind a message; its duplex was served before the message. -/
private theorem Due.processNext {next : Duplex.Next} (h : Due s) (hactive : (s.duplex id).drain = .active)
    (htorn : (s.duplex id).tornDown = false) (hphase : (s.duplex id).phase ≠ .terminated)
    (hended : (s.duplex id).ended = false) (hd : Served (s.duplex id) d)
    (hd' : d.phase = (s.duplex id).phase ∨ next = .terminate) : Due (s.processNext id d next) := by
  have ht := h.tracked id
  have hdrain : d.drain = .active := hd.drain.trans hactive
  have hq : id ∉ s.waitQueue := fun hmem => by
    have := ht.acquiring.2 hmem
    rw [Duplex.stage, hactive] at this
    cases this
  have htorn' : d.tornDown = false := hd.tornDown.trans htorn
  have hended' : d.ended = false := hd.ended.trans hended
  -- the record of the message, unless it was a Terminate
  have hsame : next ≠ .terminate → Due (s.modify id fun _ => d) := by
    intro hnext
    have hphase' := hd'.resolve_right hnext
    refine h.same ⟨hd.drain, hd.recovery, hd.rollback, hd.tornDown, hphase', hd.ended, hd.finalWaits, hd.destroyWaits,
      ?_⟩
    exact fun he => (by cases htorn.symm.trans he)
  cases next with
  | again => exact hsame (fun he => by cases he)
  | run batch mode =>
    have hphase' := hd'.resolve_right (fun he => by cases he)
    refine (hsame (fun he => by cases he)).acquireSession ?_ ?_ ?_ ?_ batch mode <;> rw [modify_same]
    · exact hdrain
    · exact htorn'
    · rw [hphase']
      exact hphase
    · exact hended'
  | terminate =>
    refine h.tearing (f := fun _ => { d with drain := .terminating }) ?_ hd.recovery hd.rollback
      (fun he => (by cases htorn'.symm.trans he)) fun _ =>
        ⟨fun he => (by cases htorn'.symm.trans he), fun _ => Or.inl rfl, fun he => (by cases hended'.symm.trans he)⟩
    simp only [Duplex.stage, hactive]
  | throw message =>
    have hfail := (hsame (fun he => by cases he)).modify (f := fun d => { d with drain := .failing })
      fun (ht' : Tracked _ id _) => by
      rw [modify_same] at ht' ⊢
      refine ht'.loop hq ?_ (Or.inr (Or.inr rfl))
      rw [hdrain]
      exact fun he => by cases he
    rwa [modify_modify] at hfail

private theorem Tracked.not_waiting (h : s.Tracked id d) (hstage : d.stage ≠ some .acquiring) : id ∉ s.waitQueue :=
  fun hmem => hstage (h.acquiring.2 hmem)

omit [DecidableEq ι] in
private theorem nextMessage_nil (h : d.input = []) (message rest : Bytes) : d.nextMessage ≠ .message message rest := by
  unfold Duplex.nextMessage takeStartup takeMessage
  rw [h]
  split <;> simp

private theorem Due.process (h : Due s) (hs : s.process id = some s') (hended : (s.duplex id).drain = .active →
    (s.duplex id).ended = false) : Due s' := by
  unfold System.process at hs
  split at hs
  · rename_i hactive
    have hstage : (s.duplex id).stage ≠ some .acquiring := by
      rw [Duplex.stage, hactive]
      exact fun he => by cases he
    have hq := (h.tracked id).not_waiting hstage
    have hterm : (s.duplex id).drain ≠ .terminating := by
      rw [hactive]
      exact fun he => by cases he
    split at hs
    · cases hs
      refine h.modify fun ht => ?_
      have := ht.loop hq hterm (Or.inl rfl)
      exact this.untracked ⟨rfl, rfl, rfl, rfl, rfl, rfl, rfl, rfl, fun _ hi => hi⟩
    · cases hs
      exact h.modify fun ht => ht.loop hq hterm (Or.inr (Or.inr rfl))
    · rename_i message rest hnext
      cases hs
      have htorn : (s.duplex id).tornDown = false := by
        rw [Bool.eq_false_iff]
        exact fun ht => nextMessage_nil ((h.tracked id).cleared ht) _ _ hnext
      have hphase : (s.duplex id).phase ≠ .terminated := by
        intro hp
        rw [Duplex.nextMessage, hp] at hnext
        cases hnext
      have hrest : Served (s.duplex id) { s.duplex id with input := rest } := ⟨rfl, rfl, rfl, rfl, rfl, rfl, rfl⟩
      unfold processTaken
      dsimp only
      split
      · exact h.processNext hactive htorn hphase (hended hactive) hrest (Or.inl rfl)
      · obtain ⟨hserved, hphase'⟩ := served_processMessage { s.duplex id with input := rest } message
        obtain ⟨h₁, h₂, h₃, h₄, h₅, h₆, h₇⟩ := hserved
        exact h.processNext hactive htorn hphase (hended hactive) ⟨h₁, h₂, h₃, h₄, h₅, h₆, h₇⟩ hphase'
  · rename_i hfailing
    have hstage : (s.duplex id).stage ≠ some .acquiring := by
      rw [Duplex.stage, hfailing]
      exact fun he => by cases he
    have hq := (h.tracked id).not_waiting hstage
    have hterm : (s.duplex id).drain ≠ .terminating := by
      rw [hfailing]
      exact fun he => by cases he
    cases hs
    refine Due.destroyDuplex (h.modify fun ht => ?_)
    have := ht.loop hq hterm (Or.inl rfl)
    exact this.untracked ⟨rfl, rfl, rfl, rfl, rfl, rfl, rfl, rfl, fun _ hi => hi⟩
  · cases hs

/-! ### The queue of `runExclusive` -/

private theorem Tracked.push (h : s.Tracked id d) (op : ι × CallKind) :
    ({ s with mutex := s.mutex ++ [op] } : System ι).Tracked id d := by
  have hops : ∀ other ∈ s.ops, other ∈ ({ s with mutex := s.mutex ++ [op] } : System ι).ops := by
    intro other hmem
    simp only [ops, List.mem_append] at hmem ⊢
    exact hmem.imp_right Or.inl
  refine ⟨h.acquiring, fun hq => ?_, fun hr => hops _ (h.recovery hr), fun hr => hops _ (h.rollback hr), h.awaiting,
    h.stages, h.waits, h.cleared, h.holds⟩
  obtain ⟨mode, hmem⟩ := h.batch hq
  exact ⟨mode, hops _ hmem⟩

/-- An operation joins the queue, and its duplex awaits it. -/
private theorem Due.push (h : Due s) (kind : CallKind)
    (hf : ({ s with mutex := s.mutex ++ [(id, kind)] } : System ι).Tracked id (s.duplex id) →
      (id, kind) ∈ ({ s with mutex := s.mutex ++ [(id, kind)] } : System ι).ops →
      ({ s with mutex := s.mutex ++ [(id, kind)] } : System ι).Tracked id (f (s.duplex id))) :
    Due { s.modify id f with mutex := s.mutex ++ [(id, kind)] } := by
  have hpush : Due ({ s with mutex := s.mutex ++ [(id, kind)] } : System ι) :=
    ⟨fun other => (h.tracked other).push _, h.fair⟩
  exact hpush.modify fun ht => hf ht (by simp [ops])

theorem inCall_running (h : s.inCall id = true) : ∃ call, s.running = some call ∧ call.id = id := by
  rw [System.inCall, Option.any_eq_true] at h
  obtain ⟨call, hrun, hcall⟩ := h
  rw [Bool.and_eq_true, decide_eq_true_eq] at hcall
  exact ⟨call, hrun, hcall.1⟩

/-- An operation of the duplex is over, and who awaits it goes on. -/
structure Over (kind : CallKind) (d d' : Duplex) : Prop where
  drain : (∀ mode, kind ≠ .batch mode) → d'.drain = d.drain
  batch : ∀ mode, kind = .batch mode → d'.drain = .active ∨ d'.drain = .failing
  recovery : d'.recovery = if kind = .recovery then none else d.recovery
  settled : kind = .rollback → d'.rollback = .settled
  rollback : kind ≠ .rollback → d'.rollback = if d.rollback = .awaitingCall then .deciding else d.rollback
  phase : d'.phase = .terminated → d.phase = .terminated
  tornDown : d'.tornDown = d.tornDown
  ended : d'.ended = d.ended
  finalWaits : d'.finalWaits = d.finalWaits
  destroyWaits : d'.destroyWaits = d.destroyWaits
  input : d'.input = d.input

private theorem Tracked.over {t : System ι} {kind : CallKind} (h : s.Tracked id d) (hover : Over kind d d')
    (hlock : t.lock = s.lock) (hops : ∀ other, other ≠ kind → (id, other) ∈ s.ops → (id, other) ∈ t.ops)
    (hqueued : ∀ mode, kind = .batch mode → d.stage = some .queued) : t.Tracked id d' := by
  have hqueue : t.waitQueue = s.waitQueue := by rw [waitQueue, hlock, waitQueue]
  have hclaims : t.Claims id ↔ s.Claims id := by rw [Claims, owner, hlock, hqueue]; rfl
  -- the drain loop
  have hstage : d'.stage = d.stage ∧ (∀ mode, kind ≠ .batch mode) ∧ d'.drain = d.drain ∨
      d'.stage = none ∧ d.stage = some .queued ∧ d'.drain ≠ .terminating := by
    by_cases hb : ∃ mode, kind = .batch mode
    · obtain ⟨mode, hmode⟩ := hb
      right
      rcases hover.batch mode hmode with hd | hd
      · exact ⟨by rw [Duplex.stage, hd], hqueued mode hmode, by rw [hd]; exact fun he => by cases he⟩
      · exact ⟨by rw [Duplex.stage, hd], hqueued mode hmode, by rw [hd]; exact fun he => by cases he⟩
    · have hno : ∀ mode, kind ≠ .batch mode := fun mode hmode => hb ⟨mode, hmode⟩
      have hd := hover.drain hno
      exact Or.inl ⟨by rw [Duplex.stage, hd, Duplex.stage], hno, hd⟩
  have hstarted : d.rollback ≠ .notStarted → d'.rollback ≠ .notStarted := by
    intro hr
    by_cases hk : kind = .rollback
    · rw [hover.settled hk]
      exact fun he => by cases he
    · rw [hover.rollback hk]
      split
      · exact fun he => by cases he
      · exact hr
  refine ⟨?_, fun hq => ?_, fun hr => ?_, fun hr => ?_, fun ha => ?_, ⟨fun hr => ?_, fun hr => ?_⟩, fun hw => ?_, ?_,
    fun hc => ⟨?_, fun hp => ?_, ?_⟩⟩
  · rw [hqueue, ← h.acquiring]
    rcases hstage with ⟨hs, -⟩ | ⟨hs, hq, -⟩
    · rw [hs]
    · rw [hs, hq]
      exact ⟨fun he => (by cases he), fun he => (by cases he)⟩
  · rcases hstage with ⟨hs, hno, -⟩ | ⟨hs, -⟩
    · obtain ⟨mode, hmem⟩ := h.batch (hs ▸ hq)
      exact ⟨mode, hops _ (fun he => hno mode he.symm) hmem⟩
    · cases hs.symm.trans hq
  · rw [hover.recovery] at hr
    split at hr
    · rcases hr with hr | hr <;> cases hr
    · rename_i hk
      exact hops _ (fun he => hk he.symm) (h.recovery hr)
  · by_cases hk : kind = .rollback
    · rw [Duplex.rolling, hover.settled hk] at hr
      cases hr
    · rw [Duplex.rolling, hover.rollback hk] at hr
      split at hr
      · cases hr
      · exact hops _ (fun he => hk he.symm) (h.rollback hr)
  · by_cases hk : kind = .rollback
    · cases (hover.settled hk).symm.trans ha
    · rw [hover.rollback hk] at ha
      split at ha
      · cases ha
      · rename_i hne
        exact absurd ha hne
  · rcases hstage with ⟨hs, -⟩ | ⟨hs, -⟩
    · exact h.stages.1 (hs ▸ hr)
    · cases hs.symm.trans hr
  · rw [hover.recovery] at hr
    split at hr
    · cases hr
    · exact h.stages.2 hr
  · rw [hover.finalWaits, hover.destroyWaits] at hw
    refine hstarted (h.waits (hw.imp_right fun hw => hw.imp_right fun hd => ?_))
    rcases hstage with ⟨-, -, hs⟩ | ⟨-, -, hs⟩
    · exact hs ▸ hd
    · exact absurd hd hs
  · rw [hover.tornDown, hover.input]
    exact h.cleared
  · rw [hover.tornDown, hover.destroyWaits]
    exact (h.holds (hclaims.1 hc)).tornDown
  · rw [hover.destroyWaits]
    rcases (h.holds (hclaims.1 hc)).terminated (hover.phase hp) with hterm | hw
    · rcases hstage with ⟨-, -, hs⟩ | ⟨-, hq, -⟩
      · exact Or.inl (hs.trans hterm)
      · rw [Duplex.stage, hterm] at hq
        cases hq
    · exact Or.inr hw
  · rw [hover.ended, hover.finalWaits, hover.destroyWaits]
    exact (h.holds (hclaims.1 hc)).ended

/-- The first operation, running or queued, is over. -/
private theorem Due.leave {kind : CallKind} (h : Due s) (hw : WellScheduled s) (t : System ι)
    (hduplex : t.duplex = s.duplex)
    (hlock : t.lock = s.lock) (hops : s.ops = (id, kind) :: t.ops)
    (hover : Over kind (s.duplex id) (f (s.duplex id))) : Due (t.modify id f) := by
  have hmem : ∀ other other', (other, other') ≠ (id, kind) → (other, other') ∈ s.ops → (other, other') ∈ t.ops := by
    intro other other' hne hin
    rw [hops] at hin
    exact (List.mem_cons.1 hin).resolve_left hne
  have hqueue : t.waitQueue = s.waitQueue := by rw [waitQueue, hlock, waitQueue]
  refine ⟨fun other => ?_, fun l hl => h.fair l (hlock ▸ hl)⟩
  have hsame : ∀ d, t.Tracked other d → (t.modify id f).Tracked other d := fun _ ht =>
    ⟨ht.acquiring, ht.batch, ht.recovery, ht.rollback, ht.awaiting, ht.stages, ht.waits, ht.cleared, ht.holds⟩
  apply hsame
  by_cases ho : other = id
  · subst ho
    rw [modify_same, hduplex]
    refine (h.tracked other).over hover hlock (fun other' hne => hmem other other' fun he => hne (congrArg Prod.snd he))
      fun mode hmode => hw.queued other ?_
    rw [batches, hops, hmode]
    exact List.mem_cons_self
  · rw [modify_other ho, hduplex]
    have ht := h.tracked other
    have hne : ∀ other', (other, other') ≠ (id, kind) := fun _ he => ho (congrArg Prod.fst he)
    refine ⟨hqueue ▸ ht.acquiring, fun hq => ?_, fun hr => hmem _ _ (hne _) (ht.recovery hr),
      fun hr => hmem _ _ (hne _) (ht.rollback hr), fun ha => ?_, ht.stages, ht.waits, ht.cleared, fun hc => ht.holds ?_⟩
    · obtain ⟨mode, hin⟩ := ht.batch hq
      exact ⟨mode, hmem _ _ (hne _) hin⟩
    · obtain ⟨call, hrun, hid⟩ := inCall_running (ht.awaiting ha)
      rw [ops, runningOp, hrun] at hops
      exact absurd (hid.symm.trans (congrArg Prod.fst (List.cons.inj hops).1)) ho
    · rwa [Claims, owner, hlock, hqueue] at hc

/-! ### Protocol calls -/

section Calls

variable {call : Call ι} {response : List ResponseFrame}

/-- The running call goes on. -/
private theorem Due.advance (h : Due s) (hrun : s.running = some call) (call' : Call ι) (session : Option ι)
    (hid : call'.id = call.id) (hkind : call'.kind = call.kind) : Due (s.setCall call' session) := by
  have hops : (s.setCall call' session).ops = s.ops := by
    simp only [ops, runningOp, setCall, hrun, Option.map_some, hid, hkind]
  have hcall : ∀ other, (s.setCall call' session).inCall other = s.inCall other := by
    intro other
    simp only [System.inCall, setCall, hrun, Option.any_some, hid, hkind]
  refine ⟨fun other => ?_, h.fair⟩
  have ht := h.tracked other
  refine ⟨ht.acquiring, ?_, ?_, ?_, ?_, ht.stages, ht.waits, ht.cleared, ht.holds⟩
  · rw [hops]
    exact ht.batch
  · rw [hops]
    exact ht.recovery
  · rw [hops]
    exact ht.rollback
  · rw [hcall]
    exact ht.awaiting

omit [DecidableEq ι] in
private theorem untracked_onChunk (d : Duplex) (fr : ResponseFrame) : Untracked d (d.onChunk fr) := by
  unfold Duplex.onChunk
  split <;> exact ⟨rfl, rfl, rfl, rfl, rfl, rfl, rfl, rfl, fun _ hi => hi⟩

private theorem Due.receive {fr : ResponseFrame} (h : Due s) (hrun : s.running = some call) :
    Due (s.receive call response fr) := by
  cases fr with
  | errorResponse =>
    rw [receive_errorResponse]
    obtain ⟨h₁, h₂, h₃, h₄, h₅, h₆, h₇, h₈, h₉⟩ := untracked_onChunk (s.duplex call.id).onErrorResponse .errorResponse
    have hchunk : Due (s.modify call.id fun d => d.onErrorResponse.onChunk .errorResponse) :=
      h.same (f := fun d => d.onErrorResponse.onChunk .errorResponse) ⟨h₁, h₂, h₃, h₄, h₅, h₆, h₇, h₈, h₉⟩
    exact hchunk.advance hrun _ _ rfl rfl
  | other =>
    rw [receive_other]
    have hchunk : Due (s.modify call.id fun d => d.onChunk .other) := h.same (untracked_onChunk _ _)
    exact hchunk.advance hrun _ _ rfl rfl
  | readyForQuery status =>
    have hnoted : Due (s.noteReadyForQuery call response status) := by
      have hstatus : Due (s.modify call.id fun d => d.onReadyForQuery status) :=
        h.same ⟨rfl, rfl, rfl, rfl, rfl, rfl, rfl, rfl, fun _ hi => hi⟩
      exact Due.updateStatus (hstatus.advance hrun
        { call with response, held := if call.kind.mode.suppresses then some status else none } _ rfl rfl) status
    rw [receive_readyForQuery]
    split
    · exact hnoted
    · exact hnoted.same (untracked_onChunk _ _)

private theorem Due.flushHeld (h : Due s) : Due (s.flushHeld call) := by
  unfold System.flushHeld
  split
  · refine h.same ?_
    split
    · exact ⟨rfl, rfl, rfl, rfl, rfl, rfl, rfl, rfl, fun _ hi => hi⟩
    · exact untracked_onChunk _ _
  · exact h

private theorem Due.settlePortal (h : Due s) {synced : Bool} : Due (s.settlePortal call synced) := by
  have hportal : ∀ suspended, Due (s.modify call.id fun d => { d with portalSuspended := suspended }) :=
    fun _ => h.same ⟨rfl, rfl, rfl, rfl, rfl, rfl, rfl, rfl, fun _ hi => hi⟩
  have hsession : ∀ {t : System ι} (session : Option ι), Due t → Due { t with session } := fun session ht =>
    ⟨fun other => have htr := ht.tracked other
      ⟨htr.acquiring, htr.batch, htr.recovery, htr.rollback, htr.awaiting, htr.stages, htr.waits, htr.cleared,
        htr.holds⟩,
      ht.fair⟩
  unfold System.settlePortal
  dsimp only
  split
  · exact hsession _ (hportal true)
  · split
    · exact (hsession _ (hportal false)).release
    · exact hportal false

omit [DecidableEq ι] in
private theorem over_batch (d : Duplex) (mode : RfqMode) : Over (.batch mode) d (callDone (batchDone d)) := by
  refine ⟨fun hk => absurd rfl (hk mode), fun _ _ => Or.inl rfl, rfl, fun hk => (by cases hk), fun _ => rfl,
    fun hp => ?_, rfl, rfl, rfl, rfl, rfl⟩
  change (if d.phase = .preStartup then Phase.ready else d.phase) = .terminated at hp
  split at hp
  · cases hp
  · exact hp

omit [DecidableEq ι] in
private theorem over_failed (d : Duplex) (mode : RfqMode) :
    Over (.batch mode) d (callDone { d with drain := .failing }) :=
  ⟨fun hk => absurd rfl (hk mode), fun _ _ => Or.inr rfl, rfl, fun hk => (by cases hk), fun _ => rfl, fun hp => hp, rfl,
    rfl, rfl, rfl, rfl⟩

omit [DecidableEq ι] in
private theorem over_recovery (d : Duplex) : Over .recovery d (callDone { d with recovery := none }) :=
  ⟨fun _ => rfl, fun _ hk => (by cases hk), rfl, fun hk => (by cases hk), fun _ => rfl, fun hp => hp, rfl, rfl, rfl,
    rfl, rfl⟩

omit [DecidableEq ι] in
private theorem over_rollback (d : Duplex) : Over .rollback d { d with rollback := .settled } :=
  ⟨fun _ => rfl, fun _ hk => (by cases hk), rfl, fun _ => rfl, fun hk => absurd rfl hk, fun hp => hp, rfl, rfl, rfl,
    rfl, rfl⟩

private theorem Due.finishCall (h : Due s) (hw : WellScheduled s) (hrun : s.running = some call) :
    Due (s.finishCall call) := by
  have hleave : ∀ f : Duplex → Duplex, Over call.kind (s.duplex call.id) (f (s.duplex call.id)) →
      Due (({ s with running := none } : System ι).modify call.id f) := fun f hover =>
    h.leave hw { s with running := none } rfl rfl (WellScheduled.ops_of_running hrun) hover
  unfold System.finishCall
  split
  · rename_i mode hkind
    exact hleave _ (hkind ▸ over_batch _ mode)
  · rename_i hkind
    exact hleave _ (hkind ▸ over_recovery _)
  · rename_i hkind
    exact hleave _ (hkind ▸ over_rollback _)

private theorem Due.throwCall (h : Due s) (hw : WellScheduled s) (hrun : s.running = some call) :
    Due (s.throwCall call) := by
  have hleave : ∀ f : Duplex → Duplex, Over call.kind (s.duplex call.id) (f (s.duplex call.id)) →
      Due (({ s with running := none } : System ι).modify call.id f) := fun f hover =>
    h.leave hw { s with running := none } rfl rfl (WellScheduled.ops_of_running hrun) hover
  unfold System.throwCall
  split
  · rename_i mode hkind
    exact hleave _ (hkind ▸ over_failed _ mode)
  · rename_i hkind
    have hdone := hleave (fun d => callDone { d with recovery := none }) (hkind ▸ over_recovery _)
    dsimp only
    split
    · exact hdone
    · exact hdone.destroyDuplex
  · rename_i hkind
    exact hleave _ (hkind ▸ over_rollback _)

private theorem Due.flushCall (h : Due s) (hw : WellScheduled s) (hrun : s.running = some call) :
    Due (s.flushCall call) := by
  have hrun' : (s.flushHeld call).running = some call := WellScheduled.flushHeld_running.trans hrun
  unfold System.flushCall
  dsimp only
  split
  · split
    · exact h.flushHeld.advance hrun' { call with recovering := true } (s.flushHeld call).session rfl rfl
    · exact h.flushHeld.settlePortal.finishCall hw.flushHeld.settlePortal
        (WellScheduled.settlePortal_running.trans hrun')
  · exact h.flushHeld.finishCall hw.flushHeld hrun'

private theorem Due.recoveredCall {ok : Bool} (h : Due s) (hw : WellScheduled s) (hrun : s.running = some call) :
    Due (s.recoveredCall call ok) := by
  unfold System.recoveredCall
  cases ok with
  | true => exact h.settlePortal.finishCall hw.settlePortal (WellScheduled.settlePortal_running.trans hrun)
  | false =>
    have hlocal : Local none s (s.destroyDuplex call.id) := local_destroyDuplex
    exact h.destroyDuplex.settlePortal.finishCall hw.destroyDuplex.settlePortal
      (WellScheduled.settlePortal_running.trans (hlocal.running.trans hrun))

/-- The call at the head of the queue starts, or is skipped. -/
private theorem Due.start {kind : CallKind} {mutex : List (ι × CallKind)} (h : Due s) (hw : WellScheduled s)
    (hidle : s.running = none) (hmutex : s.mutex = (id, kind) :: mutex) :
    Due ({ s with mutex }.startCall id kind response) := by
  have hops := WellScheduled.ops_of_mutex hidle hmutex
  -- the call, and its duplex as it was
  have hopen : ∀ call : Call ι, call.id = id → call.kind = kind →
      Due ({ s with mutex, running := some call } : System ι) := by
    rintro call rfl rfl
    have hops' : ({ s with mutex, running := some call } : System ι).ops = s.ops := by
      simp only [ops, runningOp, hidle, hmutex, Option.map_none, Option.map_some, Option.toList_none,
        Option.toList_some, List.nil_append, List.singleton_append]
    refine ⟨fun other => ?_, h.fair⟩
    have ht := h.tracked other
    refine ⟨ht.acquiring, ?_, ?_, ?_, fun ha => ?_, ht.stages, ht.waits, ht.cleared, ht.holds⟩
    · rw [hops']
      exact ht.batch
    · rw [hops']
      exact ht.recovery
    · rw [hops']
      exact ht.rollback
    · obtain ⟨call', hrun, -⟩ := inCall_running (ht.awaiting ha)
      cases hidle.symm.trans hrun
  have hnot : (s.duplex id).rollback ≠ .awaitingCall := fun ha => by
    obtain ⟨call', hrun, -⟩ := inCall_running ((h.tracked id).awaiting ha)
    cases hidle.symm.trans hrun
  have hskip : ∀ f : Duplex → Duplex, Over kind (s.duplex id) (f (s.duplex id)) →
      Due (({ s with mutex } : System ι).modify id f) := fun f hover => h.leave hw { s with mutex } rfl rfl hops hover
  unfold startCall
  cases kind with
  | rollback =>
    refine (hopen { id, kind := .rollback } rfl rfl).modify (f := fun d => { d with rollback := .running })
      fun (ht : Tracked _ id _) => ht.roll .running (fun he => by cases he) (fun _ => ?_) fun he => by cases he
    simp [ops, runningOp]
  | batch mode =>
    dsimp only
    split
    · exact (hopen { id, kind := .batch mode, response } rfl rfl).same
        ⟨rfl, rfl, rfl, rfl, rfl, rfl, rfl, rfl, fun _ hi => hi⟩
    · have hover := over_batch (s.duplex id) mode
      refine hskip _ ⟨hover.drain, hover.batch, hover.recovery, fun hk => (by cases hk), fun _ => ?_, hover.phase, rfl,
        rfl, rfl, rfl, rfl⟩
      rw [if_neg hnot]
      rfl
  | recovery =>
    dsimp only
    split
    · refine (hopen { id, kind := .recovery, response } rfl rfl).modify
        (f := fun d => { d.startCall with recovery := some .running })
        fun (ht : Tracked _ id _) => ?_
      have hstarted := ht.recover (some .running) (fun he => by cases he) fun _ => by simp [ops, runningOp]
      exact hstarted.untracked ⟨rfl, rfl, rfl, rfl, rfl, rfl, rfl, rfl, fun _ hi => hi⟩
    · exact hskip _ ⟨fun _ => rfl, fun _ hk => (by cases hk), rfl, fun hk => (by cases hk),
        fun _ => (if_neg hnot).symm, fun hp => hp, rfl, rfl, rfl, rfl, rfl⟩

end Calls

/-! ### Handing over the session -/

theorem settleOne_eq (settlement : Settlement ι) :
    s.settleOne settlement = s.modify settlement.id fun d => { d with drain := settledDrain settlement d.drain } := by
  have hduplex : (s.settleOne settlement).duplex =
      (s.modify settlement.id fun d => { d with drain := settledDrain settlement d.drain }).duplex := by
    funext other
    by_cases ho : other = settlement.id
    · rw [ho, settleOne_at, modify_same]
    · rw [settleOne_other (Ne.symm ho), modify_other ho]
  cases settlement with
  | resolved other => exact congrArg (fun duplex => ({ s with duplex } : System ι)) hduplex
  | rejected other => exact congrArg (fun duplex => ({ s with duplex } : System ι)) hduplex

private theorem modify_comm {other : ι} (h : other ≠ id) (g : Duplex → Duplex) :
    (s.modify id f).modify other g = (s.modify other g).modify id f := by
  simp only [System.modify, Function.update_of_ne h, Function.update_of_ne (Ne.symm h), Function.update_comm h]

/-- A flag of a teardown is reset before or behind the change of the lock. -/
private theorem settle_modify {settled : List (Settlement ι)} (hf : ∀ settlement ∈ settled, settlement.id = id →
    ∀ d, f { d with drain := settledDrain settlement d.drain } =
      { f d with drain := settledDrain settlement (f d).drain }) (s : System ι) :
    settled.foldl System.settleOne (s.modify id f) = (settled.foldl System.settleOne s).modify id f := by
  induction settled generalizing s with
  | nil => rfl
  | cons settlement settled ih =>
    have hone : (s.modify id f).settleOne settlement = (s.settleOne settlement).modify id f := by
      rw [settleOne_eq, settleOne_eq]
      by_cases ho : settlement.id = id
      · rw [ho, modify_modify, modify_modify]
        congr 1
        funext d
        exact (hf settlement List.mem_cons_self ho d).symm
      · exact modify_comm ho _
    simp only [List.foldl_cons, hone]
    exact ih (fun other hmem => hf other (List.mem_cons_of_mem _ hmem)) _

omit [DecidableEq ι] in
private theorem not_claims_of_none (h : s.lock = none) : ¬ s.Claims id := by
  rintro (ho | hq)
  · rw [owner, h] at ho
    cases ho
  · rw [waitQueue, h] at hq
    cases hq

private theorem release_not_claims (h : Due s) (hq : id ∉ s.waitQueue) : ¬ (s.release id).Claims id := by
  unfold System.release
  split
  · rename_i l hl
    have hleaves := SessionLock.release_leaves (h.fair l hl) (waitQueue_of_lock hl ▸ hq)
    rw [claims_of_lock (applyLock_frame _).1]
    exact fun hc => hc.elim hleaves.1 hleaves.2
  · rename_i hl
    exact not_claims_of_none hl

private theorem cancel_not_claims (h : Due s) (id : ι) : ¬ (s.cancel id).Claims id := by
  unfold System.cancel
  split
  · rename_i l hl
    have hleaves := SessionLock.cancel_leaves (h.fair l hl) id
    rw [claims_of_lock (applyLock_frame _).1]
    exact fun hc => hc.elim hleaves.1 hleaves.2
  · rename_i hl
    exact not_claims_of_none hl

/-- The change comes before the release; it might as well come behind it. -/
private theorem release_modify (hf : ∀ l, s.lock = some l → ∀ settlement ∈ (l.release id).settled, settlement.id = id →
    ∀ d, f { d with drain := settledDrain settlement d.drain } =
      { f d with drain := settledDrain settlement (f d).drain }) :
    (s.modify id f).release id = (s.release id).modify id f := by
  unfold System.release
  simp only [modify_lock]
  split
  · rename_i l hl
    exact settle_modify (hf l hl) { s with lock := some (l.release id).lock }
  · rfl

private theorem cancel_modify (hf : ∀ settlement : Settlement ι, settlement.id = id →
    ∀ d, f { d with drain := settledDrain settlement d.drain } =
      { f d with drain := settledDrain settlement (f d).drain }) :
    (s.modify id f).cancel id = (s.cancel id).modify id f := by
  unfold System.cancel
  simp only [modify_lock]
  split
  · rename_i l _
    exact settle_modify (fun settlement _ => hf settlement) { s with lock := some (l.cancel id).lock }
  · rfl

private theorem cancel_rollback : ((s.cancel id).duplex id).rollback = (s.duplex id).rollback := by
  unfold System.cancel
  split
  · rename_i l _
    obtain ⟨drain, hd, -⟩ := settle_duplex (l.cancel id).settled { s with lock := some (l.cancel id).lock } id
    rw [System.applyLock, hd]
  · rfl

/-- The teardown of a duplex that waits for nothing in the lock leaves its drain loop alone. -/
private theorem release_duplex_self (h : Due s) (hq : id ∉ s.waitQueue) : (s.release id).duplex id = s.duplex id := by
  unfold System.release
  split
  · rename_i l hl
    obtain ⟨drain, hd, hout, -⟩ := settle_duplex (l.release id).settled { s with lock := some (l.release id).lock } id
    have hmem : id ∉ (l.release id).settled.map Settlement.id := fun hmem =>
      hq (waitQueue_of_lock hl ▸ (SessionLock.passes_release (h.fair l hl)).settled id hmem)
    rw [System.applyLock, hd, hout hmem]
  · rfl

private theorem Due.step {a : Action ι} (h : Due s) (hw : WellScheduled s) (hu : s.AllUnended)
    (hs : s.step a = some s') :
    Due s' := by
  cases a with
  | write id chunk =>
    simp only [System.step] at hs
    split at hs
    · cases hs
    · cases hs
      exact h.same ⟨rfl, rfl, rfl, rfl, rfl, rfl, rfl, rfl, fun _ hi => hi⟩
  | deliver id count =>
    simp only [System.step] at hs
    split at hs
    · cases hs
    · rename_i hguard
      simp only [not_or, not_not, Bool.not_eq_true] at hguard
      obtain ⟨htorn, hidle, -, -⟩ := hguard
      have ht := h.tracked id
      have hq : id ∉ s.waitQueue := ht.not_waiting (by simp [Duplex.stage, hidle])
      split at hs
      · cases hs
        exact h.same ⟨rfl, rfl, rfl, rfl, rfl, rfl, rfl, rfl, fun _ hi => hi⟩
      · cases hs
        refine h.modify fun ht => ?_
        have := ht.loop hq (by simp [hidle]) (Or.inr (Or.inl rfl))
        exact this.untracked ⟨rfl, rfl, rfl, rfl, rfl, rfl, rfl, rfl, fun he => (by cases htorn.symm.trans he)⟩
  | process id => exact h.process hs fun hactive => hw.not_ended (by simp [hactive])
  | tail id =>
    simp only [System.step] at hs
    split at hs
    · cases hs
    · cases hs
      exact (h.same ⟨rfl, rfl, rfl, rfl, rfl, rfl, rfl, rfl, fun _ hi => hi⟩).judgePortal
  | pgliteReady id =>
    simp only [System.step] at hs
    split at hs
    · rename_i op hop
      cases hs
      obtain ⟨hstage, -⟩ := WellScheduled.admitted_stage hop
      obtain ⟨op', hdrain⟩ := busy_of_stage hstage
      have hq := (h.tracked id).not_waiting (by simp [hstage])
      exact h.push _ fun ht hmem => ht.drain hq (by simp [hdrain]) _ (fun he => by cases he) (fun he => by cases he)
        (fun _ => ⟨_, hmem⟩) (fun he => by cases he)
    · cases hs
  | pgliteNotReady id =>
    simp only [System.step] at hs
    split at hs
    · rename_i op hop
      cases hs
      obtain ⟨hstage, -⟩ := WellScheduled.admitted_stage hop
      obtain ⟨op', hdrain⟩ := busy_of_stage hstage
      have hq := (h.tracked id).not_waiting (by simp [hstage])
      exact h.modify fun ht => ht.loop hq (by simp [hdrain]) (Or.inr (Or.inr rfl))
    · cases hs
  | recoveryReady id =>
    simp only [System.step] at hs
    split at hs
    · cases hs
      exact h.push _ fun ht hmem => ht.recover (some .queued) (fun he => by cases he) fun _ => hmem
    · cases hs
  | recoveryNotReady id =>
    simp only [System.step] at hs
    split at hs
    · cases hs
      have hdone : Due (s.modify id fun d => { d with recovery := none }) := by
        refine h.modify fun ht => ht.recover none (fun he => by cases he) fun hr => ?_
        rcases hr with hr | hr <;> cases hr
      split
      · exact hdone
      · exact hdone.destroyDuplex
    · cases hs
  | queryRollback id ok =>
    simp only [System.step] at hs
    split at hs
    · cases hs
      split
      · exact h.push _ fun ht hmem => ht.roll .queued (fun he => by cases he) (fun _ => hmem) fun he => by cases he
      · refine h.modify fun ht => ht.roll .settled (fun he => by cases he) (fun hr => ?_) fun he => by cases he
        rcases hr with hr | hr <;> cases hr
    · cases hs
  | start response =>
    simp only [System.step] at hs
    split at hs
    · rename_i id kind mutex hidle hmutex
      cases hs
      exact h.start hw hidle hmutex
    · cases hs
  | frame =>
    simp only [System.step] at hs
    split at hs
    · rename_i call hrun
      split at hs
      · cases hs
        exact h.receive hrun
      · cases hs
    · cases hs
  | flush =>
    simp only [System.step] at hs
    split at hs
    · rename_i call hrun
      split at hs
      · cases hs
      · cases hs
        exact h.flushCall hw hrun
    · cases hs
  | recovered ok =>
    simp only [System.step] at hs
    split at hs
    · rename_i call hrun
      split at hs
      · cases hs
        exact h.recoveredCall hw hrun
      · cases hs
    · cases hs
  | throw =>
    simp only [System.step] at hs
    split at hs
    · rename_i call hrun
      split at hs
      · cases hs
      · cases hs
        exact h.throwCall hw hrun
    · cases hs
  | rolledBack ok =>
    simp only [System.step] at hs
    split at hs
    · rename_i call hrun
      split at hs
      · cases hs
        have hfinish := h.finishCall hw hrun
        split
        · have hidle : Due ((s.finishCall call).modify call.id fun d =>
              { d with lastSeenRfqStatus := some RFQ_STATUS_IDLE }) := hfinish.same
            ⟨rfl, rfl, rfl, rfl, rfl, rfl, rfl, rfl, fun _ hi => hi⟩
          exact ⟨fun other => have ht := hidle.tracked other
            ⟨ht.acquiring, ht.batch, ht.recovery, ht.rollback, ht.awaiting, ht.stages, ht.waits, ht.cleared, ht.holds⟩,
            hidle.fair⟩
        · exact hfinish
      · cases hs
    · cases hs
  | releaseAbandonedPortalHold id =>
    cases hs
    exact h.releasePortal
  | final id =>
    simp only [System.step] at hs
    split at hs
    · cases hs
    · rename_i hguard
      cases hs
      simp only [not_or, not_not, Bool.not_eq_true] at hguard
      obtain ⟨-, htorn, -, -⟩ := hguard
      refine h.tearing rfl rfl rfl (fun he => (by cases htorn.symm.trans he)) fun hc => ?_
      have hold := (h.tracked id).holds hc
      exact ⟨hold.tornDown, hold.terminated, fun _ => Or.inl rfl⟩
  | destroy id =>
    simp only [System.step] at hs
    split at hs
    · cases hs
    · cases hs
      exact h.destroyDuplex
  | decide id =>
    simp only [System.step] at hs
    split at hs
    · cases hs
      unfold decideRollback
      refine h.modify fun ht => ht.roll _ ?_ (fun hr => ?_) fun ha => ?_
      · split <;> exact fun he => by cases he
      · split at hr <;> rcases hr with hr | hr <;> cases hr
      · split at ha <;> cases ha
    · cases hs
  | finalRelease id =>
    simp only [System.step] at hs
    split at hs
    · rename_i hguard
      cases hs
      obtain ⟨hfinal, hsettled⟩ := hguard
      have hstarted : (s.duplex id).rollback ≠ .notStarted := by
        rw [hsettled]
        exact fun he => by cases he
      have hidle := (hw.ended id ((hu id).final hfinal)).1
      have hq : id ∉ s.waitQueue := (h.tracked id).not_waiting (by simp [Duplex.stage, hidle])
      split
      · -- the Terminate has released the session
        rename_i hphase
        rw [modify_same] at hphase
        have hphase : (s.duplex id).phase = .terminated := hphase
        refine h.modify fun ht => ⟨ht.acquiring, ht.batch, ht.recovery, ht.rollback, ht.awaiting, ht.stages,
          fun _ => hstarted, ht.cleared, fun hc => ?_⟩
        obtain ⟨htorn, hterm, -⟩ := ht.holds hc
        have hwaits := (hterm hphase).resolve_left (by simp [hidle])
        exact ⟨htorn, hterm, fun _ => Or.inr hwaits⟩
      · rw [release_modify fun _ _ _ _ _ _ => rfl, modify_modify]
        have hno := release_not_claims h hq
        refine h.release.modify fun ht => ⟨ht.acquiring, ht.batch, ht.recovery, ht.rollback, ht.awaiting, ht.stages,
          fun _ => ?_, ht.cleared, fun hc => absurd hc hno⟩
        rw [release_duplex_self h hq]
        exact hstarted
    · cases hs
  | destroyCancel id =>
    simp only [System.step] at hs
    split at hs
    · rename_i hguard
      cases hs
      rw [cancel_modify fun _ _ _ => rfl]
      have hno := cancel_not_claims h id
      refine h.cancel.modify fun ht => ⟨ht.acquiring, ht.batch, ht.recovery, ht.rollback, ht.awaiting, ht.stages,
        fun _ => ?_, ht.cleared, fun hc => absurd hc hno⟩
      rw [cancel_rollback, hguard.2]
      exact fun he => by cases he
    · cases hs
  | terminateRelease id =>
    simp only [System.step] at hs
    split at hs
    · rename_i hguard
      cases hs
      obtain ⟨hterm, hsettled⟩ := hguard
      have hq : id ∉ s.waitQueue := (h.tracked id).not_waiting (by simp [Duplex.stage, hterm])
      have hout : ∀ l, s.lock = some l → ∀ settlement ∈ (l.release id).settled, settlement.id ≠ id := by
        intro l hl settlement hmem hid
        have hin := (SessionLock.passes_release (h.fair l hl)).settled id (List.mem_map.2 ⟨settlement, hmem, hid⟩)
        exact hq (waitQueue_of_lock hl ▸ hin)
      rw [release_modify fun l hl settlement hmem hid => absurd hid (hout l hl settlement hmem), modify_modify]
      have hno := release_not_claims h hq
      have hwait : id ∉ (s.release id).waitQueue := fun hmem => hno (Or.inr hmem)
      refine h.release.modify fun ht => ⟨⟨fun he => (by cases he), fun hmem => absurd hmem hwait⟩,
        fun he => (by cases he), ht.recovery, ht.rollback, ht.awaiting, ⟨fun he => (by cases he), ht.stages.2⟩,
        fun _ => ?_, ht.cleared, fun hc => absurd hc hno⟩
      change ((s.release id).duplex id).rollback ≠ .notStarted
      rw [release_duplex_self h hq, hsettled]
      exact fun he => by cases he
    · cases hs

omit [DecidableEq ι] in
private theorem due_initial (locked : Bool) (cap : ι → Nat) [DecidableEq ι] : Due (initial locked cap) := by
  have hqueue : (initial locked cap).waitQueue = [] := by cases locked <;> rfl
  have howner : (initial locked cap).owner = none := by cases locked <;> rfl
  refine ⟨fun id => ⟨⟨fun he => (by cases he), fun hmem => ?_⟩, fun he => (by cases he), ?_, fun he => (by cases he),
    fun he => (by cases he), ⟨fun he => (by cases he), fun he => (by cases he)⟩, ?_, fun he => (by cases he),
    fun hc => ?_⟩, fun l hl => ?_⟩
  · rw [hqueue] at hmem
    cases hmem
  · rintro (hr | hr) <;> cases hr
  · rintro (hw | hw | hw) <;> cases hw
  · rcases hc with ho | hq
    · rw [howner] at ho
      cases ho
    · rw [hqueue] at hq
      cases hq
  · cases locked with
    | true =>
      cases hl
      exact ⟨List.nodup_nil, fun _ ho => (by cases ho), fun _ => rfl⟩
    | false => cases hl

theorem due {cond : System ι → Action ι → Prop} {locked : Bool} {cap : ι → Nat}
    (run : Run System.step cond (initial locked cap) s) : Due s := by
  induction run with
  | refl => exact due_initial locked cap
  | snoc run _ hs ih => exact ih.step (wellScheduled locked cap run) (unended run) hs

end System

end PgliteBridge
