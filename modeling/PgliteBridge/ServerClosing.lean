import PgliteBridge.ServerCoherence

/-!
# Snapshot calls against `close()`

`close()` cancels the listed waiters before it waits for the operations.  A call whose `acquire` has been resolved but
whose continuation has not run is a listed waiter that owns the session.  In the runs whose sweeps meet no such call the
body of a snapshot call owns the session, PGlite executes no duplex's statement between the statements of the body, and
no call is under way any more when the sockets are destroyed.
-/

namespace PgliteBridge.PGliteServer

/-- Without the session, or without having noticed that it has it. -/
def CallStage.pending : CallStage → Bool
  | waiting _ => true
  | granted _ => true
  | _ => false

namespace Server

variable {κ δ : Type} [DecidableEq κ] [DecidableEq δ] {s s' : Server κ δ} {g : κ ⊕ δ} {c : κ} {d : δ}

/-- The sweep of `close()` finds no waiter that owns the session. -/
def SparesOwner (s : Server κ δ) (a : ServerAction κ δ) : Prop :=
  a = .sweep → ∀ c ∈ s.sessionWaiters, s.lock.owner ≠ some (.inl c)

instance (s : Server κ δ) (a : ServerAction κ δ) : Decidable (s.SparesOwner a) :=
  inferInstanceAs (Decidable (a = .sweep → ∀ c ∈ s.sessionWaiters, s.lock.owner ≠ some (.inl c)))

/-- A call that has the session owns it. -/
def Owned (s : Server κ δ) : Prop := ∀ c, (s.call c).holds → s.lock.owner = some (.inl c)

/-! ### What a settlement does to the calls -/

private theorem settleOne_call (error : SessionError) (s : Server κ δ) (settlement : Settlement (κ ⊕ δ)) (c : κ) :
    (settleOne error s settlement).call c = s.call c ∨ (settleOne error s settlement).call c = .rejecting error ∨
      (settlement = .resolved (.inl c) ∧ (s.call c).waits ∧
        ∃ call, (settleOne error s settlement).call c = .granted call) := by
  unfold settleOne
  split
  · rename_i c'
    split
    · rename_i call hcall
      rw [setCall_call]
      split
      · rename_i hc
        subst hc
        exact .inr (.inr ⟨rfl, by rw [hcall]; rfl, call, rfl⟩)
      · exact .inl rfl
    · exact .inl rfl
  · rw [setCall_call]
    split
    · exact .inr (.inl rfl)
    · exact .inl rfl
  · exact .inl rfl
  · exact .inl rfl

/-- A call is as before, refused, or granted the session that the lock gives it. -/
private theorem applyLock_call (outcome : SessionLock.Outcome (κ ⊕ δ)) (error : SessionError) (s : Server κ δ) (c : κ) :
    (s.applyLock error outcome).call c = s.call c ∨ (s.applyLock error outcome).call c = .rejecting error ∨
      (.resolved (.inl c) ∈ outcome.settled ∧ (s.call c).waits ∧
        ∃ call, (s.applyLock error outcome).call c = .granted call) := by
  suffices ∀ (settled : List (Settlement (κ ⊕ δ))) (u : Server κ δ),
      (settled.foldl (settleOne error) u).call c = u.call c ∨
      (settled.foldl (settleOne error) u).call c = .rejecting error ∨
      (.resolved (.inl c) ∈ settled ∧ (u.call c).waits ∧
        ∃ call, (settled.foldl (settleOne error) u).call c = .granted call) from
    this outcome.settled { s with lock := outcome.lock }
  intro settled
  induction settled with
  | nil => exact fun u => .inl rfl
  | cons settlement settled ih =>
    intro u
    simp only [List.foldl_cons]
    rcases ih (settleOne error u settlement) with hrest | hrest | ⟨hmem, hwaits, hcall⟩
    · rw [hrest]
      rcases settleOne_call error u settlement c with hone | hone | ⟨rfl, hwaits, hcall⟩
      · exact .inl hone
      · exact .inr (.inl hone)
      · exact .inr (.inr ⟨List.mem_cons_self, hwaits, hcall⟩)
    · exact .inr (.inl hrest)
    · refine .inr (.inr ⟨List.mem_cons_of_mem _ hmem, ?_, hcall⟩)
      rcases settleOne_call error u settlement c with hone | hone | ⟨-, hwaiting, -⟩
      · exact hone ▸ hwaits
      · rw [hone] at hwaits
        cases hwaits
      · exact hwaiting

@[simp] theorem applyLock_lock {outcome : SessionLock.Outcome (κ ⊕ δ)} (error : SessionError) (s : Server κ δ) :
    (s.applyLock error outcome).lock = outcome.lock := by
  suffices ∀ (settled : List (Settlement (κ ⊕ δ))) (u : Server κ δ),
      (settled.foldl (settleOne error) u).lock = u.lock from this _ _
  intro settled
  induction settled with
  | nil => exact fun _ => rfl
  | cons settlement settled ih => exact fun u => (ih _).trans (settleOne_lock error u settlement)

private theorem settleOne_frame (error : SessionError) (s : Server κ δ) (settlement : Settlement (κ ⊕ δ)) :
    (settleOne error s settlement).sessionOps = s.sessionOps ∧ (settleOne error s settlement).closing = s.closing ∧
      (settleOne error s settlement).busy = s.busy ∧ (settleOne error s settlement).sockets = s.sockets ∧
      (settleOne error s settlement).listener = s.listener := by
  unfold settleOne
  split
  · split <;> exact ⟨rfl, rfl, rfl, rfl, rfl⟩
  all_goals exact ⟨rfl, rfl, rfl, rfl, rfl⟩

/-- What the lock has no part in. -/
theorem applyLock_frame (outcome : SessionLock.Outcome (κ ⊕ δ)) (error : SessionError) (s : Server κ δ) :
    (s.applyLock error outcome).sessionOps = s.sessionOps ∧ (s.applyLock error outcome).closing = s.closing ∧
      (s.applyLock error outcome).busy = s.busy ∧ (s.applyLock error outcome).sockets = s.sockets ∧
      (s.applyLock error outcome).listener = s.listener := by
  suffices ∀ (settled : List (Settlement (κ ⊕ δ))) (u : Server κ δ),
      (settled.foldl (settleOne error) u).sessionOps = u.sessionOps ∧
      (settled.foldl (settleOne error) u).closing = u.closing ∧ (settled.foldl (settleOne error) u).busy = u.busy ∧
      (settled.foldl (settleOne error) u).sockets = u.sockets ∧
      (settled.foldl (settleOne error) u).listener = u.listener from this _ { s with lock := outcome.lock }
  intro settled
  induction settled with
  | nil => exact fun _ => ⟨rfl, rfl, rfl, rfl, rfl⟩
  | cons settlement settled ih =>
    intro u
    obtain ⟨h₁, h₂, h₃, h₄, h₅⟩ := ih (settleOne error u settlement)
    obtain ⟨g₁, g₂, g₃, g₄, g₅⟩ := settleOne_frame error u settlement
    exact ⟨h₁.trans g₁, h₂.trans g₂, h₃.trans g₃, h₄.trans g₄, h₅.trans g₅⟩

/-! ### Ownership -/

private theorem Owned.applyLock {outcome : SessionLock.Outcome (κ ⊕ δ)} (error : SessionError)
    (hgrants : outcome.Grants)
    (hkeeps : ∀ c, (s.call c).holds → outcome.lock.owner = some (.inl c)) : (s.applyLock error outcome).Owned := by
  intro c hc
  rw [applyLock_lock]
  rcases applyLock_call outcome error s c with hcall | hcall | ⟨hmem, -, -⟩
  · exact hkeeps c (hcall ▸ hc)
  · rw [hcall] at hc
    cases hc
  · exact hgrants _ hmem

/-- A participant gives the session up that does not hold it any more. -/
private theorem Owned.release (h : s.Owned) (error : SessionError) (hg : ∀ c, g = .inl c → (s.call c).holds = false) :
    (s.applyLock error (s.lock.release g)).Owned := by
  refine Owned.applyLock error (SessionLock.release_grants _ _) fun c hc => ?_
  have howner := h c hc
  rw [SessionLock.release_not_owner]
  · exact howner
  · rw [howner]
    intro he
    rw [hg c (Option.some.inj he).symm] at hc
    cases hc

private theorem Owned.updateStatus (h : s.Owned) (error : SessionError) (status : UInt8) :
    (s.applyLock error (s.lock.updateStatus (.inr d) status)).Owned := by
  refine Owned.applyLock error (SessionLock.updateStatus_grants _ _ _) fun c hc => ?_
  rw [SessionLock.updateStatus_not_owner]
  · exact h c hc
  · rw [h c hc]
    exact fun he => (by cases he)

private theorem Owned.cancel (h : s.Owned) (error : SessionError) (hg : ∀ c, g = .inl c → (s.call c).holds = false) :
    (s.applyLock error (s.lock.cancel g)).Owned := by
  refine Owned.applyLock error (SessionLock.cancel_grants _ _) fun c hc => SessionLock.cancel_owner (h c hc) ?_
  rintro rfl
  rw [hg c rfl] at hc
  cases hc

private theorem Owned.acquire (h : s.Owned) (error : SessionError) : (s.applyLock error (s.lock.acquire g)).Owned :=
  Owned.applyLock error (SessionLock.acquire_grants _ _) fun c hc => SessionLock.acquire_owner (h c hc)

/-! ### The invariant -/

/-- From the sweep on no call waits, and only the operations `close()` waits for have the session. -/
def Drained (s : Server κ δ) : Prop :=
  match s.closing with
  | .no => True
  | .called => True
  | .swept ops => ∀ c, (s.call c).waits = false ∧ ((s.call c).holds → (s.call c).runs ∧ c ∈ ops)
  | .destroying _ => ∀ c, (s.call c).waits = false ∧ (s.call c).holds = false
  | .done _ => ∀ c, (s.call c).waits = false ∧ (s.call c).holds = false

structure Guarded (s : Server κ δ) : Prop where
  owned : s.Owned
  alone : ∀ c, s.call c = .running true → ∀ d, s.busy ≠ some (.inr d)
  drained : s.Drained

omit [DecidableEq κ] [DecidableEq δ] in
private theorem Drained.of_calls (h : s.Drained) (hclosing : s'.closing = s.closing)
    (hcalls : ∀ c, s'.call c = s.call c ∨ ((s'.call c).waits = false ∧ (s'.call c).holds = false) ∨
      (s.call c).pending ∨ ((s.call c).runs ∧ (s'.call c).waits = false ∧ (s'.call c).runs)) : s'.Drained := by
  have holds_of_runs : ∀ stage : CallStage, stage.runs → stage.holds := by
    intro stage hstage
    cases stage <;> first | rfl | cases hstage
  have of_pending : ∀ stage : CallStage, stage.pending → stage.waits = false → stage.holds ∧ stage.runs = false := by
    intro stage hstage hwaits
    cases stage with
    | granted call => exact ⟨rfl, rfl⟩
    | waiting call => exact Bool.noConfusion (show true = false from hwaits)
    | _ => cases hstage
  unfold Drained at h ⊢
  rw [hclosing]
  split <;> rename_i hs <;> rw [hs] at h <;> simp only at h ⊢
  · intro c
    rcases hcalls c with hcall | ⟨hwaits, hholds⟩ | hpending | ⟨hruns, hwaits, hruns'⟩
    · rw [hcall]
      exact h c
    · exact ⟨hwaits, fun hh => (by cases hholds.symm.trans hh)⟩
    · obtain ⟨hholds, hruns⟩ := of_pending _ hpending (h c).1
      cases hruns.symm.trans ((h c).2 hholds).1
    · exact ⟨hwaits, fun _ => ⟨hruns', ((h c).2 (holds_of_runs _ hruns)).2⟩⟩
  all_goals
    intro c
    rcases hcalls c with hcall | hquiet | hpending | ⟨hruns, -, -⟩
    · rw [hcall]
      exact h c
    · exact hquiet
    · cases (h c).2.symm.trans (of_pending _ hpending (h c).1).1
    · cases (h c).2.symm.trans (holds_of_runs _ hruns)

omit [DecidableEq κ] [DecidableEq δ] in
/-- Calls stay as they are or end, and no duplex's statement is started. -/
private theorem Guarded.frame (h : s.Guarded) (hlock : s'.lock = s.lock)
    (hcalls : ∀ c, s'.call c = s.call c ∨ ((s'.call c).waits = false ∧ (s'.call c).holds = false))
    (hbusy : ∀ d, s'.busy = some (.inr d) → s.busy = some (.inr d)) (hclosing : s'.closing = s.closing) :
    s'.Guarded where
  owned := by
    intro c hc
    rw [hlock]
    rcases hcalls c with hcall | ⟨-, hholds⟩
    · exact h.owned c (hcall ▸ hc)
    · cases hholds.symm.trans hc
  alone := by
    intro c hc d hd
    rcases hcalls c with hcall | ⟨-, hholds⟩
    · exact h.alone c (hcall ▸ hc) d (hbusy d hd)
    · rw [hc] at hholds
      cases hholds
  drained := h.drained.of_calls hclosing fun c => (hcalls c).imp_right .inl

private theorem Guarded.applyLock {outcome : SessionLock.Outcome (κ ⊕ δ)} {error : SessionError} (h : s.Guarded)
    (howned : (s.applyLock error outcome).Owned) : (s.applyLock error outcome).Guarded := by
  obtain ⟨-, hclosing, hbusy, -, -⟩ := applyLock_frame outcome error s
  refine ⟨howned, fun c hc d hd => ?_, h.drained.of_calls hclosing fun c => ?_⟩
  · rw [hbusy] at hd
    rcases applyLock_call outcome error s c with hcall | hcall | ⟨-, -, call, hcall⟩
    · exact h.alone c (hcall ▸ hc) d hd
    · cases hcall.symm.trans hc
    · cases hcall.symm.trans hc
  · rcases applyLock_call outcome error s c with hcall | hcall | ⟨-, hwaits, -⟩
    · exact .inl hcall
    · rw [hcall]
      exact .inr (.inl ⟨rfl, rfl⟩)
    · refine .inr (.inr (.inl ?_))
      cases hstage : s.call c <;> rw [hstage] at hwaits <;> first | rfl | cases hwaits

/-! ### Snapshot calls -/

omit [DecidableEq δ] in
/-- A call that is refused or over. -/
private theorem Guarded.setCall {stage : CallStage} (h : s.Guarded) (hwaits : stage.waits = false)
    (hholds : stage.holds = false) : (s.setCall c stage).Guarded := by
  refine h.frame rfl (fun c' => ?_) (fun _ hd => hd) rfl
  rw [setCall_call]
  split
  · exact .inr ⟨hwaits, hholds⟩
  · exact .inl rfl

private theorem Guarded.withSession (h : s.Guarded) (c : κ) (call : SnapshotCall) :
    (s.withSession c call).Guarded := by
  unfold Server.withSession
  split
  · exact h.setCall rfl rfl
  rename_i hclosing
  split
  · exact h.setCall rfl rfl
  split
  · exact h.setCall rfl rfl
  have hwaiting : Guarded { s.setCall c (.waiting call) with sessionWaiters := s.sessionWaiters ++ [c] } := by
    refine ⟨fun c' hc' => ?_, fun c' hc' => ?_, ?_⟩
    · simp only [setCall_call] at hc'
      split at hc'
      · cases hc'
      · exact h.owned c' hc'
    · simp only [setCall_call] at hc'
      split at hc'
      · cases hc'
      · exact h.alone c' hc'
    · unfold Drained
      simp only [setCall_closing, Decidable.not_not.1 hclosing]
  exact hwaiting.applyLock (hwaiting.owned.acquire _)

private theorem Guarded.resume (h : s.Guarded) (hs : s.resume c = some s') : s'.Guarded := by
  unfold Server.resume at hs
  split at hs
  · rename_i call hcall
    have howner := h.owned c (by rw [hcall]; rfl)
    cases hs
    dsimp only
    split
    · have hrefused : Guarded (Server.setCall { s with
          sessionWaiters := s.sessionWaiters.filter (· ≠ c), sessionOps := s.sessionOps ++ [c] } c
          (.rejected (.openTransactions call.method (openTransactions { s with
            sessionWaiters := s.sessionWaiters.filter (· ≠ c), sessionOps := s.sessionOps ++ [c] })))) :=
        Guarded.setCall (h.frame rfl (fun _ => .inl rfl) (fun _ hd => hd) rfl) rfl rfl
      refine hrefused.applyLock (hrefused.owned.release _ fun c' hc' => ?_)
      rw [← Sum.inl.inj hc', setCall_call, if_pos rfl]
      rfl
    · refine ⟨fun c' hc' => ?_, fun c' hc' => ?_, h.drained.of_calls rfl fun c' => ?_⟩
      · rw [setCall_call] at hc'
        split at hc'
        · rename_i he
          exact he ▸ howner
        · exact h.owned c' hc'
      · rw [setCall_call] at hc'
        split at hc'
        · cases hc'
        · exact h.alone c' hc'
      · rw [setCall_call]
        split
        · rename_i he
          subst he
          exact .inr (.inr (.inl (by rw [hcall]; rfl)))
        · exact .inl rfl
  · rename_i error hcall
    cases hs
    have hrefused : (s.setCall c (.rejected error)).Guarded := h.setCall rfl rfl
    exact hrefused.frame rfl (fun _ => .inl rfl) (fun _ hd => hd) rfl
  · cases hs

private theorem Guarded.expire (h : s.Guarded) (hs : s.expire c = some s') : s'.Guarded := by
  unfold Server.expire at hs
  split at hs
  · rename_i call hcall
    cases hs
    refine Guarded.setCall (h.applyLock (h.owned.cancel _ fun c' hc' => ?_)) rfl rfl
    rw [← Sum.inl.inj hc', hcall]
    rfl
  · cases hs

omit [DecidableEq δ] in
private theorem Guarded.startStatement (h : s.Guarded) (hs : s.startStatement c = some s') : s'.Guarded := by
  unfold Server.startStatement at hs
  split at hs
  · rename_i started hcall hidle
    cases hs
    refine ⟨fun c' hc' => ?_, fun c' hc' d hd => (by cases hd), h.drained.of_calls rfl fun c' => ?_⟩
    · simp only [setCall_call] at hc'
      split at hc'
      · rename_i he
        exact he ▸ h.owned c (by rw [hcall]; rfl)
      · exact h.owned c' hc'
    · simp only [setCall_call]
      split
      · rename_i he
        exact .inr (.inr (.inr ⟨by rw [he, hcall]; rfl, rfl, rfl⟩))
      · exact .inl rfl
  · cases hs

private theorem Guarded.finishBody (h : s.Guarded) (hs : s.finishBody c = some s') : s'.Guarded := by
  unfold Server.finishBody at hs
  split at hs
  · split at hs
    · cases hs
    · cases hs
      have hover : (s.setCall c .finished).Guarded := h.setCall rfl rfl
      refine hover.applyLock (hover.owned.release _ fun c' hc' => ?_)
      rw [← Sum.inl.inj hc', setCall_call, if_pos rfl]
      rfl
  · cases hs

/-! ### `close()` -/

/-- One round of the sweep: a call without the session is refused if it waits and left alone if not. -/
private theorem sweep_one (howner : s.lock.owner ≠ some (.inl c)) :
    (∀ c', (s.applyLock .closedWhileWaiting (s.lock.cancel (.inl c))).call c' = s.call c' ∨
      (s.applyLock .closedWhileWaiting (s.lock.cancel (.inl c))).call c' = .rejecting .closedWhileWaiting) ∧
    (s.applyLock .closedWhileWaiting (s.lock.cancel (.inl c))).lock.owner = s.lock.owner := by
  have hsettled : (s.lock.cancel (.inl c)).settled = (s.lock.waitQueue.filter (· = .inl c)).map .rejected := by
    simp only [SessionLock.cancel, if_neg howner, List.nil_append]
  refine ⟨fun c' => ?_, ?_⟩
  · rcases applyLock_call (s.lock.cancel (.inl c)) .closedWhileWaiting s c' with hcall | hcall | ⟨hmem, -, -⟩
    · exact .inl hcall
    · exact .inr hcall
    · rw [hsettled, List.mem_map] at hmem
      obtain ⟨other, -, he⟩ := hmem
      cases he
  · rw [applyLock_lock]
    simp only [SessionLock.cancel, if_neg howner]

private theorem sweep_all (waiters : List κ) (h : s.Coherent) (hspares : ∀ c ∈ waiters, s.lock.owner ≠ some (.inl c)) :
    let swept := waiters.foldl (fun s c => s.applyLock .closedWhileWaiting (s.lock.cancel (.inl c))) s
    swept.lock.owner = s.lock.owner ∧
    (∀ c, swept.call c = s.call c ∨ swept.call c = .rejecting .closedWhileWaiting) ∧
    (∀ c ∈ waiters, (s.call c).waits → swept.call c = .rejecting .closedWhileWaiting) := by
  induction waiters generalizing s with
  | nil => exact ⟨rfl, fun _ => .inl rfl, fun c hc => (by cases hc)⟩
  | cons c rest ih =>
    obtain ⟨hcalls, howner⟩ := sweep_one (hspares c List.mem_cons_self)
    obtain ⟨howner', hkept, hrefused⟩ := ih (h.cancelCall .closedWhileWaiting c) fun c' hc' => by
      rw [howner]
      exact hspares c' (List.mem_cons_of_mem _ hc')
    refine ⟨howner'.trans howner, fun c' => ?_, fun c' hc' hwaits => ?_⟩
    · rcases hkept c' with hkept | hkept
      · exact (hcalls c').imp hkept.trans hkept.trans
      · exact .inr hkept
    · rcases hcalls c' with hsame | hdone
      · rcases List.mem_cons.1 hc' with rfl | hmem
        · have hnow := h.cancelCall_call .closedWhileWaiting hwaits
          exact (hkept c').elim (fun hk => hk.trans hnow) id
        · exact hrefused c' hmem (hsame ▸ hwaits)
      · exact (hkept c').elim (fun hk => hk.trans hdone) id

theorem cancelWaiters_frame : s.cancelWaiters.sessionOps = s.sessionOps ∧ s.cancelWaiters.busy = s.busy ∧
    s.cancelWaiters.sockets = s.sockets ∧ s.cancelWaiters.listener = s.listener := by
  unfold Server.cancelWaiters
  generalize s.sessionWaiters = waiters
  induction waiters generalizing s with
  | nil => exact ⟨rfl, rfl, rfl, rfl⟩
  | cons c rest ih =>
    obtain ⟨hops, -, hbusy, hsockets, hlistener⟩ :=
      applyLock_frame (s.lock.cancel (.inl c)) .closedWhileWaiting s
    obtain ⟨hops', hbusy', hsockets', hlistener'⟩ := ih (s := s.applyLock .closedWhileWaiting (s.lock.cancel (.inl c)))
    exact ⟨hops'.trans hops, hbusy'.trans hbusy, hsockets'.trans hsockets, hlistener'.trans hlistener⟩

private theorem Guarded.sweep (h : s.Guarded) (hc : s.Coherent) (hspares : s.SparesOwner .sweep)
    (hs : s.sweep = some s') :
    s'.Guarded := by
  unfold Server.sweep at hs
  split at hs
  · split at hs
    · cases hs
    obtain ⟨howner, hkept, hrefused⟩ := sweep_all s.sessionWaiters hc (hspares rfl)
    obtain ⟨hops, hbusy, -, -⟩ := cancelWaiters_frame (s := s)
    change s.cancelWaiters.lock.owner = _ at howner
    cases hs
    refine ⟨fun c hcall => ?_, fun c hcall d hd => ?_, fun c => ?_⟩
    · rcases hkept c with hsame | hdone
      · exact howner.trans (h.owned c (hsame ▸ hcall))
      · cases (congrArg CallStage.holds hdone).symm.trans hcall
    · rcases hkept c with hsame | hdone
      · exact h.alone c (hsame.symm.trans hcall) d (hbusy.symm.trans hd)
      · cases hdone.symm.trans hcall
    · rcases hkept c with hsame | hdone
      · change (s.cancelWaiters.call c).waits = false ∧
          ((s.cancelWaiters.call c).holds → (s.cancelWaiters.call c).runs ∧ c ∈ s.cancelWaiters.sessionOps)
        change s.cancelWaiters.call c = s.call c at hsame
        have hfits := hc.ofCall c
        have hnot : ∀ call, s.call c ≠ .waiting call := by
          intro call hstage
          have hmem := hfits.listed.2 (by rw [hstage]; rfl)
          have hnow := hrefused c hmem (by rw [hstage]; rfl)
          cases (hsame.trans hstage).symm.trans hnow
        have hgranted : ∀ call, s.call c ≠ .granted call := by
          intro call hstage
          have hmem := hfits.listed.2 (by rw [hstage]; rfl)
          exact hspares rfl c hmem (h.owned c (by rw [hstage]; rfl))
        rw [hsame, hops]
        cases hstage : s.call c with
        | waiting call => exact absurd hstage (hnot call)
        | granted call => exact absurd hstage (hgranted call)
        | running started => exact ⟨rfl, fun _ => ⟨rfl, hfits.tracked (by rw [hstage]; rfl)⟩⟩
        | _ => exact ⟨rfl, fun hh => (by cases hh)⟩
      · change s.cancelWaiters.call c = _ at hdone
        change (s.cancelWaiters.call c).waits = false ∧ _
        rw [hdone]
        exact ⟨rfl, fun hh => (by cases hh)⟩
  · cases hs

omit [DecidableEq κ] [DecidableEq δ] in
private theorem Guarded.destroySockets (h : s.Guarded) (hs : s.destroySockets = some s') : s'.Guarded := by
  have hdrained := h.drained
  unfold Server.destroySockets at hs
  split at hs
  · rename_i ops hclosing
    simp only [Drained, hclosing] at hdrained
    split at hs
    · rename_i hover
      cases hs
      refine ⟨h.owned, h.alone, fun c => ⟨(hdrained c).1, ?_⟩⟩
      rw [Bool.eq_false_iff]
      intro hholds
      obtain ⟨hruns, hmem⟩ := (hdrained c).2 hholds
      have hcall := List.all_eq_true.1 hover c hmem
      cases hstage : s.call c with
      | running started => cases started <;> simp [hstage] at hcall
      | _ => rw [hstage] at hruns; cases hruns
    · cases hs
  · cases hs

omit [DecidableEq κ] [DecidableEq δ] in
private theorem Guarded.closePglite (h : s.Guarded) (hs : s.closePglite = some s') : s'.Guarded := by
  have hdrained := h.drained
  unfold Server.closePglite at hs
  split at hs
  · rename_i sockets hclosing
    simp only [Drained, hclosing] at hdrained
    split at hs
    · cases hs
      exact ⟨h.owned, h.alone, hdrained⟩
    · cases hs
  · cases hs

/-! ### Runs -/

omit [DecidableEq κ] in
/-- The owner of the session is a duplex, so PGlite may execute its statement. -/
private theorem Guarded.startDuplex (h : s.Guarded) {f : Traffic → Traffic} (howner : s.lock.owner = some (.inr d)) :
    Guarded { s.setTraffic d f with busy := some (.inr d) } := by
  refine ⟨h.owned, fun c hc => ?_, h.drained⟩
  have := (h.owned c (by rw [show s.call c = .running true from hc]; rfl)).symm.trans howner
  cases this

private theorem Guarded.step {a : ServerAction κ δ} (h : s.Guarded) (hc : s.Coherent) (hspares : s.SparesOwner a)
    (hs : s.step a = some s') : s'.Guarded := by
  have quiet : ∀ {u : Server κ δ}, u.lock = s.lock → u.call = s.call → (u.busy = s.busy ∨ u.busy = none) →
      u.closing = s.closing → u.Guarded := fun hlock hcall hbusy hclosing =>
    h.frame hlock (fun c => .inl (congrFun hcall c))
      (fun d hd => hbusy.elim (fun he => he ▸ hd) fun he => (by cases he.symm.trans hd)) hclosing
  cases a <;> simp only [Server.step] at hs
  case listen =>
    cases hs
    unfold Server.listen
    split
    · exact h
    split
    · exact h
    split
    · exact h
    · exact quiet rfl rfl (.inl rfl) rfl
  case withSession c call =>
    split at hs
    · cases hs
      exact h.withSession c call
    · cases hs
  case resume c => exact h.resume hs
  case expire c => exact h.expire hs
  case startStatement c => exact h.startStatement hs
  case finishBody c => exact h.finishBody hs
  case untrack c =>
    split at hs
    · cases hs
    · cases hs
      exact quiet rfl rfl (.inl rfl) rfl
  case close =>
    cases hs
    split
    · exact ⟨h.owned, h.alone, trivial⟩
    · exact h
  case sweep => exact h.sweep hc hspares hs
  case destroySockets => exact h.destroySockets hs
  case closePglite => exact h.closePglite hs
  case closeInstance =>
    cases hs
    exact quiet rfl rfl (.inl rfl) rfl
  case accept d =>
    unfold Server.accept at hs
    split at hs
    · cases hs
      split <;> exact quiet rfl rfl (.inl rfl) rfl
    · cases hs
  case bridge d =>
    unfold Server.bridge at hs
    split at hs
    · cases hs
    · cases hs
    · split at hs
      · cases hs
        exact quiet rfl rfl (.inl rfl) rfl
      · cases hs
  case disconnect d =>
    unfold Server.disconnect at hs
    split at hs
    · cases hs
      exact quiet rfl rfl (.inl rfl) rfl
    · cases hs
  case startBatch d =>
    unfold Server.startBatch at hs
    split at hs
    · rename_i hstart
      split at hs
      · cases hs
        exact quiet rfl rfl (.inl rfl) rfl
      · rename_i hleaving
        cases hs
        exact h.startDuplex ((hc.ofTraffic d).admitted hstart.1 (by simpa using hleaving))
    · cases hs
  case failBatch d =>
    split at hs
    · cases hs
      exact quiet rfl rfl (.inl rfl) rfl
    · cases hs
      exact quiet rfl rfl (.inr rfl) rfl
    · cases hs
  case startRollback d =>
    split at hs
    · rename_i hstart
      cases hs
      exact h.startDuplex ((hc.ofTraffic d).rollback (by rw [hstart.1]; decide)).1
    · cases hs
  case acquire d =>
    split at hs
    · cases hs
      have hmid : (s.setTraffic d fun t => { t with batch := .acquiring }).Guarded := quiet rfl rfl (.inl rfl) rfl
      exact hmid.applyLock (hmid.owned.acquire _)
    · cases hs
  case readyForQuery d status =>
    split at hs
    · cases hs
      have hmid : (s.setTraffic d fun t => { t with inTransaction := inTransactionStatus status }).Guarded :=
        quiet rfl rfl (.inl rfl) rfl
      exact hmid.applyLock (hmid.owned.updateStatus _ status)
    · cases hs
  case release d =>
    split at hs
    · cases hs
      exact h.applyLock (h.owned.release _ fun _ hg => (by cases hg))
    · cases hs
  case cancel d =>
    split at hs
    · cases hs
      have hmid : (s.setTraffic d fun t => { t with cancelled := true }).Guarded := quiet rfl rfl (.inl rfl) rfl
      exact hmid.applyLock (hmid.owned.cancel _ fun _ hg => (by cases hg))
    · cases hs
  all_goals
    split at hs
    · cases hs
      first
        | exact quiet rfl rfl (.inl rfl) rfl
        | exact quiet rfl rfl (.inr rfl) rfl
    · cases hs

omit [DecidableEq κ] [DecidableEq δ] in
private theorem guarded_initial (ownsPglite : Bool) : Guarded ({ ownsPglite } : Server κ δ) :=
  ⟨fun c hc => (by cases hc), fun c hc => (by cases hc), trivial⟩

theorem guarded (ownsPglite : Bool) (run : TransitionSystem.Run Server.step SparesOwner { ownsPglite } s) :
    s.Guarded := by
  induction run with
  | refl => exact guarded_initial ownsPglite
  | snoc run hspares hs ih => exact ih.step (coherent ownsPglite run) hspares hs

/-- What a snapshot call and the tests behind it may rely on. -/
structure Respected (s : Server κ δ) : Prop where
  owns : ∀ c, (s.call c).runs → s.lock.owner = some (.inl c)
  undisturbed : ∀ c, s.call c = .running true → ∀ id, s.busy = some id → id = .inl c
  refused : ∀ c error, s.call c = .rejected error → c ∉ s.statements
  settled : ∀ sockets, s.closing = .destroying sockets ∨ s.closing = .done sockets →
    ∀ c, s.call c = .uncalled ∨ s.call c = .finished ∨ ∃ error, s.call c = .rejecting error ∨ s.call c = .rejected error

/-- The body of a snapshot call has the session and PGlite to itself until it settles, while `close()` sweeps the
others. -/
theorem snapshot_calls_respected (ownsPglite : Bool)
    (run : TransitionSystem.Run Server.step SparesOwner { ownsPglite } s) : s.Respected := by
  have hc := coherent ownsPglite run
  have h := guarded ownsPglite run
  have owns : ∀ c, (s.call c).runs → s.lock.owner = some (.inl c) := by
    intro c hruns
    refine h.owned c ?_
    cases hstage : s.call c <;> rw [hstage] at hruns <;> first | rfl | cases hruns
  refine ⟨owns, fun c hcall id hbusy => ?_, fun c error hcall hmem => ?_, fun sockets hclosing c => ?_⟩
  · have howner := owns c (by rw [hcall]; rfl)
    cases id with
    | inl c' =>
      have hrunning := (hc.ofCall c').busy hbusy
      have howner' := owns c' (by rw [hrunning]; rfl)
      exact Option.some.inj (howner'.symm.trans howner)
    | inr d => exact absurd hbusy (h.alone c hcall d)
  · cases (congrArg CallStage.ran hcall).symm.trans ((hc.ofCall c).started hmem)
  · have hquiet : (s.call c).waits = false ∧ (s.call c).holds = false := by
      have hdrained := h.drained
      unfold Drained at hdrained
      rcases hclosing with hs | hs <;> rw [hs] at hdrained <;> exact hdrained c
    cases hstage : s.call c with
    | uncalled => exact .inl rfl
    | finished => exact .inr (.inl rfl)
    | rejecting error => exact .inr (.inr ⟨error, .inl rfl⟩)
    | rejected error => exact .inr (.inr ⟨error, .inr rfl⟩)
    | waiting call => rw [hstage] at hquiet; exact Bool.noConfusion hquiet.1
    | granted call => rw [hstage] at hquiet; exact Bool.noConfusion hquiet.2
    | running started => rw [hstage] at hquiet; exact Bool.noConfusion hquiet.2

/-- A batch runs while two calls queue; `close()` refuses the second and waits for the first. -/
def closedWhileWaitingRun : List (ServerAction Bool Unit) :=
  [.listen, .bind true, .accept (), .bridge (), .acquire (), .startBatch (),
    .withSession false { method := "resetDb" }, .withSession true { method := "snapshotDb" },
    .readyForQuery () STATUS_IDLE, .finishBatch (), .resume false, .startStatement false, .close, .sweep, .resume true,
    .finishStatement false, .finishBody false, .untrack false, .destroySockets, .disconnect (), .cancel (),
    .closeDuplex (), .listenerDown, .closePglite]

theorem snapshot_calls_respected_close : ∃ s : Server Bool Unit,
    s.Respected ∧ s.call false = .finished ∧ s.call true = .rejected .closedWhileWaiting ∧ s.pgliteClosed := by
  obtain ⟨s, run, hlast⟩ : ∃ s, TransitionSystem.Run Server.step SparesOwner ({} : Server Bool Unit) s ∧
      s.call false = .finished ∧ s.call true = .rejected .closedWhileWaiting ∧ s.pgliteClosed :=
    TransitionSystem.exists_run closedWhileWaitingRun (by decide +kernel)
  exact ⟨s, snapshot_calls_respected true run, hlast⟩

/-- Without the condition: `close()` in the tick of the call strips it of the session, and the sockets are destroyed
under its statement. -/
theorem owner_swept : ∃ s : Server Bool Unit,
    TransitionSystem.Run Server.step (fun _ _ => True) {} s ∧ s.call false = .running true ∧ s.lock.owner = none ∧
      s.closing = .destroying [] :=
  TransitionSystem.exists_run [.withSession false { method := "resetDb" }, .close, .sweep, .resume false,
    .destroySockets, .startStatement false] (by decide +kernel)

end Server

end PgliteBridge.PGliteServer
