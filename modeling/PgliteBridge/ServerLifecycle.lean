import PgliteBridge.ServerClosing

/-!
# What `close()` leaves behind

`close()` waits for the snapshot calls, for the listener and for the duplexes of the sockets it destroys.  A duplex
whose socket had gone before is not among them.
-/

namespace PgliteBridge.PGliteServer

namespace Server

variable {κ δ : Type} [DecidableEq κ] [DecidableEq δ] {s s' : Server κ δ} {c : κ} {d : δ}

/-- The listener, the sockets and the duplexes, by how far `close()` has come. -/
structure Lifecycle (s : Server κ δ) : Prop where
  connected : s.sockets ≠ [] → s.listener = .bound ∨ s.listener = .closing
  swept : ∀ ops, s.closing = .swept ops → s.listener ≠ .binding
  destroying : ∀ sockets, s.closing = .destroying sockets → s.listener ≠ .binding ∧ s.listener ≠ .bound
  done : ∀ sockets, s.closing = .done sockets → s.listener ≠ .binding ∧ s.listener ≠ .bound ∧ s.listener ≠ .closing ∧
    ∀ d ∈ sockets, (s.traffic d).bridged → (s.traffic d).closed

/-- No duplex is created, and a closed one stays so. -/
def Ages (t t' : Traffic) : Prop := (t'.bridged → t.bridged) ∧ (t.closed → t'.closed)

private theorem Ages.refl (t : Traffic) : Ages t t := ⟨id, id⟩

private theorem Ages.trans {t t' t'' : Traffic} (h : Ages t t') (h' : Ages t' t'') : Ages t t'' :=
  ⟨fun hb => h.1 (h'.1 hb), fun hc => h'.2 (h.2 hc)⟩

omit [DecidableEq κ] in
private theorem ages_setTraffic {f : Traffic → Traffic} (h : Ages (s.traffic d) (f (s.traffic d))) (d' : δ) :
    Ages (s.traffic d') ((s.setTraffic d f).traffic d') := by
  rw [setTraffic_traffic]
  split
  · rename_i he
    exact he ▸ h
  · exact .refl _

private theorem ages_settleOne (error : SessionError) (settlement : Settlement (κ ⊕ δ)) (d : δ) :
    Ages (s.traffic d) ((settleOne error s settlement).traffic d) := by
  unfold settleOne
  split
  · split <;> exact .refl _
  · exact .refl _
  · exact ages_setTraffic ⟨id, id⟩ d
  · exact ages_setTraffic ⟨id, id⟩ d

private theorem ages_applyLock {outcome : SessionLock.Outcome (κ ⊕ δ)} (error : SessionError) (s : Server κ δ) (d : δ) :
    Ages (s.traffic d) ((s.applyLock error outcome).traffic d) := by
  suffices ∀ (settled : List (Settlement (κ ⊕ δ))) (u : Server κ δ),
      Ages (u.traffic d) ((settled.foldl (settleOne error) u).traffic d) from this _ { s with lock := outcome.lock }
  intro settled
  induction settled with
  | nil => exact fun _ => .refl _
  | cons settlement settled ih => exact fun u => (ages_settleOne error settlement d).trans (ih _)

omit [DecidableEq κ] [DecidableEq δ] in
/-- The step has no part in the connections and in `close()`. -/
private theorem Lifecycle.frame (h : s.Lifecycle) (hsockets : s'.sockets = s.sockets)
    (hlistener : s'.listener = s.listener)
    (hclosing : s'.closing = s.closing) (hages : ∀ d, Ages (s.traffic d) (s'.traffic d)) : s'.Lifecycle where
  connected := by
    rw [hsockets, hlistener]
    exact h.connected
  swept := by
    rw [hlistener, hclosing]
    exact h.swept
  destroying := by
    rw [hlistener, hclosing]
    exact h.destroying
  done := by
    intro sockets hs
    rw [hclosing] at hs
    rw [hlistener]
    obtain ⟨h₁, h₂, h₃, h₄⟩ := h.done sockets hs
    exact ⟨h₁, h₂, h₃, fun d hd hb => (hages d).2 (h₄ d hd ((hages d).1 hb))⟩

omit [DecidableEq κ] in
private theorem Lifecycle.setTraffic {f : Traffic → Traffic} (h : s.Lifecycle) (hf : ∀ t, Ages t (f t)) :
    (s.setTraffic d f).Lifecycle :=
  h.frame rfl rfl rfl (ages_setTraffic (hf _))

omit [DecidableEq κ] in
private theorem Lifecycle.traffic {f : Traffic → Traffic} {busy : Option (κ ⊕ δ)} (h : s.Lifecycle)
    (hf : ∀ t, Ages t (f t)) :
    Lifecycle { s.setTraffic d f with busy } :=
  h.frame rfl rfl rfl (ages_setTraffic (hf _))

private theorem Lifecycle.applyLock {outcome : SessionLock.Outcome (κ ⊕ δ)} (h : s.Lifecycle) (error : SessionError) :
    (s.applyLock error outcome).Lifecycle := by
  obtain ⟨-, hclosing, -, hsockets, hlistener⟩ := applyLock_frame outcome error s
  exact h.frame hsockets hlistener hclosing (ages_applyLock error s)

/-! ### Steps -/

omit [DecidableEq κ] [DecidableEq δ] in
private theorem Lifecycle.noSockets (h : s.Lifecycle) (hbound : s.listener ≠ .bound)
    (hclosing : s.listener ≠ .closing) : s.sockets = [] := by
  by_contra hne
  exact (h.connected hne).elim hbound hclosing

private theorem Lifecycle.listen (h : s.Lifecycle) : ((s.listen).toOption.getD s).Lifecycle := by
  unfold Server.listen
  split
  · exact h
  rename_i hclosing
  split
  · exact h
  rename_i hunbound
  split
  · exact h
  · have hno := Decidable.not_not.1 hclosing
    refine ⟨fun hne => absurd (h.noSockets ?_ ?_) hne, fun _ hc => (by cases hno.symm.trans hc),
      fun _ hc => (by cases hno.symm.trans hc), fun _ hc => (by cases hno.symm.trans hc)⟩
    all_goals rw [Decidable.not_not.1 hunbound]; decide

private theorem Lifecycle.accept (h : s.Lifecycle) (hs : s.accept d = some s') : s'.Lifecycle := by
  have haccepted : (s.setTraffic d fun t => { t with accepted := true }).Lifecycle :=
    h.setTraffic fun _ => ⟨id, id⟩
  unfold Server.accept at hs
  split at hs
  · rename_i hbound
    dsimp only at hs
    split at hs
    · cases hs
      exact ⟨fun _ => .inl hbound.1, haccepted.swept, haccepted.destroying, haccepted.done⟩
    · cases hs
      exact haccepted
  · cases hs

omit [DecidableEq κ] in
private theorem Lifecycle.bridge (h : s.Lifecycle) (hs : s.bridge d = some s') : s'.Lifecycle := by
  unfold Server.bridge at hs
  split at hs
  · cases hs
  · cases hs
  · rename_i hdestroying hdone
    split at hs
    · cases hs
      exact ⟨h.connected, h.swept, h.destroying, fun sockets hclosing => absurd hclosing (hdone sockets)⟩
    · cases hs

omit [DecidableEq κ] in
private theorem Lifecycle.disconnect (h : s.Lifecycle) (hs : s.disconnect d = some s') : s'.Lifecycle := by
  unfold Server.disconnect at hs
  split at hs
  · cases hs
    have hleft : (s.setTraffic d fun t => { t with leaving := t.leaving || t.bridged }).Lifecycle :=
      h.setTraffic fun _ => ⟨id, id⟩
    refine ⟨fun hne => hleft.connected fun hnil => hne ?_, hleft.swept, hleft.destroying, hleft.done⟩
    change s.sockets = [] at hnil
    simp [hnil]
  · cases hs

private theorem Lifecycle.sweep (h : s.Lifecycle) (hs : s.sweep = some s') : s'.Lifecycle := by
  obtain ⟨-, -, hsockets, hlistener⟩ := cancelWaiters_frame (s := s)
  unfold Server.sweep at hs
  split at hs
  · split at hs
    · cases hs
    · rename_i hbinding
      cases hs
      refine ⟨?_, fun _ _ => ?_, fun _ hc => (by cases hc), fun _ hc => (by cases hc)⟩
      · change s.cancelWaiters.sockets ≠ [] → s.cancelWaiters.listener = .bound ∨ s.cancelWaiters.listener = .closing
        rw [hsockets, hlistener]
        exact h.connected
      · change s.cancelWaiters.listener ≠ .binding
        rw [hlistener]
        exact hbinding
  · cases hs

omit [DecidableEq κ] [DecidableEq δ] in
/-- The listener stops accepting before the sockets are destroyed. -/
private theorem Lifecycle.destroySockets (h : s.Lifecycle) (hs : s.destroySockets = some s') : s'.Lifecycle := by
  unfold Server.destroySockets at hs
  split at hs
  · rename_i ops hclosing
    have hbinding := h.swept ops hclosing
    split at hs
    · cases hs
      refine ⟨fun hne => ?_, fun _ hc => (by cases hc), fun _ _ => ?_, fun _ hc => (by cases hc)⟩
      · by_cases hbound : s.listener = .bound
        · simp [hbound]
        · simpa [hbound] using (h.connected hne).resolve_left hbound
      · dsimp only
        split
        · decide
        · rename_i hbound
          exact ⟨hbinding, hbound⟩
    · cases hs
  · cases hs

omit [DecidableEq κ] [DecidableEq δ] in
private theorem Lifecycle.closePglite (h : s.Lifecycle) (hs : s.closePglite = some s') : s'.Lifecycle := by
  unfold Server.closePglite at hs
  split at hs
  · rename_i sockets hclosing
    obtain ⟨hbinding, hbound⟩ := h.destroying sockets hclosing
    split at hs
    · rename_i hready
      cases hs
      refine ⟨h.connected, fun _ hc => (by cases hc), fun _ hc => (by cases hc), fun sockets' hc => ?_⟩
      cases hc
      refine ⟨hbinding, hbound, hready.1, fun d hd hb => ?_⟩
      have hclosed := List.all_eq_true.1 hready.2 d hd
      rw [hb] at hclosed
      exact hclosed
    · cases hs
  · cases hs

private theorem Lifecycle.step {a : ServerAction κ δ} (h : s.Lifecycle) (hs : s.step a = some s') : s'.Lifecycle := by
  have same : ∀ {u : Server κ δ}, u.sockets = s.sockets → u.listener = s.listener → u.closing = s.closing →
      u.traffic = s.traffic → u.Lifecycle :=
    fun hsockets hlistener hclosing htraffic => h.frame hsockets hlistener hclosing fun d => htraffic ▸ .refl _
  cases a <;> simp only [Server.step] at hs
  case listen =>
    cases hs
    exact h.listen
  case bind ok =>
    split at hs
    · rename_i hbinding
      cases hs
      refine ⟨fun hne => absurd (h.noSockets ?_ ?_) hne, fun ops hc => absurd hbinding (h.swept ops hc),
        fun sockets hc => absurd hbinding (h.destroying sockets hc).1,
        fun sockets hc => absurd hbinding (h.done sockets hc).1⟩
      all_goals rw [hbinding]; decide
    · cases hs
  case withSession c call =>
    split at hs
    · cases hs
      unfold Server.withSession
      split
      · exact same rfl rfl rfl rfl
      split
      · exact same rfl rfl rfl rfl
      split
      · exact same rfl rfl rfl rfl
      have hwaiting : Lifecycle { s.setCall c (.waiting call) with sessionWaiters := s.sessionWaiters ++ [c] } :=
        same rfl rfl rfl rfl
      exact hwaiting.applyLock _
    · cases hs
  case resume c =>
    unfold Server.resume at hs
    split at hs
    · cases hs
      dsimp only
      split
      · refine Lifecycle.applyLock ?_ _
        exact same rfl rfl rfl rfl
      · exact same rfl rfl rfl rfl
    · cases hs
      exact same rfl rfl rfl rfl
    · cases hs
  case expire c =>
    unfold Server.expire at hs
    split at hs
    · rename_i call hcall
      cases hs
      have hcancelled : (s.applyLock (.timedOut call.method call.timeoutMs) (s.lock.cancel (.inl c))).Lifecycle :=
        h.applyLock _
      exact hcancelled.frame rfl rfl rfl fun _ => .refl _
    · cases hs
  case startStatement c =>
    unfold Server.startStatement at hs
    split at hs
    · cases hs
      exact same rfl rfl rfl rfl
    · cases hs
  case finishBody c =>
    unfold Server.finishBody at hs
    split at hs
    · split at hs
      · cases hs
      · cases hs
        have hover : (s.setCall c .finished).Lifecycle := same rfl rfl rfl rfl
        exact hover.applyLock _
    · cases hs
  case untrack c =>
    split at hs
    · cases hs
    · cases hs
      exact same rfl rfl rfl rfl
  case close =>
    cases hs
    split
    · exact ⟨h.connected, fun _ hc => (by cases hc), fun _ hc => (by cases hc), fun _ hc => (by cases hc)⟩
    · exact h
  case sweep => exact h.sweep hs
  case destroySockets => exact h.destroySockets hs
  case closePglite => exact h.closePglite hs
  case closeInstance =>
    cases hs
    exact same rfl rfl rfl rfl
  case listenerDown =>
    split at hs
    · rename_i hdown
      cases hs
      refine ⟨fun hne => absurd hdown.2 hne, fun _ _ => Listener.noConfusion,
        fun _ _ => ⟨Listener.noConfusion, Listener.noConfusion⟩, fun sockets hc => ?_⟩
      exact absurd hdown.1 (h.done sockets hc).2.2.1
    · cases hs
  case accept d => exact h.accept hs
  case bridge d => exact h.bridge hs
  case disconnect d => exact h.disconnect hs
  case startBatch d =>
    unfold Server.startBatch at hs
    split at hs
    · split at hs
      · cases hs
        exact h.setTraffic fun _ => ⟨id, id⟩
      · cases hs
        exact h.traffic fun _ => ⟨id, id⟩
    · cases hs
  case failBatch d =>
    split at hs
    · cases hs
      exact h.setTraffic fun _ => ⟨id, id⟩
    · cases hs
      exact h.traffic fun _ => ⟨id, id⟩
    · cases hs
  case acquire d =>
    split at hs
    · cases hs
      have hmid : (s.setTraffic d fun t => { t with batch := .acquiring }).Lifecycle :=
        h.setTraffic fun _ => ⟨id, id⟩
      exact hmid.applyLock _
    · cases hs
  case readyForQuery d status =>
    split at hs
    · cases hs
      have hmid : (s.setTraffic d fun t => { t with inTransaction := inTransactionStatus status }).Lifecycle :=
        h.setTraffic fun _ => ⟨id, id⟩
      exact hmid.applyLock _
    · cases hs
  case release d =>
    split at hs
    · cases hs
      exact h.applyLock _
    · cases hs
  case cancel d =>
    split at hs
    · cases hs
      have hmid : (s.setTraffic d fun t => { t with cancelled := true }).Lifecycle :=
        h.setTraffic fun _ => ⟨id, id⟩
      exact hmid.applyLock _
    · cases hs
  case closeDuplex d =>
    split at hs
    · cases hs
      exact h.setTraffic fun _ => ⟨id, fun _ => rfl⟩
    · cases hs
  case finishStatement c =>
    split at hs
    · cases hs
      exact same rfl rfl rfl rfl
    · cases hs
  all_goals
    split at hs
    · cases hs
      first
        | exact h.setTraffic fun _ => ⟨id, id⟩
        | exact h.traffic fun _ => ⟨id, id⟩
    · cases hs

/-! ### Runs -/

omit [DecidableEq κ] [DecidableEq δ] in
private theorem lifecycle_initial (ownsPglite : Bool) : Lifecycle ({ ownsPglite } : Server κ δ) :=
  ⟨fun hne => absurd rfl hne, fun _ hc => (by cases hc), fun _ hc => (by cases hc), fun _ hc => (by cases hc)⟩

/-- `close()` has resolved; `sockets` is what it destroyed. -/
structure Closed (s : Server κ δ) (sockets : List δ) : Prop where
  listener : s.listener = .unbound ∨ s.listener = .closed
  connections : s.sockets = []
  duplexes : ∀ d ∈ sockets, (s.traffic d).bridged → (s.traffic d).closed
  statements : ∀ d, s.busy = some (.inr d) → d ∉ sockets
  session : ∀ d ∈ sockets, (s.traffic d).bridged → s.lock.owner ≠ some (.inr d) ∧ .inr d ∉ s.lock.waitQueue
  refuses : s.listen = .error .listenClosed ∧ ∀ d, s.step (.accept d) = none ∧ s.step (.bridge d) = none

/-- What `close()` leaves behind when it resolves. -/
theorem close_settles {cond : Server κ δ → ServerAction κ δ → Prop} {sockets : List δ} (ownsPglite : Bool)
    (run : TransitionSystem.Run Server.step cond { ownsPglite } s) (hdone : s.closing = .done sockets) :
    s.Closed sockets := by
  have hc := coherent ownsPglite run
  have h : s.Lifecycle := run.invariant (lifecycle_initial ownsPglite) fun _ _ _ h _ hs => h.step hs
  obtain ⟨hbinding, hbound, hclosing, hclosed⟩ := h.done sockets hdone
  have hcancelled : ∀ d ∈ sockets, (s.traffic d).bridged → (s.traffic d).cancelled :=
    fun d hd hb => (hc.ofTraffic d).closed (hclosed d hd hb)
  refine ⟨?_, h.noSockets hbound hclosing, hclosed, fun d hbusy hd => ?_, fun d hd hb => ?_, ?_, fun d => ⟨?_, ?_⟩⟩
  · cases hlistener : s.listener with
    | unbound => exact .inl rfl
    | closed => exact .inr rfl
    | binding => exact absurd hlistener hbinding
    | bound => exact absurd hlistener hbound
    | closing => exact absurd hlistener hclosing
  · have hfits := hc.ofTraffic d
    rcases hfits.busy.1 hbusy with hbatch | hrollback
    · have hgone := hcancelled d hd (hfits.bridged (.inl (by rw [hbatch]; decide)))
      exact (hfits.cancelled hgone).2.1 hbatch
    · obtain ⟨howns, hleaving, -⟩ := hfits.rollback (by rw [hrollback]; decide)
      exact (hfits.cancelled (hcancelled d hd (hfits.bridged (.inr hleaving)))).2.2.2 howns
  · have hfits := hc.ofTraffic d
    obtain ⟨-, -, hacquiring, howns⟩ := hfits.cancelled (hcancelled d hd hb)
    exact ⟨howns, fun hmem => hacquiring (hfits.queued.1 hmem)⟩
  · simp only [Server.listen, hdone]
    rfl
  · simp only [Server.step, Server.accept, hbound, false_and, ↓reduceIte]
  · simp only [Server.step, Server.bridge, hdone]

/-- A connection is in the middle of a query when the server is closed. -/
theorem close_settles_query : ∃ s : Server Bool Unit, s.Closed [()] ∧ (s.traffic ()).closed := by
  obtain ⟨s, run, hdone, hclosed⟩ : ∃ s, TransitionSystem.Run Server.step SparesOwner ({} : Server Bool Unit) s ∧
      s.closing = .done [()] ∧ (s.traffic ()).closed :=
    TransitionSystem.exists_run closedWhileWaitingRun (by decide +kernel)
  exact ⟨s, close_settles true run hdone, hclosed⟩

end Server

end PgliteBridge.PGliteServer
