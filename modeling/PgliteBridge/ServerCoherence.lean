import PgliteBridge.Scheduling
import PgliteBridge.ServerSession
import PgliteBridge.TransitionSystem

/-!
# Coherence of the server

What the record of a call or of a duplex has to do with the lock and with the statement PGlite executes, in every
state of every run.  A participant sees of the lock whether it owns it and whether it waits for it, so an operation on
the lock concerns the one that gives the session up and the one that gets it.
-/

namespace PgliteBridge.PGliteServer

def CallStage.waits : CallStage → Bool
  | waiting _ => true
  | _ => false

def CallStage.holds : CallStage → Bool
  | granted _ => true
  | running _ => true
  | _ => false

def CallStage.listed : CallStage → Bool
  | waiting _ => true
  | granted _ => true
  | rejecting _ => true
  | _ => false

def CallStage.runs : CallStage → Bool
  | running _ => true
  | _ => false

def CallStage.ran : CallStage → Bool
  | running started => started
  | finished => true
  | _ => false

structure CallStage.Fits (stage : CallStage) (owns queued busy listed tracked started : Prop) : Prop where
  queued : queued ↔ stage.waits
  holds : owns → stage.holds
  listed : listed ↔ stage.listed
  tracked : stage.runs → tracked
  busy : busy → stage = .running true
  started : started → stage.ran

structure Traffic.Fits (t : Traffic) (owns queued busy : Prop) : Prop where
  queued : queued ↔ t.batch = .acquiring
  admitted : t.batch = .admitted → t.leaving = false → owns
  rollback : t.rollback ≠ .none → owns ∧ t.leaving ∧ t.batch ≠ .running
  busy : busy ↔ t.batch = .running ∨ t.rollback = .running
  bridged : t.batch ≠ .idle ∨ t.leaving → t.bridged
  cancelled : t.cancelled → t.leaving ∧ t.batch ≠ .running ∧ t.batch ≠ .acquiring ∧ ¬owns
  closed : t.closed → t.cancelled

/-- What a duplex that is leaving looks like when it owns nothing and waits for nothing. -/
private theorem Traffic.Fits.given {t : Traffic} {owns queued busy owns' queued' : Prop} (h : t.Fits owns queued busy)
    (hleaving : t.leaving) (hbatch : t.batch ≠ .running ∧ t.batch ≠ .acquiring) (hrollback : t.rollback = .none)
    (howns : ¬owns') (hqueued : ¬queued') : t.Fits owns' queued' busy where
  queued := ⟨fun hq => absurd hq hqueued, fun hb => absurd hb hbatch.2⟩
  admitted := fun _ hl => (by cases hleaving.symm.trans hl)
  rollback := fun hr => absurd hrollback hr
  busy := h.busy
  bridged := h.bridged
  cancelled := fun _ => ⟨hleaving, hbatch.1, hbatch.2, howns⟩
  closed := h.closed

namespace Server

variable {κ δ : Type} [DecidableEq κ] [DecidableEq δ] {s s' : Server κ δ} {id g : κ ⊕ δ} {c : κ} {d : δ}

def Fits (s : Server κ δ) (id : κ ⊕ δ) : Prop :=
  let owns := s.lock.owner = some id
  let queued := id ∈ s.lock.waitQueue
  let busy := s.busy = some id
  match id with
  | .inl c => (s.call c).Fits owns queued busy (c ∈ s.sessionWaiters) (c ∈ s.sessionOps) (c ∈ s.statements)
  | .inr d => (s.traffic d).Fits owns queued busy

/-- The owner and the waiters are distinct, and everyone's record fits. -/
structure Coherent (s : Server κ δ) : Prop where
  distinct : (s.lock.owner.toList ++ s.lock.waitQueue).Nodup
  fits : ∀ id, s.Fits id

/-! ### Frames -/

/-- What participant `id` sees is the same in both states. -/
structure Same (s s' : Server κ δ) (id : κ ⊕ δ) : Prop where
  owner : s'.lock.owner = some id ↔ s.lock.owner = some id
  queued : id ∈ s'.lock.waitQueue ↔ id ∈ s.lock.waitQueue
  busy : s'.busy = some id ↔ s.busy = some id
  call : ∀ c, id = .inl c → s'.call c = s.call c
  listed : ∀ c, id = .inl c → (c ∈ s'.sessionWaiters ↔ c ∈ s.sessionWaiters)
  tracked : ∀ c, id = .inl c → (s.call c).runs → c ∈ s.sessionOps → c ∈ s'.sessionOps
  started : ∀ c, id = .inl c → (c ∈ s'.statements ↔ c ∈ s.statements)
  traffic : ∀ d, id = .inr d → s'.traffic d = s.traffic d

omit [DecidableEq κ] [DecidableEq δ] in
private theorem Fits.same (h : s.Fits id) (hsame : Same s s' id) : s'.Fits id := by
  cases id with
  | inl c =>
    simp only [Fits] at h ⊢
    rw [hsame.call c rfl]
    exact ⟨hsame.queued.trans h.queued, fun ho => h.holds (hsame.owner.1 ho), (hsame.listed c rfl).trans h.listed,
      fun hr => hsame.tracked c rfl hr (h.tracked hr), fun hb => h.busy (hsame.busy.1 hb),
      fun hs => h.started ((hsame.started c rfl).1 hs)⟩
  | inr d =>
    simp only [Fits] at h ⊢
    rw [hsame.traffic d rfl]
    exact ⟨hsame.queued.trans h.queued, fun ha hl => hsame.owner.2 (h.admitted ha hl),
      fun hr => (h.rollback hr).imp_left hsame.owner.2, hsame.busy.trans h.busy, h.bridged,
      fun hc => let ⟨hl, hb, hq, ho⟩ := h.cancelled hc; ⟨hl, hb, hq, fun howner => ho (hsame.owner.1 howner)⟩, h.closed⟩

/-! ### Handing the session on -/

@[simp] theorem settleOne_lock (error : SessionError) (s : Server κ δ) (settlement : Settlement (κ ⊕ δ)) :
    (settleOne error s settlement).lock = s.lock := by
  unfold settleOne
  split
  · split <;> rfl
  · rfl
  · rfl
  · rfl

/-- A settlement concerns its own participant only. -/
private theorem same_settleOne (error : SessionError) (settlement : Settlement (κ ⊕ δ)) (h : id ≠ settlement.id) :
    Same s (settleOne error s settlement) id := by
  unfold settleOne
  split
  · rename_i c'
    have hne : ∀ c, id = .inl c → c ≠ c' := fun c hid hc => h (hid.trans (congrArg Sum.inl hc))
    split
    · exact ⟨.rfl, .rfl, .rfl, fun c hid => by rw [setCall_call, if_neg (hne c hid)], fun _ _ => .rfl,
        fun _ _ _ ht => ht, fun _ _ => .rfl, fun _ _ => rfl⟩
    · exact ⟨.rfl, .rfl, .rfl, fun _ _ => rfl, fun _ _ => .rfl, fun _ _ _ ht => ht, fun _ _ => .rfl, fun _ _ => rfl⟩
  · rename_i c'
    have hne : ∀ c, id = .inl c → c ≠ c' := fun c hid hc => h (hid.trans (congrArg Sum.inl hc))
    exact ⟨.rfl, .rfl, .rfl, fun c hid => by rw [setCall_call, if_neg (hne c hid)], fun _ _ => .rfl,
      fun _ _ _ ht => ht, fun _ _ => .rfl, fun _ _ => rfl⟩
  all_goals
    rename_i d'
    have hne : ∀ d, id = .inr d → d ≠ d' := fun d hid hd => h (hid.trans (congrArg Sum.inr hd))
    exact ⟨.rfl, .rfl, .rfl, fun _ _ => rfl, fun _ _ => .rfl, fun _ _ _ ht => ht, fun _ _ => .rfl,
      fun d hid => by rw [setTraffic_traffic, if_neg (hne d hid)]⟩

omit [DecidableEq κ] [DecidableEq δ] in
/-- Another lock that shows the participant the same. -/
private theorem same_lock {l : SessionLock (κ ⊕ δ)} (howner : l.owner = some id ↔ s.lock.owner = some id)
    (hqueued : id ∈ l.waitQueue ↔ id ∈ s.lock.waitQueue) : Same s { s with lock := l } id :=
  ⟨howner, hqueued, .rfl, fun _ _ => rfl, fun _ _ => .rfl, fun _ _ _ ht => ht, fun _ _ => .rfl, fun _ _ => rfl⟩

/-- A waiter that gets the session. -/
private theorem fits_resolved {l : SessionLock (κ ⊕ δ)} (error : SessionError) (h : s.Fits id)
    (hwaits : id ∈ s.lock.waitQueue)
    (howner : l.owner = some id) (hqueue : id ∉ l.waitQueue) :
    (settleOne error { s with lock := l } (.resolved id)).Fits id := by
  cases id with
  | inl c =>
    simp only [Fits] at h
    have hwaiting := h.queued.1 hwaits
    simp only [settleOne]
    cases hcall : s.call c with
    | waiting call =>
      rw [hcall] at h
      simp only [Fits, setCall_call, ↓reduceIte, setCall_lock, setCall_busy, setCall_sessionWaiters, setCall_sessionOps,
        setCall_statements]
      exact ⟨⟨fun hq => absurd hq hqueue, fun hw => by cases hw⟩, fun _ => rfl, h.listed, fun hr => (by cases hr),
        fun hb => (by cases h.busy hb), fun hs => (by cases h.started hs)⟩
    | _ => rw [hcall] at hwaiting; cases hwaiting
  | inr d =>
    simp only [Fits] at h
    have hbatch := h.queued.1 hwaits
    simp only [settleOne, Fits, setTraffic_traffic, ↓reduceIte, setTraffic_lock, setTraffic_busy]
    have hrunning := h.busy
    rw [hbatch] at hrunning
    exact ⟨⟨fun hq => absurd hq hqueue, fun hw => by cases hw⟩, fun _ _ => howner,
      fun hr => ⟨howner, (h.rollback hr).2.1, BatchStage.noConfusion⟩,
      by simpa using hrunning,
      fun _ => h.bridged (.inl (by rw [hbatch]; decide)),
      fun hc => absurd hbatch (h.cancelled hc).2.2.1, h.closed⟩

/-- The giver has to fit whatever the lock is then. -/
private theorem coherent_release (error : SessionError) (hdistinct : (s.lock.owner.toList ++ s.lock.waitQueue).Nodup)
    (hothers : ∀ id, id ≠ g → s.Fits id) (hqueue : g ∉ s.lock.waitQueue)
    (hgiver : ∀ l : SessionLock (κ ⊕ δ), l.owner ≠ some g → g ∉ l.waitQueue → Fits { s with lock := l } g) :
    (s.applyLock error (s.lock.release g)).Coherent := by
  by_cases howner : s.lock.owner = some g
  · rw [howner] at hdistinct
    unfold SessionLock.release SessionLock.drainWaitQueue
    rw [if_pos howner]
    cases hwaiters : s.lock.waitQueue with
    | nil =>
      refine ⟨List.nodup_nil, fun id => ?_⟩
      by_cases hid : id = g
      · subst hid
        exact hgiver _ (by simp) (by simp)
      · refine (hothers id hid).same (same_lock ?_ (by rw [hwaiters]))
        rw [howner]
        exact ⟨fun he => (by cases he), fun he => absurd (Option.some.inj he).symm hid⟩
    | cons next rest =>
      rw [hwaiters] at hdistinct hqueue
      have hnodup : (next :: rest).Nodup := hdistinct.of_append_right
      have hnext : next ≠ g := fun he => hqueue (he ▸ List.mem_cons_self)
      have hrest : next ∉ rest := (List.nodup_cons.1 hnodup).1
      refine ⟨by simpa [applyLock] using hnodup, fun id => ?_⟩
      simp only [applyLock, List.foldl_cons, List.foldl_nil]
      by_cases hid : id = next
      · subst hid
        exact fits_resolved _ (hothers id hnext) (by rw [hwaiters]; exact List.mem_cons_self) rfl hrest
      · refine Fits.same ?_ (same_settleOne _ _ hid)
        by_cases hgid : id = g
        · subst hgid
          exact hgiver _ (fun he => hid (Option.some.inj he).symm) fun hmem => hqueue (List.mem_cons_of_mem _ hmem)
        · refine (hothers id hgid).same (same_lock ?_ ?_)
          · rw [howner]
            exact ⟨fun he => absurd (Option.some.inj he).symm hid, fun he => absurd (Option.some.inj he).symm hgid⟩
          · rw [hwaiters, List.mem_cons]
            exact ⟨Or.inr, fun hmem => hmem.resolve_left hid⟩
  · rw [SessionLock.release_not_owner howner]
    refine ⟨hdistinct, fun id => ?_⟩
    by_cases hid : id = g
    · subst hid
      exact hgiver s.lock howner hqueue
    · exact hothers id hid

private theorem coherent_updateStatus (error : SessionError) (status : UInt8) (h : s.Coherent)
    (hqueue : g ∉ s.lock.waitQueue)
    (hgiver : ∀ l : SessionLock (κ ⊕ δ), l.owner ≠ some g → g ∉ l.waitQueue → Fits { s with lock := l } g) :
    (s.applyLock error (s.lock.updateStatus g status)).Coherent := by
  by_cases hidle : status = STATUS_IDLE
  · have hrelease : s.lock.updateStatus g status = s.lock.release g := by
      simp only [SessionLock.updateStatus, SessionLock.release, hidle, true_and]
    rw [hrelease]
    exact coherent_release error h.distinct (fun id _ => h.fits id) hqueue hgiver
  · rw [SessionLock.updateStatus_not_idle hidle]
    exact h

private theorem coherent_acquire (hdistinct : (s.lock.owner.toList ++ s.lock.waitQueue).Nodup)
    (hothers : ∀ id, id ≠ g → s.Fits id) (hqueue : g ∉ s.lock.waitQueue)
    (hgot : ∀ l : SessionLock (κ ⊕ δ), l.owner = some g → g ∉ l.waitQueue →
      (settleOne .closedWhileWaiting { s with lock := l } (.resolved g)).Fits g)
    (hwait : ∀ l : SessionLock (κ ⊕ δ), l.owner ≠ some g → g ∈ l.waitQueue → Fits { s with lock := l } g) :
    (s.granting (s.lock.acquire g)).Coherent := by
  unfold SessionLock.acquire
  split
  · rename_i hfree
    refine ⟨?_, fun id => ?_⟩
    · simp only [granting, applyLock, List.foldl_cons, List.foldl_nil, settleOne_lock, Option.toList_some,
        List.cons_append, List.nil_append, List.nodup_cons]
      exact ⟨hqueue, hdistinct.of_append_right⟩
    · simp only [granting, applyLock, List.foldl_cons, List.foldl_nil]
      by_cases hid : id = g
      · subst hid
        exact hgot _ rfl hqueue
      · refine Fits.same ((hothers id hid).same (same_lock (l := { s.lock with owner := some g }) ?_ .rfl))
          (same_settleOne _ _ hid)
        rw [hfree]
        exact ⟨fun he => absurd (Option.some.inj he).symm hid, fun he => (by cases he)⟩
  · split
    · rename_i howner
      refine ⟨by simpa [granting, applyLock] using hdistinct, fun id => ?_⟩
      simp only [granting, applyLock, List.foldl_cons, List.foldl_nil]
      by_cases hid : id = g
      · subst hid
        exact hgot _ howner hqueue
      · exact ((hothers id hid).same (same_lock .rfl .rfl)).same (same_settleOne _ _ hid)
    · rename_i howner
      refine ⟨?_, fun id => ?_⟩
      · simp only [granting, applyLock, List.foldl_nil]
        rw [← List.append_assoc, List.nodup_append]
        refine ⟨hdistinct, List.nodup_singleton g, fun other hother g' hg' => ?_⟩
        rw [List.mem_singleton.1 hg']
        rintro rfl
        cases List.mem_append.1 hother with
        | inl hmem => exact howner (Option.mem_toList.1 hmem)
        | inr hmem => exact hqueue hmem
      · simp only [granting, applyLock, List.foldl_nil]
        by_cases hid : id = g
        · subst hid
          exact hwait _ howner (by simp)
        · exact (hothers id hid).same (same_lock .rfl (by simp [hid]))

private theorem filter_self {α : Type} [DecidableEq α] {l : List α} {a : α} (hnodup : l.Nodup) (hmem : a ∈ l) :
    l.filter (· = a) = [a] := by
  rw [List.filter_eq, List.count_eq_one_of_mem hnodup hmem]
  rfl

private theorem coherent_cancel (error : SessionError) (hdistinct : (s.lock.owner.toList ++ s.lock.waitQueue).Nodup)
    (hothers : ∀ id, id ≠ g → s.Fits id)
    (hout : g ∉ s.lock.waitQueue → ∀ l : SessionLock (κ ⊕ δ), l.owner ≠ some g → g ∉ l.waitQueue →
      Fits { s with lock := l } g)
    (hin : g ∈ s.lock.waitQueue → ∀ l : SessionLock (κ ⊕ δ), l.owner ≠ some g → g ∉ l.waitQueue →
      (settleOne error { s with lock := l } (.rejected g)).Fits g) :
    (s.applyLock error (s.lock.cancel g)).Coherent := by
  by_cases howner : s.lock.owner = some g
  · have hqueue : g ∉ s.lock.waitQueue := by
      rw [howner] at hdistinct
      exact (List.nodup_cons.1 hdistinct).1
    have hcancel : (s.lock.cancel g).lock = (s.lock.release g).lock ∧
        (s.lock.cancel g).settled = (s.lock.release g).settled := by
      have hrest : ∀ other ∈ (SessionLock.drainWaitQueue { s.lock with owner := none }).lock.waitQueue, other ≠ g := by
        intro other hother
        unfold SessionLock.drainWaitQueue at hother
        split at hother
        · rename_i hempty
          rw [hempty] at hother
          cases hother
        · rename_i next rest hrest
          rintro rfl
          exact hqueue (hrest ▸ List.mem_cons_of_mem _ hother)
      simp only [SessionLock.cancel, SessionLock.release, if_pos howner]
      rw [List.filter_eq_self.2 (by simpa using hrest), List.filter_eq_nil_iff.2 (by simpa using hrest)]
      exact ⟨rfl, List.append_nil _⟩
    have hsame : s.applyLock error (s.lock.cancel g) = s.applyLock error (s.lock.release g) := by
      unfold applyLock
      rw [hcancel.1, hcancel.2]
    rw [hsame]
    exact coherent_release error hdistinct hothers hqueue (hout hqueue)
  · have hlock : (s.lock.cancel g).lock = { s.lock with waitQueue := s.lock.waitQueue.filter (· ≠ g) } := by
      simp only [SessionLock.cancel, if_neg howner]
    have hsettled : (s.lock.cancel g).settled = (s.lock.waitQueue.filter (· = g)).map .rejected := by
      simp only [SessionLock.cancel, if_neg howner, List.nil_append]
    have hnodup : (s.lock.owner.toList ++ s.lock.waitQueue.filter (· ≠ g)).Nodup :=
      hdistinct.sublist (List.Sublist.append (List.Sublist.refl _) List.filter_sublist)
    have hgone : g ∉ s.lock.waitQueue.filter (· ≠ g) := by simp
    by_cases hqueue : g ∈ s.lock.waitQueue
    · unfold applyLock
      rw [hlock, hsettled, filter_self hdistinct.of_append_right hqueue]
      simp only [List.map_cons, List.map_nil, List.foldl_cons, List.foldl_nil]
      refine ⟨by rw [settleOne_lock]; exact hnodup, fun id => ?_⟩
      by_cases hid : id = g
      · subst hid
        exact hin hqueue _ howner hgone
      · refine Fits.same ?_ (same_settleOne _ _ hid)
        exact (hothers id hid).same (same_lock .rfl (by simp [hid]))
    · unfold applyLock
      have hnone : s.lock.waitQueue.filter (· = g) = [] := by
        rw [List.filter_eq_nil_iff]
        intro other hother he
        exact hqueue (of_decide_eq_true he ▸ hother)
      rw [hlock, hsettled, hnone]
      refine ⟨hnodup, fun id => ?_⟩
      by_cases hid : id = g
      · subst hid
        exact hout hqueue _ howner hgone
      · exact (hothers id hid).same (same_lock .rfl (by simp [hid]))

/-! ### One record at a time -/

omit [DecidableEq κ] in
private theorem Fits.traffic {busy : Option (κ ⊕ δ)} {f : Traffic → Traffic} (h : s.Fits id) (hid : id ≠ .inr d)
    (hbusy : busy = some id ↔ s.busy = some id) : Fits { s.setTraffic d f with busy } id :=
  h.same ⟨.rfl, .rfl, hbusy, fun _ _ => rfl, fun _ _ => .rfl, fun _ _ _ ht => ht, fun _ _ => .rfl, fun d' hd' => by
    have hne : d' ≠ d := fun he => hid (hd'.trans (congrArg Sum.inr he))
    simp only [setTraffic_traffic, if_neg hne]⟩

omit [DecidableEq κ] in
private theorem Coherent.traffic {busy : Option (κ ⊕ δ)} {f : Traffic → Traffic} (h : s.Coherent)
    (hbusy : ∀ id, id ≠ .inr d → (busy = some id ↔ s.busy = some id))
    (hfits : (f (s.traffic d)).Fits (s.lock.owner = some (.inr d)) (.inr d ∈ s.lock.waitQueue) (busy = some (.inr d))) :
    Coherent { s.setTraffic d f with busy } := by
  refine ⟨h.distinct, fun id => ?_⟩
  by_cases hid : id = .inr d
  · subst hid
    simpa only [Fits, setTraffic_traffic, setTraffic_lock, ↓reduceIte] using hfits
  · exact (h.fits id).traffic hid (hbusy id hid)

omit [DecidableEq δ] in
private theorem Fits.call {stage : CallStage} {busy : Option (κ ⊕ δ)} {waiters ops statements : List κ} (h : s.Fits id)
    (hid : id ≠ .inl c) (hbusy : busy = some id ↔ s.busy = some id)
    (hwaiters : ∀ c', c' ≠ c → (c' ∈ waiters ↔ c' ∈ s.sessionWaiters))
    (hops : ∀ c', c' ≠ c → c' ∈ s.sessionOps → c' ∈ ops)
    (hstatements : ∀ c', c' ≠ c → (c' ∈ statements ↔ c' ∈ s.statements)) :
    Fits { s.setCall c stage with sessionWaiters := waiters, sessionOps := ops, busy, statements } id := by
  have hne : ∀ c', id = .inl c' → c' ≠ c := fun c' hc' he => hid (hc'.trans (congrArg Sum.inl he))
  exact h.same ⟨.rfl, .rfl, hbusy, fun c' hc' => by simp only [setCall_call, if_neg (hne c' hc')],
    fun c' hc' => hwaiters c' (hne c' hc'), fun c' hc' _ => hops c' (hne c' hc'),
    fun c' hc' => hstatements c' (hne c' hc'), fun _ _ => rfl⟩

omit [DecidableEq δ] in
private theorem Coherent.setCall {stage : CallStage} {busy : Option (κ ⊕ δ)} {waiters ops statements : List κ}
    (h : s.Coherent)
    (hbusy : ∀ id, id ≠ .inl c → (busy = some id ↔ s.busy = some id))
    (hwaiters : ∀ c', c' ≠ c → (c' ∈ waiters ↔ c' ∈ s.sessionWaiters))
    (hops : ∀ c', c' ≠ c → c' ∈ s.sessionOps → c' ∈ ops)
    (hstatements : ∀ c', c' ≠ c → (c' ∈ statements ↔ c' ∈ s.statements))
    (hfits : stage.Fits (s.lock.owner = some (.inl c)) (.inl c ∈ s.lock.waitQueue) (busy = some (.inl c))
      (c ∈ waiters) (c ∈ ops) (c ∈ statements)) :
    Coherent { s.setCall c stage with sessionWaiters := waiters, sessionOps := ops, busy, statements } := by
  refine ⟨h.distinct, fun id => ?_⟩
  by_cases hid : id = .inl c
  · subst hid
    simpa only [Fits, setCall_call, setCall_lock, ↓reduceIte] using hfits
  · exact (h.fits id).call hid (hbusy id hid) hwaiters hops hstatements

/-! ### Snapshot calls -/

omit [DecidableEq κ] [DecidableEq δ] in
theorem Coherent.ofCall (h : s.Coherent) (c : κ) : (s.call c).Fits (s.lock.owner = some (.inl c))
    (.inl c ∈ s.lock.waitQueue) (s.busy = some (.inl c)) (c ∈ s.sessionWaiters) (c ∈ s.sessionOps) (c ∈ s.statements) :=
  h.fits (.inl c)

omit [DecidableEq κ] [DecidableEq δ] in
theorem Coherent.ofTraffic (h : s.Coherent) (d : δ) : (s.traffic d).Fits (s.lock.owner = some (.inr d))
    (.inr d ∈ s.lock.waitQueue) (s.busy = some (.inr d)) :=
  h.fits (.inr d)

private theorem Coherent.withSession (h : s.Coherent) (hcall : s.call c = .uncalled) (call : SnapshotCall) :
    (s.withSession c call).Coherent := by
  have hc := h.ofCall c
  rw [hcall] at hc
  have hqueue : .inl c ∉ s.lock.waitQueue := fun hmem => (by cases hc.queued.1 hmem)
  have howner : s.lock.owner ≠ some (.inl c) := fun he => (by cases hc.holds he)
  have hbusy : s.busy ≠ some (.inl c) := fun he => (by cases hc.busy he)
  have hlisted : c ∉ s.sessionWaiters := fun hmem => (by cases hc.listed.1 hmem)
  have hstarted : c ∉ s.statements := fun hmem => (by cases hc.started hmem)
  have refused : ∀ error, (s.setCall c (.rejected error)).Coherent := fun error =>
    h.setCall (fun _ _ => .rfl) (fun _ _ => .rfl) (fun _ _ hmem => hmem) (fun _ _ => .rfl)
      ⟨⟨fun hmem => absurd hmem hqueue, fun hw => (by cases hw)⟩, fun he => absurd he howner,
        ⟨fun hmem => absurd hmem hlisted, fun hl => (by cases hl)⟩, fun hr => (by cases hr), fun he => absurd he hbusy,
        fun hmem => absurd hmem hstarted⟩
  unfold Server.withSession
  split
  · exact refused _
  split
  · exact refused _
  split
  · exact refused _
  refine coherent_acquire h.distinct (fun id hid => ?_) hqueue (fun l hl hq => ?_) (fun l hl hq => ?_)
  · exact (h.fits id).call hid .rfl (fun c' hc' => by simp [hc']) (fun _ _ hmem => hmem) (fun _ _ => .rfl)
  · simp only [settleOne, Fits, setCall_call, ↓reduceIte]
    exact ⟨⟨fun hmem => absurd hmem hq, fun hw => (by cases hw)⟩, fun _ => rfl, ⟨fun _ => rfl, fun _ => by simp⟩,
      fun hr => (by cases hr), fun he => absurd he hbusy, fun hmem => absurd hmem hstarted⟩
  · simp only [Fits, setCall_call, ↓reduceIte]
    exact ⟨⟨fun _ => rfl, fun _ => hq⟩, fun he => absurd he hl, ⟨fun _ => rfl, fun _ => by simp⟩,
      fun hr => (by cases hr), fun he => absurd he hbusy, fun hmem => absurd hmem hstarted⟩

private theorem Coherent.resume (h : s.Coherent) (hs : s.resume c = some s') : s'.Coherent := by
  have hc := h.ofCall c
  unfold Server.resume at hs
  split at hs
  · rename_i call hcall
    rw [hcall] at hc
    have hqueue : .inl c ∉ s.lock.waitQueue := fun hmem => (by cases hc.queued.1 hmem)
    have hbusy : s.busy ≠ some (.inl c) := fun he => (by cases hc.busy he)
    have hstarted : c ∉ s.statements := fun hmem => (by cases hc.started hmem)
    cases hs
    dsimp only
    split
    · refine coherent_release _ h.distinct (fun id hid => ?_) hqueue (fun l hl hq => ?_)
      · exact (h.fits id).call hid .rfl (fun c' hc' => by simp [hc']) (fun _ _ hmem => by simp [hmem]) (fun _ _ => .rfl)
      · simp only [Fits, setCall_call, ↓reduceIte]
        exact ⟨⟨fun hmem => absurd hmem hq, fun hw => (by cases hw)⟩, fun he => absurd he hl,
          ⟨fun hmem => (by simp at hmem), fun hl => (by cases hl)⟩, fun hr => (by cases hr), fun he => absurd he hbusy,
          fun hmem => absurd hmem hstarted⟩
    · exact h.setCall (fun _ _ => .rfl) (fun c' hc' => by simp [hc']) (fun _ _ hmem => by simp [hmem]) (fun _ _ => .rfl)
        ⟨⟨fun hmem => absurd hmem hqueue, fun hw => (by cases hw)⟩, fun _ => rfl,
          ⟨fun hmem => (by simp at hmem), fun hl => (by cases hl)⟩, fun _ => (by simp), fun he => absurd he hbusy,
          fun hmem => absurd hmem hstarted⟩
  · rename_i error hcall
    rw [hcall] at hc
    cases hs
    exact h.setCall (fun _ _ => .rfl) (fun c' hc' => by simp [hc']) (fun _ _ hmem => hmem) (fun _ _ => .rfl)
      ⟨⟨fun hmem => (by cases hc.queued.1 hmem), fun hw => (by cases hw)⟩, fun he => (by cases hc.holds he),
        ⟨fun hmem => (by simp at hmem), fun hl => (by cases hl)⟩, fun hr => (by cases hr),
        fun he => (by cases hc.busy he), fun hmem => (by cases hc.started hmem)⟩
  · cases hs

/-- `cancel` of a call that need not wait or own the session. -/
theorem Coherent.cancelCall (h : s.Coherent) (error : SessionError) (c : κ) :
    (s.applyLock error (s.lock.cancel (.inl c))).Coherent := by
  have hc := h.ofCall c
  refine coherent_cancel error h.distinct (fun id _ => h.fits id) (fun hqueue l hl hq => ?_) (fun hqueue l hl hq => ?_)
  · exact ⟨⟨fun hmem => absurd hmem hq, fun hw => absurd (hc.queued.2 hw) hqueue⟩, fun he => absurd he hl, hc.listed,
      hc.tracked, hc.busy, hc.started⟩
  · have hwaits := hc.queued.1 hqueue
    simp only [settleOne, Fits, setCall_call, ↓reduceIte]
    cases hcall : s.call c with
    | waiting call =>
      rw [hcall] at hc
      exact ⟨⟨fun hmem => absurd hmem hq, fun hw => (by cases hw)⟩, fun he => absurd he hl, hc.listed,
        fun hr => (by cases hr), fun he => (by cases hc.busy he),
        fun hmem => (by cases hc.started hmem)⟩
    | _ => rw [hcall] at hwaits; cases hwaits

/-- A call that waits is refused. -/
theorem Coherent.cancelCall_call (h : s.Coherent) (error : SessionError) (hwaits : (s.call c).waits) :
    (s.applyLock error (s.lock.cancel (.inl c))).call c = .rejecting error := by
  have hqueue := (h.ofCall c).queued.2 hwaits
  have howner : s.lock.owner ≠ some (.inl c) := by
    intro he
    have hdistinct := h.distinct
    rw [he] at hdistinct
    exact (List.nodup_cons.1 hdistinct).1 hqueue
  have hsettled : (s.lock.cancel (.inl c)).settled = [.rejected (.inl c)] := by
    simp only [SessionLock.cancel, if_neg howner, List.nil_append, filter_self h.distinct.of_append_right hqueue]
    rfl
  unfold applyLock
  rw [hsettled]
  simp only [List.foldl_cons, List.foldl_nil, settleOne, setCall_call, ↓reduceIte]

private theorem Coherent.expire (h : s.Coherent) (hs : s.expire c = some s') : s'.Coherent := by
  unfold Server.expire at hs
  split at hs
  · rename_i call hcall
    cases hs
    have hrefused := h.cancelCall_call (.timedOut call.method call.timeoutMs) (by rw [hcall]; rfl)
    have hsame := Function.update_eq_self c (s.applyLock (.timedOut call.method call.timeoutMs)
      (s.lock.cancel (.inl c))).call
    rw [hrefused] at hsame
    unfold Server.setCall
    rw [hsame]
    exact h.cancelCall _ c
  · cases hs

omit [DecidableEq δ] in
private theorem Coherent.startStatement (h : s.Coherent) (hs : s.startStatement c = some s') : s'.Coherent := by
  have hc := h.ofCall c
  unfold Server.startStatement at hs
  split at hs
  · rename_i started hcall hidle
    cases hs
    rw [hcall] at hc
    refine h.setCall (fun id hid => ?_) (fun _ _ => .rfl) (fun _ _ hmem => hmem) (fun c' hc' => by simp [hc']) ?_
    · rw [hidle]
      exact ⟨fun he => absurd (Option.some.inj he).symm hid, fun he => (by cases he)⟩
    · exact ⟨⟨fun hmem => (by cases hc.queued.1 hmem), fun hw => (by cases hw)⟩, fun _ => rfl, hc.listed,
        fun _ => hc.tracked rfl, fun _ => rfl, fun _ => rfl⟩
  · cases hs

omit [DecidableEq κ] [DecidableEq δ] in
private theorem Coherent.finishStatement (h : s.Coherent) (hbusy : s.busy = some (.inl c)) :
    Coherent { s with busy := none } := by
  refine ⟨h.distinct, fun id => ?_⟩
  cases id with
  | inl c' =>
    have hc' := h.ofCall c'
    exact ⟨hc'.queued, hc'.holds, hc'.listed, hc'.tracked, fun he => (by cases he), hc'.started⟩
  | inr d =>
    refine (h.fits (.inr d)).same ⟨.rfl, .rfl, ?_, fun _ _ => rfl, fun _ _ => .rfl, fun _ _ _ ht => ht,
      fun _ _ => .rfl, fun _ _ => rfl⟩
    rw [hbusy]
    exact ⟨fun he => (by cases he), fun he => (by cases he)⟩

private theorem Coherent.finishBody (h : s.Coherent) (hs : s.finishBody c = some s') : s'.Coherent := by
  have hc := h.ofCall c
  unfold Server.finishBody at hs
  split at hs
  · rename_i started hcall
    rw [hcall] at hc
    split at hs
    · cases hs
    · rename_i hbusy
      cases hs
      have hqueue : .inl c ∉ s.lock.waitQueue := fun hmem => (by cases hc.queued.1 hmem)
      refine coherent_release _ h.distinct (fun id hid => ?_) hqueue (fun l hl hq => ?_)
      · exact (h.fits id).call hid .rfl (fun _ _ => .rfl) (fun _ _ hmem => hmem) (fun _ _ => .rfl)
      · simp only [Fits, setCall_call, ↓reduceIte]
        exact ⟨⟨fun hmem => absurd hmem hq, fun hw => (by cases hw)⟩, fun he => absurd he hl, hc.listed,
          fun hr => (by cases hr), fun he => absurd he hbusy, fun _ => rfl⟩
  · cases hs

omit [DecidableEq δ] in
private theorem Coherent.untrack (h : s.Coherent) (hcall : (s.call c).runs = false) :
    Coherent { s with sessionOps := s.sessionOps.filter (· ≠ c) } := by
  refine ⟨h.distinct, fun id => (h.fits id).same ⟨.rfl, .rfl, .rfl, fun _ _ => rfl, fun _ _ => .rfl,
    fun c' _ hr hmem => ?_, fun _ _ => .rfl, fun _ _ => rfl⟩⟩
  have hne : c' ≠ c := by
    rintro rfl
    rw [hcall] at hr
    cases hr
  simp [hmem, hne]

private theorem Coherent.cancelWaiters (h : s.Coherent) : s.cancelWaiters.Coherent := by
  unfold Server.cancelWaiters
  generalize s.sessionWaiters = waiters
  induction waiters generalizing s with
  | nil => exact h
  | cons c rest ih => exact ih (h.cancelCall _ c)

/-! ### Traffic -/

omit [DecidableEq κ] in
/-- The statement PGlite executes stays the same. -/
private theorem Coherent.setTraffic {f : Traffic → Traffic} (h : s.Coherent)
    (hfits : (f (s.traffic d)).Fits (s.lock.owner = some (.inr d)) (.inr d ∈ s.lock.waitQueue)
      (s.busy = some (.inr d))) : (s.setTraffic d f).Coherent :=
  h.traffic (fun _ _ => .rfl) hfits

private theorem Coherent.accept (h : s.Coherent) (hs : s.accept d = some s') : s'.Coherent := by
  have hd := h.ofTraffic d
  have haccepted : (s.setTraffic d fun t => { t with accepted := true }).Coherent :=
    h.setTraffic ⟨hd.queued, hd.admitted, hd.rollback, hd.busy, hd.bridged, hd.cancelled, hd.closed⟩
  unfold Server.accept at hs
  split at hs
  · dsimp only at hs
    split at hs
    all_goals
      cases hs
      exact ⟨haccepted.distinct, haccepted.fits⟩
  · cases hs

omit [DecidableEq κ] in
private theorem Coherent.bridge (h : s.Coherent) (hs : s.bridge d = some s') : s'.Coherent := by
  have hd := h.ofTraffic d
  unfold Server.bridge at hs
  split at hs
  · cases hs
  · cases hs
  · split at hs
    · cases hs
      exact h.setTraffic ⟨hd.queued, hd.admitted, hd.rollback, hd.busy, fun _ => rfl, hd.cancelled, hd.closed⟩
    · cases hs

omit [DecidableEq κ] in
/-- From now on the duplex is being torn down. -/
private theorem Coherent.leave (h : s.Coherent) (hbridged : (s.traffic d).bridged) :
    (s.setTraffic d fun t => { t with leaving := true }).Coherent := by
  have hd := h.ofTraffic d
  exact h.setTraffic ⟨hd.queued, fun _ hl => (by cases hl), fun hr => ⟨(hd.rollback hr).1, rfl, (hd.rollback hr).2.2⟩,
    hd.busy, fun _ => hbridged, fun hc => ⟨rfl, (hd.cancelled hc).2⟩, hd.closed⟩

omit [DecidableEq κ] in
private theorem Coherent.disconnect (h : s.Coherent) (hs : s.disconnect d = some s') : s'.Coherent := by
  have hd := h.ofTraffic d
  unfold Server.disconnect at hs
  split at hs
  · cases hs
    have hleft : (s.setTraffic d fun t => { t with leaving := t.leaving || t.bridged }).Coherent := by
      refine h.setTraffic ⟨hd.queued, fun ha hl => hd.admitted ha ?_,
        fun hr => ⟨(hd.rollback hr).1, ?_, (hd.rollback hr).2.2⟩, hd.busy, fun hb => ?_,
        fun hc => ⟨?_, (hd.cancelled hc).2⟩, hd.closed⟩
      · exact (Bool.or_eq_false_iff.1 hl).1
      · exact Bool.or_eq_true_iff.2 (.inl (hd.rollback hr).2.1)
      · cases hb with
        | inl hb => exact hd.bridged (.inl hb)
        | inr hb => exact (Bool.or_eq_true_iff.1 hb).elim (fun hl => hd.bridged (.inr hl)) id
      · exact Bool.or_eq_true_iff.2 (.inl (hd.cancelled hc).1)
    exact ⟨hleft.distinct, hleft.fits⟩
  · cases hs

private theorem Coherent.acquire (h : s.Coherent) (hbridged : (s.traffic d).bridged)
    (hbatch : (s.traffic d).batch = .idle)
    (hleaving : (s.traffic d).leaving = false) :
    ((s.setTraffic d fun t => { t with batch := .acquiring }).granting (s.lock.acquire (.inr d))).Coherent := by
  have hd := h.ofTraffic d
  have hqueue : .inr d ∉ s.lock.waitQueue := fun hmem => (by cases hbatch.symm.trans (hd.queued.1 hmem))
  have hrollback : (s.traffic d).rollback = .none := by
    by_contra hr
    cases hleaving.symm.trans (hd.rollback hr).2.1
  have hrolling : (s.traffic d).rollback ≠ .running := fun hr => (by cases hrollback.symm.trans hr)
  have hbusy : s.busy ≠ some (.inr d) := by
    intro he
    cases hd.busy.1 he with
    | inl hb => cases hbatch.symm.trans hb
    | inr hr => exact hrolling hr
  have hcancelled : (s.traffic d).cancelled ≠ true := fun hc => (by cases hleaving.symm.trans (hd.cancelled hc).1)
  refine coherent_acquire h.distinct
    (fun id hid => (h.fits id).traffic (f := fun t => { t with batch := .acquiring }) hid .rfl) hqueue
    (fun l hl hq => ?_) (fun l hl hq => ?_)
  · simp only [settleOne, Fits, setTraffic_traffic, ↓reduceIte, setTraffic_lock, setTraffic_busy]
    exact ⟨⟨fun hmem => absurd hmem hq, fun hb => (by cases hb)⟩, fun _ _ => hl, fun hr => absurd hrollback hr,
      ⟨fun he => absurd he hbusy, fun hb => hb.elim (fun hb => (by cases hb)) fun hr => absurd hr hrolling⟩,
      fun _ => hbridged, fun hc => absurd hc hcancelled, fun hc => absurd (hd.closed hc) hcancelled⟩
  · simp only [Fits, setTraffic_traffic, ↓reduceIte, setTraffic_busy]
    exact ⟨⟨fun _ => rfl, fun _ => hq⟩, fun hb => (by cases hb), fun hr => absurd hrollback hr,
      ⟨fun he => absurd he hbusy, fun hb => hb.elim (fun hb => (by cases hb)) fun hr => absurd hr hrolling⟩,
      fun _ => hbridged, fun hc => absurd hc hcancelled, fun hc => absurd (hd.closed hc) hcancelled⟩

omit [DecidableEq κ] [DecidableEq δ] in
/-- PGlite starts, or ends, a statement of the participant. -/
private theorem busy_other {old new : Option (κ ⊕ δ)} {id other : κ ⊕ δ} (hne : other ≠ id)
    (hold : old = none ∨ old = some id) (hnew : new = none ∨ new = some id) : new = some other ↔ old = some other := by
  have hid : some id ≠ some other := fun he => hne (Option.some.inj he).symm
  rcases hold with rfl | rfl <;> rcases hnew with rfl | rfl <;> simp [hid]

omit [DecidableEq κ] in
private theorem Coherent.startBatch (h : s.Coherent) (hs : s.startBatch d = some s') : s'.Coherent := by
  have hd := h.ofTraffic d
  unfold Server.startBatch at hs
  split at hs
  · rename_i hstart
    obtain ⟨hbatch, hidle⟩ := hstart
    have hqueue : .inr d ∉ s.lock.waitQueue := fun hmem => (by cases hbatch.symm.trans (hd.queued.1 hmem))
    have hbridged := hd.bridged (.inl (by rw [hbatch]; decide))
    have hrolling : (s.traffic d).rollback ≠ .running := by
      intro hr
      cases hidle.symm.trans (hd.busy.2 (.inr hr))
    split at hs
    · cases hs
      refine h.setTraffic ⟨⟨fun hmem => absurd hmem hqueue, fun hb => (by cases hb)⟩, fun hb => (by cases hb),
        fun hr => ⟨(hd.rollback hr).1, (hd.rollback hr).2.1, BatchStage.noConfusion⟩, ?_, fun _ => hbridged,
        fun hc => ?_, hd.closed⟩
      · rw [hidle]
        exact ⟨fun he => (by cases he), fun hb => hb.elim (fun hb => (by cases hb)) fun hr => absurd hr hrolling⟩
      · obtain ⟨hl, -, -, ho⟩ := hd.cancelled hc
        exact ⟨hl, BatchStage.noConfusion, BatchStage.noConfusion, ho⟩
    · rename_i hleaving
      cases hs
      refine h.traffic (fun id hid => busy_other hid (.inl hidle) (.inr rfl)) ⟨⟨fun hmem => absurd hmem hqueue,
        fun hb => (by cases hb)⟩, fun hb => (by cases hb), fun hr => absurd (hd.rollback hr).2.1 hleaving,
        ⟨fun _ => .inl rfl, fun _ => rfl⟩, fun _ => hbridged, fun hc => absurd (hd.cancelled hc).1 hleaving, hd.closed⟩
  · cases hs

omit [DecidableEq κ] in
/-- The batch is over. -/
private theorem Coherent.idle (h : s.Coherent) (hbatch : (s.traffic d).batch = .running) (leaving : Bool → Bool) :
    Coherent
      { s.setTraffic d (fun t => { t with batch := .idle, leaving := leaving t.leaving }) with busy := none } := by
  have hd := h.ofTraffic d
  have hbusy := hd.busy.2 (.inl hbatch)
  have hbridged := hd.bridged (.inl (by rw [hbatch]; decide))
  have hrollback : (s.traffic d).rollback = .none := by
    by_contra hr
    exact (hd.rollback hr).2.2 hbatch
  refine h.traffic (fun id hid => busy_other hid (.inr hbusy) (.inl rfl)) ⟨⟨fun hmem => ?_, fun hb => (by cases hb)⟩,
    fun hb => (by cases hb), fun hr => absurd hrollback hr,
    ⟨fun he => (by cases he), fun hb => hb.elim (fun hb => (by cases hb)) fun hr => (by cases hrollback.symm.trans hr)⟩,
    fun _ => hbridged, fun hc => absurd hbatch (hd.cancelled hc).2.1, hd.closed⟩
  cases hbatch.symm.trans (hd.queued.1 hmem)

private theorem Coherent.readyForQuery (h : s.Coherent) (hbatch : (s.traffic d).batch = .running) (status : UInt8) :
    ((s.setTraffic d fun t => { t with inTransaction := inTransactionStatus status }).granting
      (s.lock.updateStatus (.inr d) status)).Coherent := by
  have hd := h.ofTraffic d
  have hqueue : .inr d ∉ s.lock.waitQueue := fun hmem => (by cases hbatch.symm.trans (hd.queued.1 hmem))
  have hrollback : (s.traffic d).rollback = .none := by
    by_contra hr
    exact (hd.rollback hr).2.2 hbatch
  have hread : (s.setTraffic d fun t => { t with inTransaction := inTransactionStatus status }).Coherent :=
    h.setTraffic ⟨hd.queued, hd.admitted, hd.rollback, hd.busy, hd.bridged, hd.cancelled, hd.closed⟩
  refine coherent_updateStatus _ status hread hqueue fun l hl hq => ?_
  simp only [Fits, setTraffic_traffic, ↓reduceIte, setTraffic_busy]
  exact ⟨⟨fun hmem => absurd hmem hq, fun hb => (by cases hbatch.symm.trans hb)⟩,
    fun hb => (by cases hbatch.symm.trans hb), fun hr => absurd hrollback hr, hd.busy, hd.bridged,
    fun hc => absurd hbatch (hd.cancelled hc).2.1, hd.closed⟩

omit [DecidableEq κ] in
private theorem Coherent.failAdmitted (h : s.Coherent) (hbatch : (s.traffic d).batch = .admitted) :
    (s.setTraffic d fun t => { t with batch := .idle, leaving := true }).Coherent := by
  have hd := h.ofTraffic d
  refine h.setTraffic ⟨⟨fun hmem => (by cases hbatch.symm.trans (hd.queued.1 hmem)), fun hb => (by cases hb)⟩,
    fun hb => (by cases hb), fun hr => ⟨(hd.rollback hr).1, rfl, BatchStage.noConfusion⟩, hd.busy.trans ?_,
    fun _ => hd.bridged (.inl (by rw [hbatch]; decide)), fun hc => ⟨rfl, BatchStage.noConfusion, BatchStage.noConfusion,
      (hd.cancelled hc).2.2.2⟩, hd.closed⟩
  rw [hbatch]
  simp

private theorem Coherent.decideRollback (h : s.Coherent) (hleaving : (s.traffic d).leaving)
    (hbatch : (s.traffic d).batch ≠ .running) (hrollback : (s.traffic d).rollback = .none)
    (howner : s.lock.isOwner (.inr d)) : (s.setTraffic d fun t => { t with rollback := .queued }).Coherent := by
  have hd := h.ofTraffic d
  have howns : s.lock.owner = some (.inr d) := eq_of_beq howner
  refine h.setTraffic ⟨hd.queued, hd.admitted, fun _ => ⟨howns, hleaving, hbatch⟩, hd.busy.trans ?_, hd.bridged,
    fun hc => absurd howns (hd.cancelled hc).2.2.2, hd.closed⟩
  simp [hrollback]

omit [DecidableEq κ] in
private theorem Coherent.startRollback (h : s.Coherent) (hrollback : (s.traffic d).rollback = .queued)
    (hidle : s.busy = none) :
    Coherent { s.setTraffic d (fun t => { t with rollback := .running }) with busy := some (.inr d) } := by
  have hd := h.ofTraffic d
  obtain ⟨howns, hleaving, hbatch⟩ := hd.rollback (by rw [hrollback]; decide)
  exact h.traffic (fun id hid => busy_other hid (.inl hidle) (.inr rfl)) ⟨hd.queued, hd.admitted,
    fun _ => ⟨howns, hleaving, hbatch⟩, ⟨fun _ => .inr rfl, fun _ => rfl⟩, hd.bridged, hd.cancelled, hd.closed⟩

omit [DecidableEq κ] in
private theorem Coherent.finishRollback (h : s.Coherent) (hrollback : (s.traffic d).rollback = .running) (ok : Bool) :
    Coherent { s.setTraffic d
      (fun t => { t with rollback := .none, inTransaction := t.inTransaction && !ok }) with busy := none } := by
  have hd := h.ofTraffic d
  obtain ⟨howns, hleaving, hbatch⟩ := hd.rollback (by rw [hrollback]; decide)
  have hbusy := hd.busy.2 (.inr hrollback)
  refine h.traffic (fun id hid => busy_other hid (.inr hbusy) (.inl rfl)) ⟨hd.queued, hd.admitted,
    fun hr => absurd rfl hr,
    ⟨fun he => (by cases he), fun hb => hb.elim (fun hb => absurd hb hbatch) fun hr => (by cases hr)⟩, hd.bridged,
    hd.cancelled, hd.closed⟩

private theorem Coherent.release (h : s.Coherent) (hleaving : (s.traffic d).leaving)
    (hbatch : (s.traffic d).batch = .idle)
    (hrollback : (s.traffic d).rollback = .none) : (s.granting (s.lock.release (.inr d))).Coherent := by
  have hd := h.ofTraffic d
  refine coherent_release _ h.distinct (fun id _ => h.fits id)
    (fun hmem => (by cases hbatch.symm.trans (hd.queued.1 hmem))) fun l hl hq => ?_
  exact hd.given hleaving (by rw [hbatch]; decide) hrollback hl hq

private theorem Coherent.cancel (h : s.Coherent) (hleaving : (s.traffic d).leaving)
    (hbatch : (s.traffic d).batch ≠ .running)
    (hrollback : (s.traffic d).rollback = .none) :
    ((s.setTraffic d fun t => { t with cancelled := true }).granting (s.lock.cancel (.inr d))).Coherent := by
  have hd := h.ofTraffic d
  refine coherent_cancel _ h.distinct
    (fun id hid => (h.fits id).traffic (f := fun t => { t with cancelled := true }) hid .rfl)
    (fun hqueue l hl hq => ?_) (fun hqueue l hl hq => ?_)
  · have hacquiring : (s.traffic d).batch ≠ .acquiring := fun hb => hqueue (hd.queued.2 hb)
    have hgiven := hd.given hleaving ⟨hbatch, hacquiring⟩ hrollback hl hq
    simp only [Fits, setTraffic_traffic, ↓reduceIte, setTraffic_busy]
    exact ⟨hgiven.queued, hgiven.admitted, hgiven.rollback, hgiven.busy, hgiven.bridged,
      fun _ => ⟨hleaving, hbatch, hacquiring, hl⟩, fun _ => rfl⟩
  · have hacquiring := hd.queued.1 hqueue
    simp only [settleOne, Fits, setTraffic_traffic, ↓reduceIte, setTraffic_busy]
    refine ⟨⟨fun hmem => absurd hmem hq, fun hb => (by cases hb)⟩, fun hb => (by cases hb),
      fun hr => absurd hrollback hr, hd.busy.trans ?_, fun _ => hd.bridged (.inr hleaving),
      fun _ => ⟨hleaving, BatchStage.noConfusion, BatchStage.noConfusion, hl⟩, fun _ => rfl⟩
    rw [hacquiring]
    simp

/-! ### Runs -/

private theorem Coherent.step {a : ServerAction κ δ} (h : s.Coherent) (hs : s.step a = some s') : s'.Coherent := by
  cases a <;> simp only [Server.step] at hs
  case listen =>
    cases hs
    unfold Server.listen
    split
    · exact h
    split
    · exact h
    split
    · exact h
    · exact ⟨h.distinct, h.fits⟩
  case withSession c call =>
    split at hs
    · rename_i hcall
      cases hs
      exact h.withSession hcall call
    · cases hs
  case resume c => exact h.resume hs
  case expire c => exact h.expire hs
  case startStatement c => exact h.startStatement hs
  case finishBody c => exact h.finishBody hs
  case untrack c =>
    split at hs
    · cases hs
    · rename_i hcall
      cases hs
      refine h.untrack ?_
      rw [not_or] at hcall
      cases hstage : s.call c with
      | running started =>
        cases started
        · exact absurd hstage hcall.2
        · exact absurd hstage hcall.1
      | _ => rfl
  case accept d => exact h.accept hs
  case bridge d => exact h.bridge hs
  case disconnect d => exact h.disconnect hs
  case startBatch d => exact h.startBatch hs
  case failBatch d =>
    split at hs
    · rename_i hbatch
      cases hs
      exact h.failAdmitted hbatch
    · rename_i hbatch
      cases hs
      exact h.idle hbatch fun _ => true
    · cases hs
  case sweep =>
    unfold Server.sweep at hs
    split at hs
    · split at hs
      · cases hs
      · cases hs
        exact ⟨h.cancelWaiters.distinct, h.cancelWaiters.fits⟩
    · cases hs
  case destroySockets =>
    unfold Server.destroySockets at hs
    split at hs
    · split at hs
      · cases hs
        exact ⟨h.distinct, h.fits⟩
      · cases hs
    · cases hs
  case closePglite =>
    unfold Server.closePglite at hs
    split at hs
    · split at hs
      · cases hs
        exact ⟨h.distinct, h.fits⟩
      · cases hs
    · cases hs
  case close =>
    cases hs
    split
    · exact ⟨h.distinct, h.fits⟩
    · exact h
  case closeInstance =>
    cases hs
    exact ⟨h.distinct, h.fits⟩
  all_goals
    split at hs
    · rename_i hguard
      cases hs
      first
        | exact ⟨h.distinct, h.fits⟩
        | exact h.finishStatement hguard
        | exact h.acquire hguard.1 hguard.2.1 (by simpa using hguard.2.2)
        | exact h.readyForQuery hguard _
        | exact h.idle hguard id
        | exact h.leave hguard
        | exact h.decideRollback hguard.1 hguard.2.1 hguard.2.2.1 hguard.2.2.2
        | exact h.startRollback hguard.1 hguard.2
        | exact h.finishRollback hguard _
        | exact h.release hguard.1 hguard.2.1 hguard.2.2
        | exact h.cancel hguard.1 hguard.2.1 hguard.2.2
        | exact h.setTraffic (let hd := h.ofTraffic _
            ⟨hd.queued, hd.admitted, hd.rollback, hd.busy, hd.bridged, hd.cancelled, fun _ => hguard⟩)
    · cases hs

omit [DecidableEq κ] [DecidableEq δ] in
private theorem coherent_initial (ownsPglite : Bool) : Coherent ({ ownsPglite } : Server κ δ) := by
  refine ⟨List.nodup_nil, fun id => ?_⟩
  cases id with
  | inl c => constructor <;> simp [CallStage.waits, CallStage.listed, CallStage.runs]
  | inr d => constructor <;> simp

theorem coherent {cond : Server κ δ → ServerAction κ δ → Prop} (ownsPglite : Bool)
    (run : TransitionSystem.Run Server.step cond { ownsPglite } s) : s.Coherent :=
  run.invariant (coherent_initial ownsPglite) fun _ _ _ h _ hs => h.step hs

/-- Who may own the session, wait for it, or have PGlite execute its statement. -/
structure Accounted (s : Server κ δ) : Prop where
  owner : ∀ c, s.lock.owner = some (.inl c) → (s.call c).holds
  once : s.lock.waitQueue.Nodup ∧ ∀ id ∈ s.lock.waitQueue, s.lock.owner ≠ some id
  calls : ∀ c, .inl c ∈ s.lock.waitQueue ↔ (s.call c).waits
  batches : ∀ d, .inr d ∈ s.lock.waitQueue ↔ (s.traffic d).batch = .acquiring
  executing : ∀ id, s.busy = some id → (∃ c, id = .inl c ∧ s.call c = .running true) ∨
    ∃ d, id = .inr d ∧ (s.traffic d).bridged ∧ ((s.traffic d).batch = .running ∨ (s.traffic d).rollback = .running)
  refused : ∀ c error, s.call c = .rejected error → c ∉ s.statements
  gone : ∀ d, (s.traffic d).cancelled → s.lock.owner ≠ some (.inr d) ∧ .inr d ∉ s.lock.waitQueue ∧
    s.busy ≠ some (.inr d)

/-- The lock, the calls, the duplexes and PGlite agree on who holds the session and who waits for it. -/
theorem session_accounted {cond : Server κ δ → ServerAction κ δ → Prop} (ownsPglite : Bool)
    (run : TransitionSystem.Run Server.step cond { ownsPglite } s) : s.Accounted := by
  have h := coherent ownsPglite run
  refine ⟨fun c => (h.ofCall c).holds, ⟨h.distinct.of_append_right, fun id hmem howner => ?_⟩,
    fun c => (h.ofCall c).queued, fun d => (h.ofTraffic d).queued, fun id hbusy => ?_, fun c error hcall hmem => ?_,
    fun d hcancelled => ?_⟩
  · have hdistinct := h.distinct
    rw [howner] at hdistinct
    exact (List.nodup_cons.1 hdistinct).1 hmem
  · cases id with
    | inl c => exact .inl ⟨c, rfl, (h.ofCall c).busy hbusy⟩
    | inr d =>
      have hd := h.ofTraffic d
      refine .inr ⟨d, rfl, ?_, hd.busy.1 hbusy⟩
      cases hd.busy.1 hbusy with
      | inl hb => exact hd.bridged (.inl (by rw [hb]; decide))
      | inr hr => exact hd.bridged (.inr (hd.rollback (by rw [hr]; decide)).2.1)
  · cases (congrArg CallStage.ran hcall).symm.trans ((h.ofCall c).started hmem)
  · have hd := h.ofTraffic d
    obtain ⟨-, hrunning, hacquiring, howner⟩ := hd.cancelled hcancelled
    refine ⟨howner, fun hmem => hacquiring (hd.queued.1 hmem), fun hbusy => ?_⟩
    cases hd.busy.1 hbusy with
    | inl hb => exact hrunning hb
    | inr hr => exact howner (hd.rollback (by rw [hr]; decide)).1

/-- A call that the sweep of `close()` has stripped of the session. -/
theorem session_accounted_swept : ∃ s : Server Bool Unit,
    s.Accounted ∧ s.call false = .running true ∧ s.lock.owner = none := by
  obtain ⟨s, run, hlast⟩ : ∃ s, TransitionSystem.Run Server.step (fun _ _ => True) ({} : Server Bool Unit) s ∧
      s.call false = .running true ∧ s.lock.owner = none :=
    TransitionSystem.exists_run [.withSession false { method := "resetDb" }, .close, .sweep, .resume false,
      .startStatement false] (by decide +kernel)
  exact ⟨s, session_accounted true run, hlast⟩

end Server

end PgliteBridge.PGliteServer
