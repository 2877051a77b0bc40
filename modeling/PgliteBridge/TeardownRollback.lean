import PgliteBridge.Teardown

/-!
# The ROLLBACK of a teardown

Whatever the order of `destroy`, `end` and Terminate: a duplex asks for one ROLLBACK at most, nothing of it is started
any more once it is destroyed or terminated, and when it hands over the session, an open transaction that it read as the
owner has been rolled back (`teardown_rollback`).
-/

namespace PgliteBridge

open TransitionSystem

/-- The ROLLBACK has been asked for, or is not needed. -/
def Duplex.past (d : Duplex) : Bool := d.rolling || d.rollback == .settled

private theorem Duplex.past_iff {d : Duplex} :
    d.past = true ↔ d.rollback = .queued ∨ d.rollback = .running ∨ d.rollback = .settled := by
  cases hd : d.rollback <;> simp [Duplex.past, Duplex.rolling, hd]

private theorem Duplex.waiting_of_rolling {d : Duplex} (h : d.rolling = true) : d.waiting = false := by
  cases hd : d.rollback <;> simp [Duplex.waiting, Duplex.decided, Duplex.rolling, hd] at h ⊢

namespace System

variable {ι : Type} [DecidableEq ι] {s s' t u : System ι} {id : ι} {a : Action ι} {as : List (Action ι)}

/-- What holds in every run. -/
structure Steady (s : System ι) : Prop where
  scheduled : WellScheduled s
  recovering : ∀ call ∈ s.running, call.recovering = true → call.kind ≠ .rollback

private theorem Steady.moves (h : Steady s) (hs : s.step a = some s') : RollbackMoves a s s' :=
  step_moves h.scheduled h.recovering hs

/-- What is true of Flush batches is true of a call in `recoverySync`. -/
theorem recovering_step {q : CallKind → Prop} (hflush : ∀ kind : CallKind, kind.mode = .flushBoundary → q kind)
    (h : ∀ call ∈ s.running, call.recovering = true → q call.kind) (hs : s.step a = some s') :
    ∀ call ∈ s'.running, call.recovering = true → q call.kind := by
  by_cases hout : a.inPglite = false
  · rw [(step_local hout hs).running]
    exact h
  · cases a with
    | start response =>
      simp only [System.step] at hs
      split at hs
      · rename_i id kind mutex hidle hmutex
        cases hs
        intro call hcall hrec
        obtain ⟨-, -, hnot, -⟩ := startCall_call (s := { s with mutex }) hidle id kind response call hcall
        rw [hnot] at hrec
        cases hrec
      · cases hs
    | frame =>
      simp only [System.step] at hs
      split at hs
      · rename_i call hrun
        split at hs
        · rename_i fr response _
          cases hs
          obtain ⟨-, held, hrun'⟩ := receive_session (s := s) (f := fr) call response
          intro call' hcall' hrec
          rw [hrun'] at hcall'
          cases hcall'
          exact h call hrun hrec
        · cases hs
      · cases hs
    | flush =>
      simp only [System.step] at hs
      split at hs
      · rename_i call hrun
        split at hs
        · cases hs
        · cases hs
          intro call' hcall' hrec
          rcases (flushCall_session s call).2 with hnone | ⟨hrun', hmode⟩
          · rw [hnone] at hcall'
            cases hcall'
          · rw [hrun'] at hcall'
            cases hcall'
            exact hflush _ hmode
      · cases hs
    | recovered ok =>
      simp only [System.step] at hs
      split at hs
      · rename_i call hrun
        split at hs
        · cases hs
          rw [(recoveredCall_session s call ok).2]
          intro call' hcall'
          cases hcall'
        · cases hs
      · cases hs
    | throw =>
      simp only [System.step] at hs
      split at hs
      · rename_i call hrun
        split at hs
        · cases hs
        · cases hs
          rw [(throwCall_session s call).2]
          intro call' hcall'
          cases hcall'
      · cases hs
    | rolledBack ok =>
      simp only [System.step] at hs
      split at hs
      · rename_i call hrun
        split at hs
        · cases hs
          have hnone : (s.finishCall call).running = none := (finishCall_session s call).2
          intro call' hcall'
          have hcall'' : call' ∈ (s.finishCall call).running := by split at hcall' <;> exact hcall'
          rw [hnone] at hcall''
          cases hcall''
        · cases hs
      · cases hs
    | _ => exact absurd rfl hout

private theorem Steady.step (h : Steady s) (hs : s.step a = some s') : Steady s' := by
  refine ⟨h.scheduled.step hs, recovering_step (q := (· ≠ .rollback)) (fun kind hmode hkind => ?_) h.recovering hs⟩
  rw [hkind] at hmode
  cases hmode

/-! ### One duplex -/

/-- The step asks PGlite for the ROLLBACK of the duplex. -/
def asksFor (id : ι) : Action ι → Bool
  | .queryRollback other _ => other = id
  | _ => false

private theorem RollbackMove.past {d d' : Duplex} (h : RollbackMove s a id d d') (hpast : d.past = true) :
    d'.past = true := by
  have hwaiting : d.waiting = false := by
    rcases Duplex.past_iff.mp hpast with hr | hr | hr <;> simp [Duplex.waiting, Duplex.decided, hr]
  cases h with
  | turn hturn =>
    cases hturn with
    | same hsame => exact Duplex.past_iff.mpr (hsame ▸ Duplex.past_iff.mp hpast)
    | wait hw => rw [hwaiting] at hw; cases hw
    | decide hw => rw [hwaiting] at hw; cases hw
  | query _ _ hquery => rcases Duplex.past_iff.mp hpast with hr | hr | hr <;> rw [hquery] at hr <;> cases hr
  | start _ hrunning => exact Duplex.past_iff.mpr (Or.inr (Or.inl hrunning))
  | answer _ _ _ _ hsettled => exact Duplex.past_iff.mpr (Or.inr (Or.inr hsettled))

/-- A ROLLBACK is asked for once the rollback is decided, and then no more. -/
private theorem asksFor_spec (hask : asksFor id a = true) (hs : s.step a = some s') :
    (s.duplex id).rollback = .querying ∧ (s'.duplex id).past = true := by
  cases a with
  | queryRollback other ok =>
    have he : other = id := by simpa [asksFor] using hask
    subst he
    simp only [step] at hs
    split at hs
    · rename_i hquery
      cases hs
      refine ⟨hquery, Duplex.past_iff.mpr ?_⟩
      cases ok with
      | true =>
        left
        simp [modify]
      | false =>
        right
        right
        simp [modify]
    · cases hs
  | _ => cases hask

theorem asked_once (h : Steady s) (run : replay step (fun _ _ => True) s as = some t) :
    (as.filter (asksFor id)).length ≤ if (s.duplex id).past then 0 else 1 := by
  induction as generalizing s with
  | nil => simp
  | cons a as ih =>
    simp only [replay, if_true] at run
    cases hstep : s.step a with
    | none => rw [hstep] at run; cases run
    | some s' =>
      rw [hstep] at run
      have hrest := ih (h.step hstep) run
      by_cases hask : asksFor id a = true
      · obtain ⟨hquery, hpast⟩ := asksFor_spec hask hstep
        have hnot : (s.duplex id).past = false := by simp [Duplex.past, Duplex.rolling, hquery]
        rw [hpast] at hrest
        rw [List.filter_cons_of_pos hask, List.length_cons, hnot]
        simp only [if_true, Bool.false_eq_true, if_false] at hrest ⊢
        omega
      · rw [List.filter_cons_of_neg hask]
        refine Nat.le_trans hrest ?_
        by_cases hpast : (s.duplex id).past = true
        · rw [((h.moves hstep).move id).past hpast, hpast]
        · rw [Bool.not_eq_true] at hpast
          rw [hpast]
          split <;> simp

/-- A duplex that is destroyed or terminated stays so. -/
private theorem stopped_run (h : Steady s) (hdead : (s.duplex id).live = false)
    (run : replay step (fun _ _ => True) s as = some t) : Steady t ∧ (t.duplex id).live = false := by
  induction as generalizing s with
  | nil =>
    cases run
    exact ⟨h, hdead⟩
  | cons a as ih =>
    simp only [replay, if_true] at run
    cases hstep : s.step a with
    | none => rw [hstep] at run; cases run
    | some s' =>
      rw [hstep] at run
      refine ih (h.step hstep) ?_ run
      by_contra hlive
      rw [Bool.not_eq_false] at hlive
      rw [(h.moves hstep).live id hlive] at hdead
      cases hdead

/-- Only a ROLLBACK is started for it. -/
theorem stopped_start (hdead : (s.duplex id).live = false) {response : List ResponseFrame}
    (hs : s.step (.start response) = some s') : ∀ call ∈ s'.running, call.id = id → call.kind = .rollback := by
  intro call hcall he
  simp only [step] at hs
  split at hs
  · rename_i other kind mutex hidle hmutex
    cases hs
    obtain ⟨hid, hkind, -⟩ := startCall_call (s := { s with mutex }) hidle other kind response call hcall
    obtain ⟨-, hlive⟩ := startCall_running (s := { s with mutex }) hidle hcall
    rcases hlive with hroll | hlive
    · exact hkind.trans hroll
    · rw [← hid, he] at hlive
      rw [show (s.duplex id).live = true from hlive] at hdead
      cases hdead
  · cases hs

/-- From the decision to its end the ROLLBACK is asked for. -/
private theorem asked_of_querying (h : Steady s) (hquery : (s.duplex id).rollback = .querying)
    (hend : (t.duplex id).rollback = .settled) (run : replay step (fun _ _ => True) s as = some t) :
    ∃ ok, .queryRollback id ok ∈ as := by
  induction as generalizing s with
  | nil =>
    cases run
    rw [hquery] at hend
    cases hend
  | cons a as ih =>
    simp only [replay, if_true] at run
    cases hstep : s.step a with
    | none => rw [hstep] at run; cases run
    | some s' =>
      rw [hstep] at run
      have hmore : (s'.duplex id).rollback = .querying → ∃ ok, .queryRollback id ok ∈ a :: as := fun hquery' => by
        obtain ⟨ok, hmem⟩ := ih (h.step hstep) hquery' run
        exact ⟨ok, List.mem_cons_of_mem _ hmem⟩
      cases (h.moves hstep).move id with
      | turn hturn =>
        cases hturn with
        | same hsame => exact hmore (hsame.trans hquery)
        | wait hw => simp [Duplex.waiting, Duplex.decided, hquery] at hw
        | decide hw => simp [Duplex.waiting, Duplex.decided, hquery] at hw
      | query ok ha => exact ⟨ok, by rw [ha]; exact List.mem_cons_self⟩
      | start hrolling => simp [Duplex.rolling, hquery] at hrolling
      | answer _ _ _ hrolling => simp [Duplex.rolling, hquery] at hrolling

/-- A step of the run in which the duplex read the status: an open transaction of an owner is rolled back behind it. -/
def Decided (s : System ι) (as : List (Action ι)) (id : ι) : Prop :=
  ∃ before d after s₁ s₂, as = before ++ d :: after ∧ replay step (fun _ _ => True) s before = some s₁ ∧
    s₁.decides d = some id ∧ s₁.step d = some s₂ ∧
    (s₁.owes id = true → ∃ ok, .queryRollback id ok ∈ after)

theorem decided_of_settled (h : Steady s) (hwaiting : (s.duplex id).waiting = true)
    (hend : (t.duplex id).rollback = .settled) (run : replay step (fun _ _ => True) s as = some t) :
    Decided s as id := by
  induction as generalizing s with
  | nil =>
    cases run
    simp [Duplex.waiting, Duplex.decided, hend] at hwaiting
  | cons a as ih =>
    simp only [replay, if_true] at run
    cases hstep : s.step a with
    | none => rw [hstep] at run; cases run
    | some s' =>
      rw [hstep] at run
      have hlater : (s'.duplex id).waiting = true → Decided s (a :: as) id := fun hwaiting' => by
        obtain ⟨before, d, after, s₁, s₂, he, hbefore, hdecides, hd, hasked⟩ := ih (h.step hstep) hwaiting' run
        refine ⟨a :: before, d, after, s₁, s₂, by rw [he]; rfl, ?_, hdecides, hd, hasked⟩
        simp only [replay, if_true, hstep, Option.bind_some]
        exact hbefore
      cases (h.moves hstep).move id with
      | turn hturn =>
        cases hturn with
        | same hsame => exact hlater (by simpa [Duplex.waiting, Duplex.decided, hsame] using hwaiting)
        | wait _ hw => exact hlater (by rcases hw with hw | hw <;> simp [Duplex.waiting, Duplex.decided, hw])
        | decide _ hmine hdecided =>
          refine ⟨[], a, as, s, s', rfl, rfl, hmine, hstep, fun howes => ?_⟩
          rw [howes] at hdecided
          exact asked_of_querying (h.step hstep) hdecided hend run
      | query _ _ hquery => simp [Duplex.waiting, Duplex.decided, hquery] at hwaiting
      | start hrolling =>
        rw [Duplex.waiting_of_rolling hrolling] at hwaiting
        cases hwaiting
      | answer _ _ _ hrolling =>
        rw [Duplex.waiting_of_rolling hrolling] at hwaiting
        cases hwaiting

/-! ### Every run -/

omit [DecidableEq ι] in
theorem steady_initial (locked : Bool) (cap : ι → Nat) : Steady (initial locked cap) :=
  ⟨wellScheduled_initial locked cap, fun _ hcall => by cases hcall⟩

private theorem steady_run (h : Steady s) (run : replay step (fun _ _ => True) s as = some t) : Steady t :=
  (run_of_replay run).invariant h fun _ _ _ hs _ hstep => hs.step hstep

/-- At most one ROLLBACK is asked for; no operation of a destroyed or terminated duplex is started; and a duplex hands
over the session behind its ROLLBACK, if it read an open transaction as the owner. -/
theorem teardown_rollback {locked : Bool} {cap : ι → Nat}
    (run : replay step (fun _ _ => True) (initial locked cap) as = some s) (id : ι) :
    (as.filter (asksFor id)).length ≤ 1 ∧
    ((s.duplex id).live = false → ∀ bs t, replay step (fun _ _ => True) s bs = some t → ∀ response t',
      t.step (.start response) = some t' → ∀ call ∈ t'.running, call.id = id → call.kind = .rollback) ∧
    (∀ a s', handsOver a = some id → s.step a = some s' →
      (s.duplex id).rollback = .settled ∧ Decided (initial locked cap) as id) := by
  have hinitial : Steady (initial locked cap) := steady_initial locked cap
  have hsteady : Steady s := steady_run hinitial run
  refine ⟨?_, fun hdead bs t hbs response t' hstart => ?_, fun a s' hhand hs => ?_⟩
  · exact asked_once hinitial run
  · exact stopped_start (stopped_run hsteady hdead hbs).2 hstart
  · have hsettled := handsOver_settled hhand hs
    exact ⟨hsettled, decided_of_settled hinitial rfl hsettled run⟩

/-- A client is destroyed while its BEGIN is in PGlite. -/
def destroyedInFlight : List (Action Bool) :=
  served false startupPacket 1 [.other, readyForQueryIdle] ++
    [.write false beginQuery, .deliver false 1, .process false, .pgliteReady false,
      .start [.other, .readyForQuery RFQ_STATUS_IN_TRANSACTION], .destroy false, .frame, .frame, .flush, .decide false,
      .queryRollback false true, .start [], .rolledBack true]

theorem teardown_rollback_inFlight : ∃ s : System Bool,
    replay step (fun _ _ => True) (initial true fun _ => MAX_MESSAGE_LENGTH) destroyedInFlight = some s ∧
      (destroyedInFlight.filter (asksFor false)).length ≤ 1 ∧
      Decided (initial true fun _ => MAX_MESSAGE_LENGTH) destroyedInFlight false := by
  have hsome : (replay step (fun _ _ => True) (initial true fun _ => MAX_MESSAGE_LENGTH) destroyedInFlight).any
      (fun s => (s.step (.destroyCancel false)).isSome) = true := by decide
  obtain ⟨s, run, hstep⟩ := (Option.any_eq_true _ _).mp hsome
  obtain ⟨s', hs⟩ := Option.isSome_iff_exists.mp hstep
  obtain ⟨honce, -, hdecided⟩ := teardown_rollback run false
  exact ⟨s, run, honce, (hdecided _ s' rfl hs).2⟩

end System

end PgliteBridge
