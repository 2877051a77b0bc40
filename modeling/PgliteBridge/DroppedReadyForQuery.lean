import PgliteBridge.LocalSteps
import PgliteBridge.Ownership

/-!
# Dropped ReadyForQuery frames

The framer withholds the ReadyForQuery of a Sync batch that another frame follows, and every ReadyForQuery of a Flush
batch without an error, but `onReadyForQuery` hands the status of each to the session lock.  While a batch is served the
dropped frames leave the session alone exactly when none of them carries the idle status (`dropped_harmless_iff`).
-/

namespace PgliteBridge

open TransitionSystem

/-- Whether the framer forwards the ReadyForQuery at the end of the response. -/
def RfqMode.forwardsLast (mode : RfqMode) (response : List ResponseFrame) : Bool :=
  mode != .flushBoundary || decide (.errorResponse ∈ response)

/-- The statuses of the ReadyForQuery frames that are not forwarded. -/
def droppedStatuses (forwardsLast : Bool) : List ResponseFrame → List UInt8
  | [] => []
  | .readyForQuery status :: rest =>
    if rest = [] ∧ forwardsLast = true then [] else status :: droppedStatuses forwardsLast rest
  | _ :: rest => droppedStatuses forwardsLast rest

/-- The status of the last ReadyForQuery. -/
def finalStatus : List ResponseFrame → Option UInt8
  | [] => none
  | .readyForQuery status :: rest => (finalStatus rest).or (some status)
  | _ :: rest => finalStatus rest

/-- The frames that are forwarded: all but the dropped ReadyForQuery frames. -/
def forwardedFrames (forwardsLast : Bool) : List ResponseFrame → List ResponseFrame
  | [] => []
  | .readyForQuery status :: rest =>
    if rest = [] ∧ forwardsLast = true then [.readyForQuery status] else forwardedFrames forwardsLast rest
  | fr :: rest => fr :: forwardedFrames forwardsLast rest

private theorem mem_droppedStatuses {forwardsLast : Bool} {status : UInt8} {response : List ResponseFrame} :
    status ∈ droppedStatuses forwardsLast response ↔
      ∃ framed rest, response = framed ++ .readyForQuery status :: rest ∧ (rest ≠ [] ∨ forwardsLast = false) := by
  induction response with
  | nil =>
    constructor
    · intro h
      cases h
    · rintro ⟨framed, rest, h, _⟩
      cases framed <;> cases h
  | cons fr response ih =>
    -- the frame itself, or one behind it
    have hcons : (∃ framed rest, fr :: response = framed ++ .readyForQuery status :: rest ∧
        (rest ≠ [] ∨ forwardsLast = false)) ↔
        (fr = .readyForQuery status ∧ (response ≠ [] ∨ forwardsLast = false)) ∨
          status ∈ droppedStatuses forwardsLast response := by
      rw [ih]
      constructor
      · rintro ⟨framed, rest, h, hd⟩
        cases framed with
        | nil =>
          cases h
          exact Or.inl ⟨rfl, hd⟩
        | cons fr' framed =>
          cases h
          exact Or.inr ⟨framed, rest, rfl, hd⟩
      · rintro (⟨rfl, hd⟩ | ⟨framed, rest, rfl, hd⟩)
        · exact ⟨[], response, rfl, hd⟩
        · exact ⟨fr :: framed, rest, rfl, hd⟩
    rw [hcons]
    cases fr with
    | errorResponse => simp [droppedStatuses]
    | other => simp [droppedStatuses]
    | readyForQuery status' =>
      simp only [droppedStatuses, ResponseFrame.readyForQuery.injEq]
      by_cases hlast : response = [] ∧ forwardsLast = true
      · simp [hlast.1, hlast.2, droppedStatuses]
      · rw [if_neg hlast, List.mem_cons]
        have hd : response ≠ [] ∨ forwardsLast = false := by
          rw [not_and_or] at hlast
          simpa using hlast
        simp only [hd, and_true]
        exact or_congr_left eq_comm

private theorem finalStatus_append (framed : List ResponseFrame) (status : UInt8) :
    finalStatus (framed ++ [.readyForQuery status]) = some status := by
  induction framed with
  | nil => rfl
  | cons fr framed ih => cases fr <;> simp [finalStatus, ih]

/-! ### One frame at one duplex -/

namespace Duplex

/-- A frame of a response whose ReadyForQuery frames are withheld. -/
def onWithheld (d : Duplex) : ResponseFrame → Duplex
  | .errorResponse => d.onErrorResponse.onChunk .errorResponse
  | .readyForQuery status => d.onReadyForQuery status
  | .other => d.onChunk .other

private theorem onChunk_eq (d : Duplex) (fr : ResponseFrame) : ∃ pushed, d.onChunk fr = { d with pushed } := by
  unfold onChunk
  split <;> exact ⟨_, rfl⟩

private theorem onWithheld_phase (d : Duplex) (fr : ResponseFrame) : (d.onWithheld fr).phase = d.phase := by
  cases fr with
  | readyForQuery status => rfl
  | errorResponse =>
    obtain ⟨pushed, h⟩ := d.onErrorResponse.onChunk_eq .errorResponse
    rw [onWithheld, h]
    rfl
  | other =>
    obtain ⟨pushed, h⟩ := d.onChunk_eq .other
    rw [onWithheld, h]

private theorem onWithheld_live (d : Duplex) (fr : ResponseFrame) : (d.onWithheld fr).live = d.live := by
  cases fr with
  | readyForQuery status => rfl
  | errorResponse =>
    obtain ⟨pushed, h⟩ := d.onErrorResponse.onChunk_eq .errorResponse
    rw [onWithheld, h]
    rfl
  | other =>
    obtain ⟨pushed, h⟩ := d.onChunk_eq .other
    rw [onWithheld, h]
    rfl

private theorem onWithheld_errSeen (d : Duplex) (fr : ResponseFrame) :
    (d.onWithheld fr).errSeen = (d.errSeen || decide (fr = .errorResponse)) := by
  cases fr with
  | readyForQuery status => simp [onWithheld, onReadyForQuery]
  | errorResponse =>
    obtain ⟨pushed, h⟩ := d.onErrorResponse.onChunk_eq .errorResponse
    rw [onWithheld, h]
    exact (Bool.or_true _).symm
  | other =>
    obtain ⟨pushed, h⟩ := d.onChunk_eq .other
    simp [onWithheld, h]

/-- A live duplex pushes the frame at once, unless it is a ReadyForQuery. -/
private theorem onWithheld_pushed {d : Duplex} (hlive : d.live = true) (fr : ResponseFrame) :
    (d.onWithheld fr).pushed = d.pushed ++ (forwardedFrames false [fr]).map .frame := by
  cases fr with
  | readyForQuery status => simp [onWithheld, onReadyForQuery, forwardedFrames]
  | errorResponse =>
    have herr : d.onErrorResponse.live = true := hlive
    rw [onWithheld, onChunk, if_pos herr]
    rfl
  | other =>
    rw [onWithheld, onChunk, if_pos hlive]
    rfl

end Duplex

/-! ### The lock -/

namespace SessionLock

variable {ι : Type} [DecidableEq ι]

/-- The owner's idle status always changes the lock. -/
private theorem updateStatus_idle_ne {l : SessionLock ι} {id : ι} (h : l.owner = some id) :
    (l.updateStatus id STATUS_IDLE).lock ≠ l := by
  rcases l with ⟨owner, _ | ⟨next, rest⟩⟩
  · simp only at h
    simp [updateStatus, drainWaitQueue, h]
  · simp only at h
    simp [updateStatus, drainWaitQueue, h]

end SessionLock

namespace System

variable {ι : Type} [DecidableEq ι] {s s' t u : System ι} {id : ι} {call : Call ι} {mode : RfqMode}
  {response rest : List ResponseFrame} {fr : ResponseFrame} {status : UInt8}

private theorem applyLock_lock (outcome : SessionLock.Outcome ι) : (s.applyLock outcome).lock = some outcome.lock := by
  have hsettle : ∀ (settled : List (Settlement ι)) (t : System ι), (settled.foldl settleOne t).lock = t.lock := by
    intro settled
    induction settled with
    | nil => exact fun t => rfl
    | cons settlement settled ih =>
      intro t
      rw [List.foldl_cons, ih]
      cases settlement <;> rfl
  exact hsettle outcome.settled _

/-- A status other than idle leaves the lock alone. -/
private theorem updateStatus_lock (h : status ≠ RFQ_STATUS_IDLE) : (s.updateStatus id status).lock = s.lock := by
  unfold updateStatus
  split
  · rename_i l hl
    split
    · rfl
    · rw [applyLock_lock, SessionLock.updateStatus_not_idle h, hl]
  · rfl

/-- The idle status of the owner does not. -/
private theorem updateStatus_idle_lock (howner : s.owner = some id) (hphase : (s.duplex id).phase ≠ .terminated) :
    (s.updateStatus id RFQ_STATUS_IDLE).lock ≠ s.lock := by
  unfold updateStatus
  split
  · rename_i l hl
    rw [owner_of_lock hl] at howner
    rw [if_neg hphase, applyLock_lock, hl]
    exact fun he => SessionLock.updateStatus_idle_ne howner (Option.some.inj he)
  · rename_i hl
    rw [owner, hl] at howner
    cases howner

/-! ### One frame -/

/-- The frame that comes next is a ReadyForQuery that is not going to be forwarded. -/
def DropsNext (id : ι) (mode : RfqMode) (response : List ResponseFrame) (s : System ι) : Prop :=
  ∃ call status rest, s.running = some call ∧ call.id = id ∧ call.response = .readyForQuery status :: rest ∧
    (rest ≠ [] ∨ mode.forwardsLast response = false)

private theorem step_frame (hrun : s.running = some call) (hresp : call.response = fr :: rest) :
    s.step .frame = some (s.receive call rest fr) := by
  simp only [step, hrun, hresp]

/-- In a mode that withholds ReadyForQuery, only a ReadyForQuery of the idle status moves the lock. -/
private theorem receive_lock (hmode : call.kind.mode.suppresses = true) (hfr : fr ≠ .readyForQuery RFQ_STATUS_IDLE) :
    (s.receive call rest fr).lock = s.lock := by
  unfold receive
  cases fr with
  | errorResponse => rfl
  | other => rfl
  | readyForQuery status =>
    dsimp only
    rw [if_pos hmode, updateStatus_lock fun he => hfr (congrArg _ he)]
    rfl

/-- A withheld ReadyForQuery is recorded, and its status goes to the lock. -/
private theorem receive_withheld (s : System ι) (rest : List ResponseFrame) (status : UInt8)
    (hmode : call.kind.mode.suppresses = true) : ∃ x : System ι,
    s.receive call rest (.readyForQuery status) = x.updateStatus call.id status ∧ x.lock = s.lock ∧
      x.running = some { call with response := rest, held := some status } ∧
      x.duplex call.id = (s.duplex call.id).onReadyForQuery status := by
  refine ⟨(s.modify call.id fun d => d.onReadyForQuery status).setCall
    { call with response := rest, held := some status } (if status = RFQ_STATUS_IDLE then none else some call.id),
    ?_, rfl, rfl, Function.update_self ..⟩
  rw [receive_readyForQuery, if_pos hmode, noteReadyForQuery, if_pos hmode]

private theorem receive_idle_lock (hmode : call.kind.mode.suppresses = true) (howner : s.owner = some call.id)
    (hphase : (s.duplex call.id).phase ≠ .terminated) :
    (s.receive call rest (.readyForQuery RFQ_STATUS_IDLE)).lock ≠ s.lock := by
  obtain ⟨x, hx, hlock, _, hdup⟩ := receive_withheld s rest RFQ_STATUS_IDLE hmode
  rw [hx, ← hlock]
  apply updateStatus_idle_lock
  · rw [owner, hlock]
    exact howner
  · rw [hdup]
    exact hphase

/-- The ReadyForQuery that is withheld behind a frame. -/
def withheld : ResponseFrame → Option UInt8
  | .readyForQuery status => some status
  | _ => none

private theorem receive_running (s : System ι) (rest : List ResponseFrame) (fr : ResponseFrame)
    (hmode : call.kind.mode.suppresses = true) :
    (s.receive call rest fr).running = some { call with response := rest, held := withheld fr } := by
  cases fr with
  | errorResponse => rfl
  | other => rfl
  | readyForQuery status =>
    obtain ⟨x, hx, _, hrun, _⟩ := receive_withheld s rest status hmode
    rw [hx, (local_updateStatus status).running]
    exact hrun

/-- What a frame does to its duplex, apart from the drain loop. -/
private theorem receive_duplex (s : System ι) (rest : List ResponseFrame) (fr : ResponseFrame)
    (hmode : call.kind.mode.suppresses = true) :
    ∃ drain, (s.receive call rest fr).duplex call.id = { (s.duplex call.id).onWithheld fr with drain } := by
  cases fr with
  | errorResponse =>
    simp only [receive, modify_same]
    exact ⟨_, rfl⟩
  | other =>
    simp only [receive, modify_same]
    exact ⟨_, rfl⟩
  | readyForQuery status =>
    obtain ⟨x, hx, _, _, hdup⟩ := receive_withheld s rest status hmode
    obtain ⟨drain, hd⟩ := updateStatus_duplex x call.id call.id status
    rw [hx, hd, hdup]
    exact ⟨drain, rfl⟩

private theorem receive_phase (hmode : call.kind.mode.suppresses = true) :
    ((s.receive call rest fr).duplex call.id).phase = (s.duplex call.id).phase := by
  obtain ⟨drain, hd⟩ := receive_duplex s rest fr hmode
  rw [hd]
  exact Duplex.onWithheld_phase _ fr

/-! ### What the client receives -/

/-- The response of a batch, frame by frame, and the framer's `flush` behind it. -/
def answer (s : System ι) (call : Call ι) : List ResponseFrame → System ι
  | [] => s.flushHeld call
  | fr :: rest => (s.receive call rest fr).answer { call with response := rest, held := withheld fr } rest

/-- A live duplex forwards every frame of a withholding batch except the dropped ones. -/
theorem answer_pushed {s : System ι} (hmode : call.kind.mode.suppresses = true)
    (hlive : (s.duplex call.id).live = true) (hheld : call.held = none) (herr : (s.duplex call.id).errSeen = false) :
    ((s.answer call response).duplex call.id).pushed =
      (s.duplex call.id).pushed ++
        (forwardedFrames (call.kind.mode.forwardsLast response) response).map .frame := by
  -- a ReadyForQuery that is withheld on the way is forwarded if nothing follows it
  have general : ∀ (response : List ResponseFrame) (s : System ι) (call : Call ι), call.kind.mode.suppresses = true →
      (s.duplex call.id).live = true →
      ((s.answer call response).duplex call.id).pushed = (s.duplex call.id).pushed ++
        (forwardedFrames (call.kind.mode != .flushBoundary || (s.duplex call.id).errSeen ||
            decide (.errorResponse ∈ response))
          ((call.held.map ResponseFrame.readyForQuery).toList ++ response)).map .frame := by
    intro response
    induction response with
    | nil =>
      intro s call hmode hlive
      have htorn : (s.duplex call.id).tornDown = false := by
        unfold Duplex.live at hlive
        rw [Bool.and_eq_true, Bool.not_eq_true'] at hlive
        exact hlive.1
      simp only [answer, flushHeld]
      cases hh : call.held with
      | none => simp [forwardedFrames]
      | some status =>
        dsimp only
        rw [modify_same]
        simp only [htorn, Bool.false_or, Option.map_some, Option.toList_some, List.append_nil, forwardedFrames,
          List.not_mem_nil, decide_false, Bool.or_false, true_and]
        cases hm : call.kind.mode <;> cases he : (s.duplex call.id).errSeen <;>
          simp [Duplex.onChunk, hlive, Duplex.push]
    | cons fr rest ih =>
      intro s call hmode hlive
      obtain ⟨drain, hd⟩ := receive_duplex s rest fr hmode
      have hlive' : ((s.receive call rest fr).duplex call.id).live = true := by
        rw [hd]
        exact (Duplex.onWithheld_live _ fr).trans hlive
      have herr' : ((s.receive call rest fr).duplex call.id).errSeen =
          ((s.duplex call.id).errSeen || decide (fr = .errorResponse)) := by
        rw [hd]
        exact Duplex.onWithheld_errSeen _ fr
      have hstep := ih (s.receive call rest fr) { call with response := rest, held := withheld fr } hmode hlive'
      simp only [answer]
      have hpushed : ((s.receive call rest fr).duplex call.id).pushed =
          (s.duplex call.id).pushed ++ (forwardedFrames false [fr]).map .frame := by
        rw [hd]
        exact Duplex.onWithheld_pushed hlive fr
      rw [hstep, herr', hpushed]
      -- the ReadyForQuery withheld before is dropped now
      have hdrop : ∀ b, forwardedFrames b ((call.held.map ResponseFrame.readyForQuery).toList ++ fr :: rest) =
          forwardedFrames b (fr :: rest) := by
        intro b
        cases call.held with
        | none => rfl
        | some status => simp [forwardedFrames]
      rw [hdrop]
      cases fr <;> simp [forwardedFrames, withheld]
  have h := general response s call hmode hlive
  rw [hheld, herr] at h
  simpa [RfqMode.forwardsLast] using h

/-! ### Serving a batch -/

/-- What may happen until the next operation of the duplex starts: anything but the hand-over of its teardown. -/
def Serving (id : ι) (s : System ι) (a : Action ι) : Prop :=
  handsOver a ≠ some id ∧ ∀ response, a = .start response → Bypasses id s a

instance (id : ι) (s : System ι) (a : Action ι) : Decidable (Serving id s a) := by
  unfold Serving
  cases a with
  | start response =>
    have : Decidable (Bypasses id s (.start response)) := by unfold Bypasses; infer_instance
    exact decidable_of_iff (handsOver (.start response) ≠ some id ∧ Bypasses id s (.start response))
      ⟨fun h => ⟨h.1, fun _ _ => h.2⟩, fun h => ⟨h.1, h.2 response rfl⟩⟩
  | _ => exact decidable_of_iff _ ⟨fun h => ⟨h, nofun⟩, fun h => h.1⟩

/-- The session was given up: with the idle status of a forwarded ReadyForQuery, or behind an errored Flush batch. -/
structure GivenUp (id : ι) (mode : RfqMode) (response : List ResponseFrame) (s : System ι) : Prop where
  portal : (s.duplex id).portalSuspended = false
  answered : ∀ call ∈ s.running, call.id = id →
    call.response = [] ∧ (mode = .flushBoundary → (s.duplex id).errSeen = true)
  idle : mode = .suppress → finalStatus response = some RFQ_STATUS_IDLE

/-- The batch while it is served and after it: what it was answered so far, and who owns the session. -/
structure InService (id : ι) (mode : RfqMode) (response : List ResponseFrame) (s : System ι) : Prop where
  call : ∀ call ∈ s.running, call.id = id → call.kind = .batch mode ∧
    ∃ framed, response = framed ++ call.response ∧ ((s.duplex id).errSeen = true ↔ .errorResponse ∈ framed)
  recovering : ∀ call ∈ s.running, call.id = id → call.recovering = true →
    mode = .flushBoundary ∧ (s.duplex id).errSeen = true
  session : s.owner = some id ∨ GivenUp id mode response s

omit [DecidableEq ι] in
private theorem InService.apart (h : InService id mode response s) (ha : Apart id s s') :
    InService id mode response s' := by
  refine ⟨?_, ?_, ?_⟩
  · intro call hrun hid
    rw [ha.duplex.errSeen]
    exact h.call call (ha.running call hrun hid) hid
  · intro call hrun hid
    rw [ha.duplex.errSeen]
    exact h.recovering call (ha.running call hrun hid) hid
  · rcases h.session with ho | hg
    · exact Or.inl (ha.owner ho)
    · refine Or.inr ⟨?_, ?_, hg.idle⟩
      · by_contra hp
        rw [Bool.not_eq_false] at hp
        have hportal := hg.portal
        rw [ha.duplex.portal hp] at hportal
        cases hportal
      · intro call hrun hid
        rw [ha.duplex.errSeen]
        exact hg.answered call (ha.running call hrun hid) hid

omit [DecidableEq ι] in
/-- Once the call has returned only the session counts. -/
private theorem InService.stopped (hrun : s.running = none)
    (h : s.owner = some id ∨ (s.duplex id).portalSuspended = false ∧
      (mode = .suppress → finalStatus response = some RFQ_STATUS_IDLE)) : InService id mode response s := by
  refine ⟨?_, ?_, ?_⟩
  · intro call hc
    rw [hrun] at hc
    cases hc
  · intro call hc
    rw [hrun] at hc
    cases hc
  · rcases h with ho | ⟨hp, hi⟩
    · exact Or.inl ho
    · refine Or.inr ⟨hp, ?_, hi⟩
      intro call hc
      rw [hrun] at hc
      cases hc

omit [DecidableEq ι] in
/-- The portal is suspended, or the final status is not idle: the duplex owns the session. -/
private theorem InService.owner_of_portal (h : InService id mode response s)
    (hp : (s.duplex id).portalSuspended = true) : s.owner = some id := by
  rcases h.session with ho | hg
  · exact ho
  · rw [hg.portal] at hp
    cases hp

/-! ### The steps of the call -/

private theorem InService.receive (h : InService id mode response s) (hmode : mode.suppresses = true)
    (hd : ∀ status ∈ droppedStatuses (mode.forwardsLast response) response, status ≠ RFQ_STATUS_IDLE)
    (hrun : s.running = some call) (hid : call.id = id) (hresp : call.response = fr :: rest) :
    InService id mode response (s.receive call rest fr) := by
  obtain ⟨hkind, framed, hframed, herr⟩ := h.call call hrun hid
  have hsup : call.kind.mode.suppresses = true := by
    rw [hkind]
    exact hmode
  have howner : s.owner = some id := by
    rcases h.session with ho | hg
    · exact ho
    · rw [(hg.answered call hrun hid).1] at hresp
      cases hresp
  have hsplit : response = (framed ++ [fr]) ++ rest := by
    rw [hframed, hresp, List.append_assoc]
    rfl
  subst hid
  -- what the frame does to the record of the call
  have hcall : ∀ s' : System ι, ∀ call' : Call ι, s'.running = some call' → call'.kind = call.kind →
      call'.response = rest → call'.recovering = call.recovering →
      ((s'.duplex call.id).errSeen = true ↔ (s.duplex call.id).errSeen = true ∨ fr = .errorResponse) →
      (s'.owner = some call.id ∨ GivenUp call.id mode response s') → InService call.id mode response s' := by
    intro s' call' hrun' hkind' hresp' hrec' herr' hsession
    refine ⟨?_, ?_, hsession⟩
    · intro c hc _
      rw [hrun'] at hc
      cases hc
      refine ⟨hkind'.trans hkind, framed ++ [fr], ?_, ?_⟩
      · rw [hresp']
        exact hsplit
      · rw [herr', herr, List.mem_append, List.mem_singleton]
        exact or_congr_right eq_comm
    · intro c hc _ hrec
      rw [hrun'] at hc
      cases hc
      rw [hrec'] at hrec
      obtain ⟨hm, he⟩ := h.recovering call hrun rfl hrec
      exact ⟨hm, herr'.2 (Or.inl he)⟩
  have hchunk : ∀ (d : Duplex) fr, (d.onChunk fr).errSeen = d.errSeen := by
    intro d fr
    unfold Duplex.onChunk
    split <;> rfl
  cases fr with
  | errorResponse =>
    refine hcall _ _ rfl rfl rfl rfl ?_ (Or.inl howner)
    simp [System.receive, hchunk, Duplex.onErrorResponse]
  | other =>
    refine hcall _ _ rfl rfl rfl rfl ?_ (Or.inl howner)
    simp [System.receive, hchunk]
  | readyForQuery status =>
    have hne : ∀ status, ResponseFrame.readyForQuery status ≠ .errorResponse := nofun
    obtain ⟨x, hx, hlock, hxrun, hxdup⟩ := receive_withheld s rest status hsup
    rw [hx]
    have hlocal : Local (some call.id) x (x.updateStatus call.id status) := local_updateStatus status
    have hrunx : (x.updateStatus call.id status).running =
        some { call with response := rest, held := some status } := by
      rw [hlocal.running, hxrun]
    refine hcall _ _ hrunx rfl rfl rfl ?_ ?_
    · rw [(hlocal.duplex call.id).errSeen, hxdup]
      simp [Duplex.onReadyForQuery]
    · by_cases hidle : status = RFQ_STATUS_IDLE
      · -- the idle status belongs to the ReadyForQuery that is forwarded
        right
        have hlast : rest = [] ∧ mode.forwardsLast response = true := by
          by_contra hnot
          rw [not_and_or, Bool.not_eq_true] at hnot
          refine hd status (mem_droppedStatuses.2 ⟨framed, rest, ?_, hnot⟩) hidle
          rw [hframed, hresp]
        refine ⟨?_, ?_, ?_⟩
        · by_contra hp
          rw [Bool.not_eq_false] at hp
          have hp := (hlocal.duplex call.id).portal hp
          rw [hxdup] at hp
          cases hp
        · intro c hc _
          rw [hrunx] at hc
          cases hc
          refine ⟨hlast.1, fun hm => ?_⟩
          have hmem : .errorResponse ∈ response := by
            have := hlast.2
            rw [hm] at this
            simpa [RfqMode.forwardsLast] using this
          rw [hsplit, hlast.1] at hmem
          rw [(hlocal.duplex call.id).errSeen, hxdup]
          exact herr.2 (by simpa using hmem)
        · intro _
          rw [hsplit, hlast.1, List.append_nil, finalStatus_append, hidle]
      · left
        rw [owner, updateStatus_lock hidle, hlock]
        exact howner

/-- The end of a batch leaves the portal and the owner as they are. -/
private theorem finishCall_batch (hkind : call.kind = .batch mode) : (s.finishCall call).running = none ∧
    (s.finishCall call).owner = s.owner ∧
    ((s.finishCall call).duplex call.id).portalSuspended = (s.duplex call.id).portalSuspended := by
  unfold finishCall
  rw [hkind]
  refine ⟨rfl, rfl, ?_⟩
  dsimp only
  rw [modify_same]
  rfl

private theorem flushHeld_kept (s : System ι) (call : Call ι) : (s.flushHeld call).owner = s.owner ∧
    ((s.flushHeld call).duplex call.id).errSeen = (s.duplex call.id).errSeen ∧
    ((s.flushHeld call).duplex call.id).portalSuspended = (s.duplex call.id).portalSuspended := by
  unfold flushHeld
  split
  · refine ⟨rfl, ?_⟩
    rw [modify_same]
    split
    · exact ⟨rfl, rfl⟩
    · unfold Duplex.onChunk
      split <;> exact ⟨rfl, rfl⟩
  · exact ⟨rfl, rfl, rfl⟩

private theorem InService.flushCall (h : InService id mode response s) (hrun : s.running = some call)
    (hid : call.id = id) :
    InService id mode response (s.flushCall call) := by
  obtain ⟨hkind, framed, hframed, herr⟩ := h.call call hrun hid
  subst hid
  obtain ⟨howner, herrSeen, hportal⟩ := flushHeld_kept s call
  have hm : call.kind.mode = mode := by
    rw [hkind]
    rfl
  unfold System.flushCall
  dsimp only
  by_cases hflush : call.kind.mode = .flushBoundary
  · rw [if_pos hflush, herrSeen]
    rw [hm] at hflush
    by_cases he : (s.duplex call.id).errSeen = true
    · -- the recovery Sync is still to come
      rw [if_pos he]
      refine ⟨?_, ?_, ?_⟩
      · intro c hc _
        cases hc
        refine ⟨hkind, framed, hframed, ?_⟩
        rw [← herr]
        simp only [herrSeen]
      · intro c hc _ _
        cases hc
        exact ⟨hflush, herrSeen.trans he⟩
      · rcases h.session with ho | hg
        · exact Or.inl (howner.trans ho)
        · refine Or.inr ⟨hportal.trans hg.portal, ?_, hg.idle⟩
          intro c hc _
          cases hc
          exact ⟨(hg.answered call hrun rfl).1, fun _ => herrSeen.trans he⟩
    · -- a clean Flush batch: the portal is suspended and the session kept
      rw [if_neg he]
      obtain ⟨hrun', howner', _⟩ := finishCall_batch (s := (s.flushHeld call).settlePortal call true) hkind
      refine .stopped hrun' (Or.inl ?_)
      rw [howner', settlePortal, herrSeen]
      simp only [he, Bool.not_false, if_true]
      have ho : s.owner = some call.id := by
        rcases h.session with ho | hg
        · exact ho
        · exact absurd ((hg.answered call hrun rfl).2 hflush) he
      exact howner.trans ho
  · rw [if_neg hflush]
    obtain ⟨hrun', howner', hportal'⟩ := finishCall_batch (s := s.flushHeld call) hkind
    refine .stopped hrun' ?_
    rw [howner', howner, hportal', hportal]
    exact h.session.imp_right fun hg => ⟨hg.portal, hg.idle⟩

private theorem InService.recoveredCall {ok : Bool} (h : InService id mode response s) (hrun : s.running = some call)
    (hid : call.id = id) (hrec : call.recovering = true) : InService id mode response (s.recoveredCall call ok) := by
  obtain ⟨hkind, _⟩ := h.call call hrun hid
  obtain ⟨hflush, herr⟩ := h.recovering call hrun hid hrec
  subst hid
  have hlocal : Local none s (if ok then s else s.destroyDuplex call.id) := by
    split
    · exact .refl s
    · exact local_destroyDuplex
  unfold System.recoveredCall
  dsimp only
  generalize (if ok then s else s.destroyDuplex call.id) = x at hlocal
  obtain ⟨hrun', _, hportal'⟩ := finishCall_batch (s := x.settlePortal call ok) hkind
  refine .stopped hrun' (Or.inr ⟨?_, fun hm => ?_⟩)
  · -- an errored Flush batch dooms the portal
    have herr' : (x.duplex call.id).errSeen = true := (hlocal.duplex call.id).errSeen.trans herr
    rw [hportal', settlePortal]
    simp only [herr', Bool.not_true, Bool.false_eq_true, if_false]
    split
    · by_contra hp
      rw [Bool.not_eq_false] at hp
      have hp := (local_release.duplex call.id).portal hp
      simp at hp
    · simp
  · rw [hflush] at hm
    cases hm

private theorem InService.throwCall (h : InService id mode response s) (hrun : s.running = some call)
    (hid : call.id = id) :
    InService id mode response (s.throwCall call) := by
  obtain ⟨hkind, _⟩ := h.call call hrun hid
  subst hid
  unfold System.throwCall
  rw [hkind]
  refine .stopped rfl ?_
  rcases h.session with ho | hg
  · exact Or.inl ho
  · refine Or.inr ⟨?_, hg.idle⟩
    rw [modify_same]
    exact hg.portal

/-- A step that is none of the call's keeps the service as it is; each step of the call is one of the cases above. -/
private theorem InService.step {a : Action ι} (hmode : mode.suppresses = true)
    (hd : ∀ status ∈ droppedStatuses (mode.forwardsLast response) response, status ≠ RFQ_STATUS_IDLE)
    (h : InService id mode response s) (ha : Serving id s a) (hstep : s.step a = some s') :
    InService id mode response s' := by
  by_cases hby : a.inPglite = true → Bypasses id s a
  · exact h.apart (step_apart ha.1 hby hstep)
  · rw [Classical.not_imp] at hby
    obtain ⟨hin, hby⟩ := hby
    cases a with
    | start response => exact absurd (ha.2 response rfl) hby
    | frame =>
      simp only [Bypasses, not_forall, not_not] at hby
      obtain ⟨call, hrun, hid⟩ := hby
      simp only [System.step, Option.mem_def.1 hrun] at hstep
      split at hstep
      · rename_i fr rest hresp
        cases hstep
        exact h.receive hmode hd hrun hid hresp
      · cases hstep
    | flush =>
      simp only [Bypasses, not_forall, not_not] at hby
      obtain ⟨call, hrun, hid⟩ := hby
      simp only [System.step, Option.mem_def.1 hrun] at hstep
      split at hstep
      · cases hstep
      · cases hstep
        exact h.flushCall hrun hid
    | recovered ok =>
      simp only [Bypasses, not_forall, not_not] at hby
      obtain ⟨call, hrun, hid⟩ := hby
      simp only [System.step, Option.mem_def.1 hrun] at hstep
      split at hstep
      · rename_i hrec
        cases hstep
        exact h.recoveredCall hrun hid hrec
      · cases hstep
    | throw =>
      simp only [Bypasses, not_forall, not_not] at hby
      obtain ⟨call, hrun, hid⟩ := hby
      simp only [System.step, Option.mem_def.1 hrun] at hstep
      split at hstep
      · cases hstep
      · cases hstep
        exact h.throwCall hrun hid
    | rolledBack ok =>
      simp only [Bypasses, not_forall, not_not] at hby
      obtain ⟨call, hrun, hid⟩ := hby
      simp only [System.step, Option.mem_def.1 hrun] at hstep
      rw [(h.call call hrun hid).1] at hstep
      cases hstep
    | _ => cases hin

/-! ### Every run that serves the batch -/

/-- While the batch is served, and after it, no dropped ReadyForQuery touches the lock; the duplex owns the session
throughout a Sync batch that ends in a transaction, and whenever its portal is suspended. -/
structure DroppedHarmless (id : ι) (mode : RfqMode) (response : List ResponseFrame) (s : System ι) : Prop where
  dropped : ∀ t u, Run step (Serving id) s t → DropsNext id mode response t → t.step .frame = some u → u.lock = t.lock
  synced : mode = .suppress → (finalStatus response = some RFQ_STATUS_IN_TRANSACTION ∨
    finalStatus response = some RFQ_STATUS_FAILED) → ∀ t, Run step (Serving id) s t → t.owner = some id
  portal : ∀ t, Run step (Serving id) s t → (t.duplex id).portalSuspended = true → t.owner = some id

/-- The state in which a batch has just been started. -/
private theorem InService.start {s₀ : System ι} (hstart : s₀.step (.start response) = some s)
    (hrun : s.running = some call)
    (hkind : call.kind = .batch mode) (howner : s₀.owner = some call.id) :
    InService call.id mode response s ∧ s.owner = some call.id ∧ (s.duplex call.id).phase ≠ .terminated ∧
      call.response = response := by
  simp only [System.step] at hstart
  split at hstart
  · rename_i other kind mutex hidle hmutex
    cases hstart
    unfold startCall at hrun ⊢
    cases kind with
    | rollback =>
      cases hrun
      cases hkind
    | recovery =>
      dsimp only at hrun
      split at hrun
      · cases hrun
        cases hkind
      · rw [modify_running] at hrun
        rw [show ({ s₀ with mutex } : System ι).running = s₀.running from rfl, hidle] at hrun
        cases hrun
    | batch mode' =>
      dsimp only at hrun ⊢
      split at hrun
      · rename_i hlive
        cases hrun
        cases hkind
        rw [if_pos hlive]
        refine ⟨⟨?_, ?_, Or.inl howner⟩, howner, ?_, rfl⟩
        · intro c hc _
          cases hc
          refine ⟨rfl, [], rfl, ?_⟩
          simp [Duplex.startCall]
        · intro c hc _ hrec
          cases hc
          cases hrec
        · intro hphase
          simp only [modify_same, Duplex.startCall] at hphase
          simp [Duplex.live, hphase] at hlive
      · rw [modify_running] at hrun
        rw [show ({ s₀ with mutex } : System ι).running = s₀.running from rfl, hidle] at hrun
        cases hrun
  · cases hstart

/-- Frame by frame the batch is answered up to any ReadyForQuery, and keeps the session on the way. -/
theorem frames_reach {framed : List ResponseFrame} (hmode : mode.suppresses = true)
    (hframe : ∀ t u, Run step (Serving id) s t → DropsNext id mode response t → t.step .frame = some u →
      u.lock = t.lock)
    (hrun : s.running = some call) (hid : call.id = id) (hkind : call.kind = .batch mode) (howner : s.owner = some id)
    (hphase : (s.duplex id).phase ≠ .terminated) (hresp : call.response = framed ++ .readyForQuery status :: rest) :
    ∃ t call', Run step (Serving id) s t ∧ t.running = some call' ∧ call'.id = id ∧ call'.kind = .batch mode ∧
      call'.response = .readyForQuery status :: rest ∧ t.owner = some id ∧ (t.duplex id).phase ≠ .terminated := by
  induction framed generalizing s call with
  | nil => exact ⟨s, call, .refl, hrun, hid, hkind, hresp, howner, hphase⟩
  | cons fr framed ih =>
    have hstep := step_frame hrun hresp
    have hserving : Serving id s .frame := ⟨nofun, nofun⟩
    have hone : Run step (Serving id) s (s.receive call (framed ++ .readyForQuery status :: rest) fr) :=
      Run.refl.snoc hserving hstep
    have hsup : call.kind.mode.suppresses = true := by
      rw [hkind]
      exact hmode
    have hlock : (s.receive call (framed ++ .readyForQuery status :: rest) fr).lock = s.lock := by
      by_cases hfr : fr = .readyForQuery RFQ_STATUS_IDLE
      · -- it is followed by another frame
        subst hfr
        have hnext : framed ++ .readyForQuery status :: rest ≠ [] := by simp
        exact hframe s _ .refl ⟨call, _, _, hrun, hid, hresp, Or.inl hnext⟩ hstep
      · exact receive_lock hsup hfr
    have hrun' := receive_running s (framed ++ .readyForQuery status :: rest) fr hsup
    have howner' : (s.receive call (framed ++ .readyForQuery status :: rest) fr).owner = some id := by
      rw [owner, hlock]
      exact howner
    have hphase' : ((s.receive call (framed ++ .readyForQuery status :: rest) fr).duplex id).phase ≠ .terminated := by
      rw [← hid, receive_phase hsup, hid]
      exact hphase
    obtain ⟨t, call', hrunt, hcall'⟩ :=
      ih (fun t u ht => hframe t u (hone.trans ht)) hrun' hid hkind howner' hphase' rfl
    exact ⟨t, call', hone.trans hrunt, hcall'⟩

/-- A batch of an owner is served without a dropped ReadyForQuery giving up the session, under every interleaving with
the other duplexes, if and only if no dropped ReadyForQuery carries the idle status. -/
theorem dropped_harmless_iff {s₀ : System ι} (hmode : mode.suppresses = true)
    (hstart : s₀.step (.start response) = some s) (hrun : s.running = some call) (hkind : call.kind = .batch mode)
    (howner : s₀.owner = some call.id) :
    DroppedHarmless call.id mode response s ↔
      ∀ status ∈ droppedStatuses (mode.forwardsLast response) response, status ≠ RFQ_STATUS_IDLE := by
  obtain ⟨hserve, howner', hphase, hresp⟩ := InService.start hstart hrun hkind howner
  have hsup : ∀ call' : Call ι, call'.kind = .batch mode → call'.kind.mode.suppresses = true := by
    intro call' hkind'
    rw [hkind']
    exact hmode
  constructor
  · intro h status hmem hidle
    subst hidle
    obtain ⟨framed, rest, hsplit, hd⟩ := mem_droppedStatuses.1 hmem
    obtain ⟨t, call', ht, hrun', hid, hkind', hresp', ho, hp⟩ :=
      frames_reach hmode h.dropped hrun rfl hkind howner' hphase (hresp.trans hsplit)
    have hlock := h.dropped t _ ht ⟨call', _, rest, hrun', hid, hresp', hd⟩ (step_frame hrun' hresp')
    rw [← hid] at ho hp
    exact receive_idle_lock (hsup call' hkind') ho hp hlock
  · intro hd
    have hrunInv : ∀ t, Run step (Serving call.id) s t → InService call.id mode response t := by
      intro t ht
      exact ht.invariant hserve fun t a u h ha hs => h.step hmode hd ha hs
    refine ⟨?_, ?_, ?_⟩
    · rintro t u ht ⟨call', status, rest, hrun', hid, hresp', hdrop⟩ hstep
      rw [step_frame hrun' hresp'] at hstep
      cases hstep
      obtain ⟨hkind', framed, hframed, _⟩ := (hrunInv t ht).call call' hrun' hid
      refine receive_lock (hsup call' hkind') fun hfr => ?_
      cases hfr
      rw [hresp'] at hframed
      exact hd RFQ_STATUS_IDLE (mem_droppedStatuses.2 ⟨framed, rest, hframed, hdrop⟩) rfl
    · intro hm hfinal t ht
      rcases (hrunInv t ht).session with ho | hg
      · exact ho
      · rw [hg.idle hm] at hfinal
        rcases hfinal with hf | hf <;> cases hf
    · intro t ht
      exact (hrunInv t ht).owner_of_portal

/-! ### Runs -/

def cursorReadStatuses : List ResponseFrame := [.other, .other, .other, .other, readyForQueryIdle]

/-- A cursor is read while a second client waits, and PGlite ends its answer with a ReadyForQuery. -/
def trailingReadyForQuery : List (Action Bool) :=
  served false startupPacket 1 [.other, readyForQueryIdle] ++ [.write false cursorRead, .deliver false 1,
    .process false, .process false, .process false, .process false, .pgliteReady false, .write true startupPacket,
    .deliver true 1, .process true]

/-- The dropped ReadyForQuery hands the session to the second client although the portal is suspended. -/
theorem trailingReadyForQuery_releases :
    ¬∀ (s₀ s : System Bool) (response : List ResponseFrame) (call : Call Bool) (mode : RfqMode),
      Run step (fun _ _ => True) (initial true fun _ => MAX_MESSAGE_LENGTH) s₀ → mode.suppresses = true →
      s₀.step (.start response) = some s → s.running = some call → call.kind = .batch mode →
      s₀.owner = some call.id → DroppedHarmless call.id mode response s := by
  intro h
  obtain ⟨s₀, run, howner, hserved⟩ : ∃ s₀ : System Bool,
      Run step (fun _ _ => True) (initial true fun _ => MAX_MESSAGE_LENGTH) s₀ ∧ s₀.owner = some false ∧
        (s₀.step (.start cursorReadStatuses)).any (fun s =>
          s.running.any (fun call => decide (call.id = false ∧ call.kind = .batch .flushBoundary)) &&
            (replay step (Serving false) s (cursorReadStatuses.map (fun _ => .frame) ++ [.flush])).any
              (fun t => decide ((t.duplex false).portalSuspended = true ∧ t.owner = some true))) = true :=
    exists_run trailingReadyForQuery (by decide)
  rw [Option.any_eq_true] at hserved
  obtain ⟨s, hstart, hs⟩ := hserved
  rw [Bool.and_eq_true, Option.any_eq_true, Option.any_eq_true] at hs
  obtain ⟨⟨call, hrun, hcall⟩, t, ht, hsuspended⟩ := hs
  obtain ⟨hid, hkind⟩ := of_decide_eq_true hcall
  obtain ⟨hportal, hother⟩ := of_decide_eq_true hsuspended
  have hharmless := h s₀ s cursorReadStatuses call .flushBoundary run rfl hstart hrun hkind (by rw [howner, hid])
  rw [hid] at hharmless
  have hown := hharmless.portal t (run_of_replay ht) hportal
  rw [hother] at hown
  cases hown

/-- `Parse`, `Bind`, `Execute` and `Sync` inside a transaction. -/
def insideTransaction : Bytes :=
  encodeMessage PARSE [0, 0x53, 0x45, 0x4c, 0x45, 0x43, 0x54, 0x20, 0x31, 0, 0, 0] ++
    encodeMessage BIND [0, 0, 0, 0, 0, 0, 0, 0] ++ encodeMessage EXECUTE [0, 0, 0, 0, 0] ++ encodeMessage SYNC []

/-- A Sync batch whose last two frames are ReadyForQuery frames of a transaction. -/
theorem dropped_harmless_insideTransaction : ∃ s : System Bool,
    DroppedHarmless false .suppress
      [.other, .readyForQuery RFQ_STATUS_IN_TRANSACTION, .readyForQuery RFQ_STATUS_IN_TRANSACTION] s := by
  obtain ⟨s₀, _, howner, hstarted⟩ : ∃ s₀ : System Bool,
      Run step (fun _ _ => True) (initial true fun _ => MAX_MESSAGE_LENGTH) s₀ ∧ s₀.owner = some false ∧
        (s₀.step (.start [.other, .readyForQuery RFQ_STATUS_IN_TRANSACTION,
          .readyForQuery RFQ_STATUS_IN_TRANSACTION])).any (fun s => s.running.any fun call =>
            decide (call.id = false ∧ call.kind = .batch .suppress)) = true :=
    exists_run (served false startupPacket 1 [.other, readyForQueryIdle] ++ [.write false insideTransaction,
      .deliver false 1, .process false, .process false, .process false, .process false, .pgliteReady false]) (by decide)
  rw [Option.any_eq_true] at hstarted
  obtain ⟨s, hstart, hs⟩ := hstarted
  rw [Option.any_eq_true] at hs
  obtain ⟨call, hrun, hcall⟩ := hs
  obtain ⟨hid, hkind⟩ := of_decide_eq_true hcall
  refine ⟨s, hid ▸ (dropped_harmless_iff rfl hstart hrun hkind (by rw [howner, hid])).2 ?_⟩
  intro status hmem
  have hdropped : status ∈ [RFQ_STATUS_IN_TRANSACTION] := hmem
  rw [List.mem_singleton.1 hdropped]
  decide

end System

end PgliteBridge
