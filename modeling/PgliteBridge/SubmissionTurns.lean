import PgliteBridge.SubmissionOrder

/-!
# Every call has its turn

The promises of a call are settled one by the other up to its tail, unless the call still waits (`TailProgress`).  So
when the microtasks have run and the submitted queries are settled, nothing waits any more (`submission_order`).
-/

namespace PgliteBridge

open TransitionSystem

namespace PgBridgeClient

variable {c c' : PgBridgeClient} {loop loop' : Loop} {k q n : Nat} {segs : List (Nat × List Nat)} {p : PromiseId}
  {links : List Link} {h : Handler} {ok : Bool} {query : OrdinaryQuery} {link : Link} {a : ClientAction}

/-! ### What settles the promises of a call -/

/-- The promise that a reaction of `query` settles. -/
def settles : Handler → Option PromiseId
  | .forward q => some (.raw q)
  | .evict q => some (.execution q)
  | .rolledBack q => some (.rollback q)
  | .resolveReservation q => some (.reservation q)
  | .releaseTail q => some (.tail q)
  | _ => none

/-- The reaction `h`, registered on `p`, has settled its promise or will. -/
def Feeds (loop : Loop) (h : Handler) (p : PromiseId) : Prop := ∀ r, settles h = some r → loop.Fed r h p

/-- `rawQueryPromise` waits for its turn, runs, or follows pg's promise. -/
inductive RawProgress (c : PgBridgeClient) (q : Nat) : Prop
  | waits (h : c.loop.Live (.execute q))
  | runs (saved : Option (Option Nat × Nat)) (h : .execution q saved ∈ c.stack) (hq : q ∈ c.received)
  | adopts (h : c.loop.Live (.adopt (.result q) q)) (hq : q ∈ c.received ∨ c.loop.outcome (.result q) ≠ none)
  | follows (h : Feeds c.loop (.forward q) (.result q)) (hq : q ∈ c.received ∨ c.loop.outcome (.result q) ≠ none)
  | settled (h : c.loop.outcome (.raw q) ≠ none)

inductive ReservationProgress (c : PgBridgeClient) (q : Nat) (query : OrdinaryQuery) : Prop
  | runs (saved : Option (Option Nat × Nat)) (h : .submission q query saved ∈ c.stack)
  | follows (raw : PromiseId) (hraw : raw = .result q ∨ c.loop.outcome raw ≠ none)
      (hevict : query.dealloc = true → Feeds c.loop (.evict q) raw)
      (h : Feeds c.loop (.resolveReservation q) (executionPromise query raw q))

inductive RollbackProgress (c : PgBridgeClient) (q : Nat) : Prop
  | waits (h : c.loop.Live (.cleanup q))
  | follows (hq : q ∈ c.rollbacks ∨ c.loop.outcome (.rollback q) ≠ none)
      (h : Feeds c.loop (.rolledBack q) (.result q))
      (hraw : c.loop.Live (.adopt (.rollback q) q) ∨ Feeds c.loop (.forward q) (.rollback q))

/-- What will settle the tail of a call. -/
inductive TailProgress (c : PgBridgeClient) (q : Nat) : Link → Prop
  | submittable : TailProgress c q .submittable
  | chained (query : OrdinaryQuery) (h : Feeds c.loop (.releaseTail q) (executionPromise query (.raw q) q))
      (hevict : query.dealloc = true → Feeds c.loop (.evict q) (.raw q)) (hraw : RawProgress c q) :
      TailProgress c q (.ordinary query)
  | reserved (query : OrdinaryQuery) (h : Feeds c.loop (.releaseTail q) (.reservation q)) (hq : q ∈ c.received)
      (hreservation : ReservationProgress c q query) : TailProgress c q (.ordinary query)
  | cleanup (h : Feeds c.loop (.releaseTail q) (.raw q)) (hrollback : RollbackProgress c q) : TailProgress c q .cleanup

def Progress (c : PgBridgeClient) : Prop := ∀ q link, c.links[q]? = some link → TailProgress c q link

/-- What a step may do to the loop; of the reactions about submissions it forgets at most `h`. -/
structure LoopAdvances (h : Option Handler) (loop loop' : Loop) : Prop where
  outcome : ∀ p, loop.outcome p ≠ none → loop'.outcome p ≠ none
  feeds : ∀ h' p, Feeds loop h' p → Feeds loop' h' p
  live : ∀ h', h ≠ some h' → loop.Live h' → loop'.Live h'

namespace LoopAdvances

variable {forgets : Option Handler}

private theorem refl : LoopAdvances forgets loop loop := ⟨fun _ h => h, fun _ _ h => h, fun _ _ h => h⟩

private theorem trans {loop'' : Loop} (h₁ : LoopAdvances forgets loop loop') (h₂ : LoopAdvances none loop' loop'') :
    LoopAdvances forgets loop loop'' :=
  ⟨fun p hp => h₂.outcome p (h₁.outcome p hp), fun h' p hf => h₂.feeds h' p (h₁.feeds h' p hf),
    fun h' hne hl => h₂.live h' (fun he => by cases he) (h₁.live h' hne hl)⟩

private theorem react : LoopAdvances forgets loop (loop.react p h) :=
  ⟨fun p hp => by simpa using hp, fun _ _ hf r hr => (hf r hr).react, fun _ _ hl => hl.react⟩

private theorem settle : LoopAdvances forgets loop (loop.settle p ok) :=
  ⟨fun _ hp => EventLoop.settle_outcome_mono hp, fun _ _ hf r hr => (hf r hr).settle, fun _ _ hl => hl.settle⟩

private theorem enqueue : LoopAdvances forgets loop (loop.enqueue h ok) :=
  ⟨fun _ hp => hp, fun _ _ hf r hr => (hf r hr).enqueue, fun _ _ hl => hl.enqueue⟩

/-- A job that settles no promise of `query`. -/
private theorem pop {jobs : List (Handler × Bool)} (hjobs : loop.jobs = (h, ok) :: jobs) (hs : settles h = none) :
    LoopAdvances (some h) loop { loop with jobs } where
  outcome _ hp := hp
  feeds h' p hf r hr := by
    refine (hf r hr).pop hjobs fun he => ?_
    rw [he, hs] at hr
    cases hr
  live h' hne hl := hl.pop hjobs fun he => hne (by rw [he])

/-- A job that settles its promise. -/
private theorem popSettle {jobs : List (Handler × Bool)} {ok' : Bool} (hjobs : loop.jobs = (h, ok) :: jobs)
    (hs : settles h = some p) : LoopAdvances (some h) loop (EventLoop.settle { loop with jobs } p ok') where
  outcome _ hp := EventLoop.settle_outcome_mono hp
  feeds h' p' hf r hr := by
    by_cases he : h' = h
    · rw [he, hs] at hr
      cases hr
      exact .inl EventLoop.settle_outcome_self
    · exact ((hf r hr).pop hjobs he).settle
  live h' hne hl := (hl.pop hjobs fun he => hne (by rw [he])).settle

end LoopAdvances

private theorem feeds_react : Feeds (loop.react p h) h p := fun _ _ => EventLoop.fed_react

private theorem observe_advances : LoopAdvances none c.loop (c.observe q query p).loop := by
  unfold observe
  dsimp only
  have hevict : LoopAdvances none c.loop (if query.dealloc then c.loop.react p (.evict q) else c.loop) := by
    split
    · exact .react
    · exact .refl
  split
  · exact hevict.trans (LoopAdvances.react.trans .react)
  · exact hevict

private theorem observe_evicts (hd : query.dealloc = true) : Feeds (c.observe q query p).loop (.evict q) p := by
  unfold observe
  dsimp only
  rw [if_pos hd]
  split
  · exact (show LoopAdvances none _ _ from .react).feeds _ _
      ((show LoopAdvances none _ _ from .react).feeds _ _ feeds_react)
  · exact feeds_react

private theorem returnPromise_advances : LoopAdvances none c.loop (c.returnPromise q query p).loop := by
  unfold returnPromise
  dsimp only
  split
  · exact .react
  · exact .refl

/-- A step, which forgets at most the reaction `h` and the frame `frame`. -/
structure Advances (h : Option Handler) (frame : Option Frame) (c c' : PgBridgeClient) : Prop where
  loop : LoopAdvances h c.loop c'.loop
  stack : ∀ frame' ∈ c.stack, frame ≠ some frame' → frame' ∈ c'.stack
  received : ∀ q ∈ c.received, q ∈ c'.received
  rollbacks : ∀ q ∈ c.rollbacks, q ∈ c'.rollbacks

/-- The progress of a call is kept, if what the step forgets has done its work. -/
private theorem TailProgress.advance {forgets : Option Handler} {frame : Option Frame} (hprog : TailProgress c q link)
    (hadv : Advances forgets frame c c') (hexecute : forgets = some (.execute q) → RawProgress c' q)
    (hcleanup : forgets = some (.cleanup q) → RollbackProgress c' q)
    (hadopt : ∀ p, forgets = some (.adopt p q) → Feeds c'.loop (.forward q) p)
    (hexecution : ∀ saved, frame = some (.execution q saved) → q ∈ c.received → RawProgress c' q)
    (hsubmission : ∀ query saved, frame = some (.submission q query saved) → ReservationProgress c' q query) :
    TailProgress c' q link := by
  cases hprog with
  | submittable => exact .submittable
  | chained query h hevict hraw =>
    refine .chained query (hadv.loop.feeds _ _ h) (fun hd => hadv.loop.feeds _ _ (hevict hd)) ?_
    cases hraw with
    | waits h =>
      by_cases hf : forgets = some (.execute q)
      · exact hexecute hf
      · exact .waits (hadv.loop.live _ hf h)
    | runs saved h hq =>
      by_cases hf : frame = some (.execution q saved)
      · exact hexecution saved hf hq
      · exact .runs saved (hadv.stack _ h hf) (hadv.received q hq)
    | adopts h hq =>
      by_cases hf : forgets = some (.adopt (.result q) q)
      · exact .follows (hadopt _ hf) (hq.imp (hadv.received q) (hadv.loop.outcome _))
      · exact .adopts (hadv.loop.live _ hf h) (hq.imp (hadv.received q) (hadv.loop.outcome _))
    | follows h hq => exact .follows (hadv.loop.feeds _ _ h) (hq.imp (hadv.received q) (hadv.loop.outcome _))
    | settled h => exact .settled (hadv.loop.outcome _ h)
  | reserved query h hq hreservation =>
    refine .reserved query (hadv.loop.feeds _ _ h) (hadv.received q hq) ?_
    cases hreservation with
    | runs saved h =>
      by_cases hf : frame = some (.submission q query saved)
      · exact hsubmission query saved hf
      · exact .runs saved (hadv.stack _ h hf)
    | follows raw hraw hevict h =>
      exact .follows raw (hraw.imp_right (hadv.loop.outcome raw)) (fun hd => hadv.loop.feeds _ _ (hevict hd))
        (hadv.loop.feeds _ _ h)
  | cleanup h hrollback =>
    refine .cleanup (hadv.loop.feeds _ _ h) ?_
    cases hrollback with
    | waits h =>
      by_cases hf : forgets = some (.cleanup q)
      · exact hcleanup hf
      · exact .waits (hadv.loop.live _ hf h)
    | follows hq h hraw =>
      refine .follows (hq.imp (hadv.rollbacks q) (hadv.loop.outcome _)) (hadv.loop.feeds _ _ h) ?_
      rcases hraw with hraw | hraw
      · by_cases hf : forgets = some (.adopt (.rollback q) q)
        · exact Or.inr (hadopt _ hf)
        · exact Or.inl (hadv.loop.live _ hf hraw)
      · exact Or.inr (hadv.loop.feeds _ _ hraw)

/-- A step that forgets nothing. -/
private theorem Progress.keep (hprog : Progress c) (hadv : Advances none none c c') (hlinks : c'.links = c.links) :
    Progress c' := by
  intro q link hlink
  refine (hprog q link (hlinks ▸ hlink)).advance hadv ?_ ?_ ?_ ?_ ?_
  · exact fun he => by cases he
  · exact fun he => by cases he
  · exact fun _ he => by cases he
  · exact fun _ he => by cases he
  · exact fun _ _ he => by cases he

namespace Progress

/-- A step that takes the reaction `h` from the job queue. -/
private theorem forget (hprog : Progress c) (hadv : Advances (some h) none c c') (hlinks : c'.links = c.links)
    (hexecute : ∀ q, h = .execute q → RawProgress c' q) (hcleanup : ∀ q, h = .cleanup q → RollbackProgress c' q)
    (hadopt : ∀ p q, h = .adopt p q → Feeds c'.loop (.forward q) p) : Progress c' := by
  intro q link hlink
  refine (hprog q link (hlinks ▸ hlink)).advance hadv ?_ ?_ ?_ ?_ ?_
  · exact fun he => hexecute q (Option.some.inj he)
  · exact fun he => hcleanup q (Option.some.inj he)
  · exact fun p he => hadopt p q (Option.some.inj he)
  · exact fun _ he => by cases he
  · exact fun _ _ he => by cases he

/-- The turn of an ordinary query behind another. -/
private theorem execute {jobs : List (Handler × Bool)} (hprog : Progress c)
    (hjobs : c.loop.jobs = (.execute q, ok) :: jobs) :
    Progress ({ c with loop := { c.loop with jobs } }.runJob ok (.execute q)) := by
  have hpop : LoopAdvances (some (.execute q)) c.loop { c.loop with jobs } := .pop hjobs rfl
  simp only [PgBridgeClient.runJob]
  split
  · refine hprog.forget ⟨hpop.trans (LoopAdvances.settle.trans .enqueue), fun _ hm _ => hm, fun _ hq => hq,
      fun _ hq => hq⟩ rfl ?_ ?_ ?_
    · intro q' he
      cases he
      exact .adopts EventLoop.live_enqueue_self (.inr EventLoop.settle_outcome_self)
    · exact fun _ he => by cases he
    · exact fun _ _ he => by cases he
  · obtain ⟨hl, hsame⟩ := execute_same { c with loop := { c.loop with jobs } } q
    refine hprog.forget (h := .execute q) ⟨?_, fun frame hm _ => ?_, fun q' hq' => ?_, fun q' hq' => ?_⟩
      hsame.links ?_ ?_ ?_
    · show LoopAdvances _ _ (PgBridgeClient.execute _ q).2.loop
      rw [hl]
      exact hpop
    · refine List.mem_cons_of_mem _ ?_
      rw [hsame.stack]
      exact hm
    · show q' ∈ (PgBridgeClient.execute _ q).2.received
      rw [hsame.received]
      exact List.mem_append_left _ hq'
    · show q' ∈ (PgBridgeClient.execute _ q).2.rollbacks
      rw [hsame.rollbacks]
      exact hq'
    · intro q' he
      cases he
      refine .runs _ (List.mem_cons_self ..) ?_
      show q ∈ (PgBridgeClient.execute _ q).2.received
      rw [hsame.received]
      exact List.mem_append_right _ (List.mem_singleton_self q)
    · exact fun _ he => by cases he
    · exact fun _ _ he => by cases he

/-- The turn of a cleanup link. -/
private theorem cleanup {jobs : List (Handler × Bool)} (hprog : Progress c)
    (hjobs : c.loop.jobs = (.cleanup q, ok) :: jobs) :
    Progress ({ c with loop := { c.loop with jobs } }.runJob ok (.cleanup q)) := by
  have hpop : LoopAdvances (some (.cleanup q)) c.loop { c.loop with jobs } := .pop hjobs rfl
  simp only [PgBridgeClient.runJob]
  split
  · refine hprog.forget ⟨hpop.trans (LoopAdvances.react.trans .enqueue), fun _ hm _ => hm, fun _ hq => hq,
      fun _ hq => List.mem_append_left _ hq⟩ rfl ?_ ?_ ?_
    · exact fun _ he => by cases he
    · intro q' he
      cases he
      refine .follows (Or.inl (List.mem_append_right _ (List.mem_singleton_self q))) ?_
        (Or.inl EventLoop.live_enqueue_self)
      exact (show LoopAdvances none _ _ from .enqueue).feeds _ _ feeds_react
    · exact fun _ _ he => by cases he
  · refine hprog.forget ⟨hpop.trans (LoopAdvances.settle.trans .enqueue), fun _ hm _ => hm, fun _ hq => hq,
      fun _ hq => hq⟩ rfl ?_ ?_ ?_
    · exact fun _ he => by cases he
    · intro q' he
      cases he
      refine .follows (Or.inr EventLoop.settle_outcome_self) ?_ (Or.inl EventLoop.live_enqueue_self)
      intro r hr
      cases hr
      exact .inl EventLoop.settle_outcome_self
    · exact fun _ _ he => by cases he

/-- A microtask. -/
private theorem runJob {jobs : List (Handler × Bool)} (hprog : Progress c) (hjobs : c.loop.jobs = (h, ok) :: jobs) :
    Progress ({ c with loop := { c.loop with jobs } }.runJob ok h) := by
  cases h with
  | execute q => exact hprog.execute hjobs
  | cleanup q => exact hprog.cleanup hjobs
  | admitSubmittable q =>
    refine hprog.forget ⟨.pop hjobs rfl, fun _ hm _ => List.mem_cons_of_mem _ hm,
      fun _ hq => List.mem_append_left _ hq, fun _ hq => hq⟩ rfl ?_ ?_ ?_
    all_goals intros; simp_all
  | adopt p q =>
    refine hprog.forget ⟨(LoopAdvances.pop hjobs rfl).trans .react, fun _ hm _ => hm, fun _ hq => hq,
      fun _ hq => hq⟩ rfl ?_ ?_ ?_
    · exact fun _ he => by cases he
    · exact fun _ he => by cases he
    · intro p' q' he
      cases he
      exact feeds_react
  | clearTimer q =>
    refine hprog.forget ⟨.pop hjobs rfl, fun _ hm _ => hm, fun _ hq => hq, fun _ hq => hq⟩ rfl ?_ ?_ ?_
    all_goals intros; simp_all
  | settleRace q =>
    refine hprog.forget ⟨(LoopAdvances.pop hjobs rfl).trans .settle, fun _ hm _ => hm, fun _ hq => hq,
      fun _ hq => hq⟩ rfl ?_ ?_ ?_
    all_goals intros; simp_all
  | resume n =>
    refine hprog.forget ⟨.pop hjobs rfl, fun _ hm _ => List.mem_cons_of_mem _ hm, fun _ hq => hq, fun _ hq => hq⟩ rfl
      ?_ ?_ ?_
    all_goals intros; simp_all
  | forward q | evict q | rolledBack q | resolveReservation q | releaseTail q =>
    refine hprog.forget ⟨.popSettle hjobs rfl, fun _ hm _ => hm, fun _ hq => hq, fun _ hq => hq⟩ rfl ?_ ?_ ?_
    all_goals intros; simp_all

/-- A step that takes the frame `frame` from the stack. -/
private theorem leaveFrame (hprog : Progress c) (frame : Frame) (hadv : Advances none (some frame) c c')
    (hlinks : c'.links = c.links)
    (hexecution : ∀ q saved, frame = .execution q saved → q ∈ c.received → RawProgress c' q)
    (hsubmission : ∀ q query saved, frame = .submission q query saved → ReservationProgress c' q query) :
    Progress c' := by
  intro q link hlink
  refine (hprog q link (hlinks ▸ hlink)).advance hadv ?_ ?_ ?_ ?_ ?_
  · exact fun he => by cases he
  · exact fun he => by cases he
  · exact fun _ he => by cases he
  · exact fun saved he => hexecution q saved (Option.some.inj he)
  · exact fun query saved he => hsubmission q query saved (Option.some.inj he)

end Progress

/-- `query` goes on after its own `execute`. -/
private theorem submitted_progress (c : PgBridgeClient) (q : Nat) (query : OrdinaryQuery) (ok : Bool) :
    LoopAdvances none c.loop (c.submitted q query ok).loop ∧ Same c (c.submitted q query ok) ∧
      ReservationProgress (c.submitted q query ok) q query := by
  let raw := if ok then PromiseId.result q else .raw q
  let c₁ := if ok then c else { c with loop := c.loop.settle (.raw q) false }
  have h₁ : LoopAdvances none c.loop c₁.loop ∧ Same c c₁ ∧ (raw = .result q ∨ c₁.loop.outcome raw ≠ none) := by
    cases ok with
    | true => exact ⟨.refl, ⟨rfl, rfl, rfl, rfl, rfl, rfl, rfl⟩, Or.inl rfl⟩
    | false => exact ⟨.settle, ⟨rfl, rfl, rfl, rfl, rfl, rfl, rfl⟩, Or.inr EventLoop.settle_outcome_self⟩
  let c₂ := c₁.observe q query raw
  let c₃ : PgBridgeClient := { c₂ with loop := c₂.loop.react (executionPromise query raw q) (.resolveReservation q) }
  have h₂₃ : LoopAdvances none c₂.loop c₃.loop := .react
  have h₃ : LoopAdvances none c₃.loop (c.submitted q query ok).loop := returnPromise_advances (c := c₃)
  have hsame₂ : Same c₁ c₃ := (observe_same c₁ q query raw).setLoop _
  have hsame₃ : Same c₃ (c.submitted q query ok) := returnPromise_same c₃ q query raw
  refine ⟨h₁.1.trans (observe_advances.trans (h₂₃.trans h₃)), h₁.2.1.trans (hsame₂.trans hsame₃), ?_⟩
  refine .follows raw ?_ (fun hd => ?_) ?_
  · exact h₁.2.2.imp_right fun hout => h₃.outcome _ (h₂₃.outcome _ (observe_advances.outcome _ hout))
  · exact h₃.feeds _ _ (h₂₃.feeds _ _ (observe_evicts hd))
  · exact h₃.feeds _ _ feeds_react

namespace Progress

/-- The function on top of the stack returns. -/
private theorem leave {frame : Frame} {stack : List Frame} (hprog : Progress c) (hstack : c.stack = frame :: stack) :
    Progress ({ c with stack }.leave ok frame) := by
  have hrest : ∀ frame' ∈ c.stack, some frame ≠ some frame' → frame' ∈ stack := by
    intro frame' hmem hne
    rw [hstack] at hmem
    rcases List.mem_cons.mp hmem with rfl | hmem
    · exact absurd rfl hne
    · exact hmem
  cases frame with
  | event | admission q =>
    refine hprog.leaveFrame _ ⟨.refl, hrest, fun _ hq => hq, fun _ hq => hq⟩ rfl ?_ ?_
    all_goals intros; simp_all
  | resume n =>
    refine hprog.leaveFrame _ ⟨.settle, hrest, fun _ hq => hq, fun _ hq => hq⟩ rfl ?_ ?_
    all_goals intros; simp_all
  | execution q saved =>
    have hsame := restore_same { c with stack } q saved
    have hloop := restore_loop { c with stack } q saved
    simp only [PgBridgeClient.leave]
    split
    · refine hprog.leaveFrame (.execution q saved) ⟨?_, ?_, ?_, ?_⟩ hsame.links ?_ ?_
      · show LoopAdvances none c.loop (EventLoop.enqueue (PgBridgeClient.restore _ q saved).loop _ true)
        rw [hloop]
        exact .enqueue
      · rw [hsame.stack]
        exact hrest
      · rw [hsame.received]
        exact fun _ hq => hq
      · rw [hsame.rollbacks]
        exact fun _ hq => hq
      · intro q' saved' he hq
        cases he
        refine .adopts EventLoop.live_enqueue_self ?_
        left
        show q ∈ (PgBridgeClient.restore _ q saved).received
        rw [hsame.received]
        exact hq
      · exact fun _ _ _ he => by cases he
    · refine hprog.leaveFrame (.execution q saved) ⟨?_, ?_, ?_, ?_⟩ hsame.links ?_ ?_
      · show LoopAdvances none c.loop (EventLoop.settle (PgBridgeClient.restore _ q saved).loop _ false)
        rw [hloop]
        exact .settle
      · rw [hsame.stack]
        exact hrest
      · rw [hsame.received]
        exact fun _ hq => hq
      · rw [hsame.rollbacks]
        exact fun _ hq => hq
      · intro q' saved' he hq
        cases he
        exact .settled EventLoop.settle_outcome_self
      · exact fun _ _ _ he => by cases he
  | submission q query saved =>
    have hsame := restore_same { c with stack } q saved
    have hloop := restore_loop { c with stack } q saved
    obtain ⟨hadv, hsame', hreservation⟩ := submitted_progress ({ c with stack }.restore q saved) q query ok
    have hall := hsame.trans hsame'
    rw [hloop] at hadv
    refine hprog.leaveFrame (.submission q query saved) ⟨hadv, ?_, ?_, ?_⟩ hall.links ?_ ?_
    · show ∀ frame' ∈ c.stack, _ → frame' ∈ (PgBridgeClient.submitted _ q query ok).stack
      rw [hall.stack]
      exact hrest
    · show ∀ q' ∈ c.received, q' ∈ (PgBridgeClient.submitted _ q query ok).received
      rw [hall.received]
      exact fun _ hq => hq
    · show ∀ q' ∈ c.rollbacks, q' ∈ (PgBridgeClient.submitted _ q query ok).rollbacks
      rw [hall.rollbacks]
      exact fun _ hq => hq
    · exact fun _ _ he => by cases he
    · intro q' query' saved' he
      cases he
      exact hreservation

end Progress

namespace Progress

/-- A new call, behind the old ones. -/
private theorem newLink (hprog : Progress c) (hadv : Advances none none c c') (hlinks : c'.links = c.links ++ [link])
    (hnew : TailProgress c' c.links.length link) : Progress c' := by
  intro q link' hlink
  rw [hlinks] at hlink
  by_cases hq : q < c.links.length
  · rw [List.getElem?_append_left hq] at hlink
    refine (hprog q link' hlink).advance hadv ?_ ?_ ?_ ?_ ?_
    · exact fun he => by cases he
    · exact fun he => by cases he
    · exact fun _ he => by cases he
    · exact fun _ he => by cases he
    · exact fun _ _ he => by cases he
  · obtain ⟨hlt, -⟩ := List.getElem?_eq_some_iff.mp hlink
    rw [List.length_append, List.length_singleton] at hlt
    obtain rfl : q = c.links.length := by omega
    rw [List.getElem?_concat_length, Option.some.injEq] at hlink
    rw [← hlink]
    exact hnew

/-- An ordinary query behind `prior`. -/
private theorem chain (hprog : Progress c) {prior : PromiseId} {c₀ : PgBridgeClient}
    (hlinks : c₀.links = c.links ++ [.ordinary query]) (hloop : c₀.loop = c.loop) (hreceived : c₀.received = c.received)
    (hstack : c₀.stack = c.stack) (hrollbacks : c₀.rollbacks = c.rollbacks) :
    Progress (c₀.chain c.links.length query prior) := by
  let n := c.links.length
  let c₁ : PgBridgeClient := { c₀ with loop := c₀.loop.react prior (.execute n) }
  let c₂ := c₁.observe n query (.raw n)
  let c₃ : PgBridgeClient := { c₂ with
    loop := c₂.loop.react (executionPromise query (.raw n) n) (.releaseTail n)
    querySubmissionChain := some (.tail n) }
  have h₁₂ : LoopAdvances none c₁.loop c₂.loop := observe_advances
  have h₂₃ : LoopAdvances none c₂.loop c₃.loop := .react
  have h₃ : LoopAdvances none c₃.loop (c₀.chain n query prior).loop := returnPromise_advances (c := c₃)
  have hsame₂ := observe_same c₁ n query (.raw n)
  have hsame₃ := returnPromise_same c₃ n query (.raw n)
  refine hprog.newLink ⟨?_, ?_, ?_, ?_⟩ (hsame₃.links.trans (hsame₂.links.trans hlinks)) (.chained query ?_ ?_ ?_)
  · have h₀ : LoopAdvances none c.loop c₁.loop := by
      rw [← hloop]
      exact .react
    exact h₀.trans (h₁₂.trans (h₂₃.trans h₃))
  · intro frame hmem _
    have he : (c₀.chain n query prior).stack = c.stack := hsame₃.stack.trans (hsame₂.stack.trans hstack)
    rw [he]
    exact hmem
  · intro q hq
    have he : (c₀.chain n query prior).received = c.received := hsame₃.received.trans (hsame₂.received.trans hreceived)
    rw [he]
    exact hq
  · intro q hq
    have he : (c₀.chain n query prior).rollbacks = c.rollbacks :=
      hsame₃.rollbacks.trans (hsame₂.rollbacks.trans hrollbacks)
    rw [he]
    exact hq
  · exact h₃.feeds _ _ feeds_react
  · exact fun hd => h₃.feeds _ _ (h₂₃.feeds _ _ (observe_evicts hd))
  · refine .waits (h₃.live _ (fun he => by cases he) (h₂₃.live _ (fun he => by cases he) ?_))
    exact h₁₂.live _ (fun he => by cases he) EventLoop.live_react_self

/-- An ordinary query that finds the slot empty. -/
private theorem submit (hprog : Progress c) {c₁ : PgBridgeClient} (hlinks : c₁.links = c.links ++ [.ordinary query])
    (hreceived : c₁.received = c.received) (hstack : c₁.stack = c.stack) (hrollbacks : c₁.rollbacks = c.rollbacks)
    (hloop : c₁.loop = c.loop.react (.reservation c.links.length) (.releaseTail c.links.length)) :
    Progress { (c₁.execute c.links.length).2 with
      stack := .submission c.links.length query (c₁.execute c.links.length).1 ::
        (c₁.execute c.links.length).2.stack } := by
  obtain ⟨hl, hsame⟩ := execute_same c₁ c.links.length
  rw [hloop] at hl
  have hrec : (c₁.execute c.links.length).2.received = c.received ++ [c.links.length] := by
    rw [hsame.received, ← hreceived]
  refine hprog.newLink ⟨?_, ?_, ?_, ?_⟩ (hsame.links.trans hlinks)
    (.reserved query ?_ ?_ (.runs _ (List.mem_cons_self ..)))
  · show LoopAdvances none c.loop (c₁.execute c.links.length).2.loop
    rw [hl]
    exact .react
  · intro frame hmem _
    refine List.mem_cons_of_mem _ ?_
    rw [hsame.stack]
    show frame ∈ c₁.stack
    rw [hstack]
    exact hmem
  · intro q hq
    show q ∈ (c₁.execute c.links.length).2.received
    rw [hrec]
    exact List.mem_append_left _ hq
  · intro q hq
    show q ∈ (c₁.execute c.links.length).2.rollbacks
    rw [hsame.rollbacks]
    show q ∈ c₁.rollbacks
    rw [hrollbacks]
    exact hq
  · show Feeds (c₁.execute c.links.length).2.loop _ _
    rw [hl]
    exact feeds_react
  · show c.links.length ∈ (c₁.execute c.links.length).2.received
    rw [hrec]
    exact List.mem_append_right _ (List.mem_singleton_self _)

private theorem newQuery (hprog : Progress c) (hquery : link.isQuery = true) : Progress (c.query link) := by
  unfold PgBridgeClient.query
  cases link with
  | cleanup => cases hquery
  | submittable =>
    cases hslot : c.querySubmissionChain with
    | none =>
      dsimp only
      exact hprog.newLink ⟨.refl, fun _ hm _ => List.mem_cons_of_mem _ hm, fun _ hq => List.mem_append_left _ hq,
        fun _ hq => hq⟩ rfl .submittable
    | some prior =>
      dsimp only
      exact hprog.newLink ⟨.react, fun _ hm _ => hm, fun _ hq => hq, fun _ hq => hq⟩ rfl .submittable
  | ordinary query =>
    cases hslot : c.querySubmissionChain with
    | none =>
      dsimp only
      exact hprog.submit rfl rfl rfl rfl rfl
    | some prior =>
      dsimp only
      exact hprog.chain rfl rfl rfl rfl rfl

private theorem chainRollbackCleanup (hprog : Progress c) : Progress c.chainRollbackCleanup := by
  unfold PgBridgeClient.chainRollbackCleanup
  cases hslot : c.querySubmissionChain with
  | none =>
    refine hprog.newLink ⟨LoopAdvances.enqueue.trans .react, fun _ hm _ => hm, fun _ hq => hq, fun _ hq => hq⟩ rfl
      (.cleanup feeds_react (.waits ?_))
    exact (show LoopAdvances none _ _ from .react).live _ (fun he => by cases he) EventLoop.live_enqueue_self
  | some prior =>
    refine hprog.newLink ⟨LoopAdvances.react.trans .react, fun _ hm _ => hm, fun _ hq => hq, fun _ hq => hq⟩ rfl
      (.cleanup feeds_react (.waits ?_))
    exact (show LoopAdvances none _ _ from .react).live _ (fun he => by cases he) EventLoop.live_react_self

/-- One step. -/
private theorem step (hprog : Progress c) (hs : c.step a = some c') : Progress c' := by
  cases a with
  | event =>
    simp only [PgBridgeClient.step] at hs
    split at hs
    · rename_i hstack
      cases hs
      refine hprog.keep ⟨.refl, fun frame hm _ => ?_, fun _ hq => hq, fun _ hq => hq⟩ rfl
      rw [hstack] at hm
      cases hm
    · cases hs
  | leave ok =>
    simp only [PgBridgeClient.step] at hs
    split at hs
    · cases hs
    · rename_i frame stack hstack
      cases hs
      exact hprog.leave hstack
  | query link =>
    simp only [PgBridgeClient.step] at hs
    split at hs
    · rename_i hguard
      cases hs
      exact hprog.newQuery hguard.2
    · cases hs
  | chainRollbackCleanup =>
    simp only [PgBridgeClient.step] at hs
    split at hs
    · cases hs
      exact hprog.chainRollbackCleanup
    · cases hs
  | thenQuery q =>
    simp only [PgBridgeClient.step] at hs
    split at hs
    · cases hs
      exact hprog.keep ⟨.react, fun _ hm _ => hm, fun _ hq => hq, fun _ hq => hq⟩ rfl
    · cases hs
  | thenReaction n =>
    simp only [PgBridgeClient.step] at hs
    split at hs
    · cases hs
      exact hprog.keep ⟨.react, fun _ hm _ => hm, fun _ hq => hq, fun _ hq => hq⟩ rfl
    · cases hs
  | complete q ok =>
    simp only [PgBridgeClient.step] at hs
    split at hs
    · cases hs
      exact hprog.keep ⟨.settle, fun _ hm _ => hm, fun _ hq => hq, fun _ hq => hq⟩ rfl
    · cases hs
  | fire q =>
    simp only [PgBridgeClient.step] at hs
    split at hs
    · cases hs
      exact hprog.keep ⟨.enqueue, fun _ hm _ => hm, fun _ hq => hq, fun _ hq => hq⟩ rfl
    · cases hs
  | setTransaction inTransaction =>
    simp only [PgBridgeClient.step] at hs
    split at hs
    · cases hs
      exact hprog.keep ⟨.refl, fun _ hm _ => hm, fun _ hq => hq, fun _ hq => hq⟩ rfl
    · cases hs
  | job =>
    simp only [PgBridgeClient.step] at hs
    split at hs
    · rename_i handler ok jobs hstack hjobs
      cases hs
      exact hprog.runJob hjobs
    · cases hs

end Progress

theorem progress {t : Nat} {cond : PgBridgeClient → ClientAction → Prop} (run : Run step cond (initial t) c) :
    Progress c :=
  run.invariant (fun q link hlink => by cases hlink) fun _ _ _ hprog _ hs => hprog.step hs

/-! ### The order of the submissions -/

/-- A query expires only when its timeout has fired. -/
def Timely (c : PgBridgeClient) : Prop := ∀ q ∈ c.expired, c.fired q = true

private theorem Timely.of_eq (ht : Timely c) (hexpired : c'.expired = c.expired) (hfired : c'.fired = c.fired) :
    Timely c' := by
  intro q hq
  rw [hexpired] at hq
  rw [hfired]
  exact ht q hq

private theorem Timely.runJob (ht : Timely c) : Timely (c.runJob ok h) := by
  cases h with
  | execute q =>
    simp only [PgBridgeClient.runJob]
    split
    · rename_i hfired
      intro q' hq'
      rcases List.mem_append.mp hq' with hq' | hq'
      · exact ht q' hq'
      · rw [List.mem_singleton.mp hq']
        exact hfired
    · obtain ⟨-, hsame⟩ := execute_same c q
      exact ht.of_eq hsame.expired hsame.fired
  | cleanup q =>
    simp only [PgBridgeClient.runJob]
    split <;> exact ht
  | _ => exact ht

private theorem Timely.leave (ht : Timely c) (frame : Frame) : Timely (c.leave ok frame) := by
  cases frame with
  | execution q saved =>
    have hsame := restore_same c q saved
    simp only [PgBridgeClient.leave]
    split <;> exact ht.of_eq hsame.expired hsame.fired
  | submission q query saved =>
    have hsame := (restore_same c q saved).trans (submitted_progress (c.restore q saved) q query ok).2.1
    exact ht.of_eq hsame.expired hsame.fired
  | _ => exact ht

private theorem Timely.newQuery (ht : Timely c) (link : Link) : Timely (c.query link) := by
  unfold PgBridgeClient.query
  cases link with
  | cleanup => exact ht
  | submittable =>
    dsimp only
    split <;> exact ht
  | ordinary query =>
    dsimp only
    split
    · exact ht.of_eq (execute_same _ _).2.expired (execute_same _ _).2.fired
    · exact ht.of_eq ((returnPromise_same _ _ _ _).expired.trans (observe_same _ _ _ _).expired)
        ((returnPromise_same _ _ _ _).fired.trans (observe_same _ _ _ _).fired)

private theorem Timely.step (ht : Timely c) (hs : c.step a = some c') : Timely c' := by
  cases a with
  | fire q =>
    simp only [PgBridgeClient.step] at hs
    split at hs
    · cases hs
      intro q' hq'
      by_cases he : q' = q
      · subst he
        simp
      · simpa [Function.update_of_ne he] using ht q' hq'
    · cases hs
  | query link =>
    simp only [PgBridgeClient.step] at hs
    split at hs
    · cases hs
      exact ht.newQuery link
    · cases hs
  | leave ok =>
    simp only [PgBridgeClient.step] at hs
    split at hs
    · cases hs
    · rename_i frame stack _
      cases hs
      exact Timely.leave (c := { c with stack }) ht frame
  | job =>
    simp only [PgBridgeClient.step] at hs
    split at hs
    · rename_i jobs _ _
      cases hs
      exact Timely.runJob (c := { c with loop := { c.loop with jobs } }) ht
    · cases hs
  | _ =>
    simp only [PgBridgeClient.step] at hs
    split at hs
    · cases hs
      exact ht
    · cases hs

/-- No function runs, no microtask is left, and pg has settled what it received. -/
structure Quiescent (c : PgBridgeClient) : Prop where
  stack : c.stack = []
  jobs : c.loop.jobs = []
  results : ∀ q query, c.links[q]? = some (.ordinary query) → q ∈ c.received → c.loop.outcome (.result q) ≠ none
  rollbacks : ∀ q ∈ c.rollbacks, c.loop.outcome (.result q) ≠ none

private theorem Feeds.settled {r : PromiseId} (hf : Feeds c.loop h p) (hq : Quiescent c) (hr : settles h = some r)
    (hp : c.loop.outcome p ≠ none) : c.loop.outcome r ≠ none :=
  (hf r hr).idle hq.jobs hp

theorem Located.not_adopting {begun : Nat → Prop} (hl : Located loop links begun) (hjobs : loop.jobs = []) :
    ¬ loop.Live (.adopt p q) := by
  rintro (⟨ok, hjob⟩ | ⟨p', hmem⟩)
  · rw [hjobs] at hjob
    cases hjob
  · exact hl.adoption p p' q hmem

/-- In a quiescent client the tail of a call that does not wait is settled. -/
theorem TailProgress.settled (hprog : TailProgress c q link) (hq : Quiescent c) (hlink : c.links[q]? = some link)
    (hsub : link ≠ .submittable) (hexecute : ¬ c.loop.Live (.execute q)) (hcleanup : ¬ c.loop.Live (.cleanup q))
    (hadopt : ∀ p, ¬ c.loop.Live (.adopt p q)) : c.loop.outcome (.tail q) ≠ none := by
  have hexecution : ∀ (query : OrdinaryQuery) raw, c.loop.outcome raw ≠ none →
      (query.dealloc = true → Feeds c.loop (.evict q) raw) → c.loop.outcome (executionPromise query raw q) ≠ none := by
    intro query raw hraw hevict
    unfold executionPromise
    split
    · rename_i hd
      exact (hevict hd).settled hq rfl hraw
    · exact hraw
  cases hprog with
  | submittable => exact absurd rfl hsub
  | chained query h hevict hraw =>
    refine h.settled hq rfl (hexecution query (.raw q) ?_ hevict)
    cases hraw with
    | waits h => exact absurd h hexecute
    | runs saved h =>
      rw [hq.stack] at h
      cases h
    | adopts h => exact absurd h (hadopt _)
    | follows h hrec =>
      rcases hrec with hrec | hout
      · exact h.settled hq rfl (hq.results q query hlink hrec)
      · exact h.settled hq rfl hout
    | settled h => exact h
  | reserved query h hrec hreservation =>
    refine h.settled hq rfl ?_
    cases hreservation with
    | runs saved h =>
      rw [hq.stack] at h
      cases h
    | follows raw hraw hevict h =>
      refine h.settled hq rfl (hexecution query raw ?_ hevict)
      rcases hraw with rfl | hraw
      · exact hq.results q query hlink hrec
      · exact hraw
  | cleanup h hrollback =>
    refine h.settled hq rfl ?_
    cases hrollback with
    | waits h => exact absurd h hcleanup
    | follows hroll h hraw =>
      have hrolled : c.loop.outcome (.rollback q) ≠ none := by
        rcases hroll with hroll | hroll
        · exact h.settled hq rfl (hq.rollbacks q hroll)
        · exact hroll
      rcases hraw with hraw | hraw
      · exact absurd hraw (hadopt _)
      · exact hraw.settled hq rfl hrolled

namespace Ordered

/-- What waits in a quiescent client, waits behind a tail. -/
private theorem waits_behind (hc : Ordered c k segs) (hq : Quiescent c) (hlive : c.loop.Live h)
    (hs : h.submission = some q) :
    k ≤ q := by
  rcases hlive with ⟨ok, hjob⟩ | ⟨p, hmem⟩
  · rw [hq.jobs] at hjob
    cases hjob
  · have hwait : q ∈ c.loop.waiting Handler.submission p := List.mem_filterMap.mpr ⟨h, hmem, hs⟩
    by_cases hseg : ∃ seg ∈ segs, p = .tail seg.1
    · obtain ⟨seg, hseg, rfl⟩ := hseg
      rw [hc.line.waits seg hseg] at hwait
      refine hc.line.ge_of_mem (List.mem_append_right _ ?_)
      exact List.mem_flatten.mpr ⟨seg.2, List.mem_map_of_mem hseg, hwait⟩
    · rw [hc.line.others p fun seg hmem he => hseg ⟨seg, hmem, he⟩] at hwait
      cases hwait

/-- The tail of a submitted call is settled. -/
private theorem tail_settled (hc : Ordered c k segs) (hprog : Progress c) (hq : Quiescent c) (hlt : q < k)
    (hlink : c.links[q]? = some link) (hsub : link ≠ .submittable) : c.loop.outcome (.tail q) ≠ none := by
  refine (hprog q link hlink).settled hq hlink hsub ?_ ?_ fun p => hc.located.not_adopting hq.jobs
  · intro hlive
    have := hc.waits_behind hq hlive rfl
    omega
  · intro hlive
    have := hc.waits_behind hq hlive rfl
    omega

/-- Nothing waits in a quiescent client. -/
private theorem eq_length_of_quiescent (hc : Ordered c k segs) (hprog : Progress c) (hq : Quiescent c) :
    k = c.links.length := by
  have horder := hc.line.order
  rw [EventLoop.queued, hq.jobs, List.filterMap_nil, List.nil_append] at horder
  cases segs with
  | nil =>
    have hle := hc.line.le
    have hlen := congrArg List.length horder
    simp at hlen
    omega
  | cons seg rest =>
    have hbound := hc.line.bound seg (List.mem_cons_self ..)
    -- the first tail is that of a submitted call: what waits behind it or behind later tails was called later
    have hlt : seg.1 < k := by
      by_contra hge
      have hmem : seg.1 ∈ ((seg :: rest).map Prod.snd).flatten := by
        rw [horder, List.mem_range'_1]
        omega
      obtain ⟨l, hl, hin⟩ := List.mem_flatten.mp hmem
      obtain ⟨seg', hseg', rfl⟩ := List.mem_map.mp hl
      have hlater := hc.line.later seg' hseg' seg.1 hin
      rcases List.mem_cons.mp hseg' with rfl | hseg'
      · omega
      · have hsorted := (List.pairwise_cons.mp hc.line.sorted).1 seg'.1 (List.mem_map_of_mem hseg')
        omega
    have hunsettled := hc.line.unsettled seg (List.mem_cons_self ..)
    have hnot := hc.line.tails seg (List.mem_cons_self ..)
    cases hlink : c.links[seg.1]? with
    | none =>
      rw [List.getElem?_eq_none_iff] at hlink
      omega
    | some link =>
      refine absurd hunsettled (hc.tail_settled hprog hq hlt hlink fun he => hnot ?_)
      rw [hlink, he]

end Ordered

/-- While no call overtakes a Submittable that is about to be admitted, pg receives the submissions in call order; when
the client is quiescent it has received each of them once, but those whose timeout fired before their turn. -/
theorem submission_order {t : Nat} (run : Run step Calm (initial t) c) :
    c.InOrder ∧ (∀ q ∈ c.expired, c.fired q = true) ∧
      (Quiescent c → c.received = c.calls.filter fun q => q ∉ c.expired) := by
  obtain ⟨k, segs, hc⟩ := ordered run
  have htimely : Timely c := run.invariant (fun q hq => by cases hq) fun _ _ _ ht _ hs => ht.step hs
  refine ⟨hc.inOrder, htimely, fun hq => ?_⟩
  have hk := hc.eq_length_of_quiescent (progress run) hq
  rw [hc.line.received, hk, calls, List.filter_filter]
  simp only [Bool.and_comm]

/-- A Submittable and two queries behind the first one; the timeout of the last query fires before its turn. -/
private def waitingCalls : List ClientAction :=
  [.event, .query (.ordinary {}), .leave true, .query .submittable, .query (.ordinary { callback := true }),
    .query (.ordinary { queryTimeout := some 5 }), .leave true, .fire 3, .job,
    .event, .complete 0 true, .leave true, .job, .job, .job, .leave true, .job, .leave true, .job,
    .event, .complete 2 true, .leave true, .job, .job, .job, .leave true, .job, .job, .job, .job, .job, .job]

theorem submission_order_waitingCalls : ∃ c, Run step Calm (initial 0) c ∧ Quiescent c ∧ c.expired = [3] ∧
    c.received = c.calls.filter fun q => q ∉ c.expired := by
  have hexists : ∃ c, Run step Calm (initial 0) c ∧ (c.stack = [] ∧ c.loop.jobs = [] ∧ c.rollbacks = []) ∧
      c.expired = [3] ∧ c.received = [0, 1, 2] ∧ c.links[1]? = some .submittable ∧
      (c.loop.outcome (.result 0)).isSome ∧ (c.loop.outcome (.result 2)).isSome :=
    exists_run waitingCalls (by decide)
  obtain ⟨c, run, ⟨hstack, hjobs, hrollbacks⟩, hexpired, hreceived, hsub, h₀, h₂⟩ := hexists
  have hq : Quiescent c := by
    refine ⟨hstack, hjobs, fun q query hlink hrec => ?_, fun q hmem => ?_⟩
    · rw [hreceived] at hrec
      simp only [List.mem_cons, List.not_mem_nil, or_false] at hrec
      rcases hrec with rfl | rfl | rfl
      · exact Option.isSome_iff_ne_none.mp h₀
      · rw [hsub] at hlink
        cases hlink
      · exact Option.isSome_iff_ne_none.mp h₂
    · rw [hrollbacks] at hmem
      cases hmem
  exact ⟨c, run, hq, hexpired, (submission_order run).2.2 hq⟩

/-- A continuation two reactions behind the result of the first query: the tail has cleared the slot and the Submittable
is still to be admitted. -/
private def continuation : List ClientAction :=
  [.event, .query (.ordinary {}), .leave true, .thenQuery 0, .thenReaction 0, .query .submittable, .leave true,
    .event, .complete 0 true, .leave true, .job, .job, .leave true, .job, .job, .query (.ordinary {}), .leave true,
    .leave true, .job]

theorem continuation_overtakes :
    ¬ ∀ t c, Run step (fun _ _ => True) (initial t) c → c.InOrder := by
  intro hclaim
  have hexists : ∃ c, Run step (fun _ _ => True) (initial 0) c ∧ ¬ c.InOrder := exists_run continuation (by decide)
  obtain ⟨c, run, hout⟩ := hexists
  exact hout (hclaim 0 c run)

end PgBridgeClient

end PgliteBridge
