import PgliteBridge.SubmissionSlot

/-!
# Turns in every run

The promises of a link are settled only once it has begun, and its reservation and tail only behind its execution.  With
the chain of `Held` this is an invariant of every step (`InTurn`).
-/

namespace PgliteBridge

open TransitionSystem

/-- The link whose reservation or tail a reaction settles. -/
def Handler.release : Handler → Option Nat
  | .resolveReservation q => some q
  | .releaseTail q => some q
  | _ => none

namespace PgBridgeClient

variable {c c' : PgBridgeClient} {loop loop' : Loop} {current : Option Nat} {waiting : List Nat} {q : Nat}
  {p : PromiseId} {links : List Link} {h : Handler} {ok : Bool} {query : OrdinaryQuery} {link : Link} {a : ClientAction}

/-! ### Real settlement -/

/-- The promises that settle with the execution of a link. -/
inductive Ends (links : List Link) : Nat → PromiseId → Prop
  | ordinary {q : Nat} {query : OrdinaryQuery} {raw : PromiseId} (hlink : links[q]? = some (.ordinary query))
      (hraw : raw = .result q ∨ raw = .raw q) : Ends links q (executionPromise query raw q)
  | cleanup {q : Nat} (hlink : links[q]? = some .cleanup) : Ends links q (.raw q)

private theorem Ends.call (he : Ends links q p) : p.call = some q := by
  cases he with
  | ordinary _ hraw =>
    refine executionPromise_call ?_
    rcases hraw with rfl | rfl <;> rfl
  | cleanup _ => rfl

private theorem Ends.append (he : Ends links q p) (link : Link) : Ends (links ++ [link]) q p := by
  have hkeep : ∀ {link'}, links[q]? = some link' → (links ++ [link])[q]? = some link' := by
    intro link' hlink
    rw [List.getElem?_append_left (List.getElem?_eq_some_iff.mp hlink).1, hlink]
  cases he with
  | ordinary hlink hraw => exact .ordinary (hkeep hlink) hraw
  | cleanup hlink => exact .cleanup (hkeep hlink)

/-- The execution of a link has settled. -/
def Executed (loop : Loop) (links : List Link) (q : Nat) : Prop := ∃ p, Ends links q p ∧ loop.outcome p ≠ none

private theorem Executed.mono (he : Executed loop links q)
    (hout : ∀ p, loop.outcome p ≠ none → loop'.outcome p ≠ none) :
    Executed loop' links q := by
  obtain ⟨p, hp, hs⟩ := he
  exact ⟨p, hp, hout p hs⟩

/-- Reservations and tails are settled behind the execution of their links. -/
structure Caused (loop : Loop) (links : List Link) : Prop where
  jobs : ∀ h ok q, (h, ok) ∈ loop.jobs → h.release = some q → Executed loop links q
  reactions : ∀ p h q, h ∈ loop.reactions p → h.release = some q → p = .reservation q ∨ Ends links q p
  promises : ∀ q, loop.outcome (.reservation q) ≠ none ∨ loop.outcome (.tail q) ≠ none → Executed loop links q

namespace Caused

private theorem react (hc : Caused loop links) (hp : ∀ q, h.release = some q → p = .reservation q ∨ Ends links q p) :
    Caused (loop.react p h) links where
  jobs h' ok q hjob hq := by
    have hexecuted : Executed loop links q := by
      rcases EventLoop.mem_jobs_react hjob with hjob | ⟨rfl, hout⟩
      · exact hc.jobs h' ok q hjob hq
      · have hsettled : loop.outcome p ≠ none := by simp [hout]
        rcases hp q hq with rfl | hends
        · exact hc.promises q (.inl hsettled)
        · exact ⟨p, hends, hsettled⟩
    exact hexecuted.mono fun _ hs => by simpa using hs
  reactions p' h' q hmem hq := by
    rcases EventLoop.mem_reactions_react hmem with hmem | ⟨rfl, rfl⟩
    · exact hc.reactions p' h' q hmem hq
    · exact hp q hq
  promises q hs := (hc.promises q (by simpa using hs)).mono fun _ hs => by simpa using hs

private theorem reactOther (hc : Caused loop links) (hh : h.release = none) : Caused (loop.react p h) links :=
  hc.react fun q hq => by
    rw [hh] at hq
    cases hq

private theorem reacts (hc : Caused loop links) (hr : Reacts (Ends links) loop loop') : Caused loop' links := by
  induction hr with
  | refl => exact hc
  | react _ ha ih =>
    refine ih.react fun q hq => ?_
    cases ha with
    | resolveReservation hp | releaseTail hp =>
      cases hq
      exact .inr hp
    | releaseReservation =>
      cases hq
      exact .inl rfl
    | _ => cases hq

private theorem enqueue (hc : Caused loop links) (hh : h.release = none) : Caused (loop.enqueue h ok) links where
  jobs h' ok' q hjob hq := by
    rw [EventLoop.enqueue_jobs, List.mem_append, List.mem_singleton] at hjob
    rcases hjob with hjob | he
    · exact hc.jobs h' ok' q hjob hq
    · cases he
      rw [hh] at hq
      cases hq
  reactions := hc.reactions
  promises := hc.promises

private theorem pop (hc : Caused loop links) {jobs : List (Handler × Bool)} (hjobs : loop.jobs = (h, ok) :: jobs) :
    Caused { loop with jobs } links where
  jobs h' ok' q hjob := hc.jobs h' ok' q (hjobs ▸ List.mem_cons_of_mem _ hjob)
  reactions := hc.reactions
  promises := hc.promises

/-- A reservation or a tail is settled only for a link that is executed. -/
private theorem settle (hc : Caused loop links)
    (hp : ∀ q, p = .reservation q ∨ p = .tail q → Executed loop links q) : Caused (loop.settle p ok) links where
  jobs h ok' q hjob hq := by
    rcases EventLoop.mem_jobs_settle hjob with hjob | hmem
    · exact (hc.jobs h ok' q hjob hq).mono fun _ => EventLoop.settle_outcome_mono
    · rcases hc.reactions p h q hmem hq with rfl | hends
      · exact (hp q (.inl rfl)).mono fun _ => EventLoop.settle_outcome_mono
      · exact ⟨p, hends, EventLoop.settle_outcome_self⟩
  reactions p' h q hmem := hc.reactions p' h q (EventLoop.mem_reactions_settle hmem)
  promises q hs := by
    have hexecuted : Executed loop links q := by
      by_cases hq : p = .reservation q ∨ p = .tail q
      · exact hp q hq
      · rw [not_or] at hq
        rw [EventLoop.settle_outcome_of_ne (Ne.symm hq.1), EventLoop.settle_outcome_of_ne (Ne.symm hq.2)] at hs
        exact hc.promises q hs
    exact hexecuted.mono fun _ => EventLoop.settle_outcome_mono

private theorem settleOther (hc : Caused loop links) (hp : ∀ q, p ≠ .reservation q ∧ p ≠ .tail q) :
    Caused (loop.settle p ok) links :=
  hc.settle fun q hq => by
    rcases hq with he | he
    · exact absurd he (hp q).1
    · exact absurd he (hp q).2

private theorem append (hc : Caused loop links) (link : Link) : Caused loop (links ++ [link]) where
  jobs h ok q hjob hq := by
    obtain ⟨p, hp, hs⟩ := hc.jobs h ok q hjob hq
    exact ⟨p, hp.append link, hs⟩
  reactions p h q hmem hq := (hc.reactions p h q hmem hq).imp_right fun hp => hp.append link
  promises q hs := by
    obtain ⟨p, hp, hs⟩ := hc.promises q hs
    exact ⟨p, hp.append link, hs⟩

end Caused

/-! ### The invariant -/

/-- The promises, reactions and frames of a link come with its turn. -/
structure InTurn (c : PgBridgeClient) (current : Option Nat) (waiting : List Nat) : Prop where
  held : Held c current waiting
  located : Located c.loop c.links fun q => q < c.links.length ∧ q ∉ waiting
  caused : Caused c.loop c.links
  begun : ∀ q, q ∈ c.received ∨ q ∈ c.rollbacks → q < c.links.length ∧ q ∉ waiting
  frames : ∀ frame ∈ c.stack, ∀ q, frame.call = some q → current = some q
  submissions : ∀ q query saved, .submission q query saved ∈ c.stack → c.links[q]? = some (.ordinary query)

namespace InTurn

/-- A step that neither begins nor releases a link. -/
private theorem keep (hc : InTurn c current waiting) (hq : Quiet Handler.link c.loop c'.loop)
    (hlocated : Located c'.loop c.links fun q => q < c.links.length ∧ q ∉ waiting)
    (hcaused : Caused c'.loop c.links) (hlinks : c'.links = c.links) (hreceived : c'.received = c.received)
    (hrollbacks : c'.rollbacks = c.rollbacks) (hslot : c'.querySubmissionChain = c.querySubmissionChain)
    (hstack : ∀ frame ∈ c'.stack, frame ∈ c.stack ∨ frame.call = none) : InTurn c' current waiting where
  held := hc.held.quiet hq hlinks hslot
  located := hlinks ▸ hlocated
  caused := hlinks ▸ hcaused
  begun q hq := by
    rw [hreceived, hrollbacks] at hq
    rw [hlinks]
    exact hc.begun q hq
  frames frame hmem q hcall := by
    rcases hstack frame hmem with hmem | hnone
    · exact hc.frames frame hmem q hcall
    · rw [hnone] at hcall
      cases hcall
  submissions q query saved hmem := by
    rcases hstack _ hmem with hmem | hnone
    · rw [hlinks]
      exact hc.submissions q query saved hmem
    · cases hnone

/-- The same for a step that leaves the calls and the slot alone. -/
private theorem keepSame (hc : InTurn c current waiting) (hsame : Same c c') (hq : Quiet Handler.link c.loop c'.loop)
    (hlocated : Located c'.loop c.links fun q => q < c.links.length ∧ q ∉ waiting) (hcaused : Caused c'.loop c.links) :
    InTurn c' current waiting :=
  hc.keep hq hlocated hcaused hsame.links hsame.received hsame.rollbacks hsame.chain fun _ hmem =>
    .inl (hsame.stack ▸ hmem)

private theorem current_begun (hc : InTurn c current waiting) (hq : current = some q) :
    q < c.links.length ∧ q ∉ waiting :=
  ⟨hc.held.lt_of_mem (by simp [hq]), hc.held.not_waiting hq⟩

/-- A promise of a link that has begun, but not its reservation or tail. -/
private theorem settle (hc : InTurn c current waiting) (hp : p.call = some q) (hq : q < c.links.length ∧ q ∉ waiting)
    (hnot : ∀ q, p ≠ .reservation q ∧ p ≠ .tail q) : InTurn { c with loop := c.loop.settle p ok } current waiting :=
  hc.keep (.settle (hc.held.nothing_waits fun q => (hnot q).2) fun q => (hnot q).2) (hc.located.settleCall hp hq)
    (hc.caused.settleOther hnot) rfl rfl rfl rfl fun _ hmem => .inl hmem

/-- A promise of no link. -/
private theorem settleOther (hc : InTurn c current waiting) (hp : p.call = none) :
    InTurn { c with loop := c.loop.settle p ok } current waiting := by
  have hnot : ∀ q, p ≠ .reservation q ∧ p ≠ .tail q := fun q => by
    constructor <;> rintro rfl <;> cases hp
  refine hc.keep (.settle (hc.held.nothing_waits fun q => (hnot q).2) fun q => (hnot q).2)
    (hc.located.settle fun q hq => ?_) (hc.caused.settleOther hnot) rfl rfl rfl rfl fun _ hmem => .inl hmem
  rw [hp] at hq
  cases hq

private theorem adopt (hc : InTurn c current waiting) (hp : p.call = some q) (hq : q < c.links.length ∧ q ∉ waiting) :
    InTurn { c with loop := c.loop.enqueue (.adopt p q) ok } current waiting :=
  hc.keep (.enqueue rfl) (hc.located.adopt hp hq) (hc.caused.enqueue rfl) rfl rfl rfl rfl fun _ hmem => .inl hmem

/-- A reaction about a link that has begun. -/
private theorem react (hc : InTurn c current waiting) (hcall : h.call = some q) (hp : p.call = some q)
    (hlink : h.link = none)
    (hrelease : h.release = none) (hadopt : ∀ p q, h ≠ .adopt p q) :
    InTurn { c with loop := c.loop.react p h } current waiting :=
  hc.keep (.react hlink) (hc.located.react hcall hp hadopt) (hc.caused.reactOther hrelease) rfl rfl rfl rfl
    fun _ hmem => .inl hmem

private theorem follow (hc : InTurn c current waiting) : InTurn (c.follow p) current waiting :=
  hc.keep (.react rfl) (hc.located.reactOther rfl rfl) (hc.caused.reactOther rfl) rfl rfl rfl rfl
    fun _ hmem => .inl hmem

/-- A job that begins no link. -/
private theorem pop (hc : InTurn c current waiting) {jobs : List (Handler × Bool)}
    (hjobs : c.loop.jobs = (h, ok) :: jobs)
    (hlink : h.link = none) : InTurn { c with loop := { c.loop with jobs } } current waiting :=
  hc.keep (.pop hjobs hlink) (hc.located.pop hjobs) (hc.caused.pop hjobs) rfl rfl rfl rfl fun _ hmem => .inl hmem

/-- A function without a link starts on the stack. -/
private theorem push (hc : InTurn c current waiting) {frame : Frame} (hcall : frame.call = none) :
    InTurn { c with stack := frame :: c.stack } current waiting := by
  refine hc.keep .refl hc.located hc.caused rfl rfl rfl rfl fun frame' hmem => ?_
  rcases List.mem_cons.mp hmem with rfl | hmem
  · exact .inr hcall
  · exact .inl hmem

private theorem restore (hc : InTurn c current waiting) (q : Nat) (saved : Option (Option Nat × Nat)) :
    InTurn (c.restore q saved) current waiting := by
  have hloop := restore_loop c q saved
  refine hc.keepSame (restore_same c q saved) ?_ ?_ ?_
  · rw [hloop]
    exact .refl
  · rw [hloop]
    exact hc.located
  · rw [hloop]
    exact hc.caused

/-- `query` goes on after its own `execute`. -/
private theorem submitted (hc : InTurn c current waiting) (hq : q < c.links.length ∧ q ∉ waiting)
    (hlink : c.links[q]? = some (.ordinary query)) : InTurn (c.submitted q query ok) current waiting := by
  have h₁ : InTurn { c with loop := if ok then c.loop else c.loop.settle (.raw q) false } current waiting := by
    cases ok with
    | true => exact hc
    | false => exact hc.settle rfl hq fun q => by constructor <;> intro he <;> cases he
  have hr : Reacts (Ends c.links) _ (c.submitted q query ok).loop := submitted_reacts fun _ hraw => .ordinary hlink hraw
  have hsame := submitted_same c q query ok
  exact h₁.keepSame ⟨hsame.links, hsame.received, hsame.expired, hsame.fired, hsame.rollbacks, hsame.stack, hsame.chain⟩
    (hr.quiet fun _ => Handler.link_of_submission) (h₁.located.reacts (fun _ _ => Ends.call) hr) (h₁.caused.reacts hr)

/-- The function on top of the stack returns. -/
private theorem leave {frame : Frame} {stack : List Frame} (hc : InTurn c current waiting)
    (hstack : c.stack = frame :: stack) :
    InTurn ({ c with stack }.leave ok frame) current waiting := by
  have hpop : InTurn { c with stack } current waiting :=
    hc.keep .refl hc.located hc.caused rfl rfl rfl rfl fun _ hmem => .inl (hstack ▸ List.mem_cons_of_mem _ hmem)
  have hmem : frame ∈ c.stack := hstack ▸ List.mem_cons_self ..
  have hbegun : ∀ q, frame.call = some q → q < c.links.length ∧ q ∉ waiting := fun q hcall =>
    hc.current_begun (hc.frames frame hmem q hcall)
  cases frame with
  | event => exact hpop
  | admission q => exact hpop
  | resume n => exact hpop.settleOther rfl
  | execution q saved =>
    have hlinks : ({ c with stack }.restore q saved).links = c.links := (restore_same { c with stack } q saved).links
    have hbegun := hbegun q rfl
    rw [← hlinks] at hbegun
    simp only [PgBridgeClient.leave]
    split
    · exact (hpop.restore q saved).adopt rfl hbegun
    · exact (hpop.restore q saved).settle rfl hbegun fun q => by constructor <;> intro he <;> cases he
  | submission q query saved =>
    have hlinks : ({ c with stack }.restore q saved).links = c.links := (restore_same { c with stack } q saved).links
    have hbegun := hbegun q rfl
    have hlink := hc.submissions q query saved hmem
    rw [← hlinks] at hbegun hlink
    exact (hpop.restore q saved).submitted hbegun hlink

/-- A new call. -/
private theorem newLink (hc : InTurn c current waiting) {current' : Option Nat} {waiting' : List Nat}
    (hheld : Held c' current' waiting') (hlinks : c'.links = c.links ++ [link])
    (hlocated : Located c'.loop (c.links ++ [link]) fun q => q < c.links.length ∧ q ∉ waiting)
    (hcaused : Caused c'.loop (c.links ++ [link]))
    (hcurrent : ∀ q, current = some q → current' = some q)
    (hwaiting : ∀ q ∈ waiting', q ∈ waiting ∨ q = c.links.length)
    (hbegun : ∀ q, q ∈ c'.received ∨ q ∈ c'.rollbacks →
      (q ∈ c.received ∨ q ∈ c.rollbacks) ∨ q = c.links.length ∧ q ∉ waiting')
    (hstack : ∀ frame ∈ c'.stack, frame ∈ c.stack ∨ frame.call = none ∨ ∃ query saved,
      frame = .submission c.links.length query saved ∧ current' = some c.links.length ∧ link = .ordinary query) :
    InTurn c' current' waiting' := by
  have hmono : ∀ q, q < c.links.length ∧ q ∉ waiting → q < c'.links.length ∧ q ∉ waiting' := by
    rintro q ⟨hlt, hnot⟩
    rw [hlinks, List.length_append]
    refine ⟨Nat.lt_add_right _ hlt, fun hmem => ?_⟩
    rcases hwaiting q hmem with hmem | rfl
    · exact hnot hmem
    · exact Nat.lt_irrefl _ hlt
  constructor
  case held => exact hheld
  case located =>
    rw [hlinks] at hmono ⊢
    exact hlocated.mono hmono
  case caused => exact hlinks ▸ hcaused
  case begun =>
    intro q hq
    rcases hbegun q hq with hq | ⟨rfl, hnot⟩
    · exact hmono q (hc.begun q hq)
    · rw [hlinks, List.length_append, List.length_singleton]
      exact ⟨Nat.lt_succ_self _, hnot⟩
  case frames =>
    intro frame hmem q hcall
    rcases hstack frame hmem with hmem | hnone | ⟨query, saved, rfl, hnew, -⟩
    · exact hcurrent q (hc.frames frame hmem q hcall)
    · rw [hnone] at hcall
      cases hcall
    · cases hcall
      exact hnew
  case submissions =>
    intro q query saved hmem
    rw [hlinks]
    rcases hstack _ hmem with hmem | hnone | ⟨query', saved', he, -, hlink⟩
    · have hold := hc.submissions q query saved hmem
      rw [List.getElem?_append_left (List.getElem?_eq_some_iff.mp hold).1, hold]
    · cases hnone
    · cases he
      rw [List.getElem?_concat_length, hlink]

/-- The tail of a new call is not settled. -/
private theorem fresh (hc : InTurn c current waiting) : c.loop.outcome (.tail c.links.length) = none :=
  hc.located.unsettled (fun h => Nat.lt_irrefl _ h.1) rfl

private theorem fresh_not_waiting (hc : InTurn c current waiting) : c.links.length ∉ waiting := fun hmem =>
  Nat.lt_irrefl _ (hc.held.lt_of_mem (List.mem_append_right _ hmem))

/-- An ordinary query that finds the slot empty. -/
private theorem submit (hc : InTurn c current waiting) (hempty : c.querySubmissionChain = none) {c₁ : PgBridgeClient}
    (hlinks : c₁.links = c.links ++ [.ordinary query]) (hreceived : c₁.received = c.received)
    (hstack : c₁.stack = c.stack) (hrollbacks : c₁.rollbacks = c.rollbacks)
    (hslot : c₁.querySubmissionChain = some (.tail c.links.length))
    (hloop : c₁.loop = c.loop.react (.reservation c.links.length) (.releaseTail c.links.length)) :
    InTurn { (c₁.execute c.links.length).2 with
      stack := .submission c.links.length query (c₁.execute c.links.length).1 :: (c₁.execute c.links.length).2.stack }
      (some c.links.length) [] := by
  obtain ⟨hl, hsame⟩ := execute_same c₁ c.links.length
  rw [hloop] at hl
  have hrec : (c₁.execute c.links.length).2.received = c.received ++ [c.links.length] := by
    rw [hsame.received, ← hreceived]
  have hroll : (c₁.execute c.links.length).2.rollbacks = c.rollbacks := hsame.rollbacks.trans hrollbacks
  have hstk : (c₁.execute c.links.length).2.stack = c.stack := hsame.stack.trans hstack
  obtain ⟨rfl, rfl⟩ := hc.held.empty hempty
  have hlinks' : (c₁.execute c.links.length).2.links = c.links ++ [.ordinary query] := hsame.links.trans hlinks
  refine hc.newLink ?_ hlinks' ?_ ?_ (fun _ he => by cases he) (fun _ hmem => by cases hmem) ?_ ?_
  · refine hc.held.start hempty ?_ hlinks' (fun he => by cases he) hc.fresh (hsame.chain.trans hslot)
    show Quiet _ c.loop (c₁.execute c.links.length).2.loop
    rw [hl]
    exact .react rfl
  · show Located (c₁.execute c.links.length).2.loop _ _
    rw [hl]
    exact (hc.located.append _).react rfl rfl fun _ _ he => by cases he
  · show Caused (c₁.execute c.links.length).2.loop _
    rw [hl]
    exact (hc.caused.append _).react fun q hq => by cases hq; exact .inl rfl
  · intro q hq
    dsimp only at hq
    rw [hrec, hroll, List.mem_append, List.mem_singleton] at hq
    rcases hq with (hq | rfl) | hq
    · exact .inl (.inl hq)
    · exact .inr ⟨rfl, by simp⟩
    · exact .inl (.inr hq)
  · intro frame hmem
    rcases List.mem_cons.mp hmem with rfl | hmem
    · exact .inr (.inr ⟨query, _, rfl, rfl, rfl⟩)
    · rw [hstk] at hmem
      exact .inl hmem

/-- An ordinary query behind `prior`. -/
private theorem chain (hc : InTurn c current waiting) {prior : PromiseId} (hprior : c.querySubmissionChain = some prior)
    {c₀ : PgBridgeClient} (hlinks : c₀.links = c.links ++ [.ordinary query]) (hloop : c₀.loop = c.loop)
    (hreceived : c₀.received = c.received) (hstack : c₀.stack = c.stack) (hrollbacks : c₀.rollbacks = c.rollbacks) :
    InTurn (c₀.chain c.links.length query prior) current (waiting ++ [c.links.length]) := by
  have hsame := chain_same c₀ c.links.length query prior
  have hlinks' := hsame.links.trans hlinks
  have hr : Reacts (Ends (c.links ++ [.ordinary query])) _ (c₀.chain c.links.length query prior).loop :=
    chain_reacts (.ordinary List.getElem?_concat_length (.inr rfl))
  rw [hloop] at hr
  refine hc.newLink (hc.held.join hprior (hr.quiet fun _ => Handler.link_of_submission) rfl hlinks'
    (fun he => by cases he) hc.fresh hsame.chain) hlinks' ?_ ?_ (fun _ he => he) (fun q hmem => by simpa using hmem)
    ?_ ?_
  · exact ((hc.located.append _).wait rfl List.getElem?_concat_length rfl).reacts (fun _ _ => Ends.call) hr
  · exact ((hc.caused.append _).reactOther rfl).reacts hr
  · intro q hq
    rw [hsame.received, hsame.rollbacks] at hq
    dsimp only at hq
    rw [hreceived, hrollbacks] at hq
    exact .inl hq
  · intro frame hmem
    rw [hsame.stack] at hmem
    exact .inl (hstack ▸ hmem)

private theorem newQuery (hc : InTurn c current waiting) (hquery : link.isQuery = true) :
    ∃ current' waiting', InTurn (c.query link) current' waiting' := by
  unfold PgBridgeClient.query
  cases link with
  | cleanup => cases hquery
  | submittable =>
    cases hslot : c.querySubmissionChain with
    | none =>
      dsimp only
      refine ⟨current, waiting, hc.newLink (hc.held.submittable .refl rfl hslot.symm) rfl (hc.located.append _)
        (hc.caused.append _) (fun _ he => he) (fun _ hmem => .inl hmem) (fun q hq => ?_) fun frame hmem => ?_⟩
      · rw [List.mem_append, List.mem_singleton] at hq
        rcases hq with (hq | rfl) | hq
        · exact .inl (.inl hq)
        · exact .inr ⟨rfl, hc.fresh_not_waiting⟩
        · exact .inl (.inr hq)
      · rcases List.mem_cons.mp hmem with rfl | hmem
        · exact .inr (.inl rfl)
        · exact .inl hmem
    | some prior =>
      dsimp only
      exact ⟨current, waiting, hc.newLink (hc.held.submittable (.react rfl) rfl hslot.symm) rfl
        ((hc.located.append _).wait rfl List.getElem?_concat_length rfl) ((hc.caused.append _).reactOther rfl)
        (fun _ he => he) (fun _ hmem => .inl hmem) (fun _ hq => .inl hq) fun _ hmem => .inl hmem⟩
  | ordinary query =>
    cases hslot : c.querySubmissionChain with
    | none =>
      dsimp only
      exact ⟨_, _, hc.submit hslot rfl rfl rfl rfl rfl rfl⟩
    | some prior =>
      dsimp only
      exact ⟨_, _, hc.chain hslot rfl rfl rfl rfl rfl⟩

private theorem chainRollbackCleanup (hc : InTurn c current waiting) :
    ∃ current' waiting', InTurn c.chainRollbackCleanup current' waiting' := by
  unfold PgBridgeClient.chainRollbackCleanup
  cases hslot : c.querySubmissionChain with
  | none =>
    obtain ⟨rfl, rfl⟩ := hc.held.empty hslot
    have hquiet : Quiet Handler.link (c.loop.enqueue (.cleanup c.links.length) true)
        ((c.loop.enqueue (.cleanup c.links.length) true).react (.raw c.links.length) (.releaseTail c.links.length)) :=
      .react rfl
    refine ⟨none, [c.links.length], hc.newLink
      (hc.held.enqueue hslot hquiet rfl rfl (fun he => by cases he) hc.fresh rfl) rfl ?_ ?_ (fun _ he => he)
      (fun q hmem => .inr (List.mem_singleton.mp hmem)) (fun _ hq => .inl hq)
      fun _ hmem => .inl hmem⟩
    · refine ((hc.located.append _).enqueue rfl fun q hq => ?_).react rfl rfl fun _ _ he => by cases he
      cases hq
      exact ⟨.cleanup, List.getElem?_concat_length, rfl⟩
    · refine ((hc.caused.append _).enqueue rfl).react fun q hq => ?_
      cases hq
      exact .inr (.cleanup List.getElem?_concat_length)
  | some prior =>
    refine ⟨current, waiting ++ [c.links.length], hc.newLink (hc.held.join (h := .cleanup c.links.length) hslot
      (.react rfl) rfl rfl (fun he => by cases he) hc.fresh rfl) rfl ?_ ?_ (fun _ he => he)
      (fun q hmem => by simpa using hmem) (fun _ hq => .inl hq) fun _ hmem => .inl hmem⟩
    · exact ((hc.located.append _).wait rfl List.getElem?_concat_length rfl).react rfl rfl fun _ _ he => by cases he
    · refine ((hc.caused.append _).reactOther rfl).react fun q hq => ?_
      cases hq
      exact .inr (.cleanup List.getElem?_concat_length)

/-- The first link that waits has its turn. -/
private theorem turn (hc : InTurn c current waiting) (hstack : c.stack = []) {jobs : List (Handler × Bool)}
    (hjobs : c.loop.jobs = (h, ok) :: jobs) (hs : h.link = some q) :
    ∃ waiting', InTurn { c with loop := { c.loop with jobs } } (some q) waiting' := by
  obtain ⟨rfl, ⟨rest, rfl⟩, -⟩ := hc.held.head hjobs hs
  have hmono : ∀ q', q' < c.links.length ∧ q' ∉ q :: rest → q' < c.links.length ∧ q' ∉ rest := fun q' hq' =>
    ⟨hq'.1, fun hmem => hq'.2 (List.mem_cons_of_mem _ hmem)⟩
  refine ⟨rest, hc.held.turn hjobs hs, (hc.located.pop hjobs).mono hmono, hc.caused.pop hjobs,
    fun q' hq' => hmono q' (hc.begun q' hq'), fun frame hmem => ?_, hc.submissions⟩
  rw [hstack] at hmem
  cases hmem

/-- pg receives a query, or a ROLLBACK. -/
private theorem receive (hc : InTurn c current waiting) (hq : q < c.links.length ∧ q ∉ waiting) :
    InTurn { c with received := c.received ++ [q] } current waiting :=
  ⟨hc.held.quiet .refl rfl rfl, hc.located, hc.caused, fun q' hq' => by
    rw [List.mem_append, List.mem_singleton] at hq'
    rcases hq' with (hq' | rfl) | hq'
    · exact hc.begun q' (.inl hq')
    · exact hq
    · exact hc.begun q' (.inr hq'), hc.frames, hc.submissions⟩

private theorem rollback (hc : InTurn c current waiting) (hq : q < c.links.length ∧ q ∉ waiting) :
    InTurn { c with rollbacks := c.rollbacks ++ [q] } current waiting :=
  ⟨hc.held.quiet .refl rfl rfl, hc.located, hc.caused, fun q' hq' => by
    rw [List.mem_append, List.mem_singleton] at hq'
    rcases hq' with hq' | hq' | rfl
    · exact hc.begun q' (.inl hq')
    · exact hc.begun q' (.inr hq')
    · exact hq, hc.frames, hc.submissions⟩

/-- The `execute` of the current link. -/
private theorem execute (hc : InTurn c (some q) waiting) :
    InTurn { (c.execute q).2 with stack := .execution q (c.execute q).1 :: (c.execute q).2.stack } (some q)
      waiting := by
  obtain ⟨hloop, hsame⟩ := execute_same c q
  have hexecuted : InTurn (c.execute q).2 (some q) waiting := by
    refine (hc.receive (hc.current_begun rfl)).keepSame hsame ?_ ?_ ?_
    · rw [hloop]
      exact .refl
    · rw [hloop]
      exact hc.located
    · rw [hloop]
      exact hc.caused
  refine ⟨hexecuted.held.quiet .refl rfl rfl, hexecuted.located, hexecuted.caused, hexecuted.begun, ?_, ?_⟩
  · intro frame hmem q' hcall
    rcases List.mem_cons.mp hmem with rfl | hmem
    · exact hcall
    · exact hexecuted.frames frame hmem q' hcall
  · intro q' query saved hmem
    rcases List.mem_cons.mp hmem with he | hmem
    · cases he
    · exact hexecuted.submissions q' query saved hmem

/-- The tail of a call is released. -/
private theorem release (hc : InTurn c current waiting) (hstack : c.stack = []) (hq : q < c.links.length ∧ q ∉ waiting)
    (hexecuted : Executed c.loop c.links q) : ∃ current', InTurn (c.runJob ok (.releaseTail q)) current' waiting := by
  have hlocated : Located (c.loop.settle (.tail q) true) c.links fun q => q < c.links.length ∧ q ∉ waiting :=
    hc.located.settleCall rfl hq
  have hcaused : Caused (c.loop.settle (.tail q) true) c.links := by
    refine hc.caused.settle fun q' hq' => ?_
    rcases hq' with he | he
    · cases he
    · cases he
      exact hexecuted
  have hframes : ∀ current' : Option Nat, ∀ frame ∈ c.stack, ∀ q, frame.call = some q → current' = some q := by
    intro current' frame hmem
    rw [hstack] at hmem
    cases hmem
  by_cases hcurrent : current = some q
  · subst hcurrent
    exact ⟨none, hc.held.release, hlocated, hcaused, hc.begun, hframes none, hc.submissions⟩
  · have hnot : q ∉ current.toList ++ waiting := by
      rw [List.mem_append, Option.mem_toList]
      rintro (he | hmem)
      · exact hcurrent he
      · exact hq.2 hmem
    exact ⟨current, hc.held.releaseOther hnot, hlocated, hcaused, hc.begun, hc.frames, hc.submissions⟩

/-- A microtask. -/
private theorem runJob (hc : InTurn c current waiting) (hstack : c.stack = []) {jobs : List (Handler × Bool)}
    (hjobs : c.loop.jobs = (h, ok) :: jobs) :
    ∃ current' waiting', InTurn ({ c with loop := { c.loop with jobs } }.runJob ok h) current' waiting' := by
  have hmem : (h, ok) ∈ c.loop.jobs := hjobs ▸ List.mem_cons_self ..
  have hbegun : ∀ q, h.call = some q → q < c.links.length ∧ q ∉ waiting := fun q => hc.located.jobs h ok q hmem
  have hexecuted : ∀ q, h.release = some q → Executed c.loop c.links q := fun q => hc.caused.jobs h ok q hmem
  cases h with
  | execute q =>
    obtain ⟨waiting', hturn⟩ := hc.turn hstack hjobs rfl
    simp only [PgBridgeClient.runJob]
    split
    · have hexpired : InTurn { c with loop := { c.loop with jobs }, expired := c.expired ++ [q] } (some q) waiting' :=
        hturn.keep .refl hturn.located hturn.caused rfl rfl rfl rfl fun _ hmem => .inl hmem
      have hq := hexpired.current_begun rfl
      have hnot : ∀ q', PromiseId.result q ≠ .reservation q' ∧ PromiseId.result q ≠ .tail q' := fun q' => by
        constructor <;> intro he <;> cases he
      exact ⟨some q, waiting', (hexpired.settle rfl hq hnot).adopt rfl hq⟩
    · exact ⟨some q, waiting', hturn.execute⟩
  | admitSubmittable q =>
    obtain ⟨link, hlink, hsubmits⟩ := hc.located.kinds (.admitSubmittable q) q (.inl ⟨ok, hmem⟩) rfl
    have hnot : q ∉ waiting := by
      intro hwait
      obtain ⟨link', hlink', hne⟩ := ((hc.held.mem q).mp (List.mem_append_right _ hwait)).1
      rw [hlink, Option.some.injEq] at hlink'
      subst hlink'
      cases link with
      | submittable => exact hne rfl
      | _ => cases hsubmits
    have hlt := (List.getElem?_eq_some_iff.mp hlink).1
    exact ⟨current, waiting, ((hc.pop hjobs rfl).receive ⟨hlt, hnot⟩).push rfl⟩
  | cleanup q =>
    obtain ⟨waiting', hturn⟩ := hc.turn hstack hjobs rfl
    have hq := hturn.current_begun rfl
    simp only [PgBridgeClient.runJob]
    split
    · exact ⟨some q, waiting',
        ((hturn.rollback hq).react (h := .rolledBack q) rfl rfl rfl rfl fun _ _ he => by cases he).adopt rfl hq⟩
    · have hnot : ∀ q', PromiseId.rollback q ≠ .reservation q' ∧ PromiseId.rollback q ≠ .tail q' := fun q' => by
        constructor <;> intro he <;> cases he
      exact ⟨some q, waiting', (hturn.settle rfl hq hnot).adopt rfl hq⟩
  | adopt p q =>
    have hp := hc.located.adopted p q ok hmem
    exact ⟨current, waiting, (hc.pop hjobs rfl).react rfl hp rfl rfl fun _ _ he => by cases he⟩
  | forward q | evict q | rolledBack q =>
    refine ⟨current, waiting, (hc.pop hjobs rfl).settle rfl (hbegun q rfl) fun q => ?_⟩
    constructor <;> intro he <;> cases he
  | clearTimer q =>
    exact ⟨current, waiting, (hc.pop hjobs rfl).keep .refl (hc.located.pop hjobs) (hc.caused.pop hjobs) rfl rfl rfl rfl
      fun _ hmem => .inl hmem⟩
  | settleRace q => exact ⟨current, waiting, (hc.pop hjobs rfl).settleOther rfl⟩
  | resolveReservation q =>
    have hpop := hc.pop hjobs rfl
    refine ⟨current, waiting, hpop.keep (.settle (hpop.held.nothing_waits ?_) ?_)
      (hpop.located.settleCall rfl (hbegun q rfl)) (hpop.caused.settle fun q' hq' => ?_) rfl rfl rfl rfl
      fun _ hmem => .inl hmem⟩
    · exact fun _ he => by cases he
    · exact fun _ he => by cases he
    · rcases hq' with he | he
      · cases he
        exact hexecuted q rfl
      · cases he
  | releaseTail q =>
    obtain ⟨current', hrelease⟩ := (hc.pop hjobs rfl).release hstack (hbegun q rfl) (hexecuted q rfl)
    exact ⟨current', waiting, hrelease⟩
  | resume n => exact ⟨current, waiting, (hc.pop hjobs rfl).push rfl⟩

/-- One step. -/
private theorem step (hc : InTurn c current waiting) (hs : c.step a = some c') :
    ∃ current' waiting', InTurn c' current' waiting' := by
  cases a with
  | event =>
    simp only [PgBridgeClient.step] at hs
    split at hs
    · rename_i hstack
      cases hs
      refine ⟨current, waiting, hc.keep .refl hc.located hc.caused rfl rfl rfl rfl fun frame hmem => ?_⟩
      rw [List.mem_singleton.mp hmem]
      exact .inr rfl
    · cases hs
  | leave ok =>
    simp only [PgBridgeClient.step] at hs
    split at hs
    · cases hs
    · rename_i frame stack hstack
      cases hs
      exact ⟨current, waiting, hc.leave hstack⟩
  | query link =>
    simp only [PgBridgeClient.step] at hs
    split at hs
    · rename_i hguard
      cases hs
      exact hc.newQuery hguard.2
    · cases hs
  | chainRollbackCleanup =>
    simp only [PgBridgeClient.step] at hs
    split at hs
    · cases hs
      exact hc.chainRollbackCleanup
    · cases hs
  | thenQuery q =>
    simp only [PgBridgeClient.step] at hs
    split at hs
    · cases hs
      exact ⟨current, waiting, hc.follow⟩
    · cases hs
  | thenReaction n =>
    simp only [PgBridgeClient.step] at hs
    split at hs
    · cases hs
      exact ⟨current, waiting, hc.follow⟩
    · cases hs
  | complete q ok =>
    simp only [PgBridgeClient.step] at hs
    split at hs
    · rename_i hguard
      cases hs
      refine ⟨current, waiting, hc.settle rfl (hc.begun q hguard.2) fun q => ?_⟩
      constructor <;> intro he <;> cases he
    · cases hs
  | fire q =>
    simp only [PgBridgeClient.step] at hs
    split at hs
    · cases hs
      refine ⟨current, waiting, hc.keep (.enqueue rfl) (hc.located.enqueue rfl fun _ he => by cases he)
        (hc.caused.enqueue rfl) rfl rfl rfl rfl fun _ hmem => .inl hmem⟩
    · cases hs
  | setTransaction inTransaction =>
    simp only [PgBridgeClient.step] at hs
    split at hs
    · cases hs
      exact ⟨current, waiting, hc.keep .refl hc.located hc.caused rfl rfl rfl rfl fun _ hmem => .inl hmem⟩
    · cases hs
  | job =>
    simp only [PgBridgeClient.step] at hs
    split at hs
    · rename_i handler ok jobs hstack hjobs
      cases hs
      exact hc.runJob hstack hjobs
    · cases hs

end InTurn

private theorem inTurn_initial (connectionTimeout : Nat) : InTurn (initial connectionTimeout) none [] where
  held := by
    refine ⟨rfl, rfl, fun _ => rfl, .nil, fun q => ?_⟩
    simp [Chained, initial]
  located := (ordered_initial connectionTimeout).located.mono fun q hq => by cases hq
  caused := ⟨(fun _ _ _ h => by cases h), (fun _ _ _ h => by cases h), fun q h => by simp [initial] at h⟩
  begun := fun q hq => by simp [initial] at hq
  frames := fun _ h => by cases h
  submissions := fun _ _ _ h => by cases h

/-- In every run the links have their turns one after the other. -/
theorem inTurn {t : Nat} {cond : PgBridgeClient → ClientAction → Prop} (run : Run step cond (initial t) c) :
    ∃ current waiting, InTurn c current waiting := by
  induction run with
  | refl => exact ⟨none, [], inTurn_initial t⟩
  | snoc _ _ hs ih =>
    obtain ⟨current, waiting, hc⟩ := ih
    exact hc.step hs

end PgBridgeClient

end PgliteBridge
