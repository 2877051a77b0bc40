import PgliteBridge.SubmissionChain
import Mathlib.Data.List.Chain
import Mathlib.Data.List.Range

/-!
# Submissions in call order

The calls not yet submitted wait in call order: first the reactions in the job queue, then segments of reactions on the
tails, each tail of a segment but the first being that of a query in the segment before (`Line`).  A call that finds the
slot empty is submitted at once, so it must not find a Submittable in the job queue (`Calm`).
-/

namespace PgliteBridge

open TransitionSystem

/-- The call that a reaction submits. -/
def Handler.submission : Handler → Option Nat
  | .execute q => some q
  | .admitSubmittable q => some q
  | .cleanup q => some q
  | _ => none

/-- A reaction that submits a query, not a ROLLBACK. -/
def Handler.isQuery : Handler → Bool
  | .cleanup _ => false
  | _ => true

/-- The links that a reaction can submit. -/
def Handler.submits : Handler → Link → Bool
  | .execute _, .ordinary _ => true
  | .admitSubmittable _, .submittable => true
  | .cleanup _, .cleanup => true
  | _, _ => false

private theorem Handler.isQuery_of_submits {h : Handler} {link : Link} (hs : h.submits link = true) :
    link.isQuery = h.isQuery := by
  cases h <;> cases link <;> first | rfl | cases hs

/-- The call whose promises a reaction is about, once the call is submitted. -/
def Handler.call : Handler → Option Nat
  | .adopt _ q => some q
  | .forward q => some q
  | .evict q => some q
  | .rolledBack q => some q
  | .resolveReservation q => some q
  | .releaseTail q => some q
  | _ => none

/-- The call that a promise is settled for, once the call is submitted. -/
def PromiseId.call : PromiseId → Option Nat
  | .result q => some q
  | .raw q => some q
  | .execution q => some q
  | .rollback q => some q
  | .reservation q => some q
  | .tail q => some q
  | _ => none

/-- The call whose `execute` is running. -/
def Frame.call : Frame → Option Nat
  | .submission q _ _ => some q
  | .execution q _ => some q
  | _ => none

namespace PgBridgeClient

abbrev Loop := EventLoop PromiseId Handler Bool

variable {c c' : PgBridgeClient} {loop loop' : Loop} {k q n : Nat} {segs : List (Nat × List Nat)} {p : PromiseId}
  {links : List Link} {h : Handler} {ok : Bool} {query : OrdinaryQuery} {link : Link} {a : ClientAction}

/-! ### What the parts of `query` leave alone -/

structure Same (c c' : PgBridgeClient) : Prop where
  links : c'.links = c.links
  received : c'.received = c.received
  expired : c'.expired = c.expired
  fired : c'.fired = c.fired
  rollbacks : c'.rollbacks = c.rollbacks
  stack : c'.stack = c.stack
  chain : c'.querySubmissionChain = c.querySubmissionChain

theorem Same.trans {c'' : PgBridgeClient} (h : Same c c') (h' : Same c' c'') : Same c c'' :=
  ⟨h'.links.trans h.links, h'.received.trans h.received, h'.expired.trans h.expired, h'.fired.trans h.fired,
    h'.rollbacks.trans h.rollbacks, h'.stack.trans h.stack, h'.chain.trans h.chain⟩

theorem Same.setLoop (h : Same c c') (loop : Loop) : Same c { c' with loop } :=
  ⟨h.links, h.received, h.expired, h.fired, h.rollbacks, h.stack, h.chain⟩

theorem observe_same (c : PgBridgeClient) (q : Nat) (query : OrdinaryQuery) (p : PromiseId) :
    Same c (c.observe q query p) := by
  unfold observe
  dsimp only
  split <;> exact ⟨rfl, rfl, rfl, rfl, rfl, rfl, rfl⟩

theorem returnPromise_same (c : PgBridgeClient) (q : Nat) (query : OrdinaryQuery) (p : PromiseId) :
    Same c (c.returnPromise q query p) := by
  unfold returnPromise
  dsimp only
  split <;> exact ⟨rfl, rfl, rfl, rfl, rfl, rfl, rfl⟩

theorem restore_same (c : PgBridgeClient) (q : Nat) (saved : Option (Option Nat × Nat)) :
    Same c (c.restore q saved) := by
  cases saved <;> exact ⟨rfl, rfl, rfl, rfl, rfl, rfl, rfl⟩

@[simp] theorem restore_loop (c : PgBridgeClient) (q : Nat) (saved : Option (Option Nat × Nat)) :
    (c.restore q saved).loop = c.loop := by
  cases saved <;> rfl

/-- `execute` hands the call to pg. -/
theorem execute_same (c : PgBridgeClient) (q : Nat) : (c.execute q).2.loop = c.loop ∧
    Same { c with received := c.received ++ [q] } (c.execute q).2 := by
  unfold execute
  split <;> exact ⟨rfl, rfl, rfl, rfl, rfl, rfl, rfl, rfl⟩

/-! ### Reactions that submit nothing -/

/-- The waiting reactions that `f` selects and the tails are the same. -/
structure Quiet (f : Handler → Option Nat) (loop loop' : Loop) : Prop where
  queued : loop'.queued f = loop.queued f
  waiting : ∀ p, loop'.waiting f p = loop.waiting f p
  tails : ∀ q, loop'.outcome (.tail q) = loop.outcome (.tail q)

namespace Quiet

variable {f : Handler → Option Nat}

theorem refl : Quiet f loop loop := ⟨rfl, fun _ => rfl, fun _ => rfl⟩

private theorem trans {loop'' : Loop} (h : Quiet f loop loop') (h' : Quiet f loop' loop'') : Quiet f loop loop'' :=
  ⟨h'.queued.trans h.queued, fun p => (h'.waiting p).trans (h.waiting p), fun q => (h'.tails q).trans (h.tails q)⟩

theorem react (hk : f h = none) : Quiet f loop (loop.react p h) :=
  ⟨EventLoop.queued_react_none hk, fun _ => EventLoop.waiting_react_none hk, fun _ => by rw [EventLoop.react_outcome]⟩

theorem enqueue (hk : f h = none) : Quiet f loop (loop.enqueue h ok) := by
  refine ⟨?_, fun _ => rfl, fun _ => rfl⟩
  rw [EventLoop.queued_enqueue, hk, Option.toList_none, List.append_nil]

theorem settle (hw : loop.waiting f p = []) (hp : ∀ q, p ≠ .tail q) : Quiet f loop (loop.settle p ok) :=
  ⟨EventLoop.queued_settle_nil hw, fun _ => EventLoop.waiting_settle_nil hw,
    fun q => EventLoop.settle_outcome_of_ne (hp q).symm⟩

theorem pop {jobs : List (Handler × Bool)} (hjobs : loop.jobs = (h, ok) :: jobs) (hk : f h = none) :
    Quiet f loop { loop with jobs } := by
  refine ⟨?_, fun _ => rfl, fun _ => rfl⟩
  simp [EventLoop.queued, hjobs, hk]

end Quiet

theorem executionPromise_call (hp : p.call = some q) : (executionPromise query p q).call = some q := by
  unfold executionPromise
  split
  · rfl
  · exact hp

/-- What the reactions that submit nothing wait on, where `ends q p` says that `p` settles with the execution of `q`. -/
inductive Attached (ends : Nat → PromiseId → Prop) : PromiseId → Handler → Prop
  | clearTimer (p : PromiseId) (q : Nat) : Attached ends p (.clearTimer q)
  | settleRace (p : PromiseId) (q : Nat) : Attached ends p (.settleRace q)
  | resume (p : PromiseId) (n : Nat) : Attached ends p (.resume n)
  | forward {p : PromiseId} {q : Nat} (hp : p.call = some q) : Attached ends p (.forward q)
  | evict {p : PromiseId} {q : Nat} (hp : p.call = some q) : Attached ends p (.evict q)
  | rolledBack (q : Nat) : Attached ends (.result q) (.rolledBack q)
  | resolveReservation {p : PromiseId} {q : Nat} (hp : ends q p) : Attached ends p (.resolveReservation q)
  | releaseReservation (q : Nat) : Attached ends (.reservation q) (.releaseTail q)
  | releaseTail {p : PromiseId} {q : Nat} (hp : ends q p) : Attached ends p (.releaseTail q)

/-- Such reactions, one after the other. -/
inductive Reacts (ends : Nat → PromiseId → Prop) (loop : Loop) : Loop → Prop
  | refl : Reacts ends loop loop
  | react {loop' : Loop} {p : PromiseId} {h : Handler} (hr : Reacts ends loop loop') (ha : Attached ends p h) :
      Reacts ends loop (loop'.react p h)

section Reacts

variable {ends : Nat → PromiseId → Prop}

private theorem Attached.submission (ha : Attached ends p h) : h.submission = none := by
  cases ha <;> rfl

private theorem Attached.call (hends : ∀ q p, ends q p → p.call = some q) (ha : Attached ends p h)
    (hq : h.call = some q) :
    p.call = some q := by
  cases ha with
  | clearTimer | settleRace | resume => cases hq
  | forward hp | evict hp =>
    cases hq
    exact hp
  | rolledBack | releaseReservation =>
    cases hq
    rfl
  | resolveReservation hp | releaseTail hp =>
    cases hq
    exact hends _ _ hp

private theorem Attached.not_adopt (ha : Attached ends p h) (p' : PromiseId) (q : Nat) : h ≠ .adopt p' q := by
  intro he
  subst he
  cases ha

private theorem Reacts.trans {loop'' : Loop} (hr : Reacts ends loop loop') (hr' : Reacts ends loop' loop'') :
    Reacts ends loop loop'' := by
  induction hr' with
  | refl => exact hr
  | react _ ha ih => exact ih.react ha

theorem Reacts.quiet {f : Handler → Option Nat} (hr : Reacts ends loop loop')
    (hf : ∀ h, h.submission = none → f h = none) : Quiet f loop loop' := by
  induction hr with
  | refl => exact .refl
  | react _ ha ih => exact ih.trans (.react (hf _ ha.submission))

private theorem observe_reacts (hp : p.call = some q) : Reacts ends c.loop (c.observe q query p).loop := by
  unfold observe
  dsimp only
  have hevict : Reacts ends c.loop (if query.dealloc then c.loop.react p (.evict q) else c.loop) := by
    split
    · exact Reacts.refl.react (.evict hp)
    · exact .refl
  split
  · exact (hevict.react (.clearTimer _ q)).react (.settleRace _ q)
  · exact hevict

private theorem returnPromise_reacts : Reacts ends c.loop (c.returnPromise q query p).loop := by
  unfold returnPromise
  dsimp only
  split
  · exact Reacts.refl.react (.resume _ _)
  · exact .refl

/-- The rest of `query` after its own `execute`. -/
theorem submitted_reacts (hends : ∀ raw, raw = .result q ∨ raw = .raw q → ends q (executionPromise query raw q)) :
    Reacts ends (if ok then c.loop else c.loop.settle (.raw q) false) (c.submitted q query ok).loop := by
  let c₁ := if ok then c else { c with loop := c.loop.settle (.raw q) false }
  let raw := if ok then PromiseId.result q else .raw q
  let c₂ := c₁.observe q query raw
  let c₃ : PgBridgeClient := { c₂ with loop := c₂.loop.react (executionPromise query raw q) (.resolveReservation q) }
  have hraw : raw = .result q ∨ raw = .raw q := by cases ok <;> simp [raw]
  have hcall : raw.call = some q := by rcases hraw with he | he <;> rw [he] <;> rfl
  have hloop : c₁.loop = if ok then c.loop else c.loop.settle (.raw q) false := by cases ok <;> rfl
  have h₂ : Reacts ends c₁.loop c₃.loop := (observe_reacts hcall).react (.resolveReservation (hends raw hraw))
  rw [← hloop]
  exact h₂.trans (returnPromise_reacts (c := c₃))

theorem chain_reacts {prior : PromiseId} (hends : ends q (executionPromise query (.raw q) q)) :
    Reacts ends (c.loop.react prior (.execute q)) (c.chain q query prior).loop := by
  let c₁ : PgBridgeClient := { c with loop := c.loop.react prior (.execute q) }
  let c₂ := c₁.observe q query (.raw q)
  let c₃ : PgBridgeClient := { c₂ with
    loop := c₂.loop.react (executionPromise query (.raw q) q) (.releaseTail q)
    querySubmissionChain := some (.tail q) }
  have h₂ : Reacts ends c₁.loop c₃.loop := (observe_reacts rfl).react (.releaseTail hends)
  exact h₂.trans (returnPromise_reacts (c := c₃))

end Reacts

theorem submitted_same (c : PgBridgeClient) (q : Nat) (query : OrdinaryQuery) (ok : Bool) :
    Same c (c.submitted q query ok) := by
  cases ok with
  | true => exact ((observe_same c q query (.result q)).setLoop _).trans (returnPromise_same _ q query _)
  | false =>
    have hsame := observe_same { c with loop := c.loop.settle (.raw q) false } q query (.raw q)
    have hthrown : Same c { c with loop := c.loop.settle (.raw q) false } := ⟨rfl, rfl, rfl, rfl, rfl, rfl, rfl⟩
    exact ((hthrown.trans hsame).setLoop _).trans (returnPromise_same _ q query _)

/-- `query` behind `prior` takes the slot. -/
theorem chain_same (c : PgBridgeClient) (q : Nat) (query : OrdinaryQuery) (prior : PromiseId) :
    Same { c with querySubmissionChain := some (.tail q) } (c.chain q query prior) := by
  have hsame := observe_same { c with loop := c.loop.react prior (.execute q) } q query (.raw q)
  refine Same.trans ?_ (returnPromise_same _ q query _)
  exact ⟨hsame.links, hsame.received, hsame.expired, hsame.fired, hsame.rollbacks, hsame.stack, rfl⟩

/-! ### The line of waiting calls -/

/-- The calls before `k` are submitted, expired or cleanup links that have run; the others wait. -/
structure Line (c : PgBridgeClient) (k : Nat) (segs : List (Nat × List Nat)) : Prop where
  le : k ≤ c.links.length
  order : c.loop.queued Handler.submission ++ (segs.map Prod.snd).flatten = List.range' k (c.links.length - k)
  waits : ∀ seg ∈ segs, c.loop.waiting Handler.submission (.tail seg.1) = seg.2
  unsettled : ∀ seg ∈ segs, c.loop.outcome (.tail seg.1) = none
  others : ∀ p, (∀ seg ∈ segs, p ≠ .tail seg.1) → c.loop.waiting Handler.submission p = []
  sorted : (segs.map Prod.fst).Pairwise (· < ·)
  later : ∀ seg ∈ segs, ∀ q ∈ seg.2, seg.1 < q
  bound : ∀ seg ∈ segs, seg.1 < c.links.length
  tails : ∀ seg ∈ segs, c.links[seg.1]? ≠ some .submittable
  linked : segs.IsChain fun x y => y.1 ∈ x.2
  slot : c.querySubmissionChain = segs.getLast?.map fun seg => PromiseId.tail seg.1
  expired : ∀ q ∈ c.expired, q < k
  received : c.received =
    (List.range k).filter fun q => (c.links[q]?).any Link.isQuery && decide (q ∉ c.expired)

namespace Line

private theorem quiet (hline : Line c k segs) (hq : Quiet Handler.submission c.loop c'.loop)
    (hlinks : c'.links = c.links)
    (hreceived : c'.received = c.received) (hexpired : c'.expired = c.expired)
    (hchain : c'.querySubmissionChain = c.querySubmissionChain) : Line c' k segs where
  le := hlinks ▸ hline.le
  order := by rw [hq.queued, hlinks, hline.order]
  waits seg hseg := by rw [hq.waiting, hline.waits seg hseg]
  unsettled seg hseg := by rw [hq.tails, hline.unsettled seg hseg]
  others p hp := by rw [hq.waiting, hline.others p hp]
  sorted := hline.sorted
  later := hline.later
  bound := hlinks ▸ hline.bound
  tails := hlinks ▸ hline.tails
  linked := hline.linked
  slot := by rw [hchain, hline.slot]
  expired := hexpired ▸ hline.expired
  received := by rw [hreceived, hlinks, hexpired, hline.received]

private theorem same (hline : Line c k segs) (hsame : Same c c') (hq : Quiet Handler.submission c.loop c'.loop) :
    Line c' k segs :=
  hline.quiet hq hsame.links hsame.received hsame.expired hsame.chain

/-- Nothing waits on a promise that is not a tail. -/
private theorem nothing_waits (hline : Line c k segs) (hp : ∀ q, p ≠ .tail q) :
    c.loop.waiting Handler.submission p = [] :=
  hline.others p fun seg _ => hp seg.1

/-- A promise that is no tail is settled and adopted at once. -/
private theorem settleAdopt (hline : Line c k segs) {ok' : Bool} (hp : ∀ q, p ≠ .tail q) :
    Line { c with loop := (c.loop.settle p ok).enqueue (.adopt p q) ok' } k segs :=
  hline.quiet ((Quiet.settle (hline.nothing_waits hp) hp).trans (.enqueue rfl)) rfl rfl rfl rfl

/-- Every waiting call comes after those submitted. -/
theorem ge_of_mem (hline : Line c k segs)
    (hq : q ∈ c.loop.queued Handler.submission ++ (segs.map Prod.snd).flatten) : k ≤ q := by
  rw [hline.order, List.mem_range'_1] at hq
  exact hq.1

/-- The tail of a submitted call can only head the first segment. -/
private theorem eq_head (hline : Line c k segs) (hq : q < k) {seg : Nat × List Nat} (hseg : seg ∈ segs.tail) :
    seg.1 ≠ q := by
  intro he
  have hmem : ∀ segs : List (Nat × List Nat), segs.IsChain (fun x y => y.1 ∈ x.2) →
      ∀ seg ∈ segs.tail, seg.1 ∈ (segs.map Prod.snd).flatten := by
    intro segs hchain
    induction segs with
    | nil => simp
    | cons x rest ih =>
      intro seg hseg
      rw [List.tail_cons] at hseg
      cases rest with
      | nil => cases hseg
      | cons y rest =>
        rw [List.isChain_cons_cons] at hchain
        rcases List.mem_cons.mp hseg with rfl | hseg
        · simp [hchain.1]
        · have hin := ih hchain.2 seg hseg
          rw [List.map_cons, List.flatten_cons, List.mem_append]
          exact Or.inr hin
  have hge := hline.ge_of_mem (List.mem_append_right _ (hmem segs hline.linked seg hseg))
  omega

end Line

namespace Line

private theorem head (hline : Line c k segs) {jobs : List (Handler × Bool)} (hjobs : c.loop.jobs = (h, ok) :: jobs)
    (hs : h.submission = some q) : q = k ∧ k < c.links.length ∧
      jobs.filterMap (fun job => job.1.submission) ++ (segs.map Prod.snd).flatten =
        List.range' (k + 1) (c.links.length - (k + 1)) := by
  have horder := hline.order
  simp only [EventLoop.queued, hjobs, List.filterMap_cons, hs, List.cons_append] at horder
  cases hn : c.links.length - k with
  | zero =>
    rw [hn] at horder
    cases horder
  | succ m =>
    rw [hn, List.range'_succ, List.cons.injEq] at horder
    have hm : c.links.length - (k + 1) = m := by omega
    rw [hm]
    exact ⟨horder.1, by omega, horder.2⟩

/-- The first call in the job queue has its turn. -/
private theorem start (hline : Line c k segs) {jobs : List (Handler × Bool)} (hjobs : c.loop.jobs = (h, ok) :: jobs)
    (hs : h.submission = some q) (received expired : List Nat) (hexpired : ∀ q ∈ expired, q < k + 1)
    (hreceived : received =
      (List.range (k + 1)).filter fun q => (c.links[q]?).any Link.isQuery && decide (q ∉ expired)) :
    Line { c with loop := { c.loop with jobs }, received, expired } (k + 1) segs where
  le := (hline.head hjobs hs).2.1
  order := (hline.head hjobs hs).2.2
  waits := hline.waits
  unsettled := hline.unsettled
  others := hline.others
  sorted := hline.sorted
  later := hline.later
  bound := hline.bound
  tails := hline.tails
  linked := hline.linked
  slot := hline.slot
  expired := hexpired
  received := hreceived

private theorem received_succ (hline : Line c k segs) (hlink : c.links[k]? = some link) (hquery : link.isQuery = true) :
    c.received ++ [k] =
      (List.range (k + 1)).filter fun q => (c.links[q]?).any Link.isQuery && decide (q ∉ c.expired) := by
  have hk : k ∉ c.expired := fun hmem => Nat.lt_irrefl k (hline.expired k hmem)
  rw [hline.received, List.range_succ, List.filter_append]
  simp [hlink, hquery, hk]

private theorem expired_succ (hline : Line c k segs) :
    c.received = (List.range (k + 1)).filter fun q =>
      (c.links[q]?).any Link.isQuery && decide (q ∉ c.expired ++ [k]) := by
  rw [hline.received, List.range_succ, List.filter_append]
  simp only [List.mem_append, List.mem_singleton, List.filter_cons, List.filter_nil, or_true, not_true_eq_false,
    decide_false, Bool.and_false, Bool.false_eq_true, if_false, List.append_nil]
  refine List.filter_congr fun q hq => ?_
  have hne : q ≠ k := by
    rw [List.mem_range] at hq
    omega
  simp [hne]

private theorem cleanup_succ (hline : Line c k segs) (hlink : c.links[k]? = some link) (hquery : link.isQuery = false) :
    c.received =
      (List.range (k + 1)).filter fun q => (c.links[q]?).any Link.isQuery && decide (q ∉ c.expired) := by
  rw [hline.received, List.range_succ, List.filter_append]
  simp [hlink, hquery]

/-- The calls that waited on the tail of a submitted call move to the job queue. -/
private theorem release (hline : Line c k segs) (hq : q < k) :
    ∃ segs', Line { c with
      querySubmissionChain := if c.querySubmissionChain = some (.tail q) then none else c.querySubmissionChain
      loop := c.loop.settle (.tail q) true } k segs' := by
  have hsegs : (∃ L rest, segs = (q, L) :: rest) ∨ ∀ seg ∈ segs, seg.1 ≠ q := by
    cases segs with
    | nil => exact Or.inr (by simp)
    | cons x rest =>
      by_cases hx : x.1 = q
      · subst hx
        exact Or.inl ⟨x.2, rest, rfl⟩
      · right
        intro seg hseg
        rcases List.mem_cons.mp hseg with rfl | hseg
        · exact hx
        · exact hline.eq_head hq hseg
  rcases hsegs with ⟨L, rest, rfl⟩ | hsegs
  · have hL := hline.waits _ (List.mem_cons_self ..)
    have hnone := hline.unsettled _ (List.mem_cons_self ..)
    dsimp only at hL hnone
    have hrest : ∀ seg ∈ rest, seg.1 ≠ q := fun seg hseg => hline.eq_head hq hseg
    have hne : ∀ seg ∈ rest, PromiseId.tail seg.1 ≠ .tail q := by
      intro seg hseg he
      cases he
      exact hrest seg hseg rfl
    refine ⟨rest, ?_⟩
    constructor
    case le => exact hline.le
    case order =>
      have horder := hline.order
      rw [List.map_cons, List.flatten_cons, ← List.append_assoc] at horder
      rw [EventLoop.queued_settle _ hnone, hL, horder]
    case waits =>
      intro seg hseg
      rw [EventLoop.waiting_settle_of_ne _ (hne seg hseg)]
      exact hline.waits seg (List.mem_cons_of_mem _ hseg)
    case unsettled =>
      intro seg hseg
      rw [EventLoop.settle_outcome_of_ne (hne seg hseg)]
      exact hline.unsettled seg (List.mem_cons_of_mem _ hseg)
    case others =>
      intro p hp
      by_cases hpq : p = .tail q
      · subst hpq
        exact EventLoop.waiting_settle_self _ hnone
      · rw [EventLoop.waiting_settle_of_ne _ hpq]
        refine hline.others p fun seg hseg => ?_
        rcases List.mem_cons.mp hseg with rfl | hseg
        · exact hpq
        · exact hp seg hseg
    case sorted => exact (List.pairwise_cons.mp hline.sorted).2
    case later => exact fun seg hseg => hline.later seg (List.mem_cons_of_mem _ hseg)
    case bound => exact fun seg hseg => hline.bound seg (List.mem_cons_of_mem _ hseg)
    case tails => exact fun seg hseg => hline.tails seg (List.mem_cons_of_mem _ hseg)
    case linked => exact hline.linked.tail
    case slot =>
      have hslot := hline.slot
      cases rest with
      | nil =>
        rw [List.getLast?_singleton] at hslot
        simp [hslot]
      | cons y rest =>
        rw [List.getLast?_cons_cons] at hslot
        have hlast : (y :: rest).getLast (by simp) ∈ y :: rest := List.getLast_mem _
        rw [List.getLast?_eq_getLast_of_ne_nil (by simp), Option.map_some] at hslot ⊢
        rw [hslot, if_neg]
        intro he
        rw [Option.some.injEq] at he
        exact hne _ hlast he
    case expired => exact hline.expired
    case received => exact hline.received
  · have hne : ∀ seg ∈ segs, PromiseId.tail seg.1 ≠ .tail q := by
      intro seg hseg he
      cases he
      exact hsegs seg hseg rfl
    have hnothing : c.loop.waiting Handler.submission (.tail q) = [] :=
      hline.others _ fun seg hseg => (hne seg hseg).symm
    have hslot : c.querySubmissionChain ≠ some (.tail q) := by
      rw [hline.slot]
      intro he
      rw [Option.map_eq_some_iff] at he
      obtain ⟨seg, hseg, he⟩ := he
      exact hne seg (List.mem_of_getLast? hseg) he
    rw [if_neg hslot]
    refine ⟨segs, ?_⟩
    constructor
    case le => exact hline.le
    case order => rw [EventLoop.queued_settle_nil hnothing]; exact hline.order
    case waits =>
      intro seg hseg
      rw [EventLoop.waiting_settle_nil hnothing]
      exact hline.waits seg hseg
    case unsettled =>
      intro seg hseg
      rw [EventLoop.settle_outcome_of_ne (hne seg hseg)]
      exact hline.unsettled seg hseg
    case others =>
      intro p hp
      rw [EventLoop.waiting_settle_nil hnothing]
      exact hline.others p hp
    case sorted => exact hline.sorted
    case later => exact hline.later
    case bound => exact hline.bound
    case tails => exact hline.tails
    case linked => exact hline.linked
    case slot => exact hline.slot
    case expired => exact hline.expired
    case received => exact hline.received

end Line

/-- Another call does not count for the calls before. -/
private theorem filter_links_append (hk : k ≤ c.links.length) (p : Nat → Bool) :
    ((List.range k).filter fun q => ((c.links ++ [link])[q]?).any Link.isQuery && p q) =
      (List.range k).filter fun q => (c.links[q]?).any Link.isQuery && p q := by
  refine List.filter_congr fun q hq => ?_
  rw [List.mem_range] at hq
  rw [List.getElem?_append_left (by omega)]

namespace Line

/-- A new call waits behind the slot. -/
private theorem join (hline : Line c k segs) (link : Link) {prior : PromiseId}
    (hprior : c.querySubmissionChain = some prior)
    (hs : h.submission = some c.links.length) :
    ∃ init last waiting, Line { c with links := c.links ++ [link], loop := c.loop.react prior h } k
      (init ++ [(last, waiting ++ [c.links.length])]) ∧ (∀ seg ∈ init, seg.1 < c.links.length) ∧
        last < c.links.length := by
  have hslot := hline.slot
  rw [hprior] at hslot
  obtain ⟨⟨last, waiting⟩, hlast, hp⟩ := Option.map_eq_some_iff.mp hslot.symm
  obtain ⟨init, rfl⟩ := List.getLast?_eq_some_iff.mp hlast
  subst hp
  have hnone := hline.unsettled (last, waiting) (by simp)
  have hwaits := hline.waits (last, waiting) (by simp)
  have hinit : ∀ seg ∈ init, seg.1 < last := by
    have hsorted := hline.sorted
    rw [List.map_append, List.pairwise_append] at hsorted
    intro seg hseg
    exact hsorted.2.2 _ (List.mem_map_of_mem hseg) _ (by simp)
  have hne : ∀ seg ∈ init, PromiseId.tail seg.1 ≠ .tail last := by
    intro seg hseg he
    have hlt := hinit seg hseg
    have he := PromiseId.tail.inj he
    omega
  have hmem : ∀ {P : Nat × List Nat → Prop}, (∀ seg ∈ init, P seg) → P (last, waiting ++ [c.links.length]) →
      ∀ seg ∈ init ++ [(last, waiting ++ [c.links.length])], P seg := by
    intro P h1 h2 seg hseg
    rcases List.mem_append.mp hseg with hseg | hseg
    · exact h1 seg hseg
    · rw [List.mem_singleton.mp hseg]
      exact h2
  refine ⟨init, last, waiting, ?_, ?_, hline.bound (last, waiting) (by simp)⟩
  · constructor
    case le =>
      rw [List.length_append]
      exact Nat.le_add_right_of_le hline.le
    case order =>
      have horder := hline.order
      have hle := hline.le
      have hlen : (c.links ++ [link]).length - k = c.links.length - k + 1 := by
        rw [List.length_append, List.length_singleton]
        omega
      have hend : k + (c.links.length - k) = c.links.length := by omega
      rw [EventLoop.queued_react _ hnone, hlen, List.range'_1_concat, hend, ← horder]
      simp
    case waits =>
      refine hmem (fun seg hseg => ?_) ?_
      · rw [EventLoop.waiting_react_of_ne _ (hne seg hseg)]
        exact hline.waits seg (List.mem_append_left _ hseg)
      · rw [EventLoop.waiting_react _ hnone, hwaits, hs]
        rfl
    case unsettled =>
      rw [EventLoop.react_outcome]
      exact hmem (fun seg hseg => hline.unsettled seg (List.mem_append_left _ hseg)) hnone
    case others =>
      intro p hp
      have hlast : p ≠ .tail last := hp _ (List.mem_append_right _ (List.mem_singleton_self _))
      rw [EventLoop.waiting_react_of_ne _ hlast]
      refine hline.others p fun seg hseg => ?_
      rcases List.mem_append.mp hseg with hseg | hseg
      · exact hp seg (List.mem_append_left _ hseg)
      · rw [List.mem_singleton.mp hseg]
        exact hlast
    case sorted => simpa using hline.sorted
    case later =>
      refine hmem (fun seg hseg => hline.later seg (List.mem_append_left _ hseg)) fun q hq => ?_
      rcases List.mem_append.mp hq with hq | hq
      · exact hline.later (last, waiting) (by simp) q hq
      · rw [List.mem_singleton.mp hq]
        exact hline.bound (last, waiting) (by simp)
    case bound =>
      rw [List.length_append]
      refine hmem (fun seg hseg => ?_) ?_
      · exact Nat.lt_add_right _ (hline.bound seg (List.mem_append_left _ hseg))
      · exact Nat.lt_add_right _ (hline.bound (last, waiting) (by simp))
    case tails =>
      refine hmem (fun seg hseg => ?_) ?_
      · rw [List.getElem?_append_left (hline.bound seg (List.mem_append_left _ hseg))]
        exact hline.tails seg (List.mem_append_left _ hseg)
      · rw [List.getElem?_append_left (hline.bound (last, waiting) (by simp))]
        exact hline.tails (last, waiting) (by simp)
    case linked =>
      have hlinked := hline.linked
      rw [List.isChain_append] at hlinked ⊢
      exact ⟨hlinked.1, List.isChain_singleton _, fun x hx y hy => by
        simp only [List.head?_cons, Option.mem_def, Option.some.injEq] at hy
        subst hy
        exact hlinked.2.2 x hx (last, waiting) (by simp)⟩
    case slot => simp [hprior]
    case expired => exact hline.expired
    case received => rw [filter_links_append hline.le]; exact hline.received
  · intro seg hseg
    exact Nat.lt_trans (hinit seg hseg) (hline.bound (last, waiting) (by simp))

/-- The tail of the last waiting call takes the slot. -/
private theorem extend {init : List (Nat × List Nat)} {last : Nat} {waiting : List Nat}
    (hline : Line c k (init ++ [(last, waiting)])) (hq : q ∈ waiting) (hinit : ∀ seg ∈ init, seg.1 < q)
    (hlast : last < q) (hbound : q < c.links.length) (hlink : c.links[q]? ≠ some .submittable)
    (hnone : c.loop.outcome (.tail q) = none) :
    Line { c with querySubmissionChain := some (.tail q) } k (init ++ [(last, waiting)] ++ [(q, [])]) := by
  have hlt : ∀ seg ∈ init ++ [(last, waiting)], seg.1 < q := by
    intro seg hseg
    rcases List.mem_append.mp hseg with hseg | hseg
    · exact hinit seg hseg
    · rw [List.mem_singleton.mp hseg]
      exact hlast
  have hmem : ∀ {P : Nat × List Nat → Prop}, (∀ seg ∈ init ++ [(last, waiting)], P seg) → P (q, []) →
      ∀ seg ∈ init ++ [(last, waiting)] ++ [(q, [])], P seg := by
    intro P h1 h2 seg hseg
    rcases List.mem_append.mp hseg with hseg | hseg
    · exact h1 seg hseg
    · rw [List.mem_singleton.mp hseg]
      exact h2
  constructor
  case le => exact hline.le
  case order =>
    rw [← hline.order]
    simp
  case waits =>
    refine hmem hline.waits (hline.others _ fun seg hseg he => ?_)
    have hseg := hlt seg hseg
    have he := PromiseId.tail.inj he
    omega
  case unsettled => exact hmem hline.unsettled hnone
  case others => exact fun p hp => hline.others p fun seg hseg => hp seg (List.mem_append_left _ hseg)
  case sorted =>
    rw [List.map_append, List.pairwise_append]
    refine ⟨hline.sorted, by simp, fun x hx y hy => ?_⟩
    rw [List.mem_map] at hx
    obtain ⟨seg, hseg, rfl⟩ := hx
    rw [List.map_singleton, List.mem_singleton] at hy
    subst hy
    exact hlt seg hseg
  case later => exact hmem hline.later fun _ h => by cases h
  case bound => exact hmem hline.bound hbound
  case tails => exact hmem hline.tails hlink
  case linked =>
    rw [List.isChain_append]
    refine ⟨hline.linked, List.isChain_singleton _, fun x hx y hy => ?_⟩
    simp only [List.getLast?_append, List.getLast?_singleton, Option.some_or, Option.mem_def, Option.some.injEq] at hx
    simp only [List.head?_cons, Option.mem_def, Option.some.injEq] at hy
    subst hx hy
    exact hq
  case slot => simp
  case expired => exact hline.expired
  case received => exact hline.received

/-- With an empty slot all waiting calls are in the job queue. -/
private theorem segs_nil (hline : Line c k segs) (hslot : c.querySubmissionChain = none) : segs = [] := by
  have h := hline.slot
  rw [hslot] at h
  exact List.getLast?_eq_none_iff.mp (Option.map_eq_none_iff.mp h.symm)

/-- Nothing waits: a new call has its turn at once. -/
private theorem eq_length (hline : Line c k segs) (hslot : c.querySubmissionChain = none)
    (hqueued : c.loop.queued Handler.submission = []) : k = c.links.length := by
  have horder := hline.order
  rw [hline.segs_nil hslot, hqueued] at horder
  have hlen := congrArg List.length horder
  have hle := hline.le
  simp at hlen
  omega

private theorem immediate (hline : Line c k segs) (link : Link) (hslot : c.querySubmissionChain = none)
    (hqueued : c.loop.queued Handler.submission = []) (hquery : link.isQuery = true) :
    Line { c with links := c.links ++ [link], received := c.received ++ [c.links.length] } (k + 1) [] := by
  have hk := hline.eq_length hslot hqueued
  obtain rfl := hline.segs_nil hslot
  constructor
  case le => simp [hk]
  case order => simp [hqueued, hk]
  case waits => exact fun seg hseg => by cases hseg
  case unsettled => exact fun seg hseg => by cases hseg
  case others => exact hline.others
  case sorted => exact .nil
  case later => exact fun seg hseg => by cases hseg
  case bound => exact fun seg hseg => by cases hseg
  case tails => exact fun seg hseg => by cases hseg
  case linked => exact .nil
  case slot => exact hslot
  case expired => exact fun q hq => Nat.lt_succ_of_lt (hline.expired q hq)
  case received =>
    have hnot : k ∉ c.expired := fun hmem => Nat.lt_irrefl k (hline.expired k hmem)
    rw [List.range_succ, List.filter_append, filter_links_append hline.le, ← hline.received]
    subst hk
    simp [hnot, hquery]

/-- A cleanup link that finds the slot empty. -/
private theorem enqueue (hline : Line c k segs) (link : Link) (ok : Bool) (hslot : c.querySubmissionChain = none)
    (hs : h.submission = some c.links.length) :
    Line { c with links := c.links ++ [link], loop := c.loop.enqueue h ok } k [] := by
  obtain rfl := hline.segs_nil hslot
  constructor
  case le =>
    rw [List.length_append]
    exact Nat.le_add_right_of_le hline.le
  case order =>
    have horder := hline.order
    have hle := hline.le
    have hlen : (c.links ++ [link]).length - k = c.links.length - k + 1 := by
      rw [List.length_append, List.length_singleton]
      omega
    have hend : k + (c.links.length - k) = c.links.length := by omega
    rw [EventLoop.queued_enqueue, hs, hlen, List.range'_1_concat, hend, ← horder]
    simp
  case waits => exact fun seg hseg => by cases hseg
  case unsettled => exact fun seg hseg => by cases hseg
  case others => exact hline.others
  case sorted => exact .nil
  case later => exact fun seg hseg => by cases hseg
  case bound => exact fun seg hseg => by cases hseg
  case tails => exact fun seg hseg => by cases hseg
  case linked => exact .nil
  case slot => exact hslot
  case expired => exact hline.expired
  case received => rw [filter_links_append hline.le]; exact hline.received

/-- The tail of a call takes the empty slot. -/
private theorem openSlot (hline : Line c k []) (hbound : q < c.links.length) (hlink : c.links[q]? ≠ some .submittable)
    (hnone : c.loop.outcome (.tail q) = none) :
    Line { c with querySubmissionChain := some (.tail q) } k [(q, [])] where
  le := hline.le
  order := by simpa using hline.order
  waits seg hseg := by
    rw [List.mem_singleton.mp hseg]
    exact hline.others _ fun seg hseg => by cases hseg
  unsettled seg hseg := by
    rw [List.mem_singleton.mp hseg]
    exact hnone
  others p _ := hline.others p fun seg hseg => by cases hseg
  sorted := by simp
  later seg hseg q hq := by
    rw [List.mem_singleton.mp hseg] at hq
    cases hq
  bound seg hseg := by
    rw [List.mem_singleton.mp hseg]
    exact hbound
  tails seg hseg := by
    rw [List.mem_singleton.mp hseg]
    exact hlink
  linked := List.isChain_singleton _
  slot := rfl
  expired := hline.expired
  received := hline.received

end Line

/-! ### Where the reactions are -/

/-- Only the promises of calls that have begun are settled, and the reactions about them wait on promises of their own
call. -/
structure Located (loop : Loop) (links : List Link) (begun : Nat → Prop) : Prop where
  settled : ∀ p q, p.call = some q → loop.outcome p ≠ none → begun q
  jobs : ∀ h ok q, (h, ok) ∈ loop.jobs → h.call = some q → begun q
  reactions : ∀ p h q, h ∈ loop.reactions p → h.call = some q → p.call = some q
  adopted : ∀ p q ok, (Handler.adopt p q, ok) ∈ loop.jobs → p.call = some q
  adoption : ∀ p p' q, Handler.adopt p q ∉ loop.reactions p'
  kinds : ∀ h q, loop.Live h → h.submission = some q → ∃ link, links[q]? = some link ∧ h.submits link = true

namespace Located

variable {begun : Nat → Prop}

private theorem react_of (hl : Located loop links begun) (hp : ∀ q, h.call = some q → p.call = some q)
    (hh : ∀ p q, h ≠ .adopt p q)
    (hs : ∀ q, h.submission = some q → ∃ link, links[q]? = some link ∧ h.submits link = true) :
    Located (loop.react p h) links begun where
  settled p q hp hs := hl.settled p q hp (by simpa using hs)
  jobs h' ok q hjob hcall := by
    rcases EventLoop.mem_jobs_react hjob with hjob | ⟨rfl, hout⟩
    · exact hl.jobs h' ok q hjob hcall
    · exact hl.settled p q (hp q hcall) (by simp [hout])
  reactions p' h' q hmem hcall := by
    rcases EventLoop.mem_reactions_react hmem with hmem | ⟨rfl, rfl⟩
    · exact hl.reactions p' h' q hmem hcall
    · exact hp q hcall
  adopted p' q ok hjob := by
    rcases EventLoop.mem_jobs_react hjob with hjob | ⟨he, _⟩
    · exact hl.adopted p' q ok hjob
    · exact absurd he.symm (hh p' q)
  adoption p' p'' q hmem := by
    rcases EventLoop.mem_reactions_react hmem with hmem | ⟨_, he⟩
    · exact hl.adoption p' p'' q hmem
    · exact hh p' q he.symm
  kinds h' q hlive hq := by
    rcases EventLoop.live_react hlive with hlive | rfl
    · exact hl.kinds h' q hlive hq
    · exact hs q hq

/-- A reaction about a call waits on a promise of that call. -/
theorem react (hl : Located loop links begun) (hcall : h.call = some q) (hp : p.call = some q)
    (hh : ∀ p q, h ≠ .adopt p q) : Located (loop.react p h) links begun := by
  refine hl.react_of ?_ hh ?_
  · intro q' hq'
    rw [hcall] at hq'
    cases hq'
    exact hp
  · intro q' hq'
    cases h <;> simp_all [Handler.call, Handler.submission]

/-- A reaction about no call. -/
theorem reactOther (hl : Located loop links begun) (hcall : h.call = none) (hs : h.submission = none) :
    Located (loop.react p h) links begun := by
  refine hl.react_of ?_ ?_ ?_
  · intro q hq
    rw [hcall] at hq
    cases hq
  · intro p q he
    rw [he] at hcall
    cases hcall
  · intro q hq
    rw [hs] at hq
    cases hq

/-- A reaction that submits a call. -/
theorem wait (hl : Located loop links begun) (hs : h.submission = some q) (hlink : links[q]? = some link)
    (hkind : h.submits link = true) : Located (loop.react p h) links begun := by
  refine hl.react_of ?_ ?_ ?_
  · intro q' hq'
    cases h <;> simp_all [Handler.call, Handler.submission]
  · intro p q he
    rw [he] at hs
    cases hs
  · intro q' hq'
    rw [hs] at hq'
    cases hq'
    exact ⟨link, hlink, hkind⟩

theorem settle (hl : Located loop links begun) (hp : ∀ q, p.call = some q → begun q) :
    Located (loop.settle p ok) links begun where
  settled p' q hcall hs := by
    by_cases he : p' = p
    · exact hp q (he ▸ hcall)
    · rw [EventLoop.settle_outcome_of_ne he] at hs
      exact hl.settled p' q hcall hs
  jobs h ok q hjob hcall := by
    rcases EventLoop.mem_jobs_settle hjob with hjob | hmem
    · exact hl.jobs h ok q hjob hcall
    · exact hp q (hl.reactions p h q hmem hcall)
  reactions p' h q hmem := hl.reactions p' h q (EventLoop.mem_reactions_settle hmem)
  adopted p' q ok hjob := by
    rcases EventLoop.mem_jobs_settle hjob with hjob | hmem
    · exact hl.adopted p' q ok hjob
    · exact absurd hmem (hl.adoption p' p q)
  adoption p' p'' q hmem := hl.adoption p' p'' q (EventLoop.mem_reactions_settle hmem)
  kinds h q hlive := hl.kinds h q (EventLoop.live_settle hlive)

theorem settleCall (hl : Located loop links begun) (hp : p.call = some q) (hq : begun q) :
    Located (loop.settle p ok) links begun := by
  refine hl.settle fun q' hq' => ?_
  rw [hp] at hq'
  cases hq'
  exact hq

theorem adopt (hl : Located loop links begun) (hp : p.call = some q) (hq : begun q) :
    Located (loop.enqueue (.adopt p q) ok) links begun where
  settled := hl.settled
  jobs h' ok' q' hjob hcall := by
    rw [EventLoop.enqueue_jobs, List.mem_append, List.mem_singleton] at hjob
    rcases hjob with hjob | he
    · exact hl.jobs h' ok' q' hjob hcall
    · cases he
      cases hcall
      exact hq
  reactions := hl.reactions
  adopted p' q' ok' hjob := by
    rw [EventLoop.enqueue_jobs, List.mem_append, List.mem_singleton] at hjob
    rcases hjob with hjob | he
    · exact hl.adopted p' q' ok' hjob
    · cases he
      exact hp
  adoption := hl.adoption
  kinds h q' hlive hs := by
    rcases EventLoop.live_enqueue hlive with hlive | rfl
    · exact hl.kinds h q' hlive hs
    · cases hs

theorem enqueue (hl : Located loop links begun) (hcall : h.call = none)
    (hs : ∀ q, h.submission = some q → ∃ link, links[q]? = some link ∧ h.submits link = true) :
    Located (loop.enqueue h ok) links begun where
  settled := hl.settled
  jobs h' ok' q' hjob hcall' := by
    rw [EventLoop.enqueue_jobs, List.mem_append, List.mem_singleton] at hjob
    rcases hjob with hjob | he
    · exact hl.jobs h' ok' q' hjob hcall'
    · cases he
      rw [hcall] at hcall'
      cases hcall'
  reactions := hl.reactions
  adopted p' q' ok' hjob := by
    rw [EventLoop.enqueue_jobs, List.mem_append, List.mem_singleton] at hjob
    rcases hjob with hjob | he
    · exact hl.adopted p' q' ok' hjob
    · cases he
      cases hcall
  adoption := hl.adoption
  kinds h' q' hlive hq := by
    rcases EventLoop.live_enqueue hlive with hlive | rfl
    · exact hl.kinds h' q' hlive hq
    · exact hs q' hq

theorem pop (hl : Located loop links begun) {jobs : List (Handler × Bool)} (hjobs : loop.jobs = (h, ok) :: jobs) :
    Located { loop with jobs } links begun where
  settled := hl.settled
  jobs h' ok' q hjob := hl.jobs h' ok' q (hjobs ▸ List.mem_cons_of_mem _ hjob)
  reactions := hl.reactions
  adopted p q ok' hjob := hl.adopted p q ok' (hjobs ▸ List.mem_cons_of_mem _ hjob)
  adoption := hl.adoption
  kinds h q hlive := hl.kinds h q (EventLoop.live_pop hjobs hlive)

theorem mono (hl : Located loop links begun) {begun' : Nat → Prop} (hb : ∀ q, begun q → begun' q) :
    Located loop links begun' where
  settled p q hp hs := hb q (hl.settled p q hp hs)
  jobs h ok q hjob hcall := hb q (hl.jobs h ok q hjob hcall)
  reactions := hl.reactions
  adopted := hl.adopted
  adoption := hl.adoption
  kinds := hl.kinds

theorem append (hl : Located loop links begun) (link : Link) : Located loop (links ++ [link]) begun where
  settled := hl.settled
  jobs := hl.jobs
  reactions := hl.reactions
  adopted := hl.adopted
  adoption := hl.adoption
  kinds h q hlive hs := by
    obtain ⟨link', hlink, hkind⟩ := hl.kinds h q hlive hs
    refine ⟨link', ?_, hkind⟩
    obtain ⟨hlt, -⟩ := List.getElem?_eq_some_iff.mp hlink
    rw [List.getElem?_append_left hlt, hlink]

/-- A promise of a call that has not begun is not settled. -/
theorem unsettled (hl : Located loop links begun) (hq : ¬ begun q) (hp : p.call = some q) : loop.outcome p = none := by
  by_contra hs
  exact hq (hl.settled p q hp hs)

end Located

theorem Located.reacts {begun : Nat → Prop} {ends : Nat → PromiseId → Prop} (hl : Located loop links begun)
    (hends : ∀ q p, ends q p → p.call = some q) (hr : Reacts ends loop loop') : Located loop' links begun := by
  induction hr with
  | refl => exact hl
  | react _ ha ih =>
    refine ih.react_of (fun q => ha.call hends) ha.not_adopt fun q hq => ?_
    rw [ha.submission] at hq
    cases hq

/-! ### The invariant -/

/-- Only submitted calls run on the stack, or have submitted a ROLLBACK. -/
structure Begun (stack : List Frame) (rollbacks : List Nat) (k : Nat) : Prop where
  frames : ∀ frame ∈ stack, ∀ q, frame.call = some q → q < k
  rollbacks : ∀ q ∈ rollbacks, q < k

namespace Begun

variable {frame : Frame} {stack : List Frame} {rollbacks : List Nat}

private theorem mono (hb : Begun stack rollbacks k) : Begun stack rollbacks (k + 1) :=
  ⟨fun frame hmem q hq => Nat.lt_succ_of_lt (hb.frames frame hmem q hq),
    fun q hq => Nat.lt_succ_of_lt (hb.rollbacks q hq)⟩

private theorem push (hb : Begun stack rollbacks k) (hframe : ∀ q, frame.call = some q → q < k) :
    Begun (frame :: stack) rollbacks k := by
  refine ⟨fun frame' hmem => ?_, hb.rollbacks⟩
  rcases List.mem_cons.mp hmem with rfl | hmem
  · exact hframe
  · exact hb.frames frame' hmem

private theorem pop (hb : Begun (frame :: stack) rollbacks k) : Begun stack rollbacks k :=
  ⟨fun frame hmem => hb.frames frame (List.mem_cons_of_mem _ hmem), hb.rollbacks⟩

private theorem rollback (hb : Begun stack rollbacks k) (hq : q < k) : Begun stack (rollbacks ++ [q]) k := by
  refine ⟨hb.frames, fun q' hq' => ?_⟩
  rcases List.mem_append.mp hq' with hq' | hq'
  · exact hb.rollbacks q' hq'
  · rw [List.mem_singleton.mp hq']
    exact hq

private theorem same (hb : Begun c.stack c.rollbacks k) (hsame : Same c c') : Begun c'.stack c'.rollbacks k := by
  rw [hsame.stack, hsame.rollbacks]
  exact hb

end Begun

structure Ordered (c : PgBridgeClient) (k : Nat) (segs : List (Nat × List Nat)) : Prop where
  line : Line c k segs
  located : Located c.loop c.links (· < k)
  begun : Begun c.stack c.rollbacks k

/-- A call that finds the slot empty finds no call in the job queue. -/
def Calm (c : PgBridgeClient) : ClientAction → Prop
  | .query _ => c.querySubmissionChain = none → c.loop.queued Handler.submission = []
  | _ => True

instance (c : PgBridgeClient) : DecidablePred (Calm c) := fun a =>
  match a with
  | .query _ => inferInstanceAs (Decidable (_ → _))
  | .event => isTrue trivial
  | .leave _ => isTrue trivial
  | .chainRollbackCleanup => isTrue trivial
  | .thenQuery _ => isTrue trivial
  | .thenReaction _ => isTrue trivial
  | .complete _ _ => isTrue trivial
  | .fire _ => isTrue trivial
  | .setTransaction _ => isTrue trivial
  | .job => isTrue trivial

namespace Ordered

/-- The calls that pg has seen. -/
private theorem started (hc : Ordered c k segs) (hq : q ∈ c.received ∨ q ∈ c.rollbacks) : q < k := by
  rcases hq with hq | hq
  · rw [hc.line.received, List.mem_filter, List.mem_range] at hq
    exact hq.1
  · exact hc.begun.rollbacks q hq

/-- `query` goes on after its own `execute`. -/
private theorem submitted (hc : Ordered c k segs) (hq : q < k) : Ordered (c.submitted q query ok) k segs := by
  have h₁ : Ordered { c with loop := if ok then c.loop else c.loop.settle (.raw q) false } k segs := by
    cases ok with
    | true => exact hc
    | false =>
      refine ⟨hc.line.quiet (.settle (hc.line.nothing_waits ?_) ?_) rfl rfl rfl rfl, hc.located.settleCall rfl hq,
        hc.begun⟩
      · exact fun q he => by cases he
      · exact fun q he => by cases he
  have hsame := submitted_same c q query ok
  have hr : Reacts (fun q p => p.call = some q) _ (c.submitted q query ok).loop :=
    submitted_reacts fun raw hraw => executionPromise_call (by rcases hraw with rfl | rfl <;> rfl)
  exact ⟨h₁.line.quiet (hr.quiet fun _ h => h) hsame.links hsame.received hsame.expired hsame.chain,
    hsame.links ▸ h₁.located.reacts (fun _ _ h => h) hr, hc.begun.same hsame⟩

/-- The function on top of the stack returns. -/
private theorem leave {frame : Frame} {stack : List Frame} (hc : Ordered c k segs) (hstack : c.stack = frame :: stack) :
    Ordered ({ c with stack }.leave ok frame) k segs := by
  have hline : Line { c with stack } k segs := hc.line.quiet .refl rfl rfl rfl rfl
  have hbegun : Begun (frame :: stack) c.rollbacks k := hstack ▸ hc.begun
  have hframe : ∀ q, frame.call = some q → q < k := hbegun.frames frame (List.mem_cons_self ..)
  have hrestore : ∀ q saved, Ordered ({ c with stack }.restore q saved) k segs := by
    intro q saved
    have hsame := restore_same { c with stack } q saved
    refine ⟨hline.same hsame ?_, ?_, Begun.same (c := { c with stack }) hbegun.pop hsame⟩
    · rw [restore_loop]
      exact .refl
    · rw [restore_loop, hsame.links]
      exact hc.located
  cases frame with
  | event => exact ⟨hline, hc.located, hbegun.pop⟩
  | admission q => exact ⟨hline, hc.located, hbegun.pop⟩
  | resume n =>
    refine ⟨hline.quiet (.settle (hline.nothing_waits ?_) ?_) rfl rfl rfl rfl, ?_, hbegun.pop⟩
    · exact fun q he => by cases he
    · exact fun q he => by cases he
    · exact hc.located.settle fun q he => by cases he
  | execution q saved =>
    have hq : q < k := hframe q rfl
    have h := hrestore q saved
    simp only [PgBridgeClient.leave]
    split
    · exact ⟨h.line.quiet (.enqueue rfl) rfl rfl rfl rfl, h.located.adopt rfl hq, h.begun⟩
    · refine ⟨h.line.quiet (.settle (h.line.nothing_waits ?_) ?_) rfl rfl rfl rfl, h.located.settleCall rfl hq, h.begun⟩
      · exact fun q he => by cases he
      · exact fun q he => by cases he
  | submission q query saved =>
    simp only [PgBridgeClient.leave]
    exact (hrestore q saved).submitted (hframe q rfl)

end Ordered

namespace Ordered

/-- A new link takes the slot behind `prior`. -/
private theorem joinTail (hc : Ordered c k segs) (link : Link) (hlink : link ≠ .submittable) {prior : PromiseId}
    (hprior : c.querySubmissionChain = some prior) (hs : h.submission = some c.links.length) :
    ∃ segs', Line { c with
      links := c.links ++ [link]
      loop := c.loop.react prior h
      querySubmissionChain := some (.tail c.links.length) } k segs' := by
  obtain ⟨init, last, waiting, hline, hinit, hlast⟩ := hc.line.join link hprior hs
  have hnone := hc.located.unsettled (Nat.not_lt.mpr hc.line.le) (p := .tail c.links.length) rfl
  refine ⟨_, hline.extend ?_ hinit hlast ?_ ?_ ?_⟩
  · simp
  · simp
  · rw [List.getElem?_concat_length, Ne, Option.some.injEq]
    exact hlink
  · simpa using hnone

/-- An ordinary query behind `prior`. -/
private theorem chain (hc : Ordered c k segs) {prior : PromiseId} (hprior : c.querySubmissionChain = some prior)
    {c₀ : PgBridgeClient} (hlinks : c₀.links = c.links ++ [.ordinary query]) (hloop : c₀.loop = c.loop)
    (hreceived : c₀.received = c.received) (hexpired : c₀.expired = c.expired) (hstack : c₀.stack = c.stack)
    (hrollbacks : c₀.rollbacks = c.rollbacks) :
    ∃ segs', Ordered (c₀.chain c.links.length query prior) k segs' := by
  obtain ⟨segs', hline⟩ := hc.joinTail (.ordinary query) (fun he => by cases he)
    (h := .execute c.links.length) hprior rfl
  have hsame := chain_same c₀ c.links.length query prior
  have hr : Reacts (fun q p => p.call = some q) _ (c₀.chain c.links.length query prior).loop :=
    chain_reacts (executionPromise_call rfl)
  rw [hloop] at hr
  have hlinks' := hsame.links.trans hlinks
  have hl := (hc.located.append (.ordinary query)).wait (p := prior) (h := .execute c.links.length) rfl
    List.getElem?_concat_length rfl
  refine ⟨segs', hline.quiet (hr.quiet fun _ h => h) hlinks' (hsame.received.trans hreceived)
    (hsame.expired.trans hexpired) hsame.chain, hlinks' ▸ hl.reacts (fun _ _ h => h) hr, ?_⟩
  have h₀ : Begun c₀.stack c₀.rollbacks k := by
    rw [hstack, hrollbacks]
    exact hc.begun
  exact Begun.same (c := { c₀ with querySubmissionChain := some (.tail c.links.length) }) h₀ hsame

/-- An ordinary query that finds the slot empty. -/
private theorem submit (hc : Ordered c k segs) (hlink : link ≠ .submittable) (hslot : c.querySubmissionChain = none)
    (hqueued : c.loop.queued Handler.submission = []) (hquery : link.isQuery = true) {c₁ : PgBridgeClient}
    (hlinks : c₁.links = c.links ++ [link]) (hreceived : c₁.received = c.received) (hexpired : c₁.expired = c.expired)
    (hstack : c₁.stack = c.stack) (hrollbacks : c₁.rollbacks = c.rollbacks)
    (hchain : c₁.querySubmissionChain = some (.tail c.links.length))
    (hloop : c₁.loop = c.loop.react (.reservation c.links.length) (.releaseTail c.links.length)) :
    Ordered { (c₁.execute c.links.length).2 with
      stack := .submission c.links.length query (c₁.execute c.links.length).1 :: (c₁.execute c.links.length).2.stack }
      (k + 1) [(c.links.length, [])] := by
  have hk := hc.line.eq_length hslot hqueued
  have hnone := hc.located.unsettled (Nat.not_lt.mpr hc.line.le) (p := .tail c.links.length) rfl
  have hline := (hc.line.immediate link hslot hqueued hquery).openSlot (q := c.links.length) (by simp)
    (by rw [List.getElem?_concat_length, Ne, Option.some.injEq]; exact hlink) hnone
  obtain ⟨hl, hsame⟩ := execute_same c₁ c.links.length
  rw [hloop] at hl
  refine ⟨?_, ?_, ?_⟩
  · refine hline.quiet ?_ (hsame.links.trans hlinks) ?_ (hsame.expired.trans hexpired) (hsame.chain.trans hchain)
    · show Quiet _ c.loop (c₁.execute c.links.length).2.loop
      rw [hl]
      exact .react rfl
    · show (c₁.execute c.links.length).2.received = _
      rw [hsame.received, ← hreceived]
  · show Located (c₁.execute c.links.length).2.loop (c₁.execute c.links.length).2.links _
    rw [hl, hsame.links]
    show Located _ c₁.links _
    rw [hlinks]
    exact ((hc.located.append link).react rfl rfl fun _ _ he => by cases he).mono fun _ => Nat.lt_succ_of_lt
  · have h₁ : Begun c₁.stack c₁.rollbacks k := by
      rw [hstack, hrollbacks]
      exact hc.begun
    refine (Begun.same (c := { c₁ with received := c₁.received ++ [c.links.length] }) h₁ hsame).mono.push fun q hq => ?_
    cases hq
    omega

private theorem newQuery (hc : Ordered c k segs) (hquery : link.isQuery = true) (hcalm : Calm c (.query link)) :
    ∃ k' segs', Ordered (c.query link) k' segs' := by
  unfold PgBridgeClient.query
  cases link with
  | cleanup => cases hquery
  | submittable =>
    cases hslot : c.querySubmissionChain with
    | none =>
      dsimp only
      have hk := hc.line.eq_length hslot (hcalm hslot)
      exact ⟨k + 1, [],
        (hc.line.immediate .submittable hslot (hcalm hslot) rfl).quiet .refl rfl rfl rfl hslot.symm,
        (hc.located.append .submittable).mono (fun _ => Nat.lt_succ_of_lt), hc.begun.mono.push fun _ he => by cases he⟩
    | some prior =>
      dsimp only
      obtain ⟨init, last, waiting, hline, -, -⟩ :=
        hc.line.join .submittable (h := .admitSubmittable c.links.length) hslot rfl
      exact ⟨k, _, hline.quiet .refl rfl rfl rfl hslot.symm,
        (hc.located.append .submittable).wait rfl List.getElem?_concat_length rfl, hc.begun⟩
  | ordinary query =>
    cases hslot : c.querySubmissionChain with
    | none =>
      dsimp only
      exact ⟨k + 1, _, hc.submit (fun he => by cases he) hslot (hcalm hslot) hquery rfl rfl rfl rfl rfl rfl rfl⟩
    | some prior =>
      dsimp only
      exact ⟨k, hc.chain hslot rfl rfl rfl rfl rfl rfl⟩

private theorem chainRollbackCleanup (hc : Ordered c k segs) : ∃ segs', Ordered c.chainRollbackCleanup k segs' := by
  unfold PgBridgeClient.chainRollbackCleanup
  cases hslot : c.querySubmissionChain with
  | none =>
    have hline := hc.line.enqueue .cleanup true (h := .cleanup c.links.length) hslot rfl
    have hnone := hc.located.unsettled (Nat.not_lt.mpr hc.line.le) (p := .tail c.links.length) rfl
    have hopen := hline.openSlot (q := c.links.length) (by simp) (by simp) hnone
    refine ⟨_, hopen.quiet (.react rfl) rfl rfl rfl rfl, ?_, hc.begun⟩
    refine ((hc.located.append .cleanup).enqueue rfl ?_).react rfl rfl fun _ _ he => by cases he
    intro q hq
    cases hq
    exact ⟨.cleanup, List.getElem?_concat_length, rfl⟩
  | some prior =>
    obtain ⟨segs', hline⟩ := hc.joinTail .cleanup (fun he => by cases he) (h := .cleanup c.links.length) hslot rfl
    exact ⟨segs', hline.quiet (.react rfl) rfl rfl rfl rfl,
      ((hc.located.append .cleanup).wait rfl List.getElem?_concat_length rfl).react rfl rfl (fun _ _ he => by cases he),
      hc.begun⟩

end Ordered

namespace Ordered

/-- `execute` of the first call in the job queue. -/
private theorem execute (hc : Ordered c k segs) {jobs : List (Handler × Bool)}
    (hjobs : c.loop.jobs = (.execute q, ok) :: jobs) :
    ∃ k', Ordered ({ c with loop := { c.loop with jobs } }.runJob ok (.execute q)) k' segs := by
  obtain ⟨hq, hlt, -⟩ := hc.line.head hjobs rfl
  subst hq
  obtain ⟨link, hlink, hkind⟩ := hc.located.kinds (.execute q) q (.inl ⟨ok, by simp [hjobs]⟩) rfl
  have hloc := (hc.located.pop hjobs).mono fun _ => Nat.lt_succ_of_lt
  simp only [runJob]
  refine ⟨q + 1, ?_⟩
  split
  · have hline := hc.line.start hjobs rfl c.received (c.expired ++ [q]) (fun q' hq' => by
      rcases List.mem_append.mp hq' with hq' | hq'
      · exact Nat.lt_succ_of_lt (hc.line.expired q' hq')
      · rw [List.mem_singleton.mp hq']
        exact Nat.lt_succ_self q) hc.line.expired_succ
    exact ⟨hline.settleAdopt (fun _ he => by cases he),
      (hloc.settleCall rfl (Nat.lt_succ_self q)).adopt rfl (Nat.lt_succ_self q), hc.begun.mono⟩
  · have hline := hc.line.start hjobs rfl (c.received ++ [q]) c.expired
      (fun q' hq' => Nat.lt_succ_of_lt (hc.line.expired q' hq'))
      (hc.line.received_succ hlink (Handler.isQuery_of_submits hkind))
    obtain ⟨hl, hsame⟩ := execute_same { c with loop := { c.loop with jobs } } q
    refine ⟨hline.quiet ?_ hsame.links hsame.received hsame.expired hsame.chain, ?_, ?_⟩
    · show Quiet _ _ (PgBridgeClient.execute _ q).2.loop
      rw [hl]
      exact .refl
    · show Located (PgBridgeClient.execute _ q).2.loop (PgBridgeClient.execute _ q).2.links _
      rw [hl, hsame.links]
      exact hloc
    · refine Begun.push ?_ fun q' hq' => ?_
      · have hbegun := hc.begun.mono
        exact Begun.same (c := { c with loop := { c.loop with jobs }, received := c.received ++ [q] }) hbegun hsame
      · cases hq'
        exact Nat.lt_succ_self q

private theorem admitSubmittable (hc : Ordered c k segs) {jobs : List (Handler × Bool)}
    (hjobs : c.loop.jobs = (.admitSubmittable q, ok) :: jobs) :
    ∃ k', Ordered ({ c with loop := { c.loop with jobs } }.runJob ok (.admitSubmittable q)) k' segs := by
  obtain ⟨hq, hlt, -⟩ := hc.line.head hjobs rfl
  subst hq
  obtain ⟨link, hlink, hkind⟩ := hc.located.kinds (.admitSubmittable q) q (.inl ⟨ok, by simp [hjobs]⟩) rfl
  have hline := hc.line.start hjobs rfl (c.received ++ [q]) c.expired
    (fun q' hq' => Nat.lt_succ_of_lt (hc.line.expired q' hq'))
    (hc.line.received_succ hlink (Handler.isQuery_of_submits hkind))
  exact ⟨q + 1, hline.quiet .refl rfl rfl rfl rfl, (hc.located.pop hjobs).mono (fun _ => Nat.lt_succ_of_lt),
    hc.begun.mono.push fun _ he => by cases he⟩

private theorem cleanup (hc : Ordered c k segs) {jobs : List (Handler × Bool)}
    (hjobs : c.loop.jobs = (.cleanup q, ok) :: jobs) :
    ∃ k', Ordered ({ c with loop := { c.loop with jobs } }.runJob ok (.cleanup q)) k' segs := by
  obtain ⟨hq, hlt, -⟩ := hc.line.head hjobs rfl
  subst hq
  obtain ⟨link, hlink, hkind⟩ := hc.located.kinds (.cleanup q) q (.inl ⟨ok, by simp [hjobs]⟩) rfl
  have hline := hc.line.start hjobs rfl c.received c.expired
    (fun q' hq' => Nat.lt_succ_of_lt (hc.line.expired q' hq'))
    (hc.line.cleanup_succ hlink (Handler.isQuery_of_submits hkind))
  have hloc := (hc.located.pop hjobs).mono fun _ => Nat.lt_succ_of_lt
  simp only [runJob]
  refine ⟨q + 1, ?_⟩
  split
  · exact ⟨hline.quiet ((Quiet.react rfl).trans (.enqueue rfl)) rfl rfl rfl rfl,
      (hloc.react rfl rfl (fun _ _ he => by cases he)).adopt rfl (Nat.lt_succ_self q),
      hc.begun.mono.rollback (Nat.lt_succ_self q)⟩
  · exact ⟨hline.settleAdopt (fun _ he => by cases he),
      (hloc.settleCall rfl (Nat.lt_succ_self q)).adopt rfl (Nat.lt_succ_self q), hc.begun.mono⟩

/-- A reaction that settles a promise of its call. -/
private theorem settle (hc : Ordered c k segs) {ok' : Bool} (hp : p.call = some q) (hq : q < k)
    (htail : ∀ q, p ≠ .tail q) :
    Ordered { c with loop := c.loop.settle p ok' } k segs :=
  ⟨hc.line.quiet (.settle (hc.line.nothing_waits htail) htail) rfl rfl rfl rfl, hc.located.settleCall hp hq, hc.begun⟩

/-- A microtask. -/
private theorem runJob (hc : Ordered c k segs) {jobs : List (Handler × Bool)} (hjobs : c.loop.jobs = (h, ok) :: jobs) :
    ∃ k' segs', Ordered ({ c with loop := { c.loop with jobs } }.runJob ok h) k' segs' := by
  have hcall : ∀ q, h.call = some q → q < k := fun q => hc.located.jobs h ok q (hjobs ▸ List.mem_cons_self ..)
  have hpop : h.submission = none → Ordered { c with loop := { c.loop with jobs } } k segs := fun hs =>
    ⟨hc.line.quiet (.pop hjobs hs) rfl rfl rfl rfl, hc.located.pop hjobs, hc.begun⟩
  cases h with
  | execute q =>
    obtain ⟨k', hc'⟩ := hc.execute hjobs
    exact ⟨k', segs, hc'⟩
  | admitSubmittable q =>
    obtain ⟨k', hc'⟩ := hc.admitSubmittable hjobs
    exact ⟨k', segs, hc'⟩
  | cleanup q =>
    obtain ⟨k', hc'⟩ := hc.cleanup hjobs
    exact ⟨k', segs, hc'⟩
  | adopt p q =>
    have hp := hc.located.adopted p q ok (hjobs ▸ List.mem_cons_self ..)
    have h' := hpop rfl
    exact ⟨k, segs, h'.line.quiet (.react rfl) rfl rfl rfl rfl, h'.located.react rfl hp (fun _ _ he => by cases he),
      h'.begun⟩
  | forward q => exact ⟨k, segs, (hpop rfl).settle rfl (hcall q rfl) fun _ he => by cases he⟩
  | evict q => exact ⟨k, segs, (hpop rfl).settle rfl (hcall q rfl) fun _ he => by cases he⟩
  | rolledBack q => exact ⟨k, segs, (hpop rfl).settle rfl (hcall q rfl) fun _ he => by cases he⟩
  | resolveReservation q => exact ⟨k, segs, (hpop rfl).settle rfl (hcall q rfl) fun _ he => by cases he⟩
  | clearTimer q =>
    have h' := hpop rfl
    exact ⟨k, segs, h'.line.quiet .refl rfl rfl rfl rfl, h'.located, h'.begun⟩
  | settleRace q =>
    have h' := hpop rfl
    refine ⟨k, segs, h'.line.quiet (.settle (h'.line.nothing_waits ?_) ?_) rfl rfl rfl rfl, ?_, h'.begun⟩
    · exact fun _ he => by cases he
    · exact fun _ he => by cases he
    · exact h'.located.settle fun q' he => by cases he
  | releaseTail q =>
    have h' := hpop rfl
    have hq := hcall q rfl
    obtain ⟨segs', hline⟩ := h'.line.release hq
    exact ⟨k, segs', hline, h'.located.settleCall rfl hq, h'.begun⟩
  | resume n =>
    have h' := hpop rfl
    exact ⟨k, segs, h'.line.quiet .refl rfl rfl rfl rfl, h'.located, h'.begun.push fun _ he => by cases he⟩

private theorem follow (hc : Ordered c k segs) : Ordered (c.follow p) k segs :=
  ⟨hc.line.quiet (.react rfl) rfl rfl rfl rfl, hc.located.reactOther rfl rfl, hc.begun⟩

/-- One step. -/
private theorem step (hc : Ordered c k segs) (hcalm : Calm c a) (hs : c.step a = some c') :
    ∃ k' segs', Ordered c' k' segs' := by
  cases a with
  | event =>
    simp only [PgBridgeClient.step] at hs
    split at hs
    · cases hs
      refine ⟨k, segs, hc.line.quiet .refl rfl rfl rfl rfl, hc.located, ?_, hc.begun.rollbacks⟩
      intro frame hmem q hq
      rw [List.mem_singleton.mp hmem] at hq
      cases hq
    · cases hs
  | leave ok =>
    simp only [PgBridgeClient.step] at hs
    split at hs
    · cases hs
    · rename_i frame stack hstack
      cases hs
      exact ⟨k, segs, hc.leave hstack⟩
  | query link =>
    simp only [PgBridgeClient.step] at hs
    split at hs
    · rename_i hguard
      cases hs
      exact hc.newQuery hguard.2 hcalm
    · cases hs
  | chainRollbackCleanup =>
    simp only [PgBridgeClient.step] at hs
    split at hs
    · cases hs
      exact ⟨k, hc.chainRollbackCleanup⟩
    · cases hs
  | thenQuery q =>
    simp only [PgBridgeClient.step] at hs
    split at hs
    · cases hs
      exact ⟨k, segs, hc.follow⟩
    · cases hs
  | thenReaction n =>
    simp only [PgBridgeClient.step] at hs
    split at hs
    · cases hs
      exact ⟨k, segs, hc.follow⟩
    · cases hs
  | complete q ok =>
    simp only [PgBridgeClient.step] at hs
    split at hs
    · rename_i hguard
      cases hs
      refine ⟨k, segs, hc.settle rfl ?_ fun _ he => by cases he⟩
      exact hc.started hguard.2
    · cases hs
  | fire q =>
    simp only [PgBridgeClient.step] at hs
    split at hs
    · cases hs
      refine ⟨k, segs, hc.line.quiet (.enqueue rfl) rfl rfl rfl rfl, ?_, hc.begun⟩
      exact hc.located.enqueue rfl fun _ he => by cases he
    · cases hs
  | setTransaction inTransaction =>
    simp only [PgBridgeClient.step] at hs
    split at hs
    · cases hs
      exact ⟨k, segs, hc.line.quiet .refl rfl rfl rfl rfl, hc.located, hc.begun⟩
    · cases hs
  | job =>
    simp only [PgBridgeClient.step] at hs
    split at hs
    · rename_i handler ok jobs hstack hjobs
      cases hs
      exact hc.runJob hjobs
    · cases hs

end Ordered

/-! ### Every run -/

theorem ordered_initial (connectionTimeout : Nat) : Ordered (initial connectionTimeout) 0 [] where
  line := by
    constructor
    case le => exact Nat.le_refl 0
    case order => rfl
    case waits => exact fun _ h => by cases h
    case unsettled => exact fun _ h => by cases h
    case others => exact fun _ _ => rfl
    case sorted => exact .nil
    case later => exact fun _ h => by cases h
    case bound => exact fun _ h => by cases h
    case tails => exact fun _ h => by cases h
    case linked => exact .nil
    case slot => rfl
    case expired => exact fun _ h => by cases h
    case received => rfl
  located := by
    constructor
    case settled => exact fun _ _ _ h => absurd rfl h
    case jobs => exact fun _ _ _ h => by cases h
    case reactions => exact fun _ _ _ h => by cases h
    case adopted => exact fun _ _ _ h => by cases h
    case adoption => exact fun _ _ _ h => by cases h
    case kinds =>
      rintro h q (⟨b, hjob⟩ | ⟨p, hmem⟩)
      · cases hjob
      · cases hmem
  begun := ⟨(fun _ h => by cases h), (fun _ h => by cases h)⟩

theorem ordered {t : Nat} (run : Run step Calm (initial t) c) : ∃ k segs, Ordered c k segs := by
  induction run with
  | refl => exact ⟨0, [], ordered_initial t⟩
  | snoc _ hcalm hs ih =>
    obtain ⟨k, segs, hc⟩ := ih
    exact hc.step hcalm hs

/-- What pg's own `query` has received is an initial part of the calls, without those whose timeout fired first. -/
def InOrder (c : PgBridgeClient) : Prop := c.received <+: c.calls.filter fun q => q ∉ c.expired

instance (c : PgBridgeClient) : Decidable c.InOrder := inferInstanceAs (Decidable (_ <+: _))

theorem Ordered.inOrder (hc : Ordered c k segs) : c.InOrder := by
  have hrange : List.range k <+: List.range c.links.length := by
    rw [List.prefix_iff_eq_take, List.length_range, List.take_range, Nat.min_eq_left hc.line.le]
  have hfilter := hrange.filter fun q => (c.links[q]?).any Link.isQuery && decide (q ∉ c.expired)
  rw [← hc.line.received] at hfilter
  unfold InOrder calls
  rw [List.filter_filter]
  simpa only [Bool.and_comm] using hfilter

end PgBridgeClient

end PgliteBridge
