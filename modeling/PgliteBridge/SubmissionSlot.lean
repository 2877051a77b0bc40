import PgliteBridge.SubmissionTurns

/-!
# One link at a time

The ordinary queries and the cleanup links form a chain: `current` has begun and holds the slot, the links of `waiting`
wait in call order, each on the tail of the one before (`Held`).  This needs no condition on the calls: a call that
finds the slot empty finds no link of the chain unreleased.
-/

namespace PgliteBridge

open TransitionSystem

/-- The link of the chain that a reaction begins. -/
def Handler.link : Handler → Option Nat
  | .execute q => some q
  | .cleanup q => some q
  | _ => none

theorem Handler.link_of_submission {h : Handler} (hs : h.submission = none) : h.link = none := by
  cases h <;> first | rfl | cases hs

namespace PgBridgeClient

variable {c c' : PgBridgeClient} {loop loop' : Loop} {current : Option Nat} {waiting turns : List Nat} {q n last : Nat}
  {p : PromiseId} {links : List Link} {h : Handler} {ok : Bool} {query : OrdinaryQuery} {link : Link} {a : ClientAction}

/-- An ordinary query or a cleanup link. -/
def Chained (c : PgBridgeClient) (q : Nat) : Prop := ∃ link, c.links[q]? = some link ∧ link ≠ .submittable

private theorem Chained.lt (hq : c.Chained q) : q < c.links.length := by
  obtain ⟨link, hlink, -⟩ := hq
  exact (List.getElem?_eq_some_iff.mp hlink).1

private theorem chained_append (hlinks : c'.links = c.links ++ [link]) :
    c'.Chained q ↔ c.Chained q ∨ q = c.links.length ∧ link ≠ .submittable := by
  unfold Chained
  rw [hlinks]
  by_cases hq : q < c.links.length
  · have hne : q ≠ c.links.length := by omega
    simp [List.getElem?_append_left hq, hne]
  · by_cases he : q = c.links.length
    · subst he
      simp
    · have hlt : (c.links ++ [link]).length ≤ q := by
        rw [List.length_append, List.length_singleton]
        omega
      have hge : c.links.length ≤ q := by omega
      simp [List.getElem?_eq_none_iff.mpr hlt, List.getElem?_eq_none_iff.mpr hge, he]

/-! ### Who waits behind whom -/

/-- What waits on a promise, if each of `turns` waits on the tail of the one before. -/
def behind : List Nat → PromiseId → List Nat
  | [], _ => []
  | q :: rest, p => if p = .tail q then rest.take 1 else behind rest p

private theorem behind_of_not_mem (hp : ∀ q ∈ turns, p ≠ .tail q) : behind turns p = [] := by
  induction turns with
  | nil => rfl
  | cons q rest ih =>
    rw [behind, if_neg (hp q (List.mem_cons_self ..))]
    exact ih fun q' hq' => hp q' (List.mem_cons_of_mem _ hq')

private theorem behind_last (hnodup : (turns ++ [last]).Nodup) : behind (turns ++ [last]) (.tail last) = [] := by
  induction turns with
  | nil => simp [behind]
  | cons q rest ih =>
    rw [List.cons_append, List.nodup_cons] at hnodup
    have hne : PromiseId.tail last ≠ .tail q := by
      intro he
      cases he
      exact hnodup.1 (by simp)
    rw [List.cons_append, behind, if_neg hne]
    exact ih hnodup.2

/-- Another link joins behind the last one. -/
private theorem behind_append (hnodup : (turns ++ [last]).Nodup) (p : PromiseId) :
    behind (turns ++ [last] ++ [n]) p = if p = .tail last then [n] else behind (turns ++ [last]) p := by
  induction turns with
  | nil => simp [behind]
  | cons q rest ih =>
    rw [List.cons_append, List.nodup_cons] at hnodup
    simp only [List.cons_append, behind]
    by_cases hp : p = .tail q
    · subst hp
      have hne : PromiseId.tail q ≠ .tail last := by
        intro he
        cases he
        exact hnodup.1 (by simp)
      rw [if_pos rfl, if_neg hne, if_pos rfl]
      cases rest <;> rfl
    · rw [if_neg hp, if_neg hp]
      exact ih hnodup.2

theorem mem_tail_of_behind (hq : q ∈ behind turns p) : q ∈ turns.tail := by
  induction turns with
  | nil => cases hq
  | cons x rest ih =>
    rw [behind] at hq
    split at hq
    · exact List.mem_of_mem_take hq
    · exact List.mem_of_mem_tail (ih hq)

/-- Each link but the first waits behind another. -/
theorem exists_behind (hnodup : turns.Nodup) (hq : q ∈ turns.tail) : ∃ q', q ∈ behind turns (.tail q') := by
  induction turns with
  | nil => cases hq
  | cons x rest ih =>
    rw [List.nodup_cons] at hnodup
    cases rest with
    | nil => cases hq
    | cons y rest =>
      rcases List.mem_cons.mp hq with rfl | hq
      · exact ⟨x, by simp [behind]⟩
      · obtain ⟨q', hq'⟩ := ih hnodup.2 hq
        refine ⟨q', ?_⟩
        have hne : PromiseId.tail q' ≠ .tail x := by
          intro he
          rw [he, behind_of_not_mem fun z hz he => ?_] at hq'
          · cases hq'
          · cases he
            exact hnodup.1 hz
        rw [behind, if_neg hne]
        exact hq'

/-! ### The chain -/

/-- The chain has begun `current`; the links of `waiting` are still to come. -/
structure Held (c : PgBridgeClient) (current : Option Nat) (waiting : List Nat) : Prop where
  slot : c.querySubmissionChain = (current.toList ++ waiting).getLast?.map PromiseId.tail
  queued : c.loop.queued Handler.link = if current = none then waiting.take 1 else []
  waits : ∀ p, c.loop.waiting Handler.link p = behind (current.toList ++ waiting) p
  nodup : (current.toList ++ waiting).Nodup
  mem : ∀ q, q ∈ current.toList ++ waiting ↔ c.Chained q ∧ c.loop.outcome (.tail q) = none

namespace Held

theorem quiet (hheld : Held c current waiting) (hq : Quiet Handler.link c.loop c'.loop) (hlinks : c'.links = c.links)
    (hslot : c'.querySubmissionChain = c.querySubmissionChain) : Held c' current waiting where
  slot := by rw [hslot, hheld.slot]
  queued := by rw [hq.queued, hheld.queued]
  waits p := by rw [hq.waiting, hheld.waits]
  nodup := hheld.nodup
  mem q := by
    rw [hheld.mem, hq.tails]
    unfold Chained
    rw [hlinks]

/-- No link waits on a promise that is not a tail. -/
theorem nothing_waits (hheld : Held c current waiting) (hp : ∀ q, p ≠ .tail q) :
    c.loop.waiting Handler.link p = [] := by
  rw [hheld.waits]
  exact behind_of_not_mem fun q _ => hp q

theorem not_waiting (hheld : Held c current waiting) (hq : current = some q) : q ∉ waiting := by
  have hnodup := hheld.nodup
  subst hq
  exact (List.nodup_cons.mp hnodup).1

theorem lt_of_mem (hheld : Held c current waiting) (hq : q ∈ current.toList ++ waiting) : q < c.links.length :=
  ((hheld.mem q).mp hq).1.lt

/-- With an empty slot no link of the chain is left. -/
theorem empty (hheld : Held c current waiting) (hslot : c.querySubmissionChain = none) :
    current = none ∧ waiting = [] := by
  have h := hheld.slot
  rw [hslot] at h
  have hnil := List.getLast?_eq_none_iff.mp (Option.map_eq_none_iff.mp h.symm)
  rw [List.append_eq_nil_iff] at hnil
  refine ⟨?_, hnil.2⟩
  cases current with
  | none => rfl
  | some q => cases hnil.1

/-- A Submittable is no link of the chain. -/
theorem submittable (hheld : Held c current waiting) (hq : Quiet Handler.link c.loop c'.loop)
    (hlinks : c'.links = c.links ++ [.submittable]) (hslot : c'.querySubmissionChain = c.querySubmissionChain) :
    Held c' current waiting where
  slot := by rw [hslot, hheld.slot]
  queued := by rw [hq.queued, hheld.queued]
  waits p := by rw [hq.waiting, hheld.waits]
  nodup := hheld.nodup
  mem q := by
    rw [hheld.mem, hq.tails, chained_append hlinks]
    simp

/-- The membership in the chain after a new link. -/
private theorem mem_append (hheld : Held c current waiting) (hlinks : c'.links = c.links ++ [link])
    (hlink : link ≠ .submittable) (htails : ∀ q, c'.loop.outcome (.tail q) = c.loop.outcome (.tail q))
    (hnone : c.loop.outcome (.tail c.links.length) = none) (q : Nat) :
    q ∈ current.toList ++ waiting ∨ q = c.links.length ↔ c'.Chained q ∧ c'.loop.outcome (.tail q) = none := by
  rw [hheld.mem, htails, chained_append hlinks]
  constructor
  · rintro (h | rfl)
    · exact ⟨.inl h.1, h.2⟩
    · exact ⟨.inr ⟨rfl, hlink⟩, hnone⟩
  · rintro ⟨h | ⟨rfl, -⟩, hout⟩
    · exact .inl ⟨h, hout⟩
    · exact .inr rfl

/-- A query that finds the slot empty begins at once. -/
theorem start (hheld : Held c current waiting) (hempty : c.querySubmissionChain = none)
    (hq : Quiet Handler.link c.loop c'.loop) (hlinks : c'.links = c.links ++ [link]) (hlink : link ≠ .submittable)
    (hnone : c.loop.outcome (.tail c.links.length) = none)
    (hslot : c'.querySubmissionChain = some (.tail c.links.length)) : Held c' (some c.links.length) [] := by
  obtain ⟨rfl, rfl⟩ := hheld.empty hempty
  refine ⟨hslot, ?_, fun p => ?_, by simp, fun q => ?_⟩
  · rw [hq.queued, hheld.queued]
    rfl
  · rw [hq.waiting, hheld.waits]
    simp [behind]
  · rw [← hheld.mem_append hlinks hlink hq.tails hnone]
    simp

/-- A cleanup link that finds the slot empty waits in the job queue. -/
theorem enqueue (hheld : Held c current waiting) (hempty : c.querySubmissionChain = none)
    (hq : Quiet Handler.link (c.loop.enqueue h ok) c'.loop) (hs : h.link = some c.links.length)
    (hlinks : c'.links = c.links ++ [link]) (hlink : link ≠ .submittable)
    (hnone : c.loop.outcome (.tail c.links.length) = none)
    (hslot : c'.querySubmissionChain = some (.tail c.links.length)) : Held c' none [c.links.length] := by
  obtain ⟨rfl, rfl⟩ := hheld.empty hempty
  refine ⟨hslot, ?_, fun p => ?_, by simp, fun q => ?_⟩
  · rw [hq.queued, EventLoop.queued_enqueue, hheld.queued, hs]
    rfl
  · rw [hq.waiting, EventLoop.waiting_enqueue, hheld.waits]
    simp [behind]
  · rw [← hheld.mem_append hlinks hlink hq.tails hnone]
    simp

/-- A link that finds the slot taken waits on its tail. -/
theorem join (hheld : Held c current waiting) {prior : PromiseId} (hprior : c.querySubmissionChain = some prior)
    (hq : Quiet Handler.link (c.loop.react prior h) c'.loop) (hs : h.link = some c.links.length)
    (hlinks : c'.links = c.links ++ [link]) (hlink : link ≠ .submittable)
    (hnone : c.loop.outcome (.tail c.links.length) = none)
    (hslot : c'.querySubmissionChain = some (.tail c.links.length)) :
    Held c' current (waiting ++ [c.links.length]) := by
  have htail := hheld.slot
  rw [hprior] at htail
  obtain ⟨last, hlast, rfl⟩ := Option.map_eq_some_iff.mp htail.symm
  obtain ⟨init, hinit⟩ := List.getLast?_eq_some_iff.mp hlast
  have hunsettled : c.loop.outcome (.tail last) = none := ((hheld.mem last).mp (List.mem_of_getLast? hlast)).2
  have hnodup := hheld.nodup
  have hwaits := hheld.waits
  rw [hinit] at hnodup hwaits
  have htails : ∀ q, c'.loop.outcome (.tail q) = c.loop.outcome (.tail q) := by
    intro q
    rw [hq.tails, EventLoop.react_outcome]
  constructor
  case slot => simp [hslot]
  case queued =>
    rw [hq.queued, EventLoop.queued_react _ hunsettled, hheld.queued]
    split
    · rename_i hcurrent
      subst hcurrent
      have hne : waiting ≠ [] := by
        intro he
        subst he
        simp at hlast
      cases waiting with
      | nil => exact absurd rfl hne
      | cons q rest => rfl
    · rfl
  case waits =>
    intro p
    rw [hq.waiting, ← List.append_assoc, hinit, behind_append hnodup]
    by_cases hp : p = .tail last
    · subst hp
      rw [EventLoop.waiting_react _ hunsettled, hwaits, behind_last hnodup, hs, if_pos rfl]
      rfl
    · rw [EventLoop.waiting_react_of_ne _ hp, hwaits, if_neg hp]
  case nodup =>
    have hfresh : c.links.length ∉ current.toList ++ waiting := fun hmem => Nat.lt_irrefl _ (hheld.lt_of_mem hmem)
    rw [← List.append_assoc, List.nodup_append]
    refine ⟨hheld.nodup, by simp, fun q hmem q' hq' he => ?_⟩
    rw [List.mem_singleton.mp hq'] at he
    exact hfresh (he ▸ hmem)
  case mem =>
    intro q
    rw [← hheld.mem_append hlinks hlink htails hnone, ← List.append_assoc, List.mem_append, List.mem_singleton]

/-- The link in the job queue is the first one waiting, and no link holds the slot before it. -/
theorem head (hheld : Held c current waiting) {jobs : List (Handler × Bool)} (hjobs : c.loop.jobs = (h, ok) :: jobs)
    (hs : h.link = some q) : current = none ∧ (∃ rest, waiting = q :: rest) ∧
      jobs.filterMap (fun job => job.1.link) = [] := by
  have hqueued := hheld.queued
  simp only [EventLoop.queued, hjobs, List.filterMap_cons, hs] at hqueued
  split at hqueued
  · rename_i hcurrent
    cases waiting with
    | nil => cases hqueued
    | cons q' rest =>
      simp only [List.take_succ_cons, List.take_zero, List.cons.injEq] at hqueued
      exact ⟨hcurrent, ⟨rest, by rw [hqueued.1]⟩, hqueued.2⟩
  · cases hqueued

/-- The first link of the chain begins. -/
theorem turn (hheld : Held c none (q :: waiting)) {jobs : List (Handler × Bool)}
    (hjobs : c.loop.jobs = (h, ok) :: jobs) (hs : h.link = some q) :
    Held { c with loop := { c.loop with jobs } } (some q) waiting where
  slot := hheld.slot
  queued := (hheld.head hjobs hs).2.2
  waits := hheld.waits
  nodup := hheld.nodup
  mem := hheld.mem

/-- The tail of the current link is settled: the next link moves to the job queue. -/
theorem release (hheld : Held c (some q) waiting) :
    Held { c with
      querySubmissionChain := if c.querySubmissionChain = some (.tail q) then none else c.querySubmissionChain
      loop := c.loop.settle (.tail q) true } none waiting := by
  have hnone := ((hheld.mem q).mp (by simp)).2
  have hnot := hheld.not_waiting rfl
  have hne : ∀ q' ∈ waiting, PromiseId.tail q' ≠ .tail q := by
    intro q' hq' he
    cases he
    exact hnot hq'
  constructor
  case slot =>
    have hslot := hheld.slot
    cases waiting with
    | nil =>
      have hself : c.querySubmissionChain = some (.tail q) := hslot
      simp [hself]
    | cons x rest =>
      have hlast : (x :: rest).getLast (by simp) ∈ x :: rest := List.getLast_mem _
      rw [Option.toList_some, List.singleton_append, List.getLast?_cons_cons,
        List.getLast?_eq_getLast_of_ne_nil (by simp), Option.map_some] at hslot
      rw [Option.toList_none, List.nil_append, List.getLast?_eq_getLast_of_ne_nil (by simp), Option.map_some, hslot,
        if_neg]
      intro he
      rw [Option.some.injEq] at he
      exact hne _ hlast he
  case queued =>
    have hq := hheld.queued
    rw [EventLoop.queued_settle _ hnone, hq, hheld.waits]
    simp [behind]
  case waits =>
    intro p
    by_cases hp : p = .tail q
    · subst hp
      rw [EventLoop.waiting_settle_self _ hnone]
      exact (behind_of_not_mem fun q' hq' he => hne q' hq' he.symm).symm
    · rw [EventLoop.waiting_settle_of_ne _ hp, hheld.waits]
      simp [behind, hp]
  case nodup => exact (List.nodup_cons.mp hheld.nodup).2
  case mem =>
    intro q'
    have hmem := hheld.mem q'
    rw [Option.toList_some, List.singleton_append, List.mem_cons] at hmem
    rw [Option.toList_none, List.nil_append]
    by_cases he : q' = q
    · subst he
      simp only [hnot, false_iff, not_and]
      exact fun _ => EventLoop.settle_outcome_self
    · have hne' : PromiseId.tail q' ≠ .tail q := fun h => he (PromiseId.tail.inj h)
      show q' ∈ waiting ↔ c.Chained q' ∧ (c.loop.settle (.tail q) true).outcome (.tail q') = none
      rw [EventLoop.settle_outcome_of_ne hne', ← hmem]
      simp [he]

/-- A tail that no link of the chain waits behind. -/
theorem releaseOther (hheld : Held c current waiting) (hq : q ∉ current.toList ++ waiting) :
    Held { c with
      querySubmissionChain := if c.querySubmissionChain = some (.tail q) then none else c.querySubmissionChain
      loop := c.loop.settle (.tail q) true } current waiting := by
  have hne : ∀ q' ∈ current.toList ++ waiting, PromiseId.tail q' ≠ .tail q := by
    intro q' hq' he
    cases he
    exact hq hq'
  have hslot : c.querySubmissionChain ≠ some (.tail q) := by
    rw [hheld.slot]
    intro he
    obtain ⟨q', hq', he⟩ := Option.map_eq_some_iff.mp he
    exact hne q' (List.mem_of_getLast? hq') he
  have hnothing : c.loop.waiting Handler.link (.tail q) = [] := by
    rw [hheld.waits]
    exact behind_of_not_mem fun q' hq' he => hne q' hq' he.symm
  rw [if_neg hslot]
  constructor
  case slot => exact hheld.slot
  case queued => rw [EventLoop.queued_settle_nil hnothing]; exact hheld.queued
  case waits =>
    intro p
    rw [EventLoop.waiting_settle_nil hnothing]
    exact hheld.waits p
  case nodup => exact hheld.nodup
  case mem =>
    intro q'
    by_cases he : q' = q
    · subst he
      simp only [hq, false_iff, not_and]
      exact fun _ => EventLoop.settle_outcome_self
    · have hne' : PromiseId.tail q' ≠ .tail q := fun h => he (PromiseId.tail.inj h)
      show q' ∈ _ ↔ c.Chained q' ∧ (c.loop.settle (.tail q) true).outcome (.tail q') = none
      rw [EventLoop.settle_outcome_of_ne hne', hheld.mem]

end Held

end PgBridgeClient

end PgliteBridge
