import PgliteBridge.SubmissionInTurn

/-!
# The suppressed timeouts

A submission with a timeout of its own sets pg's timeouts to 0 and restores them when it returns.  Only one submission
runs at a time, so the frame that restores them is the only one (`Timeouts`), and a call made meanwhile finds the public
default in `suppressedConnectionQueryTimeout`.
-/

namespace PgliteBridge

open TransitionSystem

/-- The link and the timeouts that a frame restores. -/
def Frame.saved : Frame → Option (Nat × Option Nat × Nat)
  | .submission q _ saved => saved.map fun timeouts => (q, timeouts)
  | .execution q saved => saved.map fun timeouts => (q, timeouts)
  | _ => none

namespace PgBridgeClient

variable {c c' : PgBridgeClient} {current : Option Nat} {waiting : List Nat} {q t : Nat} {links : List Link}
  {h : Handler} {ok : Bool} {query : OrdinaryQuery} {link : Link} {a : ClientAction} {frame : Frame}

/-- The `query_timeout` that a query was called with. -/
def publicTimeout (links : List Link) (q : Nat) : Option Nat :=
  match links[q]? with
  | some (.ordinary query) => query.queryTimeout
  | _ => none

private theorem publicTimeout_append (links : List Link) (query : OrdinaryQuery) :
    publicTimeout (links ++ [.ordinary query]) =
      Function.update (publicTimeout links) links.length query.queryTimeout := by
  funext q
  by_cases hq : q = links.length
  · subst hq
    simp [publicTimeout]
  · rw [Function.update_of_ne hq]
    by_cases hlt : q < links.length
    · simp [publicTimeout, List.getElem?_append_left hlt]
    · have hge : links.length + 1 ≤ q := by omega
      have hnone : (links ++ [Link.ordinary query])[q]? = none := by simpa using hge
      have hnone' : links[q]? = none := by simpa using Nat.le_of_succ_le hge
      simp [publicTimeout, hnone, hnone']

private theorem publicTimeout_append_of_ne (hlink : ∀ query, link ≠ .ordinary query) :
    publicTimeout (links ++ [link]) = publicTimeout links := by
  funext q
  unfold publicTimeout
  by_cases hlt : q < links.length
  · rw [List.getElem?_append_left hlt]
  · have hnone : links[q]? = none := by simpa using hlt
    rw [hnone, List.getElem?_append_right (by omega)]
    cases q - links.length with
    | zero =>
      cases link with
      | ordinary query => exact absurd rfl (hlink query)
      | _ => rfl
    | succ n => rfl

/-! ### What `execute` suppresses -/

/-- No submission has suppressed the timeouts. -/
structure Restored (t : Nat) (c : PgBridgeClient) : Prop where
  stack : c.stack.filterMap Frame.saved = []
  connection : c.connectionTimeout = t
  suppressed : c.suppressedConnectionQueryTimeout = none
  config : c.configTimeout = publicTimeout c.links

/-- The submission of `q` has suppressed the timeouts, and its frame has them. -/
structure Suppressed (t : Nat) (c : PgBridgeClient) (q : Nat) : Prop where
  lt : q < c.links.length
  stack : c.stack.filterMap Frame.saved = [(q, publicTimeout c.links q, t)]
  connection : c.connectionTimeout = 0
  suppressed : c.suppressedConnectionQueryTimeout = some t
  config : c.configTimeout =
    Function.update (publicTimeout c.links) q ((publicTimeout c.links q).map fun _ => 0)

/-- The timers of the queries were set by the public timeouts. -/
def Timed (t : Nat) (c : PgBridgeClient) : Prop :=
  ∀ q query, c.links[q]? = some (.ordinary query) → c.timed q = (orTimeout (query.queryTimeout.getD 0) t != 0)

structure Timeouts (t : Nat) (c : PgBridgeClient) : Prop where
  timed : Timed t c
  state : Restored t c ∨ ∃ q, Suppressed t c q

private theorem Timeouts.effective (ht : Timeouts t c) (query : OrdinaryQuery) :
    c.effectiveQueryTimeout query = orTimeout (query.queryTimeout.getD 0) t := by
  unfold effectiveQueryTimeout
  rcases ht.state with h | ⟨q, h⟩
  · rw [h.connection, h.suppressed]
    by_cases ht : t = 0 <;> simp [orTimeout, ht]
  · rw [h.connection, h.suppressed]
    simp [orTimeout]

/-- A frame with no timeouts leaves, or another starts. -/
private theorem Timeouts.keep (ht : Timeouts t c)
    (hstack : c'.stack.filterMap Frame.saved = c.stack.filterMap Frame.saved)
    (hconnection : c'.connectionTimeout = c.connectionTimeout)
    (hsuppressed : c'.suppressedConnectionQueryTimeout = c.suppressedConnectionQueryTimeout)
    (hconfig : c'.configTimeout = c.configTimeout) (hlinks : c'.links = c.links) (htimed : c'.timed = c.timed) :
    Timeouts t c' where
  timed := by
    unfold Timed
    rw [hlinks, htimed]
    exact ht.timed
  state := by
    rcases ht.state with h | ⟨q, h⟩
    · left
      exact ⟨hstack.trans h.stack, hconnection.trans h.connection, hsuppressed.trans h.suppressed,
        by rw [hconfig, hlinks, h.config]⟩
    · right
      refine ⟨q, hlinks ▸ h.lt, ?_, hconnection.trans h.connection, hsuppressed.trans h.suppressed, ?_⟩
      · rw [hstack, hlinks, h.stack]
      · rw [hconfig, hlinks, h.config]

/-- The `execute` of a query, where no other one runs. -/
private theorem Restored.execute (hr : Restored t c) (htimed : Timed t c) (hq : q < c.links.length)
    (hframe : frame.saved = (c.execute q).1.map fun timeouts => (q, timeouts)) :
    Timeouts t { (c.execute q).2 with stack := frame :: (c.execute q).2.stack } := by
  unfold PgBridgeClient.execute at *
  split
  · rename_i hself
    rw [if_pos hself] at hframe
    refine ⟨htimed, .inr ⟨q, hq, ?_, rfl, ?_, ?_⟩⟩
    · simp [hframe, hr.stack, hr.config, hr.connection]
    · simp [hr.connection]
    · simp [hr.config]
  · rename_i hself
    rw [if_neg hself] at hframe
    refine ⟨htimed, .inl ⟨?_, hr.connection, hr.suppressed, hr.config⟩⟩
    simp [hframe, hr.stack]

/-- A frame restores what it has saved. -/
private theorem Timeouts.restore {stack : List Frame} {saved : Option (Option Nat × Nat)} (ht : Timeouts t c)
    (hstack : c.stack = frame :: stack) (hframe : frame.saved = saved.map fun timeouts => (q, timeouts)) :
    Timeouts t ({ c with stack }.restore q saved) := by
  cases saved with
  | none =>
    refine ht.keep ?_ rfl rfl rfl rfl rfl
    rw [hstack, List.filterMap_cons, hframe]
    rfl
  | some timeouts =>
    obtain ⟨perQueryTimeout, connectionTimeout⟩ := timeouts
    have hsaved : c.stack.filterMap Frame.saved =
        (q, perQueryTimeout, connectionTimeout) :: stack.filterMap Frame.saved := by
      rw [hstack, List.filterMap_cons, hframe]
      rfl
    rcases ht.state with h | ⟨q', h⟩
    · rw [h.stack] at hsaved
      cases hsaved
    · rw [h.stack, List.cons.injEq, Prod.mk.injEq, Prod.mk.injEq] at hsaved
      obtain ⟨⟨rfl, hper, hconnection⟩, hnil⟩ := hsaved
      refine ⟨ht.timed, .inl ⟨hnil.symm, hconnection.symm, rfl, ?_⟩⟩
      simp [PgBridgeClient.restore, h.config, ← hper]

/-! ### One step -/

/-- What the rest of `query` leaves alone. -/
structure SameTimeouts (c c' : PgBridgeClient) : Prop where
  connection : c'.connectionTimeout = c.connectionTimeout
  suppressed : c'.suppressedConnectionQueryTimeout = c.suppressedConnectionQueryTimeout
  config : c'.configTimeout = c.configTimeout
  timed : c'.timed = c.timed

private theorem SameTimeouts.trans {c'' : PgBridgeClient} (h : SameTimeouts c c') (h' : SameTimeouts c' c'') :
    SameTimeouts c c'' :=
  ⟨h'.connection.trans h.connection, h'.suppressed.trans h.suppressed, h'.config.trans h.config,
    h'.timed.trans h.timed⟩

private theorem observe_timeouts (c : PgBridgeClient) (q : Nat) (query : OrdinaryQuery) (p : PromiseId) :
    SameTimeouts c (c.observe q query p) := by
  unfold observe
  dsimp only
  split <;> exact ⟨rfl, rfl, rfl, rfl⟩

private theorem returnPromise_timeouts (c : PgBridgeClient) (q : Nat) (query : OrdinaryQuery) (p : PromiseId) :
    SameTimeouts c (c.returnPromise q query p) := by
  unfold returnPromise
  dsimp only
  split <;> exact ⟨rfl, rfl, rfl, rfl⟩

private theorem submitted_timeouts (c : PgBridgeClient) (q : Nat) (query : OrdinaryQuery) (ok : Bool) :
    SameTimeouts c (c.submitted q query ok) := by
  cases ok with
  | true =>
    have h := observe_timeouts c q query (.result q)
    refine SameTimeouts.trans ?_ (returnPromise_timeouts _ q query _)
    exact ⟨h.connection, h.suppressed, h.config, h.timed⟩
  | false =>
    have h := observe_timeouts { c with loop := c.loop.settle (.raw q) false } q query (.raw q)
    refine SameTimeouts.trans ?_ (returnPromise_timeouts _ q query _)
    exact ⟨h.connection, h.suppressed, h.config, h.timed⟩

private theorem chain_timeouts (c : PgBridgeClient) (q : Nat) (query : OrdinaryQuery) (prior : PromiseId) :
    SameTimeouts c (c.chain q query prior) := by
  have h := observe_timeouts { c with loop := c.loop.react prior (.execute q) } q query (.raw q)
  refine SameTimeouts.trans ?_ (returnPromise_timeouts _ q query _)
  exact ⟨h.connection, h.suppressed, h.config, h.timed⟩

namespace Timeouts

/-- The function on top of the stack returns. -/
private theorem leave {stack : List Frame} (ht : Timeouts t c) (hstack : c.stack = frame :: stack) :
    Timeouts t ({ c with stack }.leave ok frame) := by
  have hpop : frame.saved = none → c.stack.filterMap Frame.saved = stack.filterMap Frame.saved := by
    intro hframe
    rw [hstack, List.filterMap_cons, hframe]
  cases frame with
  | event | admission | resume => exact ht.keep (hpop rfl).symm rfl rfl rfl rfl rfl
  | execution q saved =>
    have hrestore : Timeouts t ({ c with stack }.restore q saved) := ht.restore hstack rfl
    simp only [PgBridgeClient.leave]
    split <;> exact hrestore.keep rfl rfl rfl rfl rfl rfl
  | submission q query saved =>
    have hrestore : Timeouts t ({ c with stack }.restore q saved) := ht.restore hstack rfl
    have hsame := submitted_same ({ c with stack }.restore q saved) q query ok
    have h := submitted_timeouts ({ c with stack }.restore q saved) q query ok
    refine hrestore.keep ?_ h.connection h.suppressed h.config hsame.links h.timed
    exact congrArg (List.filterMap Frame.saved) hsame.stack

/-- A call that is no ordinary query. -/
private theorem otherLink (ht : Timeouts t c) (hlink : ∀ query, link ≠ .ordinary query)
    (hlinks : c'.links = c.links ++ [link])
    (hstack : c'.stack.filterMap Frame.saved = c.stack.filterMap Frame.saved) (hsame : SameTimeouts c c') :
    Timeouts t c' where
  timed q query hq := by
    rw [hlinks] at hq
    rw [hsame.timed]
    by_cases hlt : q < c.links.length
    · rw [List.getElem?_append_left hlt] at hq
      exact ht.timed q query hq
    · rw [List.getElem?_append_right (by omega)] at hq
      have hmem := List.mem_of_getElem? hq
      rw [List.mem_singleton] at hmem
      exact absurd hmem.symm (hlink query)
  state := by
    have hpublic : publicTimeout (c.links ++ [link]) = publicTimeout c.links := publicTimeout_append_of_ne hlink
    rcases ht.state with h | ⟨q, h⟩
    · left
      exact ⟨hstack.trans h.stack, hsame.connection.trans h.connection, hsame.suppressed.trans h.suppressed,
        by rw [hsame.config, hlinks, hpublic, h.config]⟩
    · right
      refine ⟨q, ?_, ?_, hsame.connection.trans h.connection, hsame.suppressed.trans h.suppressed, ?_⟩
      · rw [hlinks, List.length_append]
        exact Nat.lt_add_right _ h.lt
      · rw [hstack, hlinks, hpublic, h.stack]
      · rw [hsame.config, hlinks, hpublic, h.config]

/-- An ordinary query sets its timer by the public timeouts. -/
private theorem ordinaryLink (ht : Timeouts t c) (hlinks : c'.links = c.links ++ [.ordinary query])
    (hstack : c'.stack.filterMap Frame.saved = c.stack.filterMap Frame.saved)
    (hconnection : c'.connectionTimeout = c.connectionTimeout)
    (hsuppressed : c'.suppressedConnectionQueryTimeout = c.suppressedConnectionQueryTimeout)
    (hconfig : c'.configTimeout = Function.update c.configTimeout c.links.length query.queryTimeout)
    (htimed : c'.timed = Function.update c.timed c.links.length (c.effectiveQueryTimeout query != 0)) :
    Timeouts t c' where
  timed q query' hq := by
    rw [hlinks] at hq
    rw [htimed]
    by_cases he : q = c.links.length
    · subst he
      rw [List.getElem?_concat_length, Option.some.injEq, Link.ordinary.injEq] at hq
      rw [Function.update_self, ht.effective, hq]
    · rw [Function.update_of_ne he]
      have hlt : q < c.links.length := by
        have := (List.getElem?_eq_some_iff.mp hq).1
        rw [List.length_append, List.length_singleton] at this
        omega
      rw [List.getElem?_append_left hlt] at hq
      exact ht.timed q query' hq
  state := by
    have hpublic := publicTimeout_append c.links query
    rcases ht.state with h | ⟨q, h⟩
    · left
      exact ⟨hstack.trans h.stack, hconnection.trans h.connection, hsuppressed.trans h.suppressed,
        by rw [hconfig, hlinks, hpublic, h.config]⟩
    · right
      have hne : q ≠ c.links.length := Nat.ne_of_lt h.lt
      have hself : publicTimeout (c.links ++ [.ordinary query]) q = publicTimeout c.links q := by
        rw [hpublic, Function.update_of_ne hne]
      refine ⟨q, ?_, ?_, hconnection.trans h.connection, hsuppressed.trans h.suppressed, ?_⟩
      · rw [hlinks, List.length_append]
        exact Nat.lt_add_right _ h.lt
      · rw [hstack, hlinks, hself, h.stack]
      · rw [hconfig, hlinks, hself, hpublic, h.config, Function.update_comm hne]

/-- Where no submission runs, none has suppressed the timeouts. -/
private theorem restored (ht : Timeouts t c) (hstack : ∀ frame ∈ c.stack, frame.call = none) : Restored t c := by
  have hnil : c.stack.filterMap Frame.saved = [] := by
    rw [List.filterMap_eq_nil_iff]
    intro frame hmem
    have hcall := hstack frame hmem
    cases frame with
    | submission | execution => cases hcall
    | _ => rfl
  rcases ht.state with h | ⟨q, h⟩
  · exact h
  · rw [h.stack] at hnil
    cases hnil

private theorem chain {prior : PromiseId} (ht : Timeouts t c) : Timeouts t (c.chain q query prior) := by
  have hsame := chain_same c q query prior
  have h := chain_timeouts c q query prior
  exact ht.keep (congrArg (List.filterMap Frame.saved) hsame.stack) h.connection h.suppressed h.config hsame.links
    h.timed

private theorem newQuery (ht : Timeouts t c) (hc : InTurn c current waiting) (hquery : link.isQuery = true) :
    Timeouts t (c.query link) := by
  unfold PgBridgeClient.query
  cases link with
  | cleanup => cases hquery
  | submittable =>
    cases hslot : c.querySubmissionChain with
    | none => exact ht.otherLink (fun _ he => by cases he) rfl rfl ⟨rfl, rfl, rfl, rfl⟩
    | some prior => exact ht.otherLink (fun _ he => by cases he) rfl rfl ⟨rfl, rfl, rfl, rfl⟩
  | ordinary query =>
    let c₁ : PgBridgeClient := { c with
      links := c.links ++ [.ordinary query]
      configTimeout := Function.update c.configTimeout c.links.length query.queryTimeout
      timed := Function.update c.timed c.links.length (c.effectiveQueryTimeout query != 0)
      armed := Function.update c.armed c.links.length (c.effectiveQueryTimeout query != 0) }
    have h₁ : Timeouts t c₁ := ht.ordinaryLink rfl rfl rfl rfl rfl rfl
    cases hslot : c.querySubmissionChain with
    | none =>
      dsimp only
      obtain ⟨rfl, rfl⟩ := hc.held.empty hslot
      have hcalls : ∀ frame ∈ c₁.stack, frame.call = none := by
        intro frame hmem
        cases hcall : frame.call with
        | none => rfl
        | some q => cases hc.frames frame hmem q hcall
      let c₂ : PgBridgeClient := { c₁ with
        loop := c.loop.react (.reservation c.links.length) (.releaseTail c.links.length)
        querySubmissionChain := some (.tail c.links.length) }
      have h₂ : Timeouts t c₂ := h₁.keep rfl rfl rfl rfl rfl rfl
      exact (h₂.restored hcalls).execute h₂.timed (by simp [c₂, c₁]) rfl
    | some prior =>
      dsimp only
      exact Timeouts.chain (ht.ordinaryLink rfl rfl rfl rfl rfl rfl)

/-- A microtask. -/
private theorem runJob (ht : Timeouts t c) (hc : InTurn c current waiting) (hstack : c.stack = [])
    {jobs : List (Handler × Bool)} (hjobs : c.loop.jobs = (h, ok) :: jobs) :
    Timeouts t ({ c with loop := { c.loop with jobs } }.runJob ok h) := by
  have hcalls : ∀ frame ∈ c.stack, frame.call = none := by simp [hstack]
  have hpop : Timeouts t { c with loop := { c.loop with jobs } } := ht.keep rfl rfl rfl rfl rfl rfl
  cases h with
  | execute q =>
    simp only [PgBridgeClient.runJob]
    split
    · exact ht.keep rfl rfl rfl rfl rfl rfl
    · obtain ⟨hcurrent, ⟨rest, rfl⟩, -⟩ := hc.held.head hjobs rfl
      have hlt : q < c.links.length := hc.held.lt_of_mem (by simp)
      exact (hpop.restored hcalls).execute hpop.timed hlt rfl
  | cleanup q =>
    simp only [PgBridgeClient.runJob]
    split <;> exact ht.keep rfl rfl rfl rfl rfl rfl
  | _ => exact ht.keep rfl rfl rfl rfl rfl rfl

/-- One step. -/
private theorem step (ht : Timeouts t c) (hc : InTurn c current waiting) (hs : c.step a = some c') : Timeouts t c' := by
  cases a with
  | event =>
    simp only [PgBridgeClient.step] at hs
    split at hs
    · rename_i hstack
      cases hs
      refine ht.keep ?_ rfl rfl rfl rfl rfl
      rw [hstack]
      rfl
    · cases hs
  | leave ok =>
    simp only [PgBridgeClient.step] at hs
    split at hs
    · cases hs
    · rename_i frame stack hstack
      cases hs
      exact ht.leave hstack
  | query link =>
    simp only [PgBridgeClient.step] at hs
    split at hs
    · rename_i hguard
      cases hs
      exact ht.newQuery hc hguard.2
    · cases hs
  | chainRollbackCleanup =>
    simp only [PgBridgeClient.step] at hs
    split at hs
    · cases hs
      unfold PgBridgeClient.chainRollbackCleanup
      cases c.querySubmissionChain <;>
        exact ht.otherLink (fun _ he => by cases he) rfl rfl ⟨rfl, rfl, rfl, rfl⟩
    · cases hs
  | job =>
    simp only [PgBridgeClient.step] at hs
    split at hs
    · rename_i hstack hjobs
      cases hs
      exact ht.runJob hc hstack hjobs
    · cases hs
  | _ =>
    simp only [PgBridgeClient.step] at hs
    split at hs
    · cases hs
      exact ht.keep rfl rfl rfl rfl rfl rfl
    · cases hs

end Timeouts

private theorem timeouts_initial (t : Nat) : Timeouts t (initial t) := by
  refine ⟨fun q query hq => ?_, .inl ⟨rfl, rfl, rfl, ?_⟩⟩
  · simp [initial] at hq
  · funext q
    simp [initial, publicTimeout]

theorem timeouts {cond : PgBridgeClient → ClientAction → Prop} (run : Run PgBridgeClient.step cond (initial t) c) :
    Timeouts t c := by
  induction run with
  | refl => exact timeouts_initial t
  | snoc hrun _ hs ih =>
    obtain ⟨current, waiting, hc⟩ := inTurn hrun
    exact ih.step hc hs

/-! ### One link at a time -/

/-- The link waits for its turn. -/
def Waits (c : PgBridgeClient) (q : Nat) : Prop := c.loop.Live (.execute q) ∨ c.loop.Live (.cleanup q)

/-- A link from its turn until its tail is settled. -/
structure InFlight (c : PgBridgeClient) (q : Nat) : Prop where
  chained : c.Chained q
  begun : ¬ c.Waits q
  unsettled : c.loop.outcome (.tail q) = none

/-- A submission runs that has suppressed the timeouts. -/
def Suppressing (c : PgBridgeClient) : Prop := ∃ frame ∈ c.stack, frame.saved ≠ none

namespace InTurn

private theorem waits_iff (hc : InTurn c current waiting) : c.Waits q ↔ q ∈ waiting := by
  constructor
  · have hlive : ∀ h : Handler, h.link = some q → c.loop.Live h → q ∈ waiting := by
      rintro h hs (⟨ok, hjob⟩ | ⟨p, hmem⟩)
      · have hqueued : q ∈ c.loop.queued Handler.link := List.mem_filterMap.mpr ⟨_, hjob, hs⟩
        rw [hc.held.queued] at hqueued
        split at hqueued
        · exact List.mem_of_mem_take hqueued
        · cases hqueued
      · have hwaiting : q ∈ c.loop.waiting Handler.link p := List.mem_filterMap.mpr ⟨_, hmem, hs⟩
        rw [hc.held.waits] at hwaiting
        have htail := mem_tail_of_behind hwaiting
        cases current with
        | none => exact List.mem_of_mem_tail htail
        | some _ => exact htail
    rintro (h | h)
    · exact hlive _ rfl h
    · exact hlive _ rfl h
  · intro hq
    have hwaits : ∀ h : Handler, h.link = some q → c.loop.Live h → c.Waits q := by
      intro h hs hlive
      cases h with
      | execute =>
        cases hs
        exact .inl hlive
      | cleanup =>
        cases hs
        exact .inr hlive
      | _ => cases hs
    by_cases hfirst : current = none ∧ q ∈ waiting.take 1
    · -- the first link waits in the job queue when no link is in flight
      have hqueued := hc.held.queued
      rw [if_pos hfirst.1] at hqueued
      obtain ⟨⟨h, ok⟩, hjob, hs⟩ := List.mem_filterMap.mp (show q ∈ c.loop.queued Handler.link from hqueued ▸ hfirst.2)
      exact hwaits h hs (.inl ⟨ok, hjob⟩)
    · have htail : q ∈ (current.toList ++ waiting).tail := by
        cases current with
        | none =>
          cases waiting with
          | nil => cases hq
          | cons x rest =>
            rcases List.mem_cons.mp hq with rfl | hq
            · exact absurd ⟨rfl, by simp⟩ hfirst
            · exact hq
        | some _ => exact hq
      obtain ⟨q', hq'⟩ := exists_behind hc.held.nodup htail
      rw [← hc.held.waits] at hq'
      obtain ⟨h, hmem, hs⟩ := List.mem_filterMap.mp hq'
      exact hwaits h hs (.inr ⟨_, hmem⟩)

private theorem inFlight_iff (hc : InTurn c current waiting) : c.InFlight q ↔ current = some q := by
  constructor
  · rintro ⟨hchained, hbegun, hunsettled⟩
    have hmem := (hc.held.mem q).mpr ⟨hchained, hunsettled⟩
    rw [hc.waits_iff] at hbegun
    rw [List.mem_append, Option.mem_toList] at hmem
    exact hmem.resolve_right hbegun
  · intro hcurrent
    have hmem := (hc.held.mem q).mp (List.mem_append_left _ (by simp [hcurrent]))
    refine ⟨hmem.1, ?_, hmem.2⟩
    rw [hc.waits_iff]
    exact hc.held.not_waiting hcurrent

/-- The slot is taken while a link of the chain is left. -/
private theorem slot_iff (hc : InTurn c current waiting) :
    c.querySubmissionChain ≠ none ↔ ∃ q, c.Chained q ∧ c.loop.outcome (.tail q) = none := by
  rw [hc.held.slot, Ne, Option.map_eq_none_iff, List.getLast?_eq_none_iff]
  constructor
  · intro hne
    obtain ⟨q, hq⟩ := List.exists_mem_of_ne_nil _ hne
    exact ⟨q, (hc.held.mem q).mp hq⟩
  · rintro ⟨q, hq⟩ hnil
    have hmem := (hc.held.mem q).mpr hq
    rw [hnil] at hmem
    cases hmem

/-- A quiescent client has an empty slot. -/
private theorem slot_of_quiescent (hc : InTurn c current waiting) (hprog : Progress c) (hq : Quiescent c) :
    c.querySubmissionChain = none := by
  have hcurrent : current = none := by
    cases hcurrent : current with
    | none => rfl
    | some q =>
      have hflight := hc.inFlight_iff.mpr hcurrent
      obtain ⟨link, hlink, hsub⟩ := hflight.chained
      have hwaits := not_or.mp hflight.begun
      refine absurd hflight.unsettled ((hprog q link hlink).settled hq hlink hsub hwaits.1 hwaits.2 fun p => ?_)
      exact hc.located.not_adopting hq.jobs
  have hqueued := hc.held.queued
  rw [if_pos hcurrent, EventLoop.queued, hq.jobs] at hqueued
  have hnil : waiting = [] := by
    cases waiting with
    | nil => rfl
    | cons x rest => cases hqueued
  rw [hc.held.slot, hcurrent, hnil]
  rfl

end InTurn

/-- What holds of the links and the timeouts, with the public default `t`. -/
structure Exclusive (t : Nat) (c : PgBridgeClient) : Prop where
  /-- one link is in flight, its admission to pg included -/
  single : ∀ q q', c.InFlight q → c.InFlight q' → q = q'
  admitted : ∀ q, q ∈ c.received ∨ q ∈ c.rollbacks → ¬ c.Waits q
  /-- a tail is settled behind the real settlement -/
  executed : ∀ q, c.loop.outcome (.tail q) ≠ none → Executed c.loop c.links q
  taken : c.querySubmissionChain ≠ none ↔ ∃ q, c.Chained q ∧ c.loop.outcome (.tail q) = none
  freed : Quiescent c → c.querySubmissionChain = none
  restored : ¬ c.Suppressing → c.connectionTimeout = t ∧ c.suppressedConnectionQueryTimeout = none ∧
    ∀ q query, c.links[q]? = some (.ordinary query) → c.configTimeout q = query.queryTimeout
  /-- a call made now computes its timeout from the public default -/
  inherited : ∀ query, c.effectiveQueryTimeout query = orTimeout (query.queryTimeout.getD 0) t
  timed : Timed t c

/-- In every run one link of the chain is in flight at a time, and the timeouts are restored. -/
theorem one_link_at_a_time (run : Run PgBridgeClient.step (fun _ _ => True) (initial t) c) : Exclusive t c := by
  obtain ⟨current, waiting, hc⟩ := inTurn run
  have ht := timeouts run
  constructor
  case single =>
    intro q q' hq hq'
    rw [hc.inFlight_iff] at hq hq'
    exact Option.some.inj (hq.symm.trans hq')
  case admitted =>
    intro q hq
    rw [hc.waits_iff]
    exact (hc.begun q hq).2
  case executed => exact fun q hq => hc.caused.promises q (.inr hq)
  case taken => exact hc.slot_iff
  case freed => exact hc.slot_of_quiescent (progress run)
  case restored =>
    intro hnot
    have hnil : c.stack.filterMap Frame.saved = [] := by
      rw [List.filterMap_eq_nil_iff]
      intro frame hmem
      by_contra hne
      exact hnot ⟨frame, hmem, hne⟩
    rcases ht.state with h | ⟨q, h⟩
    · refine ⟨h.connection, h.suppressed, fun q query hq => ?_⟩
      simp [h.config, publicTimeout, hq]
    · rw [h.stack] at hnil
      cases hnil
  case inherited => exact ht.effective
  case timed => exact ht.timed

/-- Two queries: the second is called while the submission of the first has suppressed the timeouts. -/
theorem one_link_at_a_time_reentrant : ∃ c, Run PgBridgeClient.step (fun _ _ => True) (initial 5) c ∧
    (c.links.length = 2 ∧ c.connectionTimeout = 0 ∧ c.suppressedConnectionQueryTimeout = some 5) ∧ Exclusive 5 c := by
  have hexists : ∃ c, Run PgBridgeClient.step (fun _ _ => True) (initial 5) c ∧
      (c.links.length = 2 ∧ c.connectionTimeout = 0 ∧ c.suppressedConnectionQueryTimeout = some 5) :=
    exists_run [.event, .query (.ordinary {}), .query (.ordinary { queryTimeout := some 3 })] (by decide)
  obtain ⟨c, run, hc⟩ := hexists
  exact ⟨c, run, hc, one_link_at_a_time run⟩

end PgBridgeClient

end PgliteBridge
