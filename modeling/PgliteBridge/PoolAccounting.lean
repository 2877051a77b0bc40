import PgliteBridge.PoolRegistry
import PgliteBridge.TransitionSystem
import Mathlib.Data.Finset.Card

/-!
# Accounting of pools and clients

Over any number of pools of one instance: a pool that is counted no more has neither a client nor, short of the drain
bound, an unsettled teardown; an instance is closed by a pool that owns it, has ended and is quiet; and the connect-time
`DEALLOCATE ALL` finds no other live client.
-/

namespace PgliteBridge.PgBridgePool

/-! ### A pool -/

/-- It has not ended, or it will give its slot up after a drain. -/
def Pool.holdsSlot {κ : Type} (pool : Pool κ) : Bool :=
  pool.created && (!pool.endStarted || pool.ending == some true || pool.drains.any (·.releaseAfterDrain))

/-- No teardown of a client is unsettled, unless the drain bound has passed. -/
def Pool.Quiet {κ : Type} (pool : Pool κ) : Prop := pool.pendingTeardowns = [] ∨ pool.expired

structure Pool.Sound {κ : Type} (pool : Pool κ) : Prop where
  created : pool.created = false → pool = {}
  idle : pool.endStarted = false → pool.ending = none ∧ pool.drains = []
  single : pool.ending = some true → ∀ drain ∈ pool.drains, drain.releaseAfterDrain = false
  once : pool.drains.countP (·.releaseAfterDrain) ≤ 1
  covered : ∀ drain ∈ pool.drains, ∀ c ∈ pool.pendingTeardowns, c ∈ drain.teardowns
  gone : ∀ drain ∈ pool.drains, drain.releaseAfterDrain → pool.clients = []
  freed : pool.created → pool.holdsSlot = false → pool.clients = [] ∧ pool.Quiet

namespace Pool.Sound

variable {κ : Type} [DecidableEq κ] {pool : Pool κ} {c : κ}

omit [DecidableEq κ] in
private theorem new (ownsPglite : Bool) : ({ created := true, ownsPglite } : Pool κ).Sound where
  created := fun h => (by cases h)
  idle := fun _ => ⟨rfl, rfl⟩
  single := fun h => (by cases h)
  once := Nat.zero_le _
  covered := fun _ h => (by cases h)
  gone := fun _ h => (by cases h)
  freed := fun _ h => (by cases h)

omit [DecidableEq κ] in
/-- A client of a pool that has not ended. -/
private theorem construct (h : pool.Sound) (hcreated : pool.created) (hend : pool.endStarted = false)
    (clients : List κ) :
    { pool with clients, pendingTeardowns := pool.pendingTeardowns ++ [c] }.Sound := by
  obtain ⟨hending, hdrains⟩ := h.idle hend
  refine ⟨fun hc => (by cases hcreated.symm.trans hc), fun _ => ⟨hending, hdrains⟩, h.single, h.once, ?_, ?_, ?_⟩
  · intro drain hdrain
    rw [show pool.drains = [] from hdrains] at hdrain
    cases hdrain
  · intro drain hdrain
    rw [show pool.drains = [] from hdrains] at hdrain
    cases hdrain
  · intro _ hslot
    simp [Pool.holdsSlot, hcreated, hend] at hslot

private theorem discard (h : pool.Sound) (hcreated : pool.created) :
    { pool with clients := pool.clients.filter (· ≠ c) }.Sound := by
  refine ⟨fun hc => (by cases hcreated.symm.trans hc), h.idle, h.single, h.once, h.covered,
    fun drain hdrain hrelease => ?_, fun hc hslot => ?_⟩
  · simp [h.gone drain hdrain hrelease]
  · obtain ⟨hclients, hquiet⟩ := h.freed hc hslot
    exact ⟨by simp [hclients], hquiet⟩

private theorem settle (h : pool.Sound) (hcreated : pool.created) :
    { pool with pendingTeardowns := pool.pendingTeardowns.filter (· ≠ c) }.Sound := by
  refine ⟨fun hc => (by cases hcreated.symm.trans hc), h.idle, h.single, h.once, fun drain hdrain other hother => ?_,
    h.gone, fun hc hslot => ?_⟩
  · exact h.covered drain hdrain other (List.mem_of_mem_filter hother)
  · obtain ⟨hclients, hquiet⟩ := h.freed hc hslot
    refine ⟨hclients, hquiet.imp_left fun hpending => ?_⟩
    change pool.pendingTeardowns.filter (· ≠ c) = []
    rw [hpending]
    rfl

omit [DecidableEq κ] in
/-- The first `end()`: the slot goes at once if nothing of the pool is left. -/
private theorem endNow (h : pool.Sound) (hcreated : pool.created) (hend : pool.endStarted = false)
    (hclients : pool.clients = []) (hpending : pool.pendingTeardowns = []) :
    { pool with endStarted := true, ending := some false }.Sound := by
  obtain ⟨-, hdrains⟩ := h.idle hend
  refine ⟨fun hc => (by cases hcreated.symm.trans hc), fun he => (by cases he), fun he => (by cases he), h.once,
    h.covered, h.gone, fun _ _ => ⟨hclients, .inl hpending⟩⟩

omit [DecidableEq κ] in
private theorem endLater (h : pool.Sound) (hcreated : pool.created) (hend : pool.endStarted = false) :
    { pool with endStarted := true, ending := some true }.Sound := by
  obtain ⟨-, hdrains⟩ := h.idle hend
  refine ⟨fun hc => (by cases hcreated.symm.trans hc), fun he => (by cases he), fun _ drain hdrain => ?_, h.once,
    h.covered, h.gone, fun _ hslot => ?_⟩
  · rw [show pool.drains = [] from hdrains] at hdrain
    cases hdrain
  · simp [Pool.holdsSlot, hcreated] at hslot

omit [DecidableEq κ] in
/-- A refused callback form drains too, and releases nothing. -/
private theorem endAgain (h : pool.Sound) (hcreated : pool.created) (hend : pool.endStarted) :
    Pool.Sound { pool with drains := pool.drains ++ [⟨false, pool.pendingTeardowns⟩] } := by
  refine ⟨fun hc => (by cases hcreated.symm.trans hc), fun he => (by cases hend.symm.trans he),
    fun he drain hdrain => ?_, ?_, fun drain hdrain c hc => ?_, fun drain hdrain hrelease => ?_,
    fun hc hslot => h.freed hc ?_⟩
  · rcases List.mem_append.1 hdrain with hmem | hmem
    · exact h.single he drain hmem
    · rw [List.mem_singleton.1 hmem]
  · simpa using h.once
  · rcases List.mem_append.1 hdrain with hmem | hmem
    · exact h.covered drain hmem c hc
    · rw [List.mem_singleton.1 hmem]
      exact hc
  · rcases List.mem_append.1 hdrain with hmem | hmem
    · exact h.gone drain hmem hrelease
    · rw [List.mem_singleton.1 hmem] at hrelease
      cases hrelease
  · simpa [Pool.holdsSlot] using hslot

omit [DecidableEq κ] in
private theorem startDrain {releaseAfterDrain : Bool} (h : pool.Sound) (hcreated : pool.created)
    (hend : pool.endStarted)
    (hending : pool.ending = some releaseAfterDrain) (hclients : pool.clients = []) :
    Pool.Sound { pool with
      ending := none
      drains := pool.drains ++ [⟨releaseAfterDrain, pool.pendingTeardowns⟩] } := by
  have hothers : releaseAfterDrain = true → ∀ drain ∈ pool.drains, drain.releaseAfterDrain = false := by
    rintro rfl
    exact h.single hending
  refine ⟨fun hc => (by cases hcreated.symm.trans hc), fun he => (by cases hend.symm.trans he),
    fun he => (by cases he), ?_, fun drain hdrain c hc => ?_, fun _ _ _ => hclients, fun hc hslot => h.freed hc ?_⟩
  · cases releaseAfterDrain with
    | false => simpa using h.once
    | true =>
      have hnone : pool.drains.countP (·.releaseAfterDrain) = 0 := by
        rw [List.countP_eq_zero]
        intro drain hdrain
        rw [hothers rfl drain hdrain]
        exact Bool.false_ne_true
      simp [hnone]
  · rcases List.mem_append.1 hdrain with hmem | hmem
    · exact h.covered drain hmem c hc
    · rw [List.mem_singleton.1 hmem]
      exact hc
  · cases releaseAfterDrain with
    | false => simpa [Pool.holdsSlot, hending, hcreated, hend] using hslot
    | true => simp [Pool.holdsSlot, hcreated] at hslot

omit [DecidableEq κ] in
/-- The teardowns of a drain that is over have settled, and they were all there were. -/
private theorem quiet_of_drain {drain : Drain κ} {expired : Bool} (h : pool.Sound) (hdrain : drain ∈ pool.drains)
    (hover : expired ∨ ∀ c ∈ drain.teardowns, c ∉ pool.pendingTeardowns) :
    pool.pendingTeardowns = [] ∨ expired := by
  refine hover.symm.imp_left fun hsettled => ?_
  rw [List.eq_nil_iff_forall_not_mem]
  exact fun c hc => hsettled c (h.covered drain hdrain c hc) hc

/-- A drain that releases the slot was the only one. -/
private theorem erase_release {drain : Drain κ} (h : pool.Sound) (hdrain : drain ∈ pool.drains)
    (hrelease : drain.releaseAfterDrain) :
    ∀ other ∈ pool.drains.erase drain, other.releaseAfterDrain = false := by
  have hone := h.once
  obtain ⟨before, after, -, hsplit, herase⟩ := List.exists_erase_eq hdrain
  have hcons : (drain :: after).countP (·.releaseAfterDrain) = after.countP (·.releaseAfterDrain) + 1 :=
    List.countP_cons_of_pos hrelease
  rw [hsplit, List.countP_append, hcons] at hone
  have hnone : (before ++ after).countP (·.releaseAfterDrain) = 0 := by
    rw [List.countP_append]
    omega
  rw [herase]
  intro other hother
  simpa using List.countP_eq_zero.1 hnone other hother

private theorem erase_other {drain : Drain κ} (hdrain : drain ∈ pool.drains)
    (hrelease : drain.releaseAfterDrain = false) :
    (pool.drains.erase drain).any (·.releaseAfterDrain) = pool.drains.any (·.releaseAfterDrain) := by
  obtain ⟨before, after, -, hsplit, herase⟩ := List.exists_erase_eq hdrain
  rw [herase, hsplit]
  simp [hrelease]

private theorem finishDrain {drain : Drain κ} {expired : Bool} (h : pool.Sound) (hcreated : pool.created)
    (hend : pool.endStarted) (hdrain : drain ∈ pool.drains)
    (hover : expired ∨ ∀ c ∈ drain.teardowns, c ∉ pool.pendingTeardowns) :
    { pool with drains := pool.drains.erase drain, expired := pool.expired || expired }.Sound := by
  have hquiet : ({ pool with drains := pool.drains.erase drain, expired := pool.expired || expired } : Pool κ).Quiet :=
    (h.quiet_of_drain hdrain hover).imp_right fun he => (by simp [he])
  have hmem : ∀ other ∈ pool.drains.erase drain, other ∈ pool.drains := fun _ => List.mem_of_mem_erase
  refine ⟨fun hc => (by cases hcreated.symm.trans hc), fun he => (by cases hend.symm.trans he),
    fun he other hother => h.single he other (hmem other hother),
    Nat.le_trans (List.erase_sublist.countP_le) h.once, fun other hother => h.covered other (hmem other hother),
    fun other hother => h.gone other (hmem other hother), fun hc hslot => ⟨?_, hquiet⟩⟩
  by_cases hrelease : drain.releaseAfterDrain
  · exact h.gone drain hdrain hrelease
  · refine (h.freed hc ?_).1
    simpa only [Pool.holdsSlot, erase_other hdrain (by simpa using hrelease)] using hslot

/-! ### Slots -/

omit [DecidableEq κ] in
/-- Only the drain the first call has left may release the slot. -/
private theorem holds_of_release {drain : Drain κ} (h : pool.Sound) (hcreated : pool.created)
    (hdrain : drain ∈ pool.drains) (hrelease : drain.releaseAfterDrain) :
    pool.holdsSlot = true ∧ pool.ending ≠ some true := by
  refine ⟨?_, fun he => (by cases (h.single he drain hdrain).symm.trans hrelease)⟩
  have hany : pool.drains.any (·.releaseAfterDrain) = true := List.any_eq_true.2 ⟨drain, hdrain, hrelease⟩
  simp [Pool.holdsSlot, hcreated, hany]

end Pool.Sound

/-! ### The registries -/

namespace Registry

variable {π κ : Type} [DecidableEq π] [DecidableEq κ] {s s' : Registry π κ} {p : π} {c : κ}

/-- `livePoolCounts` is the number of pools that hold their slot. -/
def PoolsCounted (s : Registry π κ) : Prop :=
  ∃ holders : Finset π, (∀ p, p ∈ holders ↔ (s.pool p).holdsSlot) ∧ s.livePoolCounts.getD 0 = holders.card

/-- The pool that has closed the instance owns it and has ended, and it is quiet. -/
def ClosedQuietly (s : Registry π κ) : Prop :=
  ∀ p, s.closedBy = some p → (s.pool p).ownsPglite ∧ (s.pool p).endStarted ∧ (s.pool p).Quiet

structure PoolsSound (s : Registry π κ) : Prop where
  sound : ∀ p, (s.pool p).Sound
  counted : s.PoolsCounted
  closed : s.ClosedQuietly

section Counts

variable {pool : Pool κ} (hpool : s'.pool = Function.update s.pool p pool)

include hpool

omit [DecidableEq κ] in
private theorem pool_at (p' : π) : s'.pool p' = if p' = p then pool else s.pool p' := by
  rw [hpool, Function.update_apply]

omit [DecidableEq κ] in
private theorem counted_same (h : s.PoolsCounted) (hcount : s'.livePoolCounts = s.livePoolCounts)
    (hslot : pool.holdsSlot = (s.pool p).holdsSlot) : s'.PoolsCounted := by
  obtain ⟨holders, hholders, hcard⟩ := h
  refine ⟨holders, fun p' => ?_, hcount ▸ hcard⟩
  rw [pool_at hpool, hholders]
  split
  · rename_i he
    rw [he, hslot]
  · rfl

omit [DecidableEq κ] in
private theorem counted_create (h : s.PoolsCounted) (hcount : s'.livePoolCounts = some (s.livePoolCounts.getD 0 + 1))
    (hold : (s.pool p).holdsSlot = false) (hnew : pool.holdsSlot = true) : s'.PoolsCounted := by
  obtain ⟨holders, hholders, hcard⟩ := h
  have hp : p ∉ holders := fun hmem => (by cases hold.symm.trans ((hholders p).1 hmem))
  refine ⟨insert p holders, fun p' => ?_, ?_⟩
  · rw [pool_at hpool, Finset.mem_insert, hholders]
    split
    · rename_i he
      exact ⟨fun _ => hnew, fun _ => .inl he⟩
    · rename_i hne
      exact ⟨fun hmem => hmem.resolve_left hne, .inr⟩
  · rw [Finset.card_insert_of_notMem hp, hcount, ← hcard]
    rfl

omit [DecidableEq κ] in
/-- A slot is released once: the entry is there, and was counted. -/
private theorem counted_release (h : s.PoolsCounted) (hcount : s'.livePoolCounts = some (s.livePoolCounts.getD 1 - 1))
    (hold : (s.pool p).holdsSlot = true) (hnew : pool.holdsSlot = false) : s'.PoolsCounted := by
  obtain ⟨holders, hholders, hcard⟩ := h
  have hp : p ∈ holders := (hholders p).2 hold
  refine ⟨holders.erase p, fun p' => ?_, ?_⟩
  · rw [pool_at hpool, Finset.mem_erase, hholders]
    split
    · rename_i he
      exact ⟨fun hmem => absurd he hmem.1, fun hslot => (by cases hnew.symm.trans hslot)⟩
    · rename_i hne
      exact ⟨fun hmem => hmem.2, fun hslot => ⟨hne, hslot⟩⟩
  · have hpos := Finset.card_pos.2 ⟨p, hp⟩
    rw [Finset.card_erase_of_mem hp, hcount, ← hcard]
    cases hentry : s.livePoolCounts with
    | none =>
      rw [hentry] at hcard
      simp only [Option.getD_none] at hcard
      omega
    | some count => rfl

omit [DecidableEq κ] in
/-- One pool changes. -/
private theorem PoolsSound.of_pool (h : s.PoolsSound) (hcounted : s'.PoolsCounted) (hsound : pool.Sound)
    (hclosedBy : ∀ p', s'.closedBy = some p' → s.closedBy = some p' ∨
      p' = p ∧ pool.ownsPglite ∧ pool.endStarted ∧ pool.Quiet)
    (hkeep : (s.pool p).endStarted → pool.ownsPglite = (s.pool p).ownsPglite ∧ pool.endStarted ∧
      ((s.pool p).Quiet → pool.Quiet)) : s'.PoolsSound := by
  refine ⟨fun p' => ?_, hcounted, fun p' hp' => ?_⟩
  · rw [pool_at hpool]
    split
    · exact hsound
    · exact h.sound p'
  · rw [pool_at hpool]
    split
    · rename_i he
      subst he
      rcases hclosedBy p' hp' with hbefore | ⟨-, hnow⟩
      · obtain ⟨howns, hend, hquiet⟩ := h.closed p' hbefore
        obtain ⟨howns', hend', hquiet'⟩ := hkeep hend
        exact ⟨howns'.trans howns, hend', hquiet' hquiet⟩
      · exact hnow
    · rename_i hne
      exact h.closed p' ((hclosedBy p' hp').resolve_right fun hnow => hne hnow.1)

end Counts

omit [DecidableEq π] [DecidableEq κ] in
/-- Only the clients change. -/
private theorem PoolsSound.of_eq (h : s.PoolsSound) (hpool : s'.pool = s.pool)
    (hcount : s'.livePoolCounts = s.livePoolCounts)
    (hclosedBy : s'.closedBy = s.closedBy) : s'.PoolsSound where
  sound := by
    rw [hpool]
    exact h.sound
  counted := by
    unfold PoolsCounted
    rw [hpool, hcount]
    exact h.counted
  closed := by
    unfold ClosedQuietly
    rw [hpool, hclosedBy]
    exact h.closed

/-! ### Clients -/

/-- A client that is connected and not removed. -/
def Live (s : Registry π κ) (c : κ) : Prop := (s.client c).connected ∧ (s.client c).removed = false

structure ClientsSound (s : Registry π κ) : Prop where
  fresh : ∀ c, (s.client c).pool = none → s.client c = {}
  built : ∀ c, (s.client c).connected → (s.client c).built
  connected : ∀ c, (s.client c).removed → (s.client c).connected
  created : ∀ c p, (s.client c).pool = some p → (s.pool p).created
  counted : ∃ live : Finset κ, (∀ c, c ∈ live ↔ s.Live c) ∧ s.liveClientCounts.getD 0 = live.card
  registered : ∀ c, c ∈ s.liveClients ↔ (s.client c).built ∧ (s.client c).removed = false ∧ (s.client c).ended = false

omit [DecidableEq π] [DecidableEq κ] in
/-- The pools change; created ones stay. -/
private theorem ClientsSound.of_pools (h : s.ClientsSound) (hclient : s'.client = s.client)
    (hcount : s'.liveClientCounts = s.liveClientCounts) (hlive : s'.liveClients = s.liveClients)
    (hcreated : ∀ p, (s.pool p).created → (s'.pool p).created) : s'.ClientsSound where
  fresh := by
    rw [hclient]
    exact h.fresh
  built := by
    rw [hclient]
    exact h.built
  connected := by
    rw [hclient]
    exact h.connected
  created := by
    rw [hclient]
    exact fun c p hc => hcreated p (h.created c p hc)
  counted := by
    unfold Live
    rw [hclient, hcount]
    exact h.counted
  registered := by
    rw [hclient, hlive]
    exact h.registered

omit [DecidableEq π] in
/-- One client changes, without becoming live or ceasing to be. -/
private theorem ClientsSound.of_client {client : Client π} (h : s.ClientsSound)
    (hclient : s'.client = Function.update s.client c client) (hfresh : client.pool ≠ none)
    (hbuilt : client.connected → client.built) (hconnected : client.removed → client.connected)
    (hcreated : ∀ p, (s.pool p).created → (s'.pool p).created)
    (hpool : ∀ p, client.pool = some p → (s'.pool p).created)
    (hcounted : ∃ live : Finset κ, (∀ c, c ∈ live ↔ s'.Live c) ∧ s'.liveClientCounts.getD 0 = live.card)
    (hothers : ∀ c', c' ≠ c → (c' ∈ s'.liveClients ↔ c' ∈ s.liveClients))
    (hregistered : c ∈ s'.liveClients ↔ client.built ∧ client.removed = false ∧ client.ended = false) :
    s'.ClientsSound := by
  have hat : ∀ c', s'.client c' = if c' = c then client else s.client c' := fun c' => by
    rw [hclient, Function.update_apply]
  refine ⟨fun c' => ?_, fun c' => ?_, fun c' => ?_, fun c' p => ?_, hcounted, fun c' => ?_⟩ <;> rw [hat] <;> split
  · exact fun he => absurd he hfresh
  · exact h.fresh c'
  · exact hbuilt
  · exact h.built c'
  · exact hconnected
  · exact h.connected c'
  · exact hpool p
  · exact fun hc => hcreated p (h.created c' p hc)
  · rename_i he
    exact he ▸ hregistered
  · rename_i hne
    exact (hothers c' hne).trans (h.registered c')

omit [DecidableEq π] in
/-- The count of the live clients, when the change leaves the client as live as it was. -/
private theorem live_same {client : Client π} (h : s.ClientsSound)
    (hclient : s'.client = Function.update s.client c client)
    (hlive : client.connected = (s.client c).connected ∧ client.removed = (s.client c).removed)
    (hcount : s'.liveClientCounts = s.liveClientCounts) :
    ∃ live : Finset κ, (∀ c, c ∈ live ↔ s'.Live c) ∧ s'.liveClientCounts.getD 0 = live.card := by
  obtain ⟨live, hmem, hcard⟩ := h.counted
  refine ⟨live, fun c' => (hmem c').trans ?_, hcount ▸ hcard⟩
  unfold Live
  rw [hclient, Function.update_apply]
  split
  · rename_i he
    rw [he, hlive.1, hlive.2]
  · rfl

/-! ### Steps -/

structure Sound (s : Registry π κ) : Prop where
  pools : s.PoolsSound
  clients : s.ClientsSound

omit [DecidableEq κ] in
private theorem Sound.create {ownsPglite : Bool} (h : s.Sound) (hs : s.create p ownsPglite = some s') : s'.Sound := by
  unfold Registry.create at hs
  split at hs
  · cases hs
  · rename_i hcreated
    rw [Bool.not_eq_true] at hcreated
    have hold := (h.pools.sound p).created hcreated
    cases hs
    refine ⟨h.pools.of_pool rfl (counted_create rfl h.pools.counted rfl (by simp [hold, Pool.holdsSlot]) rfl) (.new _)
      (fun _ hc => .inl hc) fun hend => ?_, h.clients.of_pools rfl rfl rfl fun p' hp' => ?_⟩
    · rw [hold] at hend
      cases hend
    · simp only [setPool, Function.update_apply]
      split
      · rfl
      · exact hp'

private theorem Sound.construct {ok : Bool} (h : s.Sound) (hs : s.construct p c ok = some s') : s'.Sound := by
  unfold Registry.construct at hs
  split at hs
  · rename_i hguard
    obtain ⟨hcreated, hend, hfresh⟩ := hguard
    have hend : (s.pool p).endStarted = false := by simpa using hend
    have hslot : ∀ pool : Pool κ, pool.created = (s.pool p).created → pool.endStarted = (s.pool p).endStarted →
        pool.holdsSlot = (s.pool p).holdsSlot := fun pool hc he => by simp [Pool.holdsSlot, hc, he, hcreated, hend]
    have hclient := h.clients.fresh c hfresh
    have hpools : ∀ p' (pool : Pool κ), pool.created → (s.pool p').created →
        (Function.update s.pool p pool p').created := by
      intro p' pool hpool hp'
      rw [Function.update_apply]
      split
      · exact hpool
      · exact hp'
    have hnow : ∀ (pool : Pool κ), pool.created → (Function.update s.pool p pool p).created := by
      intro pool hpool
      rw [Function.update_self]
      exact hpool
    have hout : c ∉ s.liveClients := fun hmem => by
      have := ((h.clients.registered c).1 hmem).1
      rw [hclient] at this
      cases this
    dsimp only at hs
    split at hs
    · cases hs
      refine ⟨h.pools.of_pool rfl (counted_same rfl h.pools.counted rfl (hslot _ rfl rfl))
        ((h.pools.sound p).construct hcreated hend _) (fun _ hc => .inl hc) fun he => (by cases hend.symm.trans he),
        h.clients.of_client rfl (by simp) (fun hc => (by cases hc)) (fun hc => (by cases hc))
        (fun p' hp' => hpools p' _ hcreated hp') (fun p' hp' => ?_)
        (live_same h.clients rfl (by rw [hclient]; exact ⟨rfl, rfl⟩) rfl)
        (fun c' hc' => ?_) ⟨fun _ => ⟨rfl, rfl, rfl⟩, fun _ => by simp⟩⟩
      · cases hp'
        exact hnow _ hcreated
      · change c' ∈ s.liveClients ++ [c] ↔ _
        simp [hc']
    · cases hs
      refine ⟨h.pools.of_pool rfl (counted_same rfl h.pools.counted rfl (hslot _ rfl rfl))
        ((h.pools.sound p).construct hcreated hend _) (fun _ hc => .inl hc) fun he => (by cases hend.symm.trans he),
        h.clients.of_client rfl (by simp) (fun hc => (by cases hc)) (fun hc => (by cases hc))
        (fun p' hp' => hpools p' _ hcreated hp') (fun p' hp' => ?_)
        (live_same h.clients rfl (by rw [hclient]; exact ⟨rfl, rfl⟩) rfl)
        (fun c' hc' => .rfl) ⟨fun hmem => absurd hmem hout, fun hb => (by cases hb.1)⟩⟩
      cases hp'
      exact hnow _ hcreated
  · cases hs

omit [DecidableEq π] in
private theorem Sound.connect (h : s.Sound) (hs : s.connect c = some s') : s'.Sound := by
  unfold Registry.connect at hs
  split at hs
  · rename_i hguard
    obtain ⟨hbuilt, hconnected, -⟩ := hguard
    have hconnected : (s.client c).connected = false := by simpa using hconnected
    have hremoved : (s.client c).removed = false := by
      rw [Bool.eq_false_iff]
      exact fun hr => (by cases hconnected.symm.trans (h.clients.connected c hr))
    have hpool : (s.client c).pool ≠ none := by
      intro hnone
      rw [h.clients.fresh c hnone] at hbuilt
      cases hbuilt
    cases hs
    refine ⟨h.pools.of_eq rfl rfl rfl, h.clients.of_client rfl hpool (fun _ => hbuilt) (fun _ => rfl) (fun _ hp => hp)
      (fun p' hp' => h.clients.created c p' hp') ?_ (fun _ _ => .rfl) (h.clients.registered c)⟩
    obtain ⟨live, hmem, hcard⟩ := h.clients.counted
    have hc : c ∉ live := fun hlive => (by cases hconnected.symm.trans ((hmem c).1 hlive).1)
    refine ⟨insert c live, fun c' => ?_, ?_⟩
    · rw [Finset.mem_insert, hmem]
      unfold Live setClient
      simp only [Function.update_apply]
      split
      · rename_i he
        subst he
        exact ⟨fun _ => ⟨rfl, hremoved⟩, fun _ => .inl rfl⟩
      · rename_i hne
        exact ⟨fun hl => hl.resolve_left hne, .inr⟩
    · rw [Finset.card_insert_of_notMem hc, ← hcard]
      rfl
  · cases hs

private theorem Sound.discard (h : s.Sound) (hs : s.discard c = some s') : s'.Sound := by
  unfold Registry.discard at hs
  split at hs
  · rename_i p hp
    have hcreated := h.clients.created c p hp
    split at hs
    · cases hs
    · cases hs
      have hstays : ∀ p', (s.pool p').created → (Function.update s.pool p
          { s.pool p with clients := (s.pool p).clients.filter (· ≠ c) } p').created := by
        intro p' hp'
        rw [Function.update_apply]
        split
        · exact hcreated
        · exact hp'
      refine ⟨h.pools.of_pool rfl (counted_same rfl h.pools.counted rfl rfl) ((h.pools.sound p).discard hcreated)
        (fun _ hc => .inl hc) fun he => ⟨rfl, he, fun hq => hq⟩,
        h.clients.of_client rfl (by simp [hp]) (h.clients.built c) (h.clients.connected c) hstays
        (fun p' hp' => hstays p' (h.clients.created c p' hp')) (live_same h.clients rfl ⟨rfl, rfl⟩ rfl)
        (fun _ _ => .rfl) (h.clients.registered c)⟩
  · cases hs

omit [DecidableEq π] in
private theorem Sound.remove (h : s.Sound) (hs : s.remove c = some s') : s'.Sound := by
  unfold Registry.remove at hs
  split at hs
  · rename_i hguard
    obtain ⟨hconnected, -, hremoved⟩ := hguard
    have hremoved : (s.client c).removed = false := by simpa using hremoved
    have hpool : (s.client c).pool ≠ none := by
      intro hnone
      rw [h.clients.fresh c hnone] at hconnected
      cases hconnected
    cases hs
    refine ⟨h.pools.of_eq rfl rfl rfl, h.clients.of_client rfl hpool (fun _ => h.clients.built c hconnected)
      (fun _ => hconnected) (fun _ hp => hp) (fun p' hp' => h.clients.created c p' hp') ?_ (fun c' hc' => ?_)
      ⟨fun hmem => ?_, fun hr => (by cases hr.2.1)⟩⟩
    · obtain ⟨live, hmem, hcard⟩ := h.clients.counted
      have hc : c ∈ live := (hmem c).2 ⟨hconnected, hremoved⟩
      refine ⟨live.erase c, fun c' => ?_, ?_⟩
      · rw [Finset.mem_erase, hmem]
        unfold Live deregisterLiveClient setClient
        simp only [Function.update_apply]
        split
        · rename_i he
          exact ⟨fun hl => absurd he hl.1, fun hl => (by cases hl.2)⟩
        · rename_i hne
          exact ⟨fun hl => hl.2, fun hl => ⟨hne, hl⟩⟩
      · have hpos := Finset.card_pos.2 ⟨c, hc⟩
        rw [Finset.card_erase_of_mem hc, ← hcard]
        change s.liveClientCounts.getD 1 - 1 = s.liveClientCounts.getD 0 - 1
        cases hentry : s.liveClientCounts with
        | none =>
          rw [hentry] at hcard
          simp only [Option.getD_none] at hcard
          omega
        | some count => rfl
    · change c' ∈ s.liveClients.filter (· ≠ c) ↔ _
      simp [hc']
    · change c ∈ s.liveClients.filter (· ≠ c) at hmem
      simp at hmem
  · cases hs

omit [DecidableEq π] in
private theorem Sound.endClient (h : s.Sound) (hs : s.endClient c = some s') : s'.Sound := by
  unfold Registry.endClient at hs
  split at hs
  · rename_i hbuilt
    have hpool : (s.client c).pool ≠ none := by
      intro hnone
      rw [h.clients.fresh c hnone] at hbuilt
      cases hbuilt
    cases hs
    refine ⟨h.pools.of_eq rfl rfl rfl, h.clients.of_client rfl hpool (fun _ => hbuilt) (h.clients.connected c)
      (fun _ hp => hp) (fun p' hp' => h.clients.created c p' hp') (live_same h.clients rfl ⟨rfl, rfl⟩ rfl)
      (fun c' hc' => ?_) ⟨fun hmem => ?_, fun hr => (by cases hr.2.2)⟩⟩
    · change c' ∈ s.liveClients.filter (· ≠ c) ↔ _
      simp [hc']
    · change c ∈ s.liveClients.filter (· ≠ c) at hmem
      simp at hmem
  · cases hs

omit [DecidableEq κ] in
/-- A created pool changes, and keeps its slot or releases it. -/
private theorem Sound.of_pool {pool : Pool κ} (h : s.Sound)
    (hpool : s'.pool = Function.update s.pool p pool) (hclients : s'.client = s.client ∧
      s'.liveClientCounts = s.liveClientCounts ∧ s'.liveClients = s.liveClients)
    (hcounted : s'.PoolsCounted) (hsound : pool.Sound) (hstill : pool.created)
    (hclosedBy : ∀ p', s'.closedBy = some p' → s.closedBy = some p' ∨
      p' = p ∧ pool.ownsPglite ∧ pool.endStarted ∧ pool.Quiet)
    (hkeep : (s.pool p).endStarted → pool.ownsPglite = (s.pool p).ownsPglite ∧ pool.endStarted ∧
      ((s.pool p).Quiet → pool.Quiet)) : s'.Sound := by
  refine ⟨h.pools.of_pool hpool hcounted hsound hclosedBy hkeep,
    h.clients.of_pools hclients.1 hclients.2.1 hclients.2.2 fun p' hp' => ?_⟩
  rw [hpool, Function.update_apply]
  split
  · exact hstill
  · exact hp'

private theorem Sound.settle (h : s.Sound) (hs : s.settle c = some s') : s'.Sound := by
  unfold Registry.settle at hs
  split at hs
  · rename_i p hp
    have hcreated := h.clients.created c p hp
    cases hs
    refine h.of_pool rfl ⟨rfl, rfl, rfl⟩ (counted_same rfl h.pools.counted rfl rfl)
      ((h.pools.sound p).settle hcreated) hcreated (fun _ hc => .inl hc) fun he => ⟨rfl, he, fun hq => ?_⟩
    refine hq.imp_left fun hpending => ?_
    change (s.pool p).pendingTeardowns.filter (· ≠ c) = []
    rw [hpending]
    rfl
  · cases hs

omit [DecidableEq κ] in
private theorem Sound.endPool {callback : Bool} (h : s.Sound) (hs : s.endPool p callback = some s') : s'.Sound := by
  unfold Registry.endPool at hs
  dsimp only at hs
  split at hs
  · cases hs
  rename_i hcreated
  have hcreated : (s.pool p).created = true := by simpa using hcreated
  have hsound := h.pools.sound p
  split at hs
  · rename_i hend
    have hend : (s.pool p).endStarted = false := by simpa using hend
    have hholds : (s.pool p).holdsSlot = true := by simp [Pool.holdsSlot, hcreated, hend]
    have hdrains := (hsound.idle hend).2
    split at hs
    · rename_i hnothing
      cases hs
      exact h.of_pool rfl ⟨rfl, rfl, rfl⟩
        (counted_release rfl h.pools.counted rfl hholds (by simp [Pool.holdsSlot, hdrains]))
        (hsound.endNow hcreated hend hnothing.1 hnothing.2) hcreated (fun _ hc => .inl hc)
        fun he => (by cases hend.symm.trans he)
    · cases hs
      exact h.of_pool rfl ⟨rfl, rfl, rfl⟩
        (counted_same rfl h.pools.counted rfl (by rw [hholds]; simp [Pool.holdsSlot, hcreated]))
        (hsound.endLater hcreated hend) hcreated (fun _ hc => .inl hc) fun he => (by cases hend.symm.trans he)
  · rename_i hend
    have hend : (s.pool p).endStarted = true := by simpa using hend
    split at hs
    · cases hs
      exact h.of_pool rfl ⟨rfl, rfl, rfl⟩
        (counted_same rfl h.pools.counted rfl (by simp [Pool.holdsSlot]))
        (hsound.endAgain hcreated hend) hcreated (fun _ hc => .inl hc) fun he => ⟨rfl, he, fun hq => hq⟩
    · cases hs
      exact h

omit [DecidableEq κ] in
private theorem Sound.startDrain (h : s.Sound) (hs : s.startDrain p = some s') : s'.Sound := by
  have hsound := h.pools.sound p
  unfold Registry.startDrain at hs
  dsimp only at hs
  split at hs
  · rename_i releaseAfterDrain hending
    have hend : (s.pool p).endStarted = true := by
      by_contra hend
      rw [Bool.not_eq_true] at hend
      cases hending.symm.trans (hsound.idle hend).1
    have hcreated : (s.pool p).created = true := by
      by_contra hcreated
      rw [Bool.not_eq_true] at hcreated
      rw [hsound.created hcreated] at hend
      cases hend
    split at hs
    · rename_i hclients
      cases hs
      refine h.of_pool rfl ⟨rfl, rfl, rfl⟩ (counted_same rfl h.pools.counted rfl ?_)
        (hsound.startDrain hcreated hend hending hclients) hcreated (fun _ hc => .inl hc)
        fun he => ⟨rfl, he, fun hq => hq⟩
      cases releaseAfterDrain <;> simp [Pool.holdsSlot, hending, hcreated]
    · cases hs
  · cases hs

omit [DecidableEq π] [DecidableEq κ] in
private theorem Sound.close (h : s.Sound) (howns : (s.pool p).ownsPglite) (hend : (s.pool p).endStarted)
    (hquiet : (s.pool p).Quiet) : Sound { s with pgliteClosed := true, closedBy := some p } := by
  refine ⟨⟨h.pools.sound, h.pools.counted, fun p' hp' => ?_⟩, h.clients.of_pools rfl rfl rfl fun _ hc => hc⟩
  cases hp'
  exact ⟨howns, hend, hquiet⟩

private theorem Sound.finishDrain {drain : Drain κ} {expired : Bool} (h : s.Sound)
    (hs : s.finishDrain p drain expired = some s') : s'.Sound := by
  have hsound := h.pools.sound p
  unfold Registry.finishDrain at hs
  dsimp only at hs
  split at hs
  · rename_i hguard
    obtain ⟨hdrain, hover⟩ := hguard
    have hend : (s.pool p).endStarted = true := by
      by_contra hend
      rw [Bool.not_eq_true] at hend
      rw [(hsound.idle hend).2] at hdrain
      cases hdrain
    have hcreated : (s.pool p).created = true := by
      by_contra hcreated
      rw [Bool.not_eq_true] at hcreated
      rw [hsound.created hcreated] at hend
      cases hend
    have hafter := hsound.finishDrain hcreated hend hdrain hover
    have hquiet := (hsound.quiet_of_drain hdrain hover).imp_right fun he =>
      show ((s.pool p).expired || expired) = true by simp [he]
    -- the slot first, then the instance
    generalize hpool : ({ s.pool p with
      drains := (s.pool p).drains.erase drain, expired := (s.pool p).expired || expired } : Pool κ) = pool at hs hafter
    have hreleased :
        Sound (if drain.releaseAfterDrain then (s.setPool p pool).releaseLiveSlot else s.setPool p pool) := by
      have hkeep : (s.pool p).endStarted → pool.ownsPglite = (s.pool p).ownsPglite ∧ pool.endStarted ∧
          ((s.pool p).Quiet → pool.Quiet) := by
        subst hpool
        exact fun he => ⟨rfl, he, fun _ => hquiet⟩
      have hstill : pool.created := by
        subst hpool
        exact hcreated
      split
      · rename_i hrelease
        obtain ⟨hholds, hending⟩ := hsound.holds_of_release hcreated hdrain hrelease
        refine h.of_pool rfl ⟨rfl, rfl, rfl⟩ (counted_release rfl h.pools.counted rfl hholds ?_) hafter hstill
          (fun _ hc => .inl hc) hkeep
        subst hpool
        simpa [Pool.holdsSlot, hend, hending] using fun _ => hsound.erase_release hdrain hrelease
      · rename_i hrelease
        refine h.of_pool rfl ⟨rfl, rfl, rfl⟩ (counted_same rfl h.pools.counted rfl ?_) hafter hstill
          (fun _ hc => .inl hc) hkeep
        subst hpool
        simp [Pool.holdsSlot, Pool.Sound.erase_other hdrain (by simpa using hrelease)]
    have hat :
        (if drain.releaseAfterDrain then (s.setPool p pool).releaseLiveSlot else s.setPool p pool).pool p = pool := by
      split <;> exact Function.update_self ..
    generalize (if drain.releaseAfterDrain then (s.setPool p pool).releaseLiveSlot else s.setPool p pool) = released
      at hs hreleased hat
    have howns : pool.ownsPglite = (s.pool p).ownsPglite := by rw [← hpool]
    cases hs
    split
    · rename_i hclose
      refine hreleased.close ?_ ?_ ?_ <;> rw [hat]
      · exact howns.trans hclose.1
      · rw [← hpool]
        exact hend
      · rw [← hpool]
        exact hquiet
    · exact hreleased
  · cases hs

/-! ### Runs -/

omit [DecidableEq π] [DecidableEq κ] in
private theorem Sound.initial : ({} : Registry π κ).Sound := by
  refine ⟨⟨fun _ => ?_, ⟨∅, fun _ => ?_, rfl⟩, fun _ h => (by cases h)⟩,
    ⟨fun _ _ => rfl, fun _ h => (by cases h), fun _ h => (by cases h), fun _ _ h => (by cases h), ⟨∅, fun _ => ?_, rfl⟩,
      fun _ => ?_⟩⟩
  · exact ⟨fun _ => rfl, fun _ => ⟨rfl, rfl⟩, fun h => (by cases h), Nat.zero_le _, fun _ h => (by cases h),
      fun _ h => (by cases h), fun h => (by cases h)⟩
  · simp [Pool.holdsSlot]
  · simp [Live]
  · simp

private theorem Sound.step {a : PoolAction π κ} (h : s.Sound) (hs : s.step a = some s') : s'.Sound := by
  cases a with
  | create p ownsPglite => exact h.create hs
  | construct p c ok => exact h.construct hs
  | connect c => exact h.connect hs
  | discard c => exact h.discard hs
  | remove c => exact h.remove hs
  | endClient c => exact h.endClient hs
  | settle c => exact h.settle hs
  | endPool p callback => exact h.endPool hs
  | startDrain p => exact h.startDrain hs
  | finishDrain p drain expired => exact h.finishDrain hs
  | closeInstance =>
    cases hs
    exact ⟨h.pools.of_eq rfl rfl rfl, h.clients.of_pools rfl rfl rfl fun _ hc => hc⟩

/-- Any order of the calls and events of any number of pools. -/
abbrev Reaches (s : Registry π κ) : Prop := TransitionSystem.Run Registry.step (fun _ _ => True) {} s

theorem Sound.of_run (run : s.Reaches) : s.Sound :=
  run.invariant .initial fun _ _ _ h _ hs => h.step hs

omit [DecidableEq π] [DecidableEq κ] in
private theorem counts_one {α : Type} {p : α → Prop} {count : Nat}
    (h : ∃ holders : Finset α, (∀ a, a ∈ holders ↔ p a) ∧ count = holders.card) : 0 < count ↔ ∃ a, p a := by
  obtain ⟨holders, hmem, rfl⟩ := h
  rw [Finset.card_pos]
  exact ⟨fun ⟨a, ha⟩ => ⟨a, (hmem a).1 ha⟩, fun ⟨a, ha⟩ => ⟨a, (hmem a).2 ha⟩⟩

omit [DecidableEq κ] in
/-- A pool warns if another one holds a slot. -/
private theorem Sound.warns {ownsPglite : Bool} (h : s.Sound) (hs : s.create p ownsPglite = some s') :
    s'.warnings = s.warnings ++ [p] ∧ (∃ p', (s.pool p').holdsSlot) ∨
      s'.warnings = s.warnings ∧ ∀ p', (s.pool p').holdsSlot = false := by
  have hone := counts_one h.pools.counted
  unfold Registry.create at hs
  split at hs
  · cases hs
  · cases hs
    by_cases hcount : 0 < s.livePoolCounts.getD 0
    · exact .inl ⟨if_pos (by omega), hone.1 hcount⟩
    · refine .inr ⟨if_neg (by omega), fun p' => ?_⟩
      rw [Bool.eq_false_iff]
      exact fun hslot => hcount (hone.2 ⟨p', hslot⟩)

omit [DecidableEq π] in
/-- `DEALLOCATE ALL` would take the statements of a live client. -/
private theorem Sound.cleans (h : s.Sound) (hs : s.connect c = some s') :
    s'.cleanups = s.cleanups ++ [c] ∧ (∀ c', ¬ s.Live c') ∨ s'.cleanups = s.cleanups ∧ ∃ c', s.Live c' := by
  have hone := counts_one h.clients.counted
  unfold Registry.connect at hs
  split at hs
  · cases hs
    by_cases hcount : 0 < s.liveClientCounts.getD 0
    · exact .inr ⟨if_pos hcount, hone.1 hcount⟩
    · exact .inl ⟨if_neg hcount, fun c' hlive => hcount (hone.2 ⟨c', hlive⟩)⟩
  · cases hs

/-- The counter is of the pools that hold their slot: one that has given it up has no client and no unsettled teardown,
unless its drain bound has passed.  A new pool warns if there is another. -/
theorem slots_accounted (run : s.Reaches) :
    s.PoolsCounted ∧ s.ClosedQuietly ∧
      (∀ p, (s.pool p).created → (s.pool p).holdsSlot = false → (s.pool p).clients = [] ∧ (s.pool p).Quiet) ∧
      ∀ p ownsPglite s', s.create p ownsPglite = some s' →
        s'.warnings = s.warnings ++ [p] ∧ (∃ p', (s.pool p').holdsSlot) ∨
          s'.warnings = s.warnings ∧ ∀ p', (s.pool p').holdsSlot = false := by
  have h := Sound.of_run run
  exact ⟨h.pools.counted, h.pools.closed, fun p => (h.pools.sound p).freed, fun _ _ _ => h.warns⟩

/-- A pool that has had a client ends while another is there. -/
theorem slots_accounted_two : ∃ s : Registry Bool Bool,
    (s.livePoolCounts = some 1 ∧ s.warnings = [true] ∧ s.closedBy = some false) ∧ s.PoolsCounted ∧ s.ClosedQuietly := by
  obtain ⟨s, run, h⟩ : ∃ s : Registry Bool Bool, s.Reaches ∧
      s.livePoolCounts = some 1 ∧ s.warnings = [true] ∧ s.closedBy = some false :=
    TransitionSystem.exists_run [.create false true, .create true false, .construct false true true, .connect true,
      .endPool false false, .discard true, .remove true, .endClient true, .startDrain false, .settle true,
      .finishDrain false ⟨true, [true]⟩ false] (by decide +kernel)
  exact ⟨s, h, (slots_accounted run).1, (slots_accounted run).2.1⟩

/-- The clients of all pools: the count is of those connected and not removed, the registry holds those that could have
statements, and a new one cleans up if it is alone. -/
theorem clients_accounted (run : s.Reaches) :
    (∃ live : Finset κ, (∀ c, c ∈ live ↔ s.Live c) ∧ s.liveClientCounts.getD 0 = live.card) ∧
      (∀ c, c ∈ s.liveClients ↔ (s.client c).built ∧ (s.client c).removed = false ∧ (s.client c).ended = false) ∧
      ∀ c s', s.connect c = some s' →
        s'.cleanups = s.cleanups ++ [c] ∧ (∀ c', ¬ s.Live c') ∨ s'.cleanups = s.cleanups ∧ ∃ c', s.Live c' := by
  have h := Sound.of_run run
  exact ⟨h.clients.counted, h.clients.registered, fun _ _ => h.cleans⟩

theorem clients_accounted_two : ∃ s : Registry Bool Bool,
    (s.liveClientCounts = some 1 ∧ s.liveClients = [true] ∧ s.cleanups = [false]) ∧
      ∀ c, c ∈ s.liveClients ↔ (s.client c).built ∧ (s.client c).removed = false ∧ (s.client c).ended = false := by
  obtain ⟨s, run, h⟩ : ∃ s : Registry Bool Bool, s.Reaches ∧
      s.liveClientCounts = some 1 ∧ s.liveClients = [true] ∧ s.cleanups = [false] :=
    TransitionSystem.exists_run [.create false true, .create true false, .construct false false true, .connect false,
      .construct true true true, .connect true, .discard false, .remove false] (by decide +kernel)
  exact ⟨s, h, (clients_accounted run).2.1⟩

end Registry

end PgliteBridge.PgBridgePool
