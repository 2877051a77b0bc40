import Mathlib.Logic.Function.Basic
import Mathlib.Tactic.Common

/-!
# The pools of one PGlite instance

The constructor, `end()` and the listeners of `PgBridgePool` (`pool/index.ts`), the registration of `PgBridgeClient`
(`pool/pg-bridge-client.ts`) and the registries they share (`pool/session-registry.ts`), for any number of pools over
one instance.  pg-pool decides when clients are constructed, connected and dropped; it constructs none once `end()` has
been called, and calls back once when the last one is gone.
-/

namespace PgliteBridge.PgBridgePool

/-- A run of `drainAndClose` and the teardowns it waits for. -/
structure Drain (κ : Type) where
  releaseAfterDrain : Bool
  teardowns : List κ
deriving DecidableEq, Repr

structure Pool (κ : Type) where
  created : Bool := false
  ownsPglite : Bool := false
  /-- what pg-pool counts, connected or not -/
  clients : List κ := []
  pendingTeardowns : List κ := []
  endStarted : Bool := false
  /-- `super.end()` waits for the clients; `releaseAfterDrain` of the call -/
  ending : Option Bool := none
  drains : List (Drain κ) := []
  /-- the drain bound has passed -/
  expired : Bool := false
deriving DecidableEq, Repr

structure Client (π : Type) where
  /-- of a client whose constructor has been entered -/
  pool : Option π := none
  /-- its constructor has not thrown -/
  built : Bool := false
  connected : Bool := false
  /-- pg-pool has dropped it -/
  discarded : Bool := false
  /-- `'remove'` -/
  removed : Bool := false
  /-- `'end'` -/
  ended : Bool := false
deriving DecidableEq, Repr

/-- The entries of the registries for the instance, and what has happened to it. -/
structure Registry (π κ : Type) where
  pool : π → Pool κ := fun _ => {}
  client : κ → Client π := fun _ => {}
  livePoolCounts : Option Nat := none
  liveClientCounts : Option Nat := none
  liveClients : List κ := []
  /-- the pools that have warned about a shared instance -/
  warnings : List π := []
  /-- the clients that have sent the connect-time `DEALLOCATE ALL` -/
  cleanups : List κ := []
  pgliteClosed : Bool := false
  /-- the pool whose `end()` has closed the instance -/
  closedBy : Option π := none

inductive PoolAction (π κ : Type)
  /-- `new PgBridgePool` -/
  | create (p : π) (ownsPglite : Bool)
  /-- `new PgBridgeClient`; its constructor may throw once the duplex is there -/
  | construct (p : π) (c : κ) (ok : Bool)
  | connect (c : κ)
  /-- pg-pool drops a client, or one that has failed to connect -/
  | discard (c : κ)
  | remove (c : κ)
  | endClient (c : κ)
  /-- the `onClose` of the duplex -/
  | settle (c : κ)
  | endPool (p : π) (callback : Bool)
  | startDrain (p : π)
  /-- the race of `drainAndClose` is decided -/
  | finishDrain (p : π) (drain : Drain κ) (expired : Bool)
  | closeInstance
deriving DecidableEq, Repr

namespace Registry

variable {π κ : Type} [DecidableEq π] [DecidableEq κ]

def setPool (s : Registry π κ) (p : π) (pool : Pool κ) : Registry π κ :=
  { s with pool := Function.update s.pool p pool }

def setClient (s : Registry π κ) (c : κ) (client : Client π) : Registry π κ :=
  { s with client := Function.update s.client c client }

def releaseLiveSlot (s : Registry π κ) : Registry π κ :=
  { s with livePoolCounts := some (s.livePoolCounts.getD 1 - 1) }

def deregisterLiveClient (s : Registry π κ) (c : κ) : Registry π κ :=
  { s with liveClients := s.liveClients.filter (· ≠ c) }

def create (s : Registry π κ) (p : π) (ownsPglite : Bool) : Option (Registry π κ) :=
  if (s.pool p).created then none
  else
    let liveCount := s.livePoolCounts.getD 0 + 1
    some { s.setPool p { created := true, ownsPglite } with
      livePoolCounts := some liveCount
      warnings := if 1 < liveCount then s.warnings ++ [p] else s.warnings }

def construct (s : Registry π κ) (p : π) (c : κ) (ok : Bool) : Option (Registry π κ) :=
  if (s.pool p).created ∧ !(s.pool p).endStarted ∧ (s.client c).pool = none then
    let pool := { s.pool p with pendingTeardowns := (s.pool p).pendingTeardowns ++ [c] }
    if ok then
      let s := s.setPool p { pool with clients := pool.clients ++ [c] }
      some { s.setClient c { pool := some p, built := true } with liveClients := s.liveClients ++ [c] }
    else some ((s.setPool p pool).setClient c { pool := some p, discarded := true })
  else none

/-- The `'connect'` listener. -/
def connect (s : Registry π κ) (c : κ) : Option (Registry π κ) :=
  if (s.client c).built ∧ !(s.client c).connected ∧ !(s.client c).discarded then
    let prevClientCount := s.liveClientCounts.getD 0
    some { s.setClient c { s.client c with connected := true } with
      liveClientCounts := some (prevClientCount + 1)
      cleanups := if 0 < prevClientCount then s.cleanups else s.cleanups ++ [c] }
  else none

def discard (s : Registry π κ) (c : κ) : Option (Registry π κ) :=
  match (s.client c).pool with
  | some p =>
    if (s.client c).discarded then none
    else
      some ((s.setPool p { s.pool p with clients := (s.pool p).clients.filter (· ≠ c) }).setClient c
        { s.client c with discarded := true })
  | none => none

/-- The `'remove'` listener. -/
def remove (s : Registry π κ) (c : κ) : Option (Registry π κ) :=
  if (s.client c).connected ∧ (s.client c).discarded ∧ !(s.client c).removed then
    let count := s.liveClientCounts.getD 1
    some (({ s.setClient c { s.client c with removed := true } with
      liveClientCounts := some (count - 1) }).deregisterLiveClient c)
  else none

def endClient (s : Registry π κ) (c : κ) : Option (Registry π κ) :=
  if (s.client c).built then some ((s.setClient c { s.client c with ended := true }).deregisterLiveClient c) else none

def settle (s : Registry π κ) (c : κ) : Option (Registry π κ) :=
  match (s.client c).pool with
  | some p =>
    some (s.setPool p { s.pool p with pendingTeardowns := (s.pool p).pendingTeardowns.filter (· ≠ c) })
  | none => none

/-- `end()`; pg-pool refuses a second call, and a refused callback form drains none the less. -/
def endPool (s : Registry π κ) (p : π) (callback : Bool) : Option (Registry π κ) :=
  let pool := s.pool p
  if !pool.created then none
  else if !pool.endStarted then
    if pool.clients = [] ∧ pool.pendingTeardowns = [] then
      some (s.setPool p { pool with endStarted := true, ending := some false }).releaseLiveSlot
    else some (s.setPool p { pool with endStarted := true, ending := some true })
  else if callback then
    some (s.setPool p { pool with
      drains := pool.drains ++ [{ releaseAfterDrain := false, teardowns := pool.pendingTeardowns }] })
  else some s

/-- pg-pool calls back: `drainAndClose` reads the teardowns. -/
def startDrain (s : Registry π κ) (p : π) : Option (Registry π κ) :=
  let pool := s.pool p
  match pool.ending with
  | some releaseAfterDrain =>
    if pool.clients = [] then
      some (s.setPool p { pool with
        ending := none
        drains := pool.drains ++ [{ releaseAfterDrain, teardowns := pool.pendingTeardowns }] })
    else none
  | none => none

/-- The teardowns have settled, or the bound has passed; then the slot and an owned instance are given up. -/
def finishDrain (s : Registry π κ) (p : π) (drain : Drain κ) (expired : Bool) : Option (Registry π κ) :=
  let pool := s.pool p
  if drain ∈ pool.drains ∧ (expired ∨ ∀ c ∈ drain.teardowns, c ∉ pool.pendingTeardowns) then
    let s := s.setPool p { pool with drains := pool.drains.erase drain, expired := pool.expired || expired }
    let s := if drain.releaseAfterDrain then s.releaseLiveSlot else s
    some (if pool.ownsPglite ∧ !s.pgliteClosed then { s with pgliteClosed := true, closedBy := some p } else s)
  else none

def step (s : Registry π κ) : PoolAction π κ → Option (Registry π κ)
  | .create p ownsPglite => s.create p ownsPglite
  | .construct p c ok => s.construct p c ok
  | .connect c => s.connect c
  | .discard c => s.discard c
  | .remove c => s.remove c
  | .endClient c => s.endClient c
  | .settle c => s.settle c
  | .endPool p callback => s.endPool p callback
  | .startDrain p => s.startDrain p
  | .finishDrain p drain expired => s.finishDrain p drain expired
  | .closeInstance => some { s with pgliteClosed := true }

end Registry

end PgliteBridge.PgBridgePool
