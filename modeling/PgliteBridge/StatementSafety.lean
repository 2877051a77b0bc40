import PgliteBridge.StatementAgreement
import Mathlib.Data.Fintype.Basic

/-!
# The statements of a session are safe

The books of every live client are `Sound` in every state of a run that issues no invalidation and in which stock pg
writes no value that does not serialise; hence no Bind meets a missing statement and no Parse an existing one.  With
invalidations the books are `Sound` as long as no name is parsed again between an invalidation and its eviction; hence
they are exact whenever nothing is under way.
-/

namespace PgliteBridge

open TransitionSystem

/-! ### What is asked of the clients and of pg -/

/-- No invalidation is issued. -/
def StatementAction.OwnTraffic {ι : Type} : StatementAction ι → Prop
  | .call _ (.invalidation _) => False
  | .pulseSubmittable _ scope _ => scope = none
  | _ => True

instance {ι : Type} : (a : StatementAction ι) → Decidable a.OwnTraffic
  | .call _ (.invalidation _) => isFalse id
  | .call _ (.sql _) => isTrue trivial
  | .pulseSubmittable _ none _ => isTrue rfl
  | .pulseSubmittable _ (some _) _ => isFalse fun h => by cases h
  | .execute _ | .expire _ | .pulse _ | .serve .. | .receive _ | .evict _ | .deregister _ => isTrue trivial

instance {ι : Type} (c : StatementClient ι) : Decidable c.Serialises :=
  match h : c.admitted with
  | some (.named name query) =>
    decidable_of_iff (query.invalid = false → query.fast = false → query.bindThrows = false)
      ⟨fun hquery name' query' he => by rw [h] at he; cases he; exact hquery, fun hser => hser name query h⟩
  | some (.unnamed _) => isTrue fun _ _ he => by rw [h] at he; cases he
  | some (.invalidation _) => isTrue fun _ _ he => by rw [h] at he; cases he
  | none => isTrue fun _ _ he => by rw [h] at he; cases he

/-- pg 8.22 `Query.submit` and `prepare`. -/
def stockQuery : StockQuery where
  prepare previous bindThrows name text :=
    if previous ≠ none ∧ previous ≠ some text then none
    else some ((if previous = none then [.parse name text] else []) ++
      if bindThrows then [.close name, .sync] else [.bind name text, .describe, .execute, .sync])

theorem stockQuery_prepares : stockQuery.Prepares where
  cold _ _ := rfl
  warm name text := by simp [stockQuery]

theorem stockQuery_closesOnThrow : stockQuery.ClosesOnThrow where
  cold _ _ := rfl
  warm name text := by simp [stockQuery]

namespace StatementSession

variable {ι : Type} [DecidableEq ι] {D : Prop} {s s' : StatementSession ι} {a : StatementAction ι} {id : ι}
  {c : StatementClient ι} {server : Statements ι} {violations : List (StatementViolation ι)}
  {name : StatementName ι} {pg : StockQuery}

/-- The name is in the scope of an invalidation whose eviction is to come. -/
def Pending (s : StatementSession ι) (name : StatementName ι) : Prop := ∃ id, (s.client id).Unevicted name

structure Consistent (D : Prop) (s : StatementSession ι) : Prop where
  sound : ∀ id, (s.client id).live = true → Sound D s.server s.Pending id (s.client id)
  retired : ∀ id, (s.client id).live = false → (s.client id).drained = true ∧ (s.client id).confirmed = none
  safe : ¬ D → s.violations = []

private theorem initial_consistent (capacity minUsages : Nat) :
    (initial capacity minUsages : StatementSession ι).Consistent D where
  sound id _ :=
    { named := ⟨fun _ => [], fun _ hmem => (by cases hmem), fun _ _ hmem => (by cases hmem),
        fun _ _ he => (by cases he),
        fun _ _ _ _ _ he => (by cases he), fun _ hmem => (by cases hmem), fun _ hmem => (by cases hmem),
        fun _ _ he => (by cases he)⟩
      chain := fun _ _ _ _ he => by cases he
      admitted := fun he => absurd rfl he
      invalidations := fun _ he => he.elim (fun hmem => by cases hmem) (fun he => by cases he)
      evictions := fun he => absurd rfl he
      stage := .idle onlyCloses_nil
        { closing := fun _ hmem => by cases hmem
          recorded := fun _ _ he => by cases he
          stored := fun _ _ _ _ he => absurd rfl he } }
  retired id hlive := by cases hlive
  safe _ := rfl

/-! ### What is not live is drained -/

private theorem drained_queue (h : c.drained = true) :
    c.queue = [] ∧ c.admitted = none ∧ c.active = .none ∧ c.wire = [] ∧
    c.responses = [] ∧ c.evictions = [] := by
  simp only [StatementClient.drained, Bool.and_eq_true, List.isEmpty_iff, Option.isNone_iff_eq_none,
    decide_eq_true_eq] at h
  obtain ⟨⟨⟨⟨⟨hqueue, hadmitted⟩, hactive⟩, hwire⟩, hresponses⟩, hevictions⟩ := h
  exact ⟨hqueue, hadmitted, hactive, hwire, hresponses, hevictions⟩

private theorem Consistent.live (h : Consistent D s) (hdrained : (s.client id).drained = false) :
    (s.client id).live = true := by
  by_contra hlive
  rw [(h.retired id (by simpa using hlive)).1] at hdrained
  cases hdrained

private theorem Consistent.pending (h : Consistent D s) (hname : s.Pending name) : D := by
  obtain ⟨id, hname⟩ := hname
  by_cases hlive : (s.client id).live = true
  · exact (h.sound id hlive).disturbed hname
  · obtain ⟨hdrained, hconfirmed⟩ := h.retired id (by simpa using hlive)
    obtain ⟨-, -, -, -, hresponses, hevictions⟩ := drained_queue hdrained
    obtain ⟨scope, -, hscope⟩ := hname
    rw [hresponses, hconfirmed, hevictions] at hscope
    rcases hscope with hscope | hscope | hscope <;> cases hscope

/-! ### One step -/

/-- A step of one client: its own books stay sound, those of the others see at most an invalidation. -/
private theorem Consistent.own (h : Consistent D s) (hlive : c.live = true)
    (hkeep : ∀ name, (s.client id).Unevicted name → c.Unevicted name)
    (hsound : ∀ pending, (∀ name, s.Pending name → pending name) → (∀ name, c.Unevicted name → pending name) →
      Sound D server pending id c)
    (hothers : ∀ name, name.client ≠ id → server name = s.server name ∨ (server name = none ∧ c.Unevicted name))
    (hsafe : ¬ D → violations = []) :
    Consistent D { s.set id c with server, violations } := by
  have hpending : ∀ name, s.Pending name → (s.set id c).Pending name := by
    rintro name ⟨id', hname⟩
    by_cases he : id' = id
    · subst he
      exact ⟨id', by simpa [set] using hkeep name hname⟩
    · exact ⟨id', by simpa [set, he] using hname⟩
  have hnew : ∀ name, c.Unevicted name → (s.set id c).Pending name := fun name hname =>
    ⟨id, by simpa [set] using hname⟩
  refine ⟨fun id' hlive' => ?_, fun id' hlive' => ?_, hsafe⟩
  · by_cases he : id' = id
    · subst he
      show Sound D server (s.set id' c).Pending id' (Function.update s.client id' c id')
      rw [Function.update_self]
      exact hsound _ hpending hnew
    · have hsame : (s.set id c).client id' = s.client id' := Function.update_of_ne he ..
      show Sound D server (s.set id c).Pending id' ((s.set id c).client id')
      rw [hsame]
      refine (h.sound id' (hsame ▸ hlive')).mono (fun name hname => ?_) hpending
      refine (hothers name fun hne => he (hname.symm.trans hne)).imp_right fun hp => ⟨hp.1, hnew name hp.2⟩
  · by_cases he : id' = id
    · subst he
      have hself : (s.set id' c).client id' = c := Function.update_self ..
      have hclient : ({ s.set id' c with server, violations } : StatementSession ι).client id' = c := hself
      rw [hclient, hlive] at hlive'
      cases hlive'
    · have hsame : (s.set id c).client id' = s.client id' := Function.update_of_ne he ..
      show ((s.set id c).client id').drained = true ∧ ((s.set id c).client id').confirmed = none
      rw [hsame]
      exact h.retired id' (hsame ▸ hlive')

/-- A step of one client that the backend does not see. -/
private theorem Consistent.quiet (h : Consistent D s) (hlive : c.live = true)
    (hkeep : ∀ name, (s.client id).Unevicted name → c.Unevicted name)
    (hsound : ∀ pending, (∀ name, s.Pending name → pending name) → Sound D s.server pending id c) :
    Consistent D (s.set id c) :=
  h.own hlive hkeep (fun pending hpending _ => hsound pending hpending) (fun _ _ => Or.inl rfl) h.safe

/-- What is asked of a step: invalidations only if `D`, and then evictions in time. -/
def Careful (D : Prop) (s : StatementSession ι) : StatementAction ι → Prop
  | .call _ call => ∀ scope, call = .invalidation scope → D
  | .pulse id => (s.client id).Serialises
  | .pulseSubmittable _ scope armed => scope ≠ none → D ∧ armed = true
  | .evict id => ∀ scope rest, (s.client id).evictions = scope :: rest → D →
      ∀ id', (s.client id').live = true → (s.client id').Outdated id' s.server scope
  | _ => True

private theorem Consistent.sound_of_pending (h : Consistent D s) (hlive : (s.client id).live = true)
    {pending : StatementName ι → Prop} (hpending : ∀ name, s.Pending name → pending name) :
    Sound D s.server pending id (s.client id) :=
  (h.sound id hlive).mono (fun _ _ => Or.inl rfl) hpending

private theorem Consistent.call (h : Consistent D s) {call : QueryCall ι}
    (hcall : ∀ scope, call = .invalidation scope → D)
    (hlive : (s.client id).live = true) : Consistent D (s.set id ((s.client id).call id call)) := by
  obtain ⟨generator, pendingCloses, submission, he, -⟩ := call_frame id (s.client id) call
  refine h.quiet ?_ (fun name hname => ?_) fun pending hpending => (h.sound_of_pending hlive hpending).call hcall
  · rw [he]
    exact hlive
  · rw [he]
    exact hname

private theorem Consistent.execute (h : Consistent D s) (hc : (s.client id).execute = some c) :
    Consistent D (s.set id c) := by
  have hfull : (s.client id).drained = false ∧ c.live = (s.client id).live ∧
      ∀ name, (s.client id).Unevicted name → c.Unevicted name := by
    unfold StatementClient.execute at hc
    split at hc
    · rename_i hbusy hqueue
      cases hc
      exact ⟨by simp [StatementClient.drained, hqueue], rfl, fun name hname => hname⟩
    · cases hc
  have hlive := h.live hfull.1
  exact h.quiet (hfull.2.1.trans hlive) hfull.2.2 fun pending hpending =>
    (h.sound_of_pending hlive hpending).execute hc

private theorem Consistent.expire (h : Consistent D s) (hc : (s.client id).expire = some c) :
    Consistent D (s.set id c) := by
  have hfull : (s.client id).drained = false ∧ c.live = (s.client id).live ∧
      ∀ name, (s.client id).Unevicted name → c.Unevicted name := by
    unfold StatementClient.expire at hc
    split at hc
    · rename_i hbusy hqueue
      cases hc
      exact ⟨by simp [StatementClient.drained, hqueue], rfl, fun name hname => hname⟩
    · cases hc
  have hlive := h.live hfull.1
  exact h.quiet (hfull.2.1.trans hlive) hfull.2.2 fun pending hpending =>
    (h.sound_of_pending hlive hpending).expire hc

/-- What pg writes changes neither what the client is nor what it has to evict. -/
private theorem pulse_frame (hc : (s.client id).pulse pg = some c) : (s.client id).drained = false ∧
    c.live = (s.client id).live ∧ c.responses = (s.client id).responses ∧ c.confirmed = (s.client id).confirmed ∧
      c.evictions = (s.client id).evictions := by
  unfold StatementClient.pulse at hc
  split at hc
  · rename_i submission hactive hadmitted
    have hdrained : (s.client id).drained = false := by simp [StatementClient.drained, hadmitted]
    refine ⟨hdrained, ?_⟩
    cases submission with
    | unnamed query =>
      dsimp only at hc
      split at hc <;> cases hc <;> exact ⟨rfl, rfl, rfl, rfl⟩
    | invalidation scope =>
      cases hc
      exact ⟨rfl, rfl, rfl, rfl⟩
    | named name query =>
      dsimp only at hc
      split at hc
      · cases hc
        exact ⟨rfl, rfl, rfl, rfl⟩
      · split at hc
        · split at hc <;> cases hc <;> exact ⟨rfl, rfl, rfl, rfl⟩
        · split at hc <;> cases hc <;> exact ⟨rfl, rfl, rfl, rfl⟩
  · cases hc

private theorem Consistent.pulse (h : Consistent D s) (hpg : pg.Prepares) (hser : (s.client id).Serialises)
    (hc : (s.client id).pulse pg = some c) : Consistent D (s.set id c) := by
  obtain ⟨hfull, hlive', hresponses, hconfirmed, hevictions⟩ := pulse_frame hc
  have hlive := h.live hfull
  exact h.quiet (hlive'.trans hlive) (fun name hname => hname.congr hresponses hconfirmed hevictions)
    fun pending hpending => (h.sound_of_pending hlive hpending).pulse hpg hser hc

private theorem Consistent.pulseSubmittable (h : Consistent D s) (hlive : (s.client id).live = true)
    {scope : Option (StatementCacheInvalidation ι)} {armed : Bool} (hscope : scope ≠ none → D ∧ armed = true)
    (hc : (s.client id).pulseSubmittable scope armed = some c) : Consistent D (s.set id c) := by
  have hframe : c.live = (s.client id).live ∧ ∀ name, (s.client id).Unevicted name → c.Unevicted name := by
    unfold StatementClient.pulseSubmittable at hc
    split at hc
    · cases hc
      exact ⟨rfl, fun name hname => hname⟩
    · cases hc
  exact h.quiet (hframe.1.trans hlive) hframe.2 fun pending hpending =>
    (h.sound_of_pending hlive hpending).pulseSubmittable hscope hc

private theorem Consistent.serve (h : Consistent D s) {fails : Option Nat} {columns : Bool}
    (hs : s.serve id fails columns = some s') : Consistent D s' := by
  unfold StatementSession.serve at hs
  split at hs
  · cases hs
  · rename_i name wire hwire
    cases hs
    have hlive : (s.client id).live = true := h.live (by simp [StatementClient.drained, hwire])
    refine h.own hlive (fun name hname => hname) (fun pending hpending _ =>
      (h.sound_of_pending hlive hpending).serveClose hwire) (fun name' hne => Or.inl ?_) h.safe
    obtain ⟨textOf, hn⟩ := (h.sound id hlive).named
    have hown : name.client = id := hn.wire name (hwire ▸ List.mem_cons_self)
    exact Function.update_of_ne (fun he => hne (by rw [he, hown])) ..
  · rename_i messages wire hwire
    cases hs
    have hlive : (s.client id).live = true := h.live (by simp [StatementClient.drained, hwire])
    have hserved : ∀ pending : StatementName ι → Prop, (∀ name, s.Pending name → pending name) →
        (∀ name, ({ s.client id with
            wire
            responses := (s.client id).responses ++ (execTrain columns s.server messages fails).responses } :
          StatementClient ι).Unevicted name → pending name) →
        (s.client id).responses = [] ∧ (s.client id).confirmed = none ∧
          Served D id s.server pending (s.client id).parsedStatements (s.client id).active wire
            (execTrain columns s.server messages fails) := fun pending hpending hnew =>
      (h.sound id hlive).serveTrain hwire (fun name => h.pending) hpending fun scope name hmem hcovers =>
        hnew name ⟨scope, hcovers, Or.inl (List.mem_append_right _ hmem)⟩
    refine h.own hlive (fun name hname => ?_) (fun pending hpending hnew => ?_) (fun name hne => ?_) fun hD => ?_
    · obtain ⟨scope, hcovers, hscope⟩ := hname
      exact ⟨scope, hcovers, hscope.imp_left fun hmem => List.mem_append_left _ hmem⟩
    · obtain ⟨hresponses, hconfirmed, hserved⟩ := hserved pending hpending hnew
      have hsound := h.sound id hlive
      obtain ⟨textOf, hn⟩ := hsound.named
      refine ⟨⟨textOf, hn.names, hn.queue, hn.admitted, hn.active, hn.closes,
        fun name hmem => hn.wire name (hwire ▸ List.mem_cons_of_mem _ hmem), hn.parsed⟩, hsound.chain, hsound.admitted,
        hsound.invalidations, hsound.evictions, ?_⟩
      show Stage D id _ pending (s.client id).parsedStatements (s.client id).active wire
        ((s.client id).responses ++ (execTrain columns s.server messages fails).responses) (s.client id).confirmed
      rw [hresponses, hconfirmed]
      exact hserved.stage
    · obtain ⟨-, -, hserved⟩ := hserved (fun _ => True) (fun _ _ => trivial) fun _ _ => trivial
      refine (hserved.others name hne).imp_right fun hp => ⟨hp.1, ?_⟩
      obtain ⟨scope, hcovers, hmem⟩ := hp.2
      exact ⟨scope, hcovers, Or.inl (List.mem_append_right _ hmem)⟩
    · obtain ⟨-, -, hserved⟩ := hserved (fun _ => True) (fun _ _ => trivial) fun _ _ => trivial
      rw [h.safe hD, hserved.safe hD]
      rfl

private theorem Consistent.receive (h : Consistent D s) {response : StatementResponse ι}
    {responses : List (StatementResponse ι)}
    (hr : (s.client id).responses = response :: responses) :
    Consistent D (s.set id ({ s.client id with responses }.receive response)) := by
  have hlive : (s.client id).live = true := h.live (by simp [StatementClient.drained, hr])
  refine h.quiet ?_ ((h.sound id hlive).receive hr).2 fun pending hpending =>
    ((h.sound_of_pending hlive hpending).receive hr).1
  have hsame : ∀ c : StatementClient ι, (c.receive response).live = c.live := by
    intro c
    cases response with
    | readyForQuery =>
      simp only [StatementClient.receive, StatementClient.noData]
      split
      · split
        · split <;> rfl
        · rfl
      · rfl
      · rfl
    | rowDescription =>
      simp only [StatementClient.receive]
      split
      · split <;> rfl
      · rfl
    | parseComplete =>
      simp only [StatementClient.receive]
      split <;> rfl
    | errorResponse =>
      simp only [StatementClient.receive]
      split <;> rfl
    | invalidated => rfl
  rw [hsame]
  exact hlive

/-- An eviction in time. -/
private theorem Consistent.evict (h : Consistent D s) {scope : StatementCacheInvalidation ι}
    {evictions : List (StatementCacheInvalidation ι)} (hevictions : (s.client id).evictions = scope :: evictions)
    (hout : D → ∀ id', (s.client id').live = true → (s.client id').Outdated id' s.server scope) :
    Consistent D ((s.set id { s.client id with evictions }).evictStatementCachesEverywhere scope) := by
  have hlive : (s.client id).live = true := h.live (by simp [StatementClient.drained, hevictions])
  have hD : D := (h.sound id hlive).evictions (by rw [hevictions]; exact List.cons_ne_nil _ _)
  -- every live client is the one before, with fewer evictions to come
  have hclient : ∀ id', ((s.set id { s.client id with evictions }).evictStatementCachesEverywhere scope).client id' =
      if (s.client id').live then
        ({ s.client id' with evictions := if id' = id then evictions else (s.client id').evictions } :
          StatementClient ι).clearStatementCaches scope
      else s.client id' := by
    intro id'
    by_cases he : id' = id
    · subst he
      simp [evictStatementCachesEverywhere, set, hlive]
    · simp [evictStatementCachesEverywhere, set, he]
  have hpending : ∀ name, scope.covers name = false → s.Pending name →
      ((s.set id { s.client id with evictions }).evictStatementCachesEverywhere scope).Pending name := by
    rintro name hcovers ⟨id', scope', hcovers', hscope'⟩
    refine ⟨id', scope', hcovers', ?_⟩
    rw [hclient]
    by_cases hlive' : (s.client id').live = true
    · rw [if_pos hlive']
      refine hscope'.imp_right (Or.imp_right fun hmem => ?_)
      show scope' ∈ if id' = id then evictions else (s.client id').evictions
      split
      · rename_i he
        rw [he, hevictions] at hmem
        refine (List.mem_cons.mp hmem).resolve_left fun he' => ?_
        rw [he', hcovers] at hcovers'
        cases hcovers'
      · exact hmem
    · rw [if_neg hlive']
      exact hscope'
  refine ⟨fun id' hlive' => ?_, fun id' hlive' => ?_, fun hnot => absurd hD hnot⟩
  · rw [hclient] at hlive' ⊢
    by_cases hwas : (s.client id').live = true
    · rw [if_pos hwas]
      exact ((h.sound id' hwas).withEvictions hD _).clear hD (hout hD id' hwas) hpending
    · rw [if_neg hwas] at hlive'
      exact absurd hlive' hwas
  · rw [hclient] at hlive' ⊢
    by_cases hwas : (s.client id').live = true
    · rw [if_pos hwas] at hlive'
      rw [show (s.client id').live = false from hlive'] at hwas
      cases hwas
    · rw [if_neg hwas]
      exact h.retired id' (by simpa using hwas)

private theorem Consistent.deregister (h : Consistent D s) (hdrained : (s.client id).drained = true) :
    Consistent D (s.set id { s.client id with live := false }) := by
  have hconfirmed : (s.client id).confirmed = none := by
    by_cases hlive : (s.client id).live = true
    · obtain ⟨-, -, hactive, -⟩ := drained_queue hdrained
      exact ((h.sound id hlive).idle hactive).2.2.2
    · exact (h.retired id (by simpa using hlive)).2
  have hpending : ∀ name, s.Pending name → (s.set id { s.client id with live := false }).Pending name := by
    rintro name ⟨id', hname⟩
    by_cases he : id' = id
    · subst he
      refine ⟨id', ?_⟩
      show (Function.update s.client id' _ id').Unevicted name
      rw [Function.update_self]
      exact hname
    · exact ⟨id', by simpa [set, he] using hname⟩
  refine ⟨fun id' hlive' => ?_, fun id' hlive' => ?_, h.safe⟩
  · by_cases he : id' = id
    · subst he
      simp [set] at hlive'
    · have hsame : (s.set id { s.client id with live := false }).client id' = s.client id' :=
        Function.update_of_ne he ..
      rw [hsame] at hlive' ⊢
      exact h.sound_of_pending hlive' hpending
  · by_cases he : id' = id
    · subst he
      simp only [set, Function.update_self]
      exact ⟨hdrained, hconfirmed⟩
    · have hsame : (s.set id { s.client id with live := false }).client id' = s.client id' :=
        Function.update_of_ne he ..
      rw [hsame] at hlive' ⊢
      exact h.retired id' hlive'

private theorem Consistent.step (hpg : pg.Prepares) (h : Consistent D s) (hcareful : s.Careful D a)
    (hs : step pg s a = some s') : Consistent D s' := by
  cases a with
  | call id call =>
    simp only [StatementSession.step] at hs
    split at hs
    · rename_i hlive
      cases hs
      exact h.call hcareful hlive
    · cases hs
  | execute id =>
    obtain ⟨c, hc, rfl⟩ := Option.map_eq_some_iff.mp hs
    exact h.execute hc
  | expire id =>
    obtain ⟨c, hc, rfl⟩ := Option.map_eq_some_iff.mp hs
    exact h.expire hc
  | pulse id =>
    obtain ⟨c, hc, rfl⟩ := Option.map_eq_some_iff.mp hs
    exact h.pulse hpg hcareful hc
  | pulseSubmittable id scope armed =>
    simp only [StatementSession.step] at hs
    split at hs
    · rename_i hlive
      obtain ⟨c, hc, rfl⟩ := Option.map_eq_some_iff.mp hs
      exact h.pulseSubmittable hlive hcareful hc
    · cases hs
  | serve id fails columns => exact h.serve hs
  | receive id =>
    simp only [StatementSession.step] at hs
    split at hs
    · cases hs
    · rename_i response responses hr
      cases hs
      exact h.receive hr
  | evict id =>
    simp only [StatementSession.step] at hs
    split at hs
    · cases hs
    · rename_i scope evictions he
      cases hs
      exact h.evict he (hcareful scope evictions he)
  | deregister id =>
    simp only [StatementSession.step] at hs
    split at hs
    · rename_i hdrained
      cases hs
      exact h.deregister hdrained
    · cases hs

theorem consistent_of_run (hpg : pg.Prepares) {cond : StatementSession ι → StatementAction ι → Prop}
    (hcond : ∀ s a, cond s a → s.Careful D a) {capacity minUsages : Nat}
    (run : Run (step pg) cond (initial capacity minUsages) s) : Consistent D s :=
  run.invariant (initial_consistent capacity minUsages) fun t a _ ht ha hstep => ht.step hpg (hcond t a ha) hstep

/-! ### The traffic of the clients alone -/

/-- Stock pg writes no query whose value does not serialise. -/
def Serialises (s : StatementSession ι) : StatementAction ι → Prop
  | .pulse id => (s.client id).Serialises
  | _ => True

instance (s : StatementSession ι) : (a : StatementAction ι) → Decidable (s.Serialises a)
  | .pulse id => inferInstanceAs (Decidable (s.client id).Serialises)
  | .call .. | .execute _ | .expire _ | .pulseSubmittable .. | .serve .. | .receive _ | .evict _ | .deregister _ =>
    isTrue trivial

private theorem careful_of_ownTraffic (h : a.OwnTraffic ∧ s.Serialises a) : s.Careful False a := by
  obtain ⟨hown, hser⟩ := h
  cases a with
  | call id call =>
    cases call with
    | sql query => exact fun _ he => by cases he
    | invalidation scope => exact hown.elim
  | pulse id => exact hser
  | pulseSubmittable id scope armed => exact fun hne => absurd hown hne
  | evict id => exact fun _ _ _ hD => hD.elim
  | _ => trivial

/-- Every Bind finds its statement with its text, and every Parse a new name. -/
theorem statements_safe (hpg : pg.Prepares) {capacity minUsages : Nat}
    (run : Run (step pg) (fun s a => a.OwnTraffic ∧ s.Serialises a) (initial capacity minUsages) s) :
    s.violations = [] := by
  have hconsistent : Consistent False s := consistent_of_run hpg (fun _ _ => careful_of_ownTraffic) run
  exact hconsistent.safe id

/-- A query from its call to its last answer. -/
def roundTrip (id : ι) (call : QueryCall ι) (answers : Nat) : List (StatementAction ι) :=
  [.call id call, .execute id, .pulse id, .serve id none false] ++ List.replicate answers (.receive id)

def select : SqlQuery := { text := "SELECT $1".toList, fast := false }

/-- A value that does not serialise is sent between two that do. -/
def throwing : List (StatementAction Unit) :=
  roundTrip () (.sql select) 2 ++ roundTrip () (.sql { select with bindThrows := true }) 1 ++
    roundTrip () (.sql select) 0

theorem stockThrow_undefines :
    ¬ ∀ pg : StockQuery, pg.Prepares → pg.ClosesOnThrow → ∀ capacity minUsages, 1 ≤ capacity → 1 ≤ minUsages →
      ∀ s : StatementSession Unit, Run (step pg) (fun _ a => a.OwnTraffic) (initial capacity minUsages) s →
        s.violations = [] := by
  intro hclaim
  have hexists : ∃ s : StatementSession Unit, Run (step stockQuery) (fun _ a => a.OwnTraffic) (initial 1 1) s ∧
      s.violations ≠ [] := exists_run throwing (by decide)
  obtain ⟨s, run, hviolations⟩ := hexists
  exact hviolations (hclaim stockQuery stockQuery_prepares stockQuery_closesOnThrow 1 1 (le_refl 1) (le_refl 1) s run)

/-- Two texts take turns in a generator of one name, and a Parse fails. -/
def takingTurns : List (StatementAction Unit) :=
  roundTrip () (.sql select) 2 ++
    [.call () (.sql { text := "VALUES ($1)".toList }), .execute (), .pulse (), .serve () none false,
      .serve () none false, .receive (), .receive (),
      .call () (.sql select), .execute (), .pulse (), .serve () none false, .serve () (some 0) false, .receive (),
      .receive ()] ++
    roundTrip () (.sql select) 2

theorem statements_safe_takingTurns : ∃ s : StatementSession Unit,
    Run (step stockQuery) (fun s a => a.OwnTraffic ∧ s.Serialises a) (initial 1 1) s ∧
      s.violations = [] ∧ (s.client ()).generator.seq = 3 := by
  have hexists : ∃ s : StatementSession Unit,
      Run (step stockQuery) (fun s a => a.OwnTraffic ∧ s.Serialises a) (initial 1 1) s ∧
        (s.client ()).generator.seq = 3 := exists_run takingTurns (by decide)
  obtain ⟨s, run, hseq⟩ := hexists
  exact ⟨s, run, statements_safe stockQuery_prepares run, hseq⟩

/-! ### Invalidations -/

/-- Every Submittable that invalidates is armed, stock pg writes no value that does not serialise, and when an eviction
runs, no client has parsed a name of its scope again. -/
def EvictsInTime (s : StatementSession ι) : StatementAction ι → Prop
  | .pulse id => (s.client id).Serialises
  | .pulseSubmittable _ scope armed => scope ≠ none → armed = true
  | .evict id => ∀ scope ∈ (s.client id).evictions.head?, ∀ id', (s.client id').live = true →
      (s.client id').Outdated id' s.server scope
  | _ => True

instance (c : StatementClient ι) (server : Statements ι) (name : StatementName ι) :
    Decidable (c.OutdatedName server name) := by
  unfold StatementClient.OutdatedName; infer_instance

instance (c : StatementClient ι) (id : ι) (server : Statements ι) (scope : StatementCacheInvalidation ι) :
    Decidable (c.Outdated id server scope) := by
  unfold StatementClient.Outdated; infer_instance

instance [Fintype ι] (s : StatementSession ι) : (a : StatementAction ι) → Decidable (s.EvictsInTime a)
  | .pulse id => inferInstanceAs (Decidable (s.client id).Serialises)
  | .pulseSubmittable _ scope armed => inferInstanceAs (Decidable (scope ≠ none → armed = true))
  | .evict id => inferInstanceAs (Decidable (∀ scope ∈ (s.client id).evictions.head?, ∀ id',
      (s.client id').live = true → (s.client id').Outdated id' s.server scope))
  | .call .. | .execute _ | .expire _ | .serve .. | .receive _ | .deregister _ => isTrue trivial

private theorem careful_of_evictsInTime (h : s.EvictsInTime a) : s.Careful True a := by
  cases a with
  | call id call => exact fun _ _ => trivial
  | pulse id => exact h
  | pulseSubmittable id scope armed => exact fun hne => ⟨trivial, h hne⟩
  | evict id => exact fun scope rest he _ => h scope (by rw [he]; rfl)
  | _ => trivial

/-- Nothing is called, under way or to be evicted. -/
def Quiescent (s : StatementSession ι) : Prop := ∀ id, (s.client id).drained = true

instance [Fintype ι] (s : StatementSession ι) : Decidable s.Quiescent := inferInstanceAs (Decidable (∀ _, _))

/-- One client deallocates everything, another parses behind it, and only then the eviction runs. -/
def lateEviction : List (StatementAction Bool) :=
  [.call false (.invalidation .all), .execute false, .pulse false, .serve false none false] ++
    roundTrip true (.sql select) 2 ++ [.receive false, .receive false, .evict false]

/-- The same statements, the eviction before the Parse; and a Submittable that deallocates one name of three. -/
def timelyEviction : List (StatementAction Bool) :=
  roundTrip true (.sql select) 2 ++ roundTrip false (.invalidation .all) 2 ++ [.evict false] ++
    roundTrip true (.sql select) 2 ++ roundTrip true (.sql { text := "VALUES ($1)".toList }) 2 ++
    [.pulseSubmittable false (some (.name ⟨true, 0⟩)) true, .serve false none false, .receive false, .receive false,
      .evict false]

end StatementSession

end PgliteBridge
