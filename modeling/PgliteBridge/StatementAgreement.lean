import PgliteBridge.StatementCache

/-!
# The books of a client agree with the session

What `parsedStatements` holds is on the server, and what is on the server is in `parsedStatements`, but for the evicted
names still to be closed, the statement whose Parse is under way, and the statements that an invalidation has removed
before its eviction (`Agree`).  How far the active query of a client has come is its `Stage`.
-/

namespace PgliteBridge

open TransitionSystem

variable {ι : Type} [DecidableEq ι]

/-! ### The answers to a query -/

/-- The answers to messages without a Parse. -/
inductive PlainAnswers {ι : Type} : List (StatementResponse ι) → Prop
  | ready : PlainAnswers [.readyForQuery]
  | error : PlainAnswers [.errorResponse, .readyForQuery]
  | row {rest : List (StatementResponse ι)} (h : PlainAnswers rest) : PlainAnswers (.rowDescription :: rest)

/-- The messages of a named query behind its Parse. -/
def BindTail {ι : Type} (name : StatementName ι) (text : SqlText) (messages : List (StatementMessage ι)) : Prop :=
  messages = [.sync] ∨ messages = [.bind name text, .sync] ∨ messages = [.bind name text, .execute, .sync] ∨
    messages = [.bind name text, .describe, .execute, .sync]

section Backend

variable {server : Statements ι} {name : StatementName ι} {text : SqlText} {messages : List (StatementMessage ι)}
  {fails : Option Nat} {columns : Bool}

/-- An ordinary message: the error strikes here, or the message is executed. -/
theorem execTrain_cons (m : StatementMessage ι) (hclose : ∀ name, m ≠ .close name) (hsync : m ≠ .sync) :
    execTrain columns server (m :: messages) fails =
      if fails = some 0 then { server, responses := [.errorResponse, .readyForQuery] }
      else
        let effect := execMessage server columns m
        if effect.fails then { effect with responses := [.errorResponse, .readyForQuery] }
        else
          let rest := execTrain columns effect.server messages (fails.map (· - 1))
          { rest with
            responses := effect.responses ++ rest.responses
            violations := effect.violations ++ rest.violations } := by
  cases m with
  | sync => exact absurd rfl hsync
  | close name => exact absurd rfl (hclose name)
  | _ => rcases fails with _ | _ | n <;> rfl

/-- The messages leave the statements alone and violate nothing, wherever an error strikes. -/
def Undisturbed (columns : Bool) (server : Statements ι) (messages : List (StatementMessage ι)) : Prop :=
  ∀ fails, (execTrain columns server messages fails).server = server ∧
    PlainAnswers (execTrain columns server messages fails).responses ∧
    (execTrain columns server messages fails).violations = []

private theorem undisturbed_sync : Undisturbed columns server [.sync] := by
  intro fails
  cases fails <;> exact ⟨rfl, .ready, rfl⟩

private theorem Undisturbed.cons {m : StatementMessage ι} (h : Undisturbed columns server messages)
    (hclose : ∀ name, m ≠ .close name) (hsync : m ≠ .sync)
    (hm : execMessage server columns m = { server } ∨
      execMessage server columns m = { server, responses := [.rowDescription] }) :
    Undisturbed columns server (m :: messages) := by
  intro fails
  rw [execTrain_cons m hclose hsync]
  obtain ⟨hserver, hresponses, hviolations⟩ := h (fails.map (· - 1))
  split
  · exact ⟨rfl, .error, rfl⟩
  · rcases hm with hm | hm
    · simp only [hm]
      exact ⟨hserver, hresponses, hviolations⟩
    · simp only [hm]
      exact ⟨hserver, .row hresponses, hviolations⟩

private theorem undisturbed_other : Undisturbed columns server [.other, .sync] :=
  undisturbed_sync.cons (fun _ h => by cases h) (fun h => by cases h) (Or.inl rfl)

private theorem undisturbed_execute : Undisturbed columns server [.execute, .sync] :=
  undisturbed_sync.cons (fun _ h => by cases h) (fun h => by cases h) (Or.inl rfl)

private theorem undisturbed_describe : Undisturbed columns server [.describe, .execute, .sync] := by
  refine undisturbed_execute.cons (fun _ h => by cases h) (fun h => by cases h) ?_
  cases columns
  · exact Or.inl rfl
  · exact Or.inr rfl

/-- Messages behind a Parse, on a server that has the statement. -/
private theorem undisturbed_stored (hm : BindTail name text messages) (hs : server name = some text) :
    Undisturbed columns server messages := by
  have hbind : execMessage server columns (.bind name text) = { server } := by simp [execMessage, hs]
  have hcons : ∀ messages, Undisturbed columns server messages →
      Undisturbed columns server (.bind name text :: messages) := fun messages h =>
    h.cons (fun _ h => by cases h) (fun h => by cases h) (Or.inl hbind)
  rcases hm with rfl | rfl | rfl | rfl
  · exact undisturbed_sync
  · exact hcons _ undisturbed_sync
  · exact hcons _ undisturbed_execute
  · exact hcons _ undisturbed_describe

/-- Messages behind a Parse, on a server that has lost the statement: a Bind fails. -/
private theorem execTrain_lost (columns : Bool) (fails : Option Nat) (hm : BindTail name text messages)
    (hs : server name = none) :
    (execTrain columns server messages fails).server = server ∧
      PlainAnswers (execTrain columns server messages fails).responses := by
  have hbind : ∀ rest, (execTrain columns server (.bind name text :: rest) fails).server = server ∧
      PlainAnswers (execTrain columns server (.bind name text :: rest) fails).responses := by
    intro rest
    rw [execTrain_cons _ (fun _ h => by cases h) (fun h => by cases h)]
    split
    · exact ⟨rfl, .error⟩
    · simp only [execMessage, hs]
      exact ⟨rfl, .error⟩
  rcases hm with rfl | rfl | rfl | rfl
  · have hsync : Undisturbed columns server [.sync] := undisturbed_sync
    obtain ⟨hserver, hresponses, -⟩ := hsync fails
    exact ⟨hserver, hresponses⟩
  · exact hbind _
  · exact hbind _
  · exact hbind _

/-- A Parse of a name that the server does not have, with what follows. -/
private theorem execTrain_parse (columns : Bool) (fails : Option Nat) (hm : BindTail name text messages)
    (hs : server name = none) :
    (execTrain columns server (.parse name text :: messages) fails).violations = [] ∧
      (((execTrain columns server (.parse name text :: messages) fails).server = server ∧
          (execTrain columns server (.parse name text :: messages) fails).responses =
            [.errorResponse, .readyForQuery]) ∨
        ((execTrain columns server (.parse name text :: messages) fails).server =
            Function.update server name (some text) ∧
          ∃ rest, PlainAnswers rest ∧
            (execTrain columns server (.parse name text :: messages) fails).responses = .parseComplete :: rest)) := by
  rw [execTrain_cons _ (fun _ h => by cases h) (fun h => by cases h)]
  split
  · exact ⟨rfl, Or.inl ⟨rfl, rfl⟩⟩
  · have hstored : Undisturbed columns (Function.update server name (some text)) messages :=
      undisturbed_stored hm (Function.update_self ..)
    obtain ⟨hserver, hresponses, hviolations⟩ := hstored (fails.map (· - 1))
    simp only [execMessage, hs]
    exact ⟨hviolations, Or.inr ⟨hserver, _, hresponses, rfl⟩⟩

/-- An invalidation and its Sync. -/
private theorem execTrain_invalidate (server : Statements ι) (columns : Bool) (fails : Option Nat)
    (scope : StatementCacheInvalidation ι) :
    (execTrain columns server [.invalidate scope, .sync] fails).violations = [] ∧
      (((execTrain columns server [.invalidate scope, .sync] fails).server = server ∧
          (execTrain columns server [.invalidate scope, .sync] fails).responses = [.errorResponse, .readyForQuery]) ∨
        ((execTrain columns server [.invalidate scope, .sync] fails).server =
            (fun name => if scope.covers name then none else server name) ∧
          (execTrain columns server [.invalidate scope, .sync] fails).responses =
            [.invalidated scope, .readyForQuery])) := by
  rw [execTrain_cons _ (fun _ h => by cases h) (fun h => by cases h)]
  split
  · exact ⟨rfl, Or.inl ⟨rfl, rfl⟩⟩
  · rcases fails with _ | n <;> exact ⟨rfl, Or.inr ⟨rfl, rfl⟩⟩

end Backend


/-! ### The books of one client -/

def OnlyCloses (wire : List (WireItem ι)) : Prop := ∀ item ∈ wire, ∃ name, item = .close name

/-- The entries in `parsed` are on the server, or an invalidation has removed them whose eviction is pending; the
statements on the server, except the one being parsed, have their entries, or a Close for them is on the wire. -/
structure Agree (id : ι) (parsed : Statements ι) (wire : List (WireItem ι)) (server : Statements ι)
    (pending : StatementName ι → Prop) (parsing : Option (StatementName ι)) : Prop where
  closing : ∀ name, .close name ∈ wire → parsed name = none
  recorded : ∀ name text, parsed name = some text → server name = some text ∨ (server name = none ∧ pending name)
  stored : ∀ name, name.client = id → parsing ≠ some name → .close name ∉ wire → server name ≠ none →
    parsed name = server name

/-- The active query will run its continuation when its ReadyForQuery comes. -/
def Evicting (active : ActiveQuery ι) : Prop :=
  (∃ submission describeSent fieldsReceived, active = .query submission describeSent fieldsReceived false) ∨
    active = .submittable true

/-- How far the active query is; `D` tells whether invalidations may occur at all. -/
inductive Stage (D : Prop) (id : ι) (server : Statements ι) (pending : StatementName ι → Prop) (parsed : Statements ι) :
    ActiveQuery ι → List (WireItem ι) → List (StatementResponse ι) → Option (StatementCacheInvalidation ι) → Prop
  | idle {wire} (hwire : OnlyCloses wire) (hagree : Agree id parsed wire server pending none) :
      Stage D id server pending parsed .none wire [] none
  /-- the messages name no statement -/
  | other {active pre post} (hactive : active ≠ .none) (hpre : OnlyCloses pre) (hpost : OnlyCloses post)
      (hagree : Agree id parsed (pre ++ .train [.other, .sync] :: post) server pending none) :
      Stage D id server pending parsed active (pre ++ .train [.other, .sync] :: post) [] none
  | invalidating (hD : D) {active pre post scope} (hactive : Evicting active) (hpre : OnlyCloses pre)
      (hpost : OnlyCloses post)
      (hagree : Agree id parsed (pre ++ .train [.invalidate scope, .sync] :: post) server pending none) :
      Stage D id server pending parsed active (pre ++ .train [.invalidate scope, .sync] :: post) [] none
  /-- Parse is skipped -/
  | warm {name query describeSent pre messages} (hpre : OnlyCloses pre) (hm : BindTail name query.text messages)
      (hentry : ¬ D → parsed name = some query.text)
      (hagree : Agree id parsed (pre ++ [.train messages]) server pending none) :
      Stage D id server pending parsed (.query (.named name query) describeSent false false)
        (pre ++ [.train messages]) [] none
  | cold {name query describeSent pre messages} (hpre : OnlyCloses pre) (hm : BindTail name query.text messages)
      (hentry : parsed name = none) (hserver : server name = none ∨ .close name ∈ pre)
      (hagree : Agree id parsed (pre ++ [.train (.parse name query.text :: messages)]) server pending (some name)) :
      Stage D id server pending parsed (.query (.named name query) describeSent false false)
        (pre ++ [.train (.parse name query.text :: messages)]) [] none
  /-- pg has still to learn that the statement is parsed -/
  | parsing {name query describeSent rest} (hrest : PlainAnswers rest) (hentry : parsed name = none)
      (hserver : server name = some query.text ∨ (server name = none ∧ pending name))
      (hagree : Agree id parsed [] server pending (some name)) :
      Stage D id server pending parsed (.query (.named name query) describeSent false false) []
        (.parseComplete :: rest) none
  | answering {active wire responses} (hactive : active ≠ .none) (hwire : OnlyCloses wire)
      (hresponses : PlainAnswers responses) (hagree : Agree id parsed wire server pending none) :
      Stage D id server pending parsed active wire responses none
  | invalidated (hD : D) {active wire scope} (hactive : Evicting active) (hwire : OnlyCloses wire)
      (hagree : Agree id parsed wire server pending none) :
      Stage D id server pending parsed active wire [.invalidated scope, .readyForQuery] none
  | confirmed (hD : D) {active wire scope} (hactive : Evicting active) (hwire : OnlyCloses wire)
      (hagree : Agree id parsed wire server pending none) :
      Stage D id server pending parsed active wire [.readyForQuery] (some scope)

/-- A name of the client, given to a text. -/
def Known (id : ι) (seq : Nat) (textOf : Nat → SqlText) (name : StatementName ι) (text : SqlText) : Prop :=
  name.client = id ∧ textOf name.seq = text ∧ name.seq < seq

/-- The names in the books of a client are its own, each for one text. -/
structure Named (id : ι) (c : StatementClient ι) (textOf : Nat → SqlText) : Prop where
  names : c.generator.Names textOf
  queue : ∀ name query, .named name query ∈ c.queue → Known id c.generator.seq textOf name query.text
  admitted : ∀ name query, c.admitted = some (.named name query) →
    Known id c.generator.seq textOf name query.text
  active : ∀ name query d f st, c.active = .query (.named name query) d f st →
    Known id c.generator.seq textOf name query.text
  closes : ∀ name ∈ c.pendingCloses, name.client = id
  wire : ∀ name, .close name ∈ c.wire → name.client = id
  parsed : ∀ name text, c.parsedStatements name = some text → Known id c.generator.seq textOf name text

structure Sound (D : Prop) (server : Statements ι) (pending : StatementName ι → Prop) (id : ι)
    (c : StatementClient ι) : Prop where
  named : ∃ textOf, Named id c textOf
  chain : ∀ submission d f st, c.active = .query submission d f st → st = false ∧ c.busy = true ∧ c.admitted = none
  admitted : c.admitted ≠ none → c.busy = true
  invalidations : ∀ scope, .invalidation scope ∈ c.queue ∨ c.admitted = some (.invalidation scope) → D
  evictions : c.evictions ≠ [] → D
  stage : Stage D id server pending c.parsedStatements c.active c.wire c.responses c.confirmed

/-- The name is in the scope of an invalidation whose eviction is to come. -/
def StatementClient.Unevicted (c : StatementClient ι) (name : StatementName ι) : Prop :=
  ∃ scope : StatementCacheInvalidation ι, scope.covers name = true ∧
    (.invalidated scope ∈ c.responses ∨ c.confirmed = some scope ∨ scope ∈ c.evictions)

variable {D : Prop} {id : ι} {c c' : StatementClient ι} {server server' : Statements ι}
  {pending pending' : StatementName ι → Prop} {parsed : Statements ι} {active : ActiveQuery ι}
  {wire : List (WireItem ι)} {responses : List (StatementResponse ι)}
  {confirmed : Option (StatementCacheInvalidation ι)} {name : StatementName ι} {parsing : Option (StatementName ι)}
  {pg : StockQuery} {messages : List (StatementMessage ι)} {fails : Option Nat} {columns : Bool}

omit [DecidableEq ι] in
private theorem PlainAnswers.not_invalidated (h : PlainAnswers responses) (scope : StatementCacheInvalidation ι) :
    .invalidated scope ∉ responses := by
  induction h with
  | ready => simp
  | error => simp
  | row _ ih => simp [ih]

omit [DecidableEq ι] in
private theorem PlainAnswers.not_parseComplete (h : PlainAnswers responses) : .parseComplete ∉ responses := by
  induction h with
  | ready => simp
  | error => simp
  | row _ ih => simp [ih]

/-- An eviction is to come only where invalidations occur. -/
theorem Sound.disturbed (h : Sound D server pending id c) (hname : c.Unevicted name) : D := by
  obtain ⟨scope, -, hscope⟩ := hname
  rcases hscope with hscope | hscope | hscope
  · have hstage := h.stage
    generalize c.active = active, c.wire = wire, c.responses = responses, c.confirmed = confirmed at hstage hscope
    cases hstage with
    | parsing hrest =>
      rcases List.mem_cons.mp hscope with hscope | hscope
      · cases hscope
      · exact absurd hscope (hrest.not_invalidated scope)
    | answering _ _ hresponses => exact absurd hscope (hresponses.not_invalidated scope)
    | invalidated hD => exact hD
    | confirmed hD => exact hD
    | _ => cases hscope
  · have hstage := h.stage
    generalize c.active = active, c.wire = wire, c.responses = responses, c.confirmed = confirmed at hstage hscope
    cases hstage with
    | confirmed hD => exact hD
    | _ => cases hscope
  · exact h.evictions (List.ne_nil_of_mem hscope)

/-! ### What other clients do to the server -/

/-- The statements of the client are the same, or invalidated. -/
def Outdates (id : ι) (server server' : Statements ι) (pending' : StatementName ι → Prop) : Prop :=
  ∀ name, name.client = id → server' name = server name ∨ (server' name = none ∧ pending' name)

omit [DecidableEq ι] in
private theorem Agree.mono (h : Agree id parsed wire server pending parsing)
    (hown : ∀ name text, parsed name = some text → name.client = id) (hserver : Outdates id server server' pending')
    (hpending : ∀ name, pending name → pending' name) : Agree id parsed wire server' pending' parsing where
  closing := h.closing
  recorded name text hentry := by
    rcases hserver name (hown name text hentry) with hs | hs
    · rw [hs]
      exact (h.recorded name text hentry).imp_right fun hp => ⟨hp.1, hpending name hp.2⟩
    · exact Or.inr hs
  stored name hid hne hclose hsome := by
    rcases hserver name hid with hs | hs
    · rw [hs] at hsome ⊢
      exact h.stored name hid hne hclose hsome
    · exact absurd hs.1 hsome

omit [DecidableEq ι] in
private theorem Stage.mono (h : Stage D id server pending parsed active wire responses confirmed)
    (hown : ∀ name text, parsed name = some text → name.client = id)
    (hactive : ∀ name query d f st, active = .query (.named name query) d f st → name.client = id)
    (hserver : Outdates id server server' pending') (hpending : ∀ name, pending name → pending' name) :
    Stage D id server' pending' parsed active wire responses confirmed := by
  cases h with
  | idle hwire hagree => exact .idle hwire (hagree.mono hown hserver hpending)
  | other hne hpre hpost hagree => exact .other hne hpre hpost (hagree.mono hown hserver hpending)
  | invalidating hD he hpre hpost hagree => exact .invalidating hD he hpre hpost (hagree.mono hown hserver hpending)
  | warm hpre hm hentry hagree => exact .warm hpre hm hentry (hagree.mono hown hserver hpending)
  | @cold name query _ _ _ hpre hm hentry hs hagree =>
    refine .cold hpre hm hentry ?_ (hagree.mono hown hserver hpending)
    rcases hserver name (hactive _ _ _ _ _ rfl) with he | he
    · rwa [he]
    · exact Or.inl he.1
  | @parsing name query _ _ hrest hentry hs hagree =>
    refine .parsing hrest hentry ?_ (hagree.mono hown hserver hpending)
    rcases hserver name (hactive _ _ _ _ _ rfl) with he | he
    · rw [he]
      exact hs.imp_right fun hp => ⟨hp.1, hpending name hp.2⟩
    · exact Or.inr he
  | answering hne hwire hr hagree => exact .answering hne hwire hr (hagree.mono hown hserver hpending)
  | invalidated hD he hwire hagree => exact .invalidated hD he hwire (hagree.mono hown hserver hpending)
  | confirmed hD he hwire hagree => exact .confirmed hD he hwire (hagree.mono hown hserver hpending)

omit [DecidableEq ι] in
theorem Sound.mono (h : Sound D server pending id c) (hserver : Outdates id server server' pending')
    (hpending : ∀ name, pending name → pending' name) : Sound D server' pending' id c := by
  obtain ⟨textOf, hnamed⟩ := h.named
  exact ⟨h.named, h.chain, h.admitted, h.invalidations, h.evictions,
    h.stage.mono (fun name text he => (hnamed.parsed name text he).1)
      (fun name query d f st he => (hnamed.active name query d f st he).1) hserver hpending⟩


/-! ### What the client itself does -/

/-- What the backend has still to say about invalidations stays the same. -/
theorem StatementClient.Unevicted.congr (h : c.Unevicted name) (hresponses : c'.responses = c.responses)
    (hconfirmed : c'.confirmed = c.confirmed) (hevictions : c'.evictions = c.evictions) : c'.Unevicted name := by
  obtain ⟨scope, hcovers, hscope⟩ := h
  rw [← hresponses, ← hconfirmed, ← hevictions] at hscope
  exact ⟨scope, hcovers, hscope⟩

omit [DecidableEq ι] in
private theorem Known.mono {seq seq' : Nat} {textOf textOf' : Nat → SqlText} {text : SqlText}
    (h : Known id seq textOf name text) (hseq : seq ≤ seq') (hsame : ∀ seq' < seq, textOf' seq' = textOf seq') :
    Known id seq' textOf' name text :=
  ⟨h.1, (hsame _ h.2.2).trans h.2.1, Nat.lt_of_lt_of_le h.2.2 hseq⟩

omit [DecidableEq ι] in
private theorem Named.call {textOf : Nat → SqlText} (h : Named id c textOf) (call : QueryCall ι) :
    ∃ textOf', Named id (c.call id call) textOf' := by
  cases call with
  | invalidation scope =>
    refine ⟨textOf, h.names, fun name query hmem => ?_, h.admitted, h.active, h.closes, h.wire, h.parsed⟩
    rcases List.mem_append.mp hmem with hmem | hmem
    · exact h.queue name query hmem
    · cases List.mem_singleton.mp hmem
  | sql query =>
    simp only [StatementClient.call]
    split
    · obtain ⟨textOf', hgives⟩ := NameGenerator.next_gives h.names query.text
      have hmono : ∀ {name text}, Known id c.generator.seq textOf name text →
          Known id (c.generator.next query.text).generator.seq textOf' name text := fun hk =>
        hk.mono hgives.seq hgives.same
      refine ⟨textOf', hgives.names, fun name query' hmem => ?_,
        fun name query' he => hmono (h.admitted name query' he),
        fun name query' d f st he => hmono (h.active name query' d f st he), fun name hmem => ?_, h.wire,
        fun name text he => hmono (h.parsed name text he)⟩
      · rcases List.mem_append.mp hmem with hmem | hmem
        · exact hmono (h.queue name query' hmem)
        · have hnew := List.mem_singleton.mp hmem
          split at hnew
          · rename_i seq hseq
            cases hnew
            obtain ⟨htext, hlt⟩ := hgives.name seq hseq
            exact ⟨rfl, htext, hlt⟩
          · cases hnew
      · rcases List.mem_append.mp hmem with hmem | hmem
        · exact h.closes name hmem
        · obtain ⟨seq, -, rfl⟩ := Option.map_eq_some_iff.mp (Option.mem_toList.mp hmem)
          rfl
    · refine ⟨textOf, h.names, fun name query' hmem => ?_, h.admitted, h.active, h.closes, h.wire, h.parsed⟩
      rcases List.mem_append.mp hmem with hmem | hmem
      · exact h.queue name query' hmem
      · cases List.mem_singleton.mp hmem

omit [DecidableEq ι] in
/-- A call joins the queue; the rest of the books, the generator and the evicted names apart, is left alone. -/
theorem call_frame (id : ι) (c : StatementClient ι) (call : QueryCall ι) :
    ∃ generator pendingCloses submission, c.call id call =
        { c with generator, pendingCloses, queue := c.queue ++ [submission] } ∧
      (∀ scope, submission = .invalidation scope → call = .invalidation scope) := by
  cases call with
  | invalidation scope => exact ⟨_, _, _, rfl, fun scope' he => by cases he; rfl⟩
  | sql query =>
    simp only [StatementClient.call]
    split
    · refine ⟨_, _, _, rfl, fun scope he => ?_⟩
      split at he <;> cases he
    · exact ⟨c.generator, c.pendingCloses, _, rfl, fun scope he => by cases he⟩

omit [DecidableEq ι] in
theorem Sound.call (h : Sound D server pending id c) {call : QueryCall ι}
    (hcall : ∀ scope, call = .invalidation scope → D) :
    Sound D server pending id (c.call id call) := by
  obtain ⟨textOf, hnamed⟩ := h.named
  have hnamed' := hnamed.call call
  obtain ⟨generator, pendingCloses, submission, he, hsub⟩ := call_frame id c call
  rw [he] at hnamed' ⊢
  refine ⟨hnamed', h.chain, h.admitted, fun scope hscope => ?_, h.evictions, h.stage⟩
  rcases hscope with hscope | hscope
  · rcases List.mem_append.mp hscope with hscope | hscope
    · exact h.invalidations scope (Or.inl hscope)
    · exact hcall scope (hsub scope (List.mem_singleton.mp hscope).symm)
  · exact h.invalidations scope (Or.inr hscope)

omit [DecidableEq ι] in
private theorem OnlyCloses.append (h : OnlyCloses wire) (names : List (StatementName ι)) :
    OnlyCloses (wire ++ names.map .close) := by
  intro item hitem
  rcases List.mem_append.mp hitem with hitem | hitem
  · exact h item hitem
  · obtain ⟨name, -, rfl⟩ := List.mem_map.mp hitem
    exact ⟨name, rfl⟩

/-- The evicted names are closed and forgotten. -/
private theorem Agree.flush (h : Agree id parsed wire server pending parsing) (names : List (StatementName ι)) :
    Agree id (fun name => if name ∈ names then none else parsed name) (wire ++ names.map .close) server pending
      parsing where
  closing name hclose := by
    split
    · rfl
    · rename_i hname
      rcases List.mem_append.mp hclose with hclose | hclose
      · exact h.closing name hclose
      · obtain ⟨name', hmem, he⟩ := List.mem_map.mp hclose
        cases he
        exact absurd hmem hname
  recorded name text hentry := by
    split at hentry
    · cases hentry
    · exact h.recorded name text hentry
  stored name hid hne hclose hsome := by
    rw [List.mem_append, not_or] at hclose
    have hname : name ∉ names := fun hmem => hclose.2 (List.mem_map_of_mem hmem)
    rw [if_neg hname]
    exact h.stored name hid hne hclose.1 hsome

private theorem Stage.flush (h : Stage D id server pending parsed active wire responses confirmed)
    (hactive : ∀ submission d f st, active ≠ .query submission d f st) (names : List (StatementName ι)) :
    Stage D id server pending (fun name => if name ∈ names then none else parsed name) active
      (wire ++ names.map .close) responses confirmed := by
  cases h with
  | idle hwire hagree => exact .idle (hwire.append names) (hagree.flush names)
  | other hne hpre hpost hagree =>
    have hagree' := hagree.flush names
    rw [List.append_assoc, List.cons_append] at hagree' ⊢
    exact .other hne hpre (hpost.append names) hagree'
  | invalidating hD he hpre hpost hagree =>
    have hagree' := hagree.flush names
    rw [List.append_assoc, List.cons_append] at hagree' ⊢
    exact .invalidating hD he hpre (hpost.append names) hagree'
  | warm => exact absurd rfl (hactive _ _ _ _)
  | cold => exact absurd rfl (hactive _ _ _ _)
  | parsing => exact absurd rfl (hactive _ _ _ _)
  | answering hne hwire hr hagree => exact .answering hne (hwire.append names) hr (hagree.flush names)
  | invalidated hD he hwire hagree => exact .invalidated hD he (hwire.append names) (hagree.flush names)
  | confirmed hD he hwire hagree => exact .confirmed hD he (hwire.append names) (hagree.flush names)

theorem Sound.execute (h : Sound D server pending id c) (hc : c.execute = some c') : Sound D server pending id c' := by
  simp only [StatementClient.execute] at hc
  split at hc
  · rename_i submission queue hbusy hqueue
    cases hc
    have hquery : ∀ submission d f st, c.active ≠ .query submission d f st := fun _ _ _ _ he => by
      rw [(h.chain _ _ _ _ he).2.1] at hbusy
      cases hbusy
    obtain ⟨textOf, hn⟩ := h.named
    refine ⟨⟨textOf, hn.names, fun name query hmem => ?_, fun name query he => ?_, hn.active,
      (fun _ hmem => by cases hmem), fun name hmem => ?_, fun name text he => ?_⟩,
      fun _ _ _ _ he => absurd he (hquery _ _ _ _), fun _ => rfl,
      fun scope hscope => ?_, h.evictions, h.stage.flush hquery c.pendingCloses⟩
    · exact hn.queue name query (hqueue ▸ List.mem_cons_of_mem _ hmem)
    · cases he
      exact hn.queue name query (hqueue ▸ List.mem_cons_self)
    · rcases List.mem_append.mp hmem with hmem | hmem
      · exact hn.wire name hmem
      · obtain ⟨name', hmem', he⟩ := List.mem_map.mp hmem
        cases he
        exact hn.closes name hmem'
    · simp only [StatementClient.flushPendingCloses] at he
      split at he
      · cases he
      · exact hn.parsed name text he
    · refine h.invalidations scope (Or.inl ?_)
      rw [hqueue]
      rcases hscope with hscope | hscope
      · exact List.mem_cons_of_mem _ hscope
      · cases hscope
        exact List.mem_cons_self
  · cases hc

omit [DecidableEq ι] in
theorem Sound.expire (h : Sound D server pending id c) (hc : c.expire = some c') : Sound D server pending id c' := by
  simp only [StatementClient.expire] at hc
  split at hc
  · rename_i submission queue hbusy hqueue
    cases hc
    obtain ⟨textOf, hn⟩ := h.named
    have hmem : ∀ {sub}, sub ∈ queue → sub ∈ c.queue := fun hmem => hqueue ▸ List.mem_cons_of_mem _ hmem
    exact ⟨⟨textOf, hn.names, fun name query hq => hn.queue name query (hmem hq), hn.admitted, hn.active, hn.closes,
      hn.wire, hn.parsed⟩, h.chain, h.admitted, fun scope hscope => h.invalidations scope (hscope.imp_left hmem),
      h.evictions, h.stage⟩
  · cases hc

omit [DecidableEq ι] in
theorem onlyCloses_nil : OnlyCloses ([] : List (WireItem ι)) := fun _ hmem => by cases hmem

omit [DecidableEq ι] in
/-- What a query writes closes nothing. -/
private theorem Agree.train (h : Agree id parsed wire server pending none) (messages : List (StatementMessage ι))
    (parsing : Option (StatementName ι)) :
    Agree id parsed (wire ++ [.train messages]) server pending parsing where
  closing name hclose := h.closing name (by simpa using hclose)
  recorded := h.recorded
  stored name hid _ hnot hsome :=
    h.stored name hid (fun he => by cases he) (fun hclose => hnot (List.mem_append_left _ hclose)) hsome

/-- A query that pg writes: Parse is skipped when its entry says so. -/
private theorem Stage.written (hwire : OnlyCloses wire) (hagree : Agree id parsed wire server pending none)
    {query : SqlQuery}
    {messages : List (StatementMessage ι)} {describeSent : Bool} (hid : name.client = id)
    (hm : BindTail name query.text messages)
    (hprevious : parsed name = none ∨ parsed name = some query.text) :
    Stage D id server pending parsed (.query (.named name query) describeSent false false)
      (wire ++ [.train ((if parsed name ≠ some query.text then [.parse name query.text] else []) ++ messages)]) []
      none := by
  rcases hprevious with hprevious | hprevious
  · rw [if_pos (by rw [hprevious]; exact fun he => by cases he)]
    refine .cold hwire hm hprevious ?_ (hagree.train _ _)
    by_cases hmem : .close name ∈ wire
    · exact Or.inr hmem
    · left
      by_contra hsome
      rw [← hagree.stored name hid (fun he => by cases he) hmem hsome] at hsome
      exact hsome hprevious
  · rw [if_neg (not_not_intro hprevious), List.nil_append]
    exact .warm hwire hm (fun _ => hprevious) (hagree.train _ _)

omit [DecidableEq ι] in
/-- Before pg writes, nothing is under way. -/
theorem Sound.idle (h : Sound D server pending id c) (hactive : c.active = .none) :
    OnlyCloses c.wire ∧ Agree id c.parsedStatements c.wire server pending none ∧ c.responses = [] ∧
      c.confirmed = none := by
  have hstage := h.stage
  rw [hactive] at hstage
  generalize c.wire = wire, c.responses = responses, c.confirmed = confirmed at hstage ⊢
  cases hstage with
  | idle hwire hagree => exact ⟨hwire, hagree, rfl, rfl⟩
  | other hne => exact absurd rfl hne
  | invalidating _ he => rcases he with ⟨_, _, _, he⟩ | he <;> cases he
  | answering hne => exact absurd rfl hne
  | invalidated _ he => rcases he with ⟨_, _, _, he⟩ | he <;> cases he
  | confirmed _ he => rcases he with ⟨_, _, _, he⟩ | he <;> cases he

omit [DecidableEq ι] in
/-- The entry of a name that the client gave to a text. -/
private theorem Named.previous {textOf : Nat → SqlText} (h : Named id c textOf) {text : SqlText}
    (hk : Known id c.generator.seq textOf name text) :
    c.parsedStatements name = none ∨ c.parsedStatements name = some text := by
  cases hentry : c.parsedStatements name with
  | none => exact Or.inl rfl
  | some text' =>
    right
    rw [← hk.2.1, (h.parsed name text' hentry).2.1]

omit [DecidableEq ι] in
/-- What `FastQuery` writes is a Parse, if it is needed, and what belongs behind it. -/
private theorem fastSubmit_eq {query : SqlQuery} {messages : List (StatementMessage ι)} {describeSent : Bool}
    (h : c.fastSubmit name query = some (messages, describeSent)) :
    ∃ tail, BindTail name query.text tail ∧
      messages = (if c.parsedStatements name ≠ some query.text then [.parse name query.text] else []) ++ tail := by
  simp only [StatementClient.fastSubmit] at h
  split at h
  · cases h
  · split at h
    · cases h
      exact ⟨_, Or.inl rfl, rfl⟩
    · split at h
      · cases h
        exact ⟨_, Or.inr (Or.inl rfl), rfl⟩
      · split at h
        · cases h
          exact ⟨_, Or.inr (Or.inr (Or.inl rfl)), rfl⟩
        · cases h
          exact ⟨_, Or.inr (Or.inr (Or.inr rfl)), rfl⟩

omit [DecidableEq ι] in
/-- The same of stock pg when no value throws. -/
private theorem prepare_eq (hpg : pg.Prepares) {query : SqlQuery} {messages : List (StatementMessage ι)}
    (hprevious : c.parsedStatements name = none ∨ c.parsedStatements name = some query.text)
    (h : pg.prepare (c.parsedStatements name) false name query.text = some messages) :
    messages = (if c.parsedStatements name ≠ some query.text then [.parse name query.text] else []) ++
      [.bind name query.text, .describe, .execute, .sync] := by
  rcases hprevious with hprevious | hprevious <;> rw [hprevious] at h ⊢
  · rw [hpg.cold] at h
    cases h
    rw [if_pos (fun he => by cases he)]
    rfl
  · rw [hpg.warm] at h
    cases h
    rw [if_neg (not_not_intro rfl)]
    rfl

/-- Stock pg writes no named query whose value does not serialise. -/
def StatementClient.Serialises (c : StatementClient ι) : Prop :=
  ∀ name query, c.admitted = some (.named name query) → query.invalid = false → query.fast = false →
    query.bindThrows = false

omit [DecidableEq ι] in
/-- pg gives up on the query it has in its queue. -/
private theorem Sound.refuse (h : Sound D server pending id c) (hactive : c.active = .none) :
    Sound D server pending id { c with admitted := none, busy := false } := by
  obtain ⟨textOf, hn⟩ := h.named
  exact ⟨⟨textOf, hn.names, hn.queue, fun _ _ he => (by cases he), hn.active, hn.closes, hn.wire, hn.parsed⟩,
    fun _ _ _ _ he => (by rw [show c.active = _ from he] at hactive; cases hactive), fun he => absurd rfl he,
    fun scope hscope => h.invalidations scope (hscope.imp_right fun he => by cases he), h.evictions, h.stage⟩

omit [DecidableEq ι] in
/-- pg writes the query it has in its queue. -/
private theorem Sound.write (h : Sound D server pending id c) {submission : StatementSubmission ι}
    (hadmitted : c.admitted = some submission) {messages : List (StatementMessage ι)} {describeSent : Bool}
    (hstage : Stage D id server pending c.parsedStatements (.query submission describeSent false false)
      (c.wire ++ [.train messages]) c.responses c.confirmed) :
    Sound D server pending id { c with
      admitted := none
      wire := c.wire ++ [.train messages]
      active := .query submission describeSent false false
      busy := true } := by
  obtain ⟨textOf, hn⟩ := h.named
  refine ⟨⟨textOf, hn.names, hn.queue, fun _ _ he => (by cases he), fun name query d f st he => ?_, hn.closes,
    fun name hmem => ?_, hn.parsed⟩, fun _ d f st he => ?_, fun he => absurd rfl he,
    fun scope hscope => h.invalidations scope (hscope.imp_right fun he => by cases he), h.evictions, hstage⟩
  · cases he
    exact hn.admitted name query hadmitted
  · rcases List.mem_append.mp hmem with hmem | hmem
    · exact hn.wire name hmem
    · cases List.mem_singleton.mp hmem
  · cases he
    exact ⟨rfl, rfl, rfl⟩

theorem Sound.pulse (h : Sound D server pending id c) (hpg : pg.Prepares) (hser : c.Serialises)
    (hc : c.pulse pg = some c') : Sound D server pending id c' := by
  simp only [StatementClient.pulse] at hc
  split at hc
  · rename_i submission hactive hadmitted
    obtain ⟨hwire, hagree, hresponses, hconfirmed⟩ := h.idle hactive
    obtain ⟨textOf, hn⟩ := h.named
    -- the messages of a named query
    have hnamed : ∀ {name query messages tail describeSent}, c.admitted = some (.named name query) →
        BindTail name query.text tail →
        messages = (if c.parsedStatements name ≠ some query.text then [.parse name query.text] else []) ++ tail →
        Stage D id server pending c.parsedStatements (.query (.named name query) describeSent false false)
          (c.wire ++ [.train messages]) c.responses c.confirmed := by
      intro name query messages tail describeSent he hm hmessages
      have hk := hn.admitted name query he
      rw [hmessages, hresponses, hconfirmed]
      exact Stage.written hwire hagree hk.1 hm (hn.previous hk)
    cases submission with
    | unnamed query =>
      dsimp only at hc
      split at hc
      · cases hc
        exact h.refuse hactive
      · cases hc
        refine h.write hadmitted ?_
        rw [hresponses, hconfirmed]
        exact .other (fun he => by cases he) hwire onlyCloses_nil (hagree.train _ _)
    | invalidation scope =>
      cases hc
      refine h.write hadmitted ?_
      rw [hresponses, hconfirmed]
      exact .invalidating (h.invalidations scope (Or.inr hadmitted)) (Or.inl ⟨_, _, _, rfl⟩) hwire onlyCloses_nil
        (hagree.train _ _)
    | named name query =>
      dsimp only at hc
      split at hc
      · cases hc
        exact h.refuse hactive
      · rename_i hinvalid
        split at hc
        · split at hc
          · cases hc
            exact h.refuse hactive
          · rename_i messages describeSent hfast
            cases hc
            obtain ⟨tail, hm, hmessages⟩ := fastSubmit_eq hfast
            exact h.write hadmitted (hnamed hadmitted hm hmessages)
        · rename_i hfast
          have hthrows : query.bindThrows = false :=
            hser name query hadmitted (by simpa using hinvalid) (by simpa using hfast)
          rw [hthrows] at hc
          split at hc
          · cases hc
            exact h.refuse hactive
          · rename_i messages hprepare
            cases hc
            exact h.write hadmitted (hnamed hadmitted (Or.inr (Or.inr (Or.inr rfl)))
              (prepare_eq hpg (hn.previous (hn.admitted name query hadmitted)) hprepare))
  · cases hc

omit [DecidableEq ι] in
theorem Sound.pulseSubmittable (h : Sound D server pending id c) {scope : Option (StatementCacheInvalidation ι)}
    {armed : Bool} (hscope : scope ≠ none → D ∧ armed = true) (hc : c.pulseSubmittable scope armed = some c') :
    Sound D server pending id c' := by
  simp only [StatementClient.pulseSubmittable] at hc
  split at hc
  · rename_i hactive
    cases hc
    obtain ⟨hwire, hagree, hresponses, hconfirmed⟩ := h.idle hactive
    obtain ⟨textOf, hn⟩ := h.named
    refine ⟨⟨textOf, hn.names, hn.queue, hn.admitted, (fun _ _ _ _ _ he => by cases he), hn.closes, fun name hmem => ?_,
      hn.parsed⟩, (fun _ _ _ _ he => by cases he), h.admitted, h.invalidations, h.evictions, ?_⟩
    · rcases List.mem_append.mp hmem with hmem | hmem
      · exact hn.wire name hmem
      · cases List.mem_singleton.mp hmem
    · show Stage D id server pending c.parsedStatements (.submittable armed) _ c.responses c.confirmed
      rw [hresponses, hconfirmed]
      cases scope with
      | none => exact .other (fun he => by cases he) hwire onlyCloses_nil (hagree.train _ _)
      | some scope =>
        obtain ⟨hD, rfl⟩ := hscope (fun he => by cases he)
        exact .invalidating hD (Or.inr rfl) hwire onlyCloses_nil (hagree.train _ _)
  · cases hc

/-! ### What the backend answers -/

omit [DecidableEq ι] in
private theorem OnlyCloses.tail {item : WireItem ι} (h : OnlyCloses (item :: wire)) : OnlyCloses wire :=
  fun _ hmem => h _ (List.mem_cons_of_mem _ hmem)

omit [DecidableEq ι] in
private theorem OnlyCloses.not_train (h : OnlyCloses wire) (messages : List (StatementMessage ι)) :
    .train messages ∉ wire := by
  intro hmem
  obtain ⟨name, he⟩ := h _ hmem
  cases he

omit [DecidableEq ι] in
/-- A Close in front belongs to the names closed before the query. -/
private theorem OnlyCloses.of_close {pre post : List (WireItem ι)} {messages : List (StatementMessage ι)}
    (hpre : OnlyCloses pre) (h : .close name :: wire = pre ++ .train messages :: post) :
    ∃ pre', pre = .close name :: pre' ∧ OnlyCloses pre' ∧ wire = pre' ++ .train messages :: post := by
  rcases List.cons_eq_append_iff.mp h with ⟨_, he⟩ | ⟨pre', rfl, he⟩
  · cases he
  · exact ⟨pre', rfl, hpre.tail, he⟩

omit [DecidableEq ι] in
private theorem OnlyCloses.of_train {pre post : List (WireItem ι)} {messages messages' : List (StatementMessage ι)}
    (hpre : OnlyCloses pre) (h : .train messages' :: wire = pre ++ .train messages :: post) :
    pre = [] ∧ messages' = messages ∧ wire = post := by
  rcases List.cons_eq_append_iff.mp h with ⟨rfl, he⟩ | ⟨pre', rfl, _⟩
  · cases he
    exact ⟨rfl, rfl, rfl⟩
  · obtain ⟨_, he⟩ := hpre _ List.mem_cons_self
    cases he

private theorem Agree.serveClose (h : Agree id parsed (.close name :: wire) server pending parsing) :
    Agree id parsed wire (Function.update server name none) pending parsing where
  closing name' hclose := h.closing name' (List.mem_cons_of_mem _ hclose)
  recorded name' text hentry := by
    have hne : name' ≠ name := fun he => by
      rw [he, h.closing name List.mem_cons_self] at hentry
      cases hentry
    rw [Function.update_of_ne hne]
    exact h.recorded name' text hentry
  stored name' hid hne hclose hsome := by
    by_cases he : name' = name
    · rw [he, Function.update_self] at hsome
      exact absurd rfl hsome
    · rw [Function.update_of_ne he] at hsome ⊢
      refine h.stored name' hid hne (fun hmem => ?_) hsome
      rcases List.mem_cons.mp hmem with hmem | hmem
      · cases hmem
        exact he rfl
      · exact hclose hmem

private theorem Stage.serveClose
    (h : Stage D id server pending parsed active (.close name :: wire) responses confirmed) :
    Stage D id (Function.update server name none) pending parsed active wire responses confirmed := by
  generalize hw : WireItem.close name :: wire = wire' at h
  cases h with
  | idle hwire hagree =>
    subst hw
    exact .idle hwire.tail hagree.serveClose
  | other hne hpre hpost hagree =>
    obtain ⟨pre', rfl, hpre', rfl⟩ := hpre.of_close hw
    exact .other hne hpre' hpost hagree.serveClose
  | invalidating hD he hpre hpost hagree =>
    obtain ⟨pre', rfl, hpre', rfl⟩ := hpre.of_close hw
    exact .invalidating hD he hpre' hpost hagree.serveClose
  | warm hpre hm hentry hagree =>
    obtain ⟨pre', rfl, hpre', rfl⟩ := hpre.of_close hw
    exact .warm hpre' hm hentry hagree.serveClose
  | @cold name' _ _ _ _ hpre hm hentry hs hagree =>
    obtain ⟨pre', rfl, hpre', rfl⟩ := hpre.of_close hw
    refine .cold hpre' hm hentry ?_ hagree.serveClose
    by_cases he : name' = name
    · exact Or.inl (by rw [he, Function.update_self])
    · rw [Function.update_of_ne he]
      refine hs.imp_right fun hmem => ?_
      rcases List.mem_cons.mp hmem with hmem | hmem
      · cases hmem
        exact absurd rfl he
      · exact hmem
  | parsing => cases hw
  | answering hne hwire hr hagree =>
    subst hw
    exact .answering hne hwire.tail hr hagree.serveClose
  | invalidated hD he hwire hagree =>
    subst hw
    exact .invalidated hD he hwire.tail hagree.serveClose
  | confirmed hD he hwire hagree =>
    subst hw
    exact .confirmed hD he hwire.tail hagree.serveClose

theorem Sound.serveClose (h : Sound D server pending id c) (hw : c.wire = .close name :: wire) :
    Sound D (Function.update server name none) pending id { c with wire } := by
  obtain ⟨textOf, hn⟩ := h.named
  have hstage := h.stage
  rw [hw] at hstage
  exact ⟨⟨textOf, hn.names, hn.queue, hn.admitted, hn.active, hn.closes,
    fun name hmem => hn.wire name (hw ▸ List.mem_cons_of_mem _ hmem), hn.parsed⟩, h.chain, h.admitted, h.invalidations,
    h.evictions, hstage.serveClose⟩

/-- The backend has executed the messages of a query: other clients find their statements as they were, or
invalidated. -/
structure Served (D : Prop) (id : ι) (server : Statements ι) (pending : StatementName ι → Prop) (parsed : Statements ι)
    (active : ActiveQuery ι) (wire : List (WireItem ι)) (effect : MessageEffect ι) : Prop where
  stage : Stage D id effect.server pending parsed active wire effect.responses none
  others : ∀ name, name.client ≠ id → effect.server name = server name ∨
    (effect.server name = none ∧ ∃ scope, scope.covers name = true ∧ .invalidated scope ∈ effect.responses)
  safe : ¬ D → effect.violations = []

omit [DecidableEq ι] in
private theorem Agree.server_eq (h : Agree id parsed wire server pending parsing) (hs : server' = server) :
    Agree id parsed wire server' pending parsing := hs ▸ h

omit [DecidableEq ι] in
private theorem Agree.served (h : Agree id parsed (.train messages :: wire) server pending parsing) :
    Agree id parsed wire server pending parsing where
  closing name hclose := h.closing name (List.mem_cons_of_mem _ hclose)
  recorded := h.recorded
  stored name hid hne hclose hsome := h.stored name hid hne (by simpa using hclose) hsome

omit [DecidableEq ι] in
private theorem Agree.weaken (h : Agree id parsed wire server pending parsing)
    (hpending : ∀ name, pending name → pending' name) :
    Agree id parsed wire server pending' parsing where
  closing := h.closing
  recorded name text he := (h.recorded name text he).imp_right fun hp => ⟨hp.1, hpending name hp.2⟩
  stored := h.stored

/-- An invalidation has been executed. -/
private theorem Agree.invalidate (h : Agree id parsed wire server pending none) (scope : StatementCacheInvalidation ι)
    (hpending : ∀ name, scope.covers name = true → pending name) :
    Agree id parsed wire (fun name => if scope.covers name then none else server name) pending none where
  closing := h.closing
  recorded name text hentry := by
    split
    · rename_i hcovers
      exact Or.inr ⟨rfl, hpending name hcovers⟩
    · exact h.recorded name text hentry
  stored name hid hne hclose hsome := by
    split at hsome
    · exact absurd rfl hsome
    · rename_i hcovers
      rw [if_neg hcovers]
      exact h.stored name hid hne hclose hsome

/-- The messages behind a skipped Parse. -/
private theorem Agree.serveWarm (h : Agree id parsed [.train messages] server pending none) {query : SqlQuery}
    (hid : name.client = id) (hm : BindTail name query.text messages)
    (hprevious : parsed name = none ∨ parsed name = some query.text) (hentry : ¬ D → parsed name = some query.text)
    (hpending : ∀ name, pending name → D) (hmore : ∀ name, pending name → pending' name) (hactive : active ≠ .none) :
    Served D id server pending' parsed active [] (execTrain columns server messages fails) := by
  cases hs : server name with
  | some text =>
    have htext : parsed name = some text := by
      rw [h.stored name hid (fun he => by cases he) (by simp) (by rw [hs]; exact fun he => by cases he), hs]
    have hsame : server name = some query.text := by
      rcases hprevious with hprevious | hprevious
      · rw [hprevious] at htext
        cases htext
      · rw [hs, ← htext, hprevious]
    have hun : Undisturbed columns server messages := undisturbed_stored hm hsame
    obtain ⟨hserver, hresponses, hviolations⟩ := hun fails
    exact ⟨.answering hactive onlyCloses_nil hresponses ((h.served.weaken hmore).server_eq hserver),
      fun name _ => Or.inl (by rw [hserver]), fun _ => hviolations⟩
  | none =>
    obtain ⟨hserver, hresponses⟩ := execTrain_lost columns fails hm hs
    refine ⟨.answering hactive onlyCloses_nil hresponses ((h.served.weaken hmore).server_eq hserver),
      fun name _ => Or.inl (by rw [hserver]), fun hD => ?_⟩
    rcases h.recorded name _ (hentry hD) with he | he
    · rw [hs] at he
      cases he
    · exact absurd (hpending name he.2) hD

/-- A Parse and the messages behind it. -/
private theorem Agree.serveCold {query : SqlQuery}
    (h : Agree id parsed [.train (.parse name query.text :: messages)] server pending (some name))
    (hid : name.client = id) (hm : BindTail name query.text messages) (hentry : parsed name = none)
    (hs : server name = none) {describeSent : Bool} :
    Served D id server pending parsed (.query (.named name query) describeSent false false) []
      (execTrain columns server (.parse name query.text :: messages) fails) := by
  obtain ⟨hviolations, hcase⟩ := execTrain_parse columns fails hm hs
  rcases hcase with ⟨hserver, hresponses⟩ | ⟨hserver, rest, hrest, hresponses⟩
  · refine ⟨?_, fun name _ => Or.inl (by rw [hserver]), fun _ => hviolations⟩
    rw [hserver, hresponses]
    refine .answering (fun he => by cases he) onlyCloses_nil .error
      { closing := fun _ hclose => (by cases hclose)
        recorded := h.recorded
        stored := fun name' hid' _ _ hsome => h.stored name' hid' (fun he => ?_) (by simp) hsome }
    cases he
    exact hsome hs
  · have hother : ∀ {name'}, name' ≠ name → Function.update server name (some query.text) name' = server name' :=
      fun hne => Function.update_of_ne hne ..
    refine ⟨?_, fun name' hne => Or.inl ?_, fun _ => hviolations⟩
    · rw [hserver, hresponses]
      refine .parsing hrest hentry (Or.inl (Function.update_self ..))
        { closing := fun _ hclose => (by cases hclose)
          recorded := fun name' text he => ?_
          stored := fun name' hid' hne _ hsome => ?_ }
      · rw [hother fun he' => by rw [he', hentry] at he; cases he]
        exact h.recorded name' text he
      · have hne' : name' ≠ name := fun he => hne (by rw [he])
        rw [hother hne'] at hsome ⊢
        exact h.stored name' hid' hne (by simp) hsome
    · rw [hserver, hother fun he => hne (by rw [he, hid])]

theorem Sound.serveTrain (h : Sound D server pending id c) (hw : c.wire = .train messages :: wire)
    (hpending : ∀ name, pending name → D) (hmore : ∀ name, pending name → pending' name)
    (hscope : ∀ scope name, .invalidated scope ∈ (execTrain columns server messages fails).responses →
      scope.covers name = true → pending' name) :
    c.responses = [] ∧ c.confirmed = none ∧
      Served D id server pending' c.parsedStatements c.active wire (execTrain columns server messages fails) := by
  obtain ⟨textOf, hn⟩ := h.named
  have hactive : ∀ name query d f st, c.active = .query (.named name query) d f st → name.client = id ∧
      (c.parsedStatements name = none ∨ c.parsedStatements name = some query.text) := fun name query d f st he =>
    ⟨(hn.active name query d f st he).1, hn.previous (hn.active name query d f st he)⟩
  have hstage := h.stage
  rw [hw] at hstage
  generalize c.active = active, c.responses = responses, c.confirmed = confirmed at hstage hactive ⊢
  generalize hwire : WireItem.train messages :: wire = wire' at hstage
  have hmem : .train messages ∈ wire' := hwire ▸ List.mem_cons_self
  cases hstage with
  | idle hclose => exact absurd hmem (hclose.not_train _)
  | other hne hpre hpost hagree =>
    obtain ⟨rfl, rfl, rfl⟩ := hpre.of_train hwire
    have hun : Undisturbed columns server [.other, .sync] := undisturbed_other
    obtain ⟨hserver, hresponses, hviolations⟩ := hun fails
    exact ⟨rfl, rfl, .answering hne hpost hresponses ((hagree.served.weaken hmore).server_eq hserver),
      fun name _ => Or.inl (by rw [hserver]), fun _ => hviolations⟩
  | @invalidating hD _ _ _ scope he hpre hpost hagree =>
    obtain ⟨rfl, rfl, rfl⟩ := hpre.of_train hwire
    obtain ⟨hviolations, hcase⟩ := execTrain_invalidate server columns fails scope
    rcases hcase with ⟨hserver, hresponses⟩ | ⟨hserver, hresponses⟩
    · refine ⟨rfl, rfl, ?_, fun name _ => Or.inl (by rw [hserver]), fun _ => hviolations⟩
      rw [hserver, hresponses]
      refine .answering (fun he' => ?_) hpost .error (hagree.served.weaken hmore)
      rcases he with ⟨_, _, _, he⟩ | he <;> rw [he'] at he <;> cases he
    · rw [hresponses] at hscope
      refine ⟨rfl, rfl, ?_, fun name _ => ?_, fun _ => hviolations⟩
      · rw [hserver, hresponses]
        exact .invalidated hD he hpost ((hagree.served.weaken hmore).invalidate scope fun name =>
          hscope scope name List.mem_cons_self)
      · rw [hserver, hresponses]
        by_cases hcovers : scope.covers name = true
        · exact Or.inr ⟨if_pos hcovers, scope, hcovers, List.mem_cons_self⟩
        · exact Or.inl (if_neg hcovers)
  | warm hpre hm hentry hagree =>
    obtain ⟨rfl, rfl, rfl⟩ := hpre.of_train hwire
    obtain ⟨hid, hprevious⟩ := hactive _ _ _ _ _ rfl
    exact ⟨rfl, rfl, hagree.serveWarm hid hm hprevious hentry hpending hmore fun he => by cases he⟩
  | cold hpre hm hentry hs hagree =>
    obtain ⟨rfl, rfl, rfl⟩ := hpre.of_train hwire
    obtain ⟨hid, -⟩ := hactive _ _ _ _ _ rfl
    exact ⟨rfl, rfl, (hagree.weaken hmore).serveCold hid hm hentry (hs.resolve_right fun hmem => by cases hmem)⟩
  | parsing => cases hmem
  | answering _ hclose => exact absurd hmem (hclose.not_train _)
  | invalidated _ _ hclose => exact absurd hmem (hclose.not_train _)
  | confirmed _ _ hclose => exact absurd hmem (hclose.not_train _)

/-! ### What pg learns -/

/-- pg processes an answer: the queues and the wire stay, the active query is the same one or gone, its name may be
recorded. -/
structure Advances (c c' : StatementClient ι) : Prop where
  generator : c'.generator = c.generator
  queue : c'.queue = c.queue
  admitted : c'.admitted = c.admitted
  pendingCloses : c'.pendingCloses = c.pendingCloses
  wire : c'.wire = c.wire
  active : ∀ submission d f st, c'.active = .query submission d f st →
    c'.busy = c.busy ∧ ∃ f, c.active = .query submission d f st
  busy : c'.busy = c.busy ∨ ∃ submission d f st, c.active = .query submission d f st
  parsed : ∀ name text, c'.parsedStatements name = some text → c.parsedStatements name = some text ∨
    ∃ query d f st, c.active = .query (.named name query) d f st ∧ query.text = text

omit [DecidableEq ι] in
private theorem Sound.advance (h : Sound D server pending id c) (hc : Advances c c')
    (hevictions : c'.evictions ≠ [] → D)
    (hstage : Stage D id server pending c'.parsedStatements c'.active c'.wire c'.responses c'.confirmed) :
    Sound D server pending id c' := by
  obtain ⟨textOf, hn⟩ := h.named
  refine ⟨⟨textOf, ?_, ?_, ?_, ?_, ?_, ?_, ?_⟩, ?_, ?_, ?_, hevictions, hstage⟩
  · exact hc.generator ▸ hn.names
  · rw [hc.queue, hc.generator]
    exact hn.queue
  · rw [hc.admitted, hc.generator]
    exact hn.admitted
  · intro name query d f st he
    obtain ⟨-, f', he'⟩ := hc.active _ _ _ _ he
    rw [hc.generator]
    exact hn.active name query d f' st he'
  · exact hc.pendingCloses ▸ hn.closes
  · exact hc.wire ▸ hn.wire
  · intro name text he
    rw [hc.generator]
    rcases hc.parsed name text he with he' | ⟨query, d, f, st, hactive, rfl⟩
    · exact hn.parsed name text he'
    · exact hn.active name query d f st hactive
  · intro submission d f st he
    obtain ⟨hbusy, f', he'⟩ := hc.active _ _ _ _ he
    rw [hbusy, hc.admitted]
    exact h.chain _ _ _ _ he'
  · rw [hc.admitted]
    intro hne
    rcases hc.busy with hbusy | ⟨submission, d, f, st, he⟩
    · rw [hbusy]
      exact h.admitted hne
    · exact absurd (h.chain _ _ _ _ he).2.2 hne
  · rw [hc.queue, hc.admitted]
    exact h.invalidations

/-- The answers leave the wire, the queues and the entries of other names alone. -/
private theorem receive_advances (c : StatementClient ι) (responses : List (StatementResponse ι))
    (response : StatementResponse ι) :
    Advances c ({ c with responses }.receive response) := by
  have hrefl : ∀ {c' : StatementClient ι}, c'.generator = c.generator → c'.queue = c.queue → c'.admitted = c.admitted →
      c'.pendingCloses = c.pendingCloses → c'.wire = c.wire → c'.parsedStatements = c.parsedStatements →
      (∀ submission d f st, c'.active = .query submission d f st →
        c'.busy = c.busy ∧ ∃ f, c.active = .query submission d f st) →
      (c'.busy = c.busy ∨ ∃ submission d f st, c.active = .query submission d f st) → Advances c c' :=
    fun hg hq ha hp hw hparsed hactive hbusy =>
      ⟨hg, hq, ha, hp, hw, hactive, hbusy, fun name text he => Or.inl (by rwa [← hparsed])⟩
  have hsame : ∀ {c' : StatementClient ι}, c'.active = c.active → c'.busy = c.busy → ∀ submission d f st,
      c'.active = .query submission d f st → c'.busy = c.busy ∧ ∃ f, c.active = .query submission d f st :=
    fun ha hb submission d f st he => ⟨hb, f, ha ▸ he⟩
  cases response with
  | parseComplete =>
    simp only [StatementClient.receive]
    split
    · rename_i name query d f st hactive
      refine ⟨rfl, rfl, rfl, rfl, rfl, hsame rfl rfl, Or.inl rfl, fun name' text he => ?_⟩
      by_cases hname : name' = name
      · right
        rw [hname] at he ⊢
        simp only [Function.update_self] at he
        cases he
        exact ⟨query, d, f, st, hactive, rfl⟩
      · simp only [Function.update_of_ne hname] at he
        exact Or.inl he
    · exact hrefl rfl rfl rfl rfl rfl rfl (hsame rfl rfl) (Or.inl rfl)
  | rowDescription =>
    simp only [StatementClient.receive]
    split
    · rename_i name query d f st hactive
      split
      · refine hrefl rfl rfl rfl rfl rfl rfl (fun submission d' f' st' he => ?_) (Or.inl rfl)
        cases he
        exact ⟨rfl, f, hactive⟩
      · exact hrefl rfl rfl rfl rfl rfl rfl (hsame rfl rfl) (Or.inl rfl)
    · exact hrefl rfl rfl rfl rfl rfl rfl (hsame rfl rfl) (Or.inl rfl)
  | errorResponse =>
    simp only [StatementClient.receive]
    split
    · rename_i submission d f st hactive
      exact hrefl rfl rfl rfl rfl rfl rfl (fun _ _ _ _ he => by cases he) (Or.inr ⟨_, _, _, _, hactive⟩)
    · exact hrefl rfl rfl rfl rfl rfl rfl (fun _ _ _ _ he => by cases he) (Or.inl rfl)
  | invalidated scope => exact hrefl rfl rfl rfl rfl rfl rfl (hsame rfl rfl) (Or.inl rfl)
  | readyForQuery =>
    simp only [StatementClient.receive]
    split
    · rename_i submission d f st hactive
      have hdone : Advances c { c with responses, active := .none, busy := st && c.busy,
                                       evictions := c.evictions ++ c.confirmed.toList, confirmed := none } :=
        hrefl rfl rfl rfl rfl rfl rfl (fun _ _ _ _ he => by cases he) (Or.inr ⟨_, _, _, _, hactive⟩)
      simp only [StatementClient.noData]
      split
      · split
        · exact hrefl rfl rfl rfl rfl rfl rfl (fun _ _ _ _ he => by cases he) (Or.inr ⟨_, _, _, _, hactive⟩)
        · exact hdone
      · exact hdone
    · exact hrefl rfl rfl rfl rfl rfl rfl (fun _ _ _ _ he => by cases he) (Or.inl rfl)
    · exact hrefl rfl rfl rfl rfl rfl rfl (fun _ _ _ _ he => by cases he) (Or.inl rfl)

/-- The entry that pg records. -/
private theorem Agree.record (h : Agree id parsed [] server pending (some name)) {text : SqlText}
    (hs : server name = some text ∨ (server name = none ∧ pending name)) :
    Agree id (Function.update parsed name (some text)) [] server pending none where
  closing _ hclose := by cases hclose
  recorded name' text' he := by
    by_cases hname : name' = name
    · subst hname
      rw [Function.update_self] at he
      cases he
      exact hs
    · rw [Function.update_of_ne hname] at he
      exact h.recorded name' text' he
  stored name' hid _ hclose hsome := by
    by_cases hname : name' = name
    · subst hname
      rw [Function.update_self]
      rcases hs with hs | hs
      · exact hs.symm
      · exact absurd hs.1 hsome
    · rw [Function.update_of_ne hname]
      exact h.stored name' hid (fun he => hname (by cases he; rfl)) hclose hsome

/-- An answer that is no ParseComplete leaves entries, wire and the other answers alone. -/
private theorem receive_frame (c : StatementClient ι) (response : StatementResponse ι)
    (hr : response ≠ .parseComplete) :
    (c.receive response).parsedStatements = c.parsedStatements ∧ (c.receive response).wire = c.wire ∧
      (c.receive response).responses = c.responses := by
  cases response with
  | parseComplete => exact absurd rfl hr
  | rowDescription =>
    simp only [StatementClient.receive]
    split
    · split <;> exact ⟨rfl, rfl, rfl⟩
    · exact ⟨rfl, rfl, rfl⟩
  | errorResponse =>
    simp only [StatementClient.receive]
    split <;> exact ⟨rfl, rfl, rfl⟩
  | invalidated => exact ⟨rfl, rfl, rfl⟩
  | readyForQuery =>
    simp only [StatementClient.receive]
    split
    · simp only [StatementClient.noData]
      split
      · split <;> exact ⟨rfl, rfl, rfl⟩
      · exact ⟨rfl, rfl, rfl⟩
    · exact ⟨rfl, rfl, rfl⟩
    · exact ⟨rfl, rfl, rfl⟩

/-- The ReadyForQuery ends the query; what its continuation evicts is queued. -/
private theorem receive_readyForQuery (c : StatementClient ι) (h : c.confirmed = none ∨ Evicting c.active) :
    (c.receive .readyForQuery).active = .none ∧ (c.receive .readyForQuery).confirmed = none ∧
      (c.receive .readyForQuery).evictions = c.evictions ++ c.confirmed.toList := by
  simp only [StatementClient.receive]
  split
  · simp only [StatementClient.noData]
    split
    · split <;> exact ⟨rfl, rfl, rfl⟩
    · exact ⟨rfl, rfl, rfl⟩
  · rename_i armed hactive
    refine ⟨rfl, rfl, ?_⟩
    rcases h with h | ⟨_, _, _, he⟩ | he
    · simp [h]
    · rw [hactive] at he
      cases he
    · rw [hactive] at he
      cases he
      rfl
  · rename_i hquery hsubmittable
    rcases h with h | ⟨_, _, _, he⟩ | he
    · exact ⟨rfl, h, by simp [h]⟩
    · exact absurd he (hquery _ _ _ _)
    · exact absurd he (hsubmittable _)

private theorem receive_errorResponse (c : StatementClient ι) :
    (c.receive .errorResponse).active = .failed ∧ (c.receive .errorResponse).confirmed = c.confirmed ∧
      (c.receive .errorResponse).evictions = c.evictions := by
  simp only [StatementClient.receive]
  split <;> exact ⟨rfl, rfl, rfl⟩

private theorem receive_rowDescription (c : StatementClient ι) :
    (c.active ≠ .none → (c.receive .rowDescription).active ≠ .none) ∧
      (c.receive .rowDescription).confirmed = c.confirmed ∧ (c.receive .rowDescription).evictions = c.evictions := by
  simp only [StatementClient.receive]
  split
  · split
    · exact ⟨fun _ he => by (cases he), rfl, rfl⟩
    · exact ⟨id, rfl, rfl⟩
  · exact ⟨id, rfl, rfl⟩

private theorem receive_parseComplete (c : StatementClient ι) :
    (c.receive .parseComplete).active = c.active ∧ (c.receive .parseComplete).wire = c.wire ∧
      (c.receive .parseComplete).responses = c.responses ∧ (c.receive .parseComplete).confirmed = c.confirmed ∧
      (c.receive .parseComplete).evictions = c.evictions := by
  simp only [StatementClient.receive]
  split <;> exact ⟨rfl, rfl, rfl, rfl, rfl⟩

/-- An eviction that is to come is not forgotten. -/
private theorem StatementClient.Unevicted.receive {response : StatementResponse ι} (h : c.Unevicted name)
    (hr : c.responses = response :: responses)
    (hconfirmed : c.confirmed = none ∨ (response = .readyForQuery ∧ Evicting c.active)) :
    ({ c with responses }.receive response).Unevicted name := by
  obtain ⟨scope, hcovers, hscope⟩ := h
  refine ⟨scope, hcovers, ?_⟩
  rw [hr, List.mem_cons] at hscope
  cases response with
  | parseComplete =>
    obtain ⟨-, -, hresponses, hc, he⟩ := receive_parseComplete { c with responses }
    rw [hresponses, hc, he]
    exact hscope.imp_left fun hmem => hmem.resolve_left fun he => by cases he
  | rowDescription =>
    obtain ⟨-, -, hresponses⟩ := receive_frame { c with responses } .rowDescription fun he => by cases he
    obtain ⟨-, hc, he⟩ := receive_rowDescription { c with responses }
    rw [hresponses, hc, he]
    exact hscope.imp_left fun hmem => hmem.resolve_left fun he => by cases he
  | errorResponse =>
    obtain ⟨-, -, hresponses⟩ := receive_frame { c with responses } .errorResponse fun he => by cases he
    obtain ⟨-, hc, he⟩ := receive_errorResponse { c with responses }
    rw [hresponses, hc, he]
    exact hscope.imp_left fun hmem => hmem.resolve_left fun he => by cases he
  | invalidated scope' =>
    rcases hscope with (hmem | hmem) | hmem | hmem
    · cases hmem
      exact Or.inr (Or.inl rfl)
    · exact Or.inl hmem
    · rcases hconfirmed with hnone | ⟨he, -⟩
      · rw [hnone] at hmem
        cases hmem
      · cases he
    · exact Or.inr (Or.inr hmem)
  | readyForQuery =>
    obtain ⟨-, -, hresponses⟩ := receive_frame { c with responses } .readyForQuery fun he => by cases he
    obtain ⟨-, -, he⟩ := receive_readyForQuery { c with responses } (hconfirmed.imp_right And.right)
    rw [hresponses, he]
    rcases hscope with (hmem | hmem) | hmem | hmem
    · cases hmem
    · exact Or.inl hmem
    · exact Or.inr (Or.inr (List.mem_append_right _ (by rw [hmem]; exact List.mem_singleton_self _)))
    · exact Or.inr (Or.inr (List.mem_append_left _ hmem))

/-- The answers behind a Parse do not change what is recorded. -/
private theorem Sound.receiveAnswer (h : Sound D server pending id c) {response : StatementResponse ι}
    (hanswers : PlainAnswers (response :: responses)) (hwire : OnlyCloses c.wire)
    (hagree : Agree id c.parsedStatements c.wire server pending none) (hactive : c.active ≠ .none)
    (hconfirmed : c.confirmed = none) :
    Sound D server pending id ({ c with responses }.receive response) := by
  have hadvance := receive_advances c responses response
  have hne : response ≠ .parseComplete := fun he => hanswers.not_parseComplete (he ▸ List.mem_cons_self)
  obtain ⟨hparsed, hw, hresponses⟩ := receive_frame { c with responses } response hne
  cases hanswers with
  | ready =>
    obtain ⟨ha, hc, he⟩ := receive_readyForQuery { c with responses := [] } (Or.inl hconfirmed)
    refine h.advance hadvance (fun hne => h.evictions ?_) ?_
    · rw [he, hconfirmed] at hne
      simpa using hne
    · rw [hparsed, ha, hw, hresponses, hc]
      exact .idle hwire hagree
  | error =>
    obtain ⟨ha, hc, he⟩ := receive_errorResponse { c with responses := [.readyForQuery] }
    refine h.advance hadvance (fun hne => h.evictions (he ▸ hne)) ?_
    rw [hparsed, ha, hw, hresponses, hc, hconfirmed]
    exact .answering (fun he => by cases he) hwire .ready hagree
  | row hrest =>
    obtain ⟨ha, hc, he⟩ := receive_rowDescription { c with responses }
    refine h.advance hadvance (fun hne => h.evictions (he ▸ hne)) ?_
    have hne := ha hactive
    rw [hparsed, hw, hresponses, hc]
    dsimp only
    generalize ({ c with responses }.receive .rowDescription : StatementClient ι).active = active at hne ⊢
    rw [hconfirmed]
    exact .answering hne hwire hrest hagree

theorem Sound.receive (h : Sound D server pending id c) {response : StatementResponse ι}
    (hr : c.responses = response :: responses) :
    Sound D server pending id ({ c with responses }.receive response) ∧
      ∀ name, c.Unevicted name → ({ c with responses }.receive response).Unevicted name := by
  have hadvance := receive_advances c responses response
  have hstage := h.stage
  rw [hr] at hstage
  obtain ⟨active, ha⟩ : ∃ active, c.active = active := ⟨_, rfl⟩
  obtain ⟨wire, hw⟩ : ∃ wire, c.wire = wire := ⟨_, rfl⟩
  obtain ⟨confirmed, hc⟩ : ∃ confirmed, c.confirmed = confirmed := ⟨_, rfl⟩
  rw [ha, hw, hc] at hstage
  generalize hresponses : response :: responses = answers at hstage
  cases hstage with
  | idle => cases hresponses
  | other => cases hresponses
  | invalidating => cases hresponses
  | warm => cases hresponses
  | cold => cases hresponses
  | @parsing name query _ rest hrest hentry hs hagree =>
    cases hresponses
    have he : ({ c with responses }.receive .parseComplete : StatementClient ι) =
        { c with responses, parsedStatements := Function.update c.parsedStatements name (some query.text) } := by
      simp only [StatementClient.receive, ha]
    refine ⟨?_, fun name hname => hname.receive hr (Or.inl hc)⟩
    refine h.advance hadvance (fun hne => h.evictions (by rw [he] at hne; exact hne)) ?_
    rw [he]
    show Stage D id server pending (Function.update c.parsedStatements name (some query.text)) c.active c.wire responses
      c.confirmed
    rw [ha, hw, hc]
    exact .answering (fun he => by cases he) onlyCloses_nil hrest (hagree.record hs)
  | answering hne hwire hanswers hagree =>
    subst hresponses
    exact ⟨h.receiveAnswer hanswers (hw ▸ hwire) (hw ▸ hagree) (ha ▸ hne) hc,
      fun name hname => hname.receive hr (Or.inl hc)⟩
  | @invalidated hD _ _ scope he hwire hagree =>
    cases hresponses
    refine ⟨?_, fun name hname => hname.receive hr (Or.inl hc)⟩
    refine h.advance hadvance (fun _ => hD) ?_
    show Stage D id server pending c.parsedStatements c.active c.wire [.readyForQuery] (some scope)
    rw [ha, hw]
    exact .confirmed hD he hwire hagree
  | @confirmed hD _ _ scope he hwire hagree =>
    cases hresponses
    have hevicting : Evicting c.active := ha ▸ he
    refine ⟨?_, fun name hname => hname.receive hr (Or.inr ⟨rfl, hevicting⟩)⟩
    obtain ⟨ha', hc', -⟩ := receive_readyForQuery { c with responses := [] } (Or.inr hevicting)
    obtain ⟨hparsed', hw', hresponses'⟩ :=
      receive_frame { c with responses := [] } .readyForQuery fun he => by cases he
    refine h.advance hadvance (fun _ => hD) ?_
    rw [hparsed', ha', hw', hresponses', hc']
    exact .idle (hw ▸ hwire) (hw ▸ hagree)

/-! ### Evictions -/

/-- The name of the active query. -/
def ActiveQuery.statement : ActiveQuery ι → Option (StatementName ι)
  | .query (.named name _) _ _ _ => some name
  | _ => Option.none

/-- The name has not been parsed again since it was removed from the server, as far as the client knows or will know. -/
def StatementClient.OutdatedName (c : StatementClient ι) (server : Statements ι) (name : StatementName ι) : Prop :=
  (c.parsedStatements name ≠ none → server name = none) ∧
    (.parseComplete ∈ c.responses → c.active.statement = some name → server name ≠ none)

/-- No name in the scope has been parsed again since the scope was removed from the server. -/
def StatementClient.Outdated (c : StatementClient ι) (id : ι) (server : Statements ι)
    (scope : StatementCacheInvalidation ι) : Prop :=
  ∀ seq < c.generator.seq, scope.covers ⟨id, seq⟩ = true → c.OutdatedName server ⟨id, seq⟩

private theorem Agree.clear (h : Agree id parsed wire server pending parsing) {scope : StatementCacheInvalidation ι}
    (hout : ∀ name, name.client = id → scope.covers name = true → parsed name ≠ none → server name = none)
    (hpending : ∀ name, scope.covers name = false → pending name → pending' name) :
    Agree id (fun name => if scope.covers name then none else parsed name) wire server pending' parsing where
  closing name hclose := by
    split
    · rfl
    · exact h.closing name hclose
  recorded name text he := by
    split at he
    · cases he
    · rename_i hcovers
      exact (h.recorded name text he).imp_right fun hp => ⟨hp.1, hpending name (by simpa using hcovers) hp.2⟩
  stored name hid hne hclose hsome := by
    have he := h.stored name hid hne hclose hsome
    split
    · rename_i hcovers
      exact absurd (hout name hid hcovers (he ▸ hsome)) hsome
    · exact he

omit [DecidableEq ι] in
theorem Sound.withEvictions (h : Sound D server pending id c) (hD : D)
    (evictions : List (StatementCacheInvalidation ι)) : Sound D server pending id { c with evictions } := by
  obtain ⟨textOf, hn⟩ := h.named
  exact ⟨⟨textOf, hn.names, hn.queue, hn.admitted, hn.active, hn.closes, hn.wire, hn.parsed⟩, h.chain, h.admitted,
    h.invalidations, fun _ => hD, h.stage⟩

theorem Sound.clear (h : Sound D server pending id c) (hD : D) {scope : StatementCacheInvalidation ι}
    (hout : c.Outdated id server scope) (hpending : ∀ name, scope.covers name = false → pending name → pending' name) :
    Sound D server pending' id (c.clearStatementCaches scope) := by
  obtain ⟨textOf, hn⟩ := h.named
  refine ⟨⟨textOf, hn.names, hn.queue, hn.admitted, hn.active, hn.closes, hn.wire, fun name text he => ?_⟩, h.chain,
    h.admitted, h.invalidations, h.evictions, ?_⟩
  · simp only [StatementClient.clearStatementCaches] at he
    split at he
    · cases he
    · exact hn.parsed name text he
  · have hrecorded : ∀ name : StatementName ι, name.client = id → scope.covers name = true →
        c.parsedStatements name ≠ none → server name = none := by
      rintro ⟨client, seq⟩ hid hcovers hentry
      obtain ⟨text, hentry'⟩ := Option.ne_none_iff_exists'.mp hentry
      obtain ⟨-, -, hlt⟩ := hn.parsed _ text hentry'
      cases hid
      exact (hout seq hlt hcovers).1 hentry
    have hclear : ∀ {wire parsing}, Agree id c.parsedStatements wire server pending parsing →
        Agree id (c.clearStatementCaches scope).parsedStatements wire server pending' parsing := fun hagree =>
      hagree.clear hrecorded hpending
    have hexpecting : ∀ name query d f st, c.active = .query (.named name query) d f st → .parseComplete ∈ c.responses →
        scope.covers name = true → server name ≠ none := by
      rintro ⟨client, seq⟩ query d f st ha hmem hcovers
      obtain ⟨hid, -, hlt⟩ := hn.active _ query d f st ha
      cases hid
      exact (hout seq hlt hcovers).2 hmem (by rw [ha]; rfl)
    have hnone : ∀ {name}, c.parsedStatements name = none →
        (c.clearStatementCaches scope).parsedStatements name = none := by
      intro name he
      simp only [StatementClient.clearStatementCaches, he, ite_self]
    show Stage D id server pending' (c.clearStatementCaches scope).parsedStatements c.active c.wire c.responses
      c.confirmed
    have hstage := h.stage
    generalize c.active = active, c.wire = wire, c.responses = responses, c.confirmed = confirmed at hstage hexpecting ⊢
    cases hstage with
    | idle hwire hagree => exact .idle hwire (hclear hagree)
    | other hne hpre hpost hagree => exact .other hne hpre hpost (hclear hagree)
    | invalidating hD he hpre hpost hagree => exact .invalidating hD he hpre hpost (hclear hagree)
    | warm hpre hm hentry hagree => exact .warm hpre hm (fun hnot => absurd hD hnot) (hclear hagree)
    | cold hpre hm hentry hs hagree => exact .cold hpre hm (hnone hentry) hs (hclear hagree)
    | @parsing name query _ _ hrest hentry hs hagree =>
      refine .parsing hrest (hnone hentry) (hs.imp_right fun hp => ⟨hp.1, ?_⟩) (hclear hagree)
      by_cases hcovers : scope.covers name = true
      · exact absurd hp.1 (hexpecting name query _ _ _ rfl List.mem_cons_self hcovers)
      · exact hpending name (by simpa using hcovers) hp.2
    | answering hne hwire hr hagree => exact .answering hne hwire hr (hclear hagree)
    | invalidated hD he hwire hagree => exact .invalidated hD he hwire (hclear hagree)
    | confirmed hD he hwire hagree => exact .confirmed hD he hwire (hclear hagree)

end PgliteBridge
