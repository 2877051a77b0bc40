import PgliteBridge.StatementSafety

/-!
# No prepared statement is leaked

A statement of a client on the server, an entry of `parsedStatements` and a key of the fields cache is *accounted for*:
the generator still gives its name, or the name waits for its Close (`Accounted`).  This holds as long as no execution
submits a name that has been evicted since its call (`SubmitsHeld`, `statements_accounted`), and bounds the statements
of a client.
-/

namespace PgliteBridge

open TransitionSystem

/-! ### The names that a generator gives -/

namespace NameGenerator

variable {g : NameGenerator} {sql : SqlText}

/-- No more names than the capacity, one for each text. -/
structure Bounded (g : NameGenerator) : Prop where
  length : g.names.length ≤ max g.capacity 1
  keys : (g.names.map Prod.fst).Nodup

/-- A name is given or evicted, never forgotten. -/
structure Retains (g : NameGenerator) (naming : Naming) : Prop where
  kept : ∀ entry ∈ g.names, entry ∈ naming.generator.names ∨ naming.evicted = some entry.2
  given : ∀ name, naming.name = some name → ∃ entry ∈ naming.generator.names, entry.2 = name
  capacity : naming.generator.capacity = g.capacity
  bounded : naming.generator.Bounded

private theorem promote_retains (h : g.Bounded) (hsql : sql ∉ g.names.map Prod.fst) : Retains g (g.promote sql) := by
  have hlength := h.length
  have hkeys := h.keys
  by_cases hfull : g.capacity ≤ g.names.length
  · have hnames : (g.promote sql).generator.names = g.names.tail ++ [(sql, g.seq)] := by simp [promote, hfull]
    have hevicted : (g.promote sql).evicted = g.names.head?.map Prod.snd := by simp [promote, hfull]
    refine ⟨fun entry hentry => ?_, fun name hname => ?_, rfl, ?_, ?_⟩
    · rw [hnames, hevicted]
      cases hcases : g.names with
      | nil => rw [hcases] at hentry; cases hentry
      | cons first rest =>
        rw [hcases] at hentry
        rcases List.mem_cons.mp hentry with rfl | hrest
        · exact Or.inr rfl
        · exact Or.inl (List.mem_append_left _ hrest)
    · cases hname
      exact ⟨(sql, g.seq), by simp [hnames], rfl⟩
    · have hcapacity : (g.promote sql).generator.capacity = g.capacity := rfl
      rw [hnames, hcapacity, List.length_append, List.length_tail, List.length_singleton]
      omega
    · rw [hnames, List.map_append, List.map_tail]
      refine List.nodup_append.mpr ⟨hkeys.tail, List.nodup_singleton _, fun key hkey key' hkey' he => hsql ?_⟩
      have hkey'' : key = sql := he.trans (List.mem_singleton.mp hkey')
      exact hkey'' ▸ List.mem_of_mem_tail hkey
  · have hnames : (g.promote sql).generator.names = g.names ++ [(sql, g.seq)] := by simp [promote, hfull]
    refine ⟨fun entry hentry => Or.inl (by simp [hnames, hentry]), fun name hname => ?_, rfl, ?_, ?_⟩
    · cases hname
      exact ⟨(sql, g.seq), by simp [hnames], rfl⟩
    · have hcapacity : (g.promote sql).generator.capacity = g.capacity := rfl
      rw [hnames, hcapacity, List.length_append, List.length_singleton]
      omega
    · rw [hnames, List.map_append]
      refine List.nodup_append.mpr ⟨hkeys, List.nodup_singleton _, fun key hkey key' hkey' he => hsql ?_⟩
      have hkey'' : key = sql := he.trans (List.mem_singleton.mp hkey')
      exact hkey'' ▸ hkey

theorem not_mem_of_mapGet {κ ν : Type} [DecidableEq κ] {map : List (κ × ν)} {key : κ} (h : mapGet map key = none) :
    key ∉ map.map Prod.fst := by
  intro hmem
  obtain ⟨entry, hentry, he⟩ := List.mem_map.mp hmem
  have hnone := List.find?_eq_none.mp (Option.map_eq_none_iff.mp h) entry hentry
  exact hnone (by simpa using he)

/-- A name that is given again moves to the end. -/
private theorem refresh_retains (h : g.Bounded) {cached : Nat} (hcached : mapGet g.names sql = some cached) :
    Retains g ⟨some cached, none, { g with names := mapDelete g.names sql ++ [(sql, cached)] }⟩ := by
  have hmem := mem_of_mapGet hcached
  have hother : ∀ entry ∈ mapDelete g.names sql, entry ∈ g.names ∧ entry.1 ≠ sql := fun entry hentry => by
    simpa [mapDelete] using hentry
  refine ⟨fun entry hentry => Or.inl ?_, fun name hname => ?_, rfl, ?_, ?_⟩
  · by_cases he : entry.1 = sql
    · have hsame : entry = (sql, cached) := List.inj_on_of_nodup_map h.keys hentry hmem he
      exact List.mem_append_right _ (by simp [hsame])
    · exact List.mem_append_left _ (List.mem_filter.mpr ⟨hentry, by simpa using he⟩)
  · cases hname
    exact ⟨(sql, cached), by simp, rfl⟩
  · have hle : (mapDelete g.names sql).length ≤ g.names.length := List.length_filter_le ..
    have hne : (mapDelete g.names sql).length ≠ g.names.length := fun he => by
      have hall := List.length_filter_eq_length_iff.mp he _ hmem
      simp at hall
    have hlength := h.length
    simp only [List.length_append, List.length_singleton]
    omega
  · simp only [List.map_append]
    refine List.nodup_append.mpr ⟨h.keys.sublist (List.filter_sublist.map _), List.nodup_singleton _, ?_⟩
    intro key hkey key' hkey' he
    obtain ⟨entry, hentry, rfl⟩ := List.mem_map.mp hkey
    exact (hother entry hentry).2 (he.trans (by simpa using hkey'))

theorem next_retains (h : g.Bounded) (sql : SqlText) : Retains g (g.next sql) := by
  have hunnamed : ∀ counts, Retains g ⟨none, none, { g with counts }⟩ := fun counts =>
    ⟨fun entry hentry => Or.inl hentry, fun _ hname => (by cases hname), rfl, h.length, h.keys⟩
  unfold next
  split
  · exact hunnamed g.counts
  · split
    · rename_i cached hcached
      exact refresh_retains h hcached
    · rename_i hnew
      unfold count
      dsimp only
      split
      · exact hunnamed _
      · have hbounded : ({ g with counts := mapDelete g.counts sql } : NameGenerator).Bounded := ⟨h.length, h.keys⟩
        have hretains := promote_retains hbounded (not_mem_of_mapGet hnew)
        exact ⟨hretains.kept, hretains.given, hretains.capacity, hretains.bounded⟩

end NameGenerator

/-! ### What pg and the backend do with names -/

/-- Stock pg parses the statement of its query and no other. -/
def StockQuery.ParsesOwn (pg : StockQuery) : Prop :=
  ∀ {ι : Type} (previous : Option SqlText) (bindThrows : Bool) (name : StatementName ι) (text : SqlText)
    (messages : List (StatementMessage ι)), pg.prepare previous bindThrows name text = some messages →
      ∀ name' text', .parse name' text' ∈ messages → name' = name

private theorem stockQuery_parsesOwn : stockQuery.ParsesOwn := by
  intro ι previous bindThrows name text messages hprepare name' text' hmem
  simp only [stockQuery] at hprepare
  split at hprepare
  · cases hprepare
  · cases hprepare
    rcases List.mem_append.mp hmem with hmem | hmem
    · split at hmem
      · cases List.mem_singleton.mp hmem
        rfl
      · cases hmem
    · cases bindThrows <;> simp at hmem

/-- The name of a query that is submitted. -/
def StatementSubmission.sent {ι : Type} : StatementSubmission ι → Option (StatementName ι)
  | .named name query => if query.invalid then none else some name
  | _ => none

def ActiveQuery.name? {ι : Type} : ActiveQuery ι → Option (StatementName ι)
  | .query (.named name _) _ _ _ => some name
  | _ => Option.none

def StatementMessage.isParse {ι : Type} : StatementMessage ι → Bool
  | .parse .. => true
  | _ => false

def StatementResponse.isParseComplete {ι : Type} : StatementResponse ι → Bool
  | .parseComplete => true
  | _ => false

def WireItem.parses {ι : Type} : WireItem ι → Bool
  | .close _ => false
  | .train messages => messages.any StatementMessage.isParse

variable {ι : Type} [DecidableEq ι] {server server' : Statements ι} {messages : List (StatementMessage ι)}
  {wire : List (WireItem ι)} {name : StatementName ι}

private theorem execMessage_stored {columns : Bool} {message : StatementMessage ι}
    (h : (execMessage server columns message).server name ≠ none) :
    server name ≠ none ∨ ∃ text, message = .parse name text := by
  cases message with
  | parse name' text =>
    by_cases he : name = name'
    · exact Or.inr ⟨text, by rw [he]⟩
    · left
      unfold execMessage at h
      dsimp only at h
      split at h
      · simpa [Function.update_of_ne he] using h
      · exact h
  | bind name' text =>
    left
    unfold execMessage at h
    dsimp only at h
    split at h <;> exact h
  | close name' =>
    left
    intro hnone
    apply h
    by_cases he : name = name'
    · simp [execMessage, he]
    · simp [execMessage, Function.update_of_ne he, hnone]
  | invalidate scope =>
    left
    intro hnone
    simp [execMessage, hnone] at h
  | describe | execute | sync | other => exact Or.inl h

private theorem execMessage_parseComplete {columns : Bool} {message : StatementMessage ι}
    (h : (execMessage server columns message).responses.any StatementResponse.isParseComplete = true) :
    message.isParse = true := by
  cases message with
  | parse name text => rfl
  | bind name text =>
    unfold execMessage at h
    dsimp only at h
    split at h <;> simp at h
  | describe => cases columns <;> simp [execMessage, StatementResponse.isParseComplete] at h
  | close | execute | sync | invalidate | other => simp [execMessage, StatementResponse.isParseComplete] at h

/-- A statement is on the server after a train only if it was before or the train parses it. -/
private theorem execTrain_stored {columns : Bool} {fails : Option Nat}
    (h : (execTrain columns server messages fails).server name ≠ none) :
    server name ≠ none ∨ ∃ text, .parse name text ∈ messages := by
  induction messages generalizing server fails with
  | nil => exact Or.inl h
  | cons message messages ih =>
    have hrest : ∀ {server' fails'}, (execTrain columns server' messages fails').server name ≠ none →
        (server' name ≠ none → server name ≠ none ∨ ∃ text, message = .parse name text) →
          server name ≠ none ∨ ∃ text, .parse name text ∈ message :: messages := fun hrest hfirst => by
      rcases ih hrest with hstored | ⟨text, hmem⟩
      · refine (hfirst hstored).imp_right fun hparse => ?_
        obtain ⟨text, rfl⟩ := hparse
        exact ⟨text, List.mem_cons_self⟩
      · exact Or.inr ⟨text, List.mem_cons_of_mem _ hmem⟩
    by_cases hclose : ∃ name', message = .close name'
    · obtain ⟨name', rfl⟩ := hclose
      exact hrest h fun hstored => @execMessage_stored _ _ server name columns (.close name') hstored
    · by_cases hsync : message = .sync
      · subst hsync
        exact Or.inl h
      · rw [execTrain_cons message (fun name' he => hclose ⟨name', he⟩) hsync] at h
        split at h
        · exact Or.inl h
        · dsimp only at h
          split at h
          · exact (execMessage_stored h).imp_right fun hparse => by
              obtain ⟨text, rfl⟩ := hparse
              exact ⟨text, List.mem_cons_self⟩
          · exact hrest h execMessage_stored

private theorem execTrain_parseComplete {columns : Bool} {fails : Option Nat}
    (h : (execTrain columns server messages fails).responses.any StatementResponse.isParseComplete = true) :
    messages.any StatementMessage.isParse = true := by
  induction messages generalizing server fails with
  | nil => cases h
  | cons message messages ih =>
    rw [List.any_cons, Bool.or_eq_true]
    by_cases hclose : ∃ name', message = .close name'
    · obtain ⟨name', rfl⟩ := hclose
      exact Or.inr (ih h)
    · by_cases hsync : message = .sync
      · subst hsync
        simp [execTrain, StatementResponse.isParseComplete] at h
      · rw [execTrain_cons message (fun name' he => hclose ⟨name', he⟩) hsync] at h
        split at h
        · simp [StatementResponse.isParseComplete] at h
        · dsimp only at h
          split at h
          · simp [StatementResponse.isParseComplete] at h
          · rw [List.any_append, Bool.or_eq_true] at h
            rcases h with h | h
            · exact Or.inl (execMessage_parseComplete h)
            · exact Or.inr (ih h)

/-! ### Accounts -/

namespace StatementClient

/-- The names that the generator gives. -/
def held (id : ι) (c : StatementClient ι) : List (StatementName ι) :=
  c.generator.names.map fun entry => ⟨id, entry.2⟩

/-- The generator gives the name, or the name waits for its Close. -/
def Accounted (id : ι) (c : StatementClient ι) (name : StatementName ι) : Prop :=
  name ∈ c.held id ∨ name ∈ c.pendingCloses

/-- A ParseComplete may be still to come. -/
def parsing (c : StatementClient ι) : Bool :=
  c.wire.any WireItem.parses || c.responses.any StatementResponse.isParseComplete

/-- The next execution submits a name that the generator still gives, and closes no name that is being parsed. -/
def SubmitsHeld (id : ι) (c : StatementClient ι) : Prop :=
  (∀ submission ∈ c.queue.head?, ∀ name ∈ submission.sent, name ∈ c.held id) ∧
    (c.parsing = true → ∀ name ∈ c.active.name?, name ∉ c.pendingCloses)

instance (id : ι) (c : StatementClient ι) : Decidable (c.SubmitsHeld id) :=
  decidable_of_iff
    ((∀ submission ∈ c.queue.head?, ∀ name ∈ submission.sent, (c.held id).contains name = true) ∧
      (c.parsing = true → ∀ name ∈ c.active.name?, c.pendingCloses.contains name = false))
    (by simp [SubmitsHeld])

end StatementClient

/-- Each statement parsed by what is written is accounted for, or closed by what is written behind it. -/
def Covered (accounted : StatementName ι → Prop) : List (WireItem ι) → Prop
  | [] => True
  | .close _ :: wire => Covered accounted wire
  | .train messages :: wire =>
    (∀ name text, .parse name text ∈ messages → accounted name ∨ .close name ∈ wire) ∧ Covered accounted wire

/-- The books of a client name no statement that nothing frees. -/
structure Balanced (capacity : Nat) (id : ι) (server : Statements ι) (c : StatementClient ι) : Prop where
  capacity : c.generator.capacity = capacity
  bounded : c.generator.Bounded
  pendingCloses : ∀ name ∈ c.pendingCloses, name.client = id
  closes : ∀ name, .close name ∈ c.wire → name.client = id
  admitted : ∀ name query, c.admitted = some (.named name query) → query.invalid = false → c.Accounted id name
  active : ∀ name query describeSent fieldsReceived settled,
    c.active = .query (.named name query) describeSent fieldsReceived settled →
      query.fast = true ∨ c.parsing = true → c.Accounted id name
  /-- only a stock query that threw leaves the chain while it is active -/
  settled : ∀ submission describeSent fieldsReceived settled,
    c.active = .query submission describeSent fieldsReceived settled →
      (settled = false → c.busy = true) ∧
        (settled = true → ∀ name query, submission = .named name query → query.fast = false)
  parsed : ∀ name, c.parsedStatements name ≠ none → c.Accounted id name
  fields : ∀ name, c.fieldsCache name = true → c.Accounted id name
  wire : Covered (c.Accounted id) c.wire
  stored : ∀ name, name.client = id → server name ≠ none → c.Accounted id name ∨ .close name ∈ c.wire

/-! ### The wire -/

variable {accounted accounted' : StatementName ι → Prop}

omit [DecidableEq ι] in
private theorem Covered.mono (h : Covered accounted wire) (hmono : ∀ name, accounted name → accounted' name) :
    Covered accounted' wire := by
  induction wire with
  | nil => trivial
  | cons item wire ih =>
    cases item with
    | close name => exact ih h
    | train messages => exact ⟨fun name text hmem => (h.1 name text hmem).imp_left (hmono name), ih h.2⟩

omit [DecidableEq ι] in
/-- What is no longer accounted for has its Close written. -/
private theorem Covered.flush (h : Covered accounted wire) {closes : List (StatementName ι)}
    (hflush : ∀ name, accounted name → accounted' name ∨ name ∈ closes) :
    Covered accounted' (wire ++ closes.map .close) := by
  induction wire with
  | nil =>
    clear hflush h
    induction closes with
    | nil => trivial
    | cons name closes ih => exact ih
  | cons item wire ih =>
    cases item with
    | close name => exact ih h
    | train messages =>
      refine ⟨fun name text hmem => ?_, ih h.2⟩
      rcases h.1 name text hmem with hacc | hclose
      · refine (hflush name hacc).imp_right fun hmem => List.mem_append_right _ ?_
        exact List.mem_map_of_mem hmem
      · exact Or.inr (List.mem_append_left _ hclose)

omit [DecidableEq ι] in
private theorem Covered.write (h : Covered accounted wire)
    (hmessages : ∀ name text, .parse name text ∈ messages → accounted name) :
    Covered accounted (wire ++ [.train messages]) := by
  induction wire with
  | nil => exact ⟨fun name text hmem => Or.inl (hmessages name text hmem), trivial⟩
  | cons item wire ih =>
    cases item with
    | close name => exact ih h
    | train messages' =>
      exact ⟨fun name text hmem => (h.1 name text hmem).imp_right (List.mem_append_left _), ih h.2⟩

/-! ### One client -/

variable {capacity : Nat} {id : ι} {c c' : StatementClient ι} {pg : StockQuery}

omit [DecidableEq ι] in
private theorem held_client (h : name ∈ c.held id) : name.client = id := by
  obtain ⟨entry, -, rfl⟩ := List.mem_map.mp h
  rfl

omit [DecidableEq ι] in
private theorem Balanced.owned (h : Balanced capacity id server c) (hacc : c.Accounted id name) : name.client = id :=
  hacc.elim held_client (h.pendingCloses name)

omit [DecidableEq ι] in
/-- The statements of the client on the server are fewer. -/
private theorem Balanced.fewer (h : Balanced capacity id server c)
    (hserver : ∀ name, name.client = id → server' name ≠ none → server name ≠ none) : Balanced capacity id server' c :=
  { h with stored := fun name hid hsome => h.stored name hid (hserver name hid hsome) }

omit [DecidableEq ι] in
/-- A name that is no longer given waits for its Close. -/
private theorem Balanced.call (h : Balanced capacity id server c) (call : QueryCall ι) :
    Balanced capacity id server (c.call id call) := by
  cases call with
  | invalidation scope =>
    exact ⟨h.capacity, h.bounded, h.pendingCloses, h.closes, h.admitted, h.active, h.settled, h.parsed, h.fields,
      h.wire, h.stored⟩
  | sql query =>
    simp only [StatementClient.call]
    split
    · have hretains := NameGenerator.next_retains h.bounded query.text
      have hacc : ∀ name, c.Accounted id name →
          name ∈ (c.generator.next query.text).generator.names.map (fun entry => (⟨id, entry.2⟩ : StatementName ι)) ∨
            name ∈ c.pendingCloses ++
              ((c.generator.next query.text).evicted.map fun seq => (⟨id, seq⟩ : StatementName ι)).toList := by
        intro name hname
        rcases hname with hheld | hpending
        · obtain ⟨entry, hentry, rfl⟩ := List.mem_map.mp hheld
          rcases hretains.kept entry hentry with hkept | hevicted
          · exact Or.inl (List.mem_map_of_mem hkept)
          · right
            rw [hevicted]
            simp
        · exact Or.inr (List.mem_append_left _ hpending)
      refine ⟨hretains.capacity.trans h.capacity, hretains.bounded, fun name hmem => ?_, h.closes,
        fun name query' he hvalid => hacc name (h.admitted name query' he hvalid),
        fun name query' d f st he hwhen => hacc name (h.active name query' d f st he hwhen), h.settled,
        fun name he => hacc name (h.parsed name he), fun name he => hacc name (h.fields name he), h.wire.mono hacc,
        fun name hid hsome => (h.stored name hid hsome).imp_left (hacc name)⟩
      rcases List.mem_append.mp hmem with hmem | hmem
      · exact h.pendingCloses name hmem
      · obtain ⟨seq, -, rfl⟩ := Option.map_eq_some_iff.mp (Option.mem_toList.mp hmem)
        rfl
    · exact ⟨h.capacity, h.bounded, h.pendingCloses, h.closes, h.admitted, h.active, h.settled, h.parsed, h.fields,
        h.wire, h.stored⟩

private theorem parsing_flush (c : StatementClient ι) : c.flushPendingCloses.parsing = c.parsing := by
  have hcloses : (c.pendingCloses.map WireItem.close).any WireItem.parses = false := by
    simp [WireItem.parses]
  simp only [StatementClient.parsing, StatementClient.flushPendingCloses, List.any_append, hcloses, Bool.or_false]

/-- The names waiting for their Close are forgotten and closed; what is submitted is still given. -/
private theorem Balanced.execute (h : Balanced capacity id server c) (hheld : c.SubmitsHeld id)
    (hc : c.execute = some c') :
    Balanced capacity id server c' := by
  unfold StatementClient.execute at hc
  split at hc
  · rename_i submission queue hbusy hqueue
    cases hc
    have hkept : ∀ name, c.Accounted id name → name ∉ c.pendingCloses → name ∈ c.held id := fun name hacc hnot =>
      hacc.resolve_right hnot
    have hflush : ∀ name, c.Accounted id name → (name ∈ c.held id ∨ name ∈ ([] : List (StatementName ι))) ∨
        name ∈ c.pendingCloses := fun name hacc => hacc.imp_left Or.inl
    have hclosed : ∀ name, name ∈ c.pendingCloses → WireItem.close name ∈ c.wire ++ c.pendingCloses.map .close :=
      fun name hmem => List.mem_append_right _ (List.mem_map_of_mem hmem)
    refine ⟨h.capacity, h.bounded, fun name hmem => (by cases hmem), fun name hmem => ?_,
      fun name query he hvalid => ?_,
      fun name query d f st he hwhen => ?_, fun submission' d f st he => ?_, fun name he => ?_, fun name he => ?_,
      h.wire.flush hflush, fun name hid hsome => ?_⟩
    · rcases List.mem_append.mp hmem with hmem | hmem
      · exact h.closes name hmem
      · obtain ⟨name', hmem', he⟩ := List.mem_map.mp hmem
        cases he
        exact h.pendingCloses name hmem'
    · cases he
      refine Or.inl (hheld.1 (.named name query) (by rw [hqueue]; rfl) name ?_)
      simp [StatementSubmission.sent, hvalid]
    · have hparsing : c.parsing = true := by
        rcases hwhen with hfast | hparsing
        · cases st with
          | false =>
            have hb := (h.settled _ d f false he).1 rfl
            rw [hbusy] at hb
            cases hb
          | true =>
            have hf := (h.settled _ d f true he).2 rfl name query rfl
            rw [hfast] at hf
            cases hf
        · exact (parsing_flush c).symm.trans hparsing
      exact Or.inl (hkept name (h.active name query d f st he (Or.inr hparsing)) (hheld.2 hparsing name (by
        rw [show c.active = .query (.named name query) d f st from he]
        rfl)))
    · exact ⟨fun _ => rfl, (h.settled submission' d f st he).2⟩
    · have hnot : name ∉ c.pendingCloses := fun hmem => he (by simp [StatementClient.flushPendingCloses, hmem])
      have hentry : c.parsedStatements name ≠ none := by
        simpa [StatementClient.flushPendingCloses, hnot] using he
      exact Or.inl (hkept name (h.parsed name hentry) hnot)
    · simp only [StatementClient.flushPendingCloses, Bool.and_eq_true, decide_eq_true_eq] at he
      exact Or.inl (hkept name (h.fields name he.1) he.2)
    · rcases h.stored name hid hsome with hacc | hclose
      · rcases hacc with hheld' | hpending
        · exact Or.inl (Or.inl hheld')
        · exact Or.inr (hclosed name hpending)
      · exact Or.inr (List.mem_append_left _ hclose)
  · cases hc

omit [DecidableEq ι] in
private theorem Balanced.expire (h : Balanced capacity id server c) (hc : c.expire = some c') :
    Balanced capacity id server c' := by
  unfold StatementClient.expire at hc
  split at hc
  · cases hc
    exact ⟨h.capacity, h.bounded, h.pendingCloses, h.closes, h.admitted, h.active, h.settled, h.parsed, h.fields,
      h.wire, h.stored⟩
  · cases hc

omit [DecidableEq ι] in
/-- pg writes messages that parse only what is accounted for. -/
private theorem Balanced.write (h : Balanced capacity id server c) {active : ActiveQuery ι} {busy : Bool}
    {admitted : Option (StatementSubmission ι)}
    (hadmitted : ∀ name query, admitted = some (.named name query) → query.invalid = false → c.Accounted id name)
    (hmessages : ∀ name text, .parse name text ∈ messages → c.Accounted id name)
    (hactive : ∀ name query d f st, active = .query (.named name query) d f st → c.Accounted id name)
    (hsettled : ∀ submission d f st, active = .query submission d f st → (st = false → busy = true) ∧
      (st = true → ∀ name query, submission = .named name query → query.fast = false)) :
    Balanced capacity id server { c with wire := c.wire ++ [.train messages], active, busy, admitted } :=
  ⟨h.capacity, h.bounded, h.pendingCloses, fun name hmem => h.closes name (by simpa using hmem), hadmitted,
    fun name query d f st he _ => hactive name query d f st he, hsettled, h.parsed, h.fields, h.wire.write hmessages,
    fun name hid hsome => (h.stored name hid hsome).imp_right (List.mem_append_left _)⟩

omit [DecidableEq ι] in
/-- A query that is not submitted leaves the chain. -/
private theorem Balanced.refuse (h : Balanced capacity id server c) (hactive : c.active = .none) :
    Balanced capacity id server { c with admitted := none, busy := false } := by
  refine ⟨h.capacity, h.bounded, h.pendingCloses, h.closes, fun name query he => (by cases he), h.active,
    fun submission d f st he => ?_, h.parsed, h.fields, h.wire, h.stored⟩
  rw [show c.active = .query submission d f st from he] at hactive
  cases hactive

omit [DecidableEq ι] in
private theorem fastSubmit_parses {query : SqlQuery} {describeSent : Bool}
    (h : c.fastSubmit name query = some (messages, describeSent)) :
    ∀ name' text, .parse name' text ∈ messages → name' = name := by
  intro name' text hmem
  unfold StatementClient.fastSubmit at h
  dsimp only at h
  split at h
  · cases h
  · have hparse : ∀ tail : List (StatementMessage ι), .parse name' text ∉ tail →
        .parse name' text ∈
            (if c.parsedStatements name ≠ some query.text then [.parse name query.text] else []) ++ tail →
          name' = name := fun tail htail hmem => by
      have hfirst := (List.mem_append.mp hmem).resolve_right htail
      split at hfirst
      · cases List.mem_singleton.mp hfirst
        rfl
      · cases hfirst
    split at h
    · cases h
      exact hparse _ (by simp) hmem
    · split at h
      · cases h
        exact hparse _ (by simp) hmem
      · split at h
        · cases h
          exact hparse _ (by simp) hmem
        · cases h
          exact hparse _ (by simp) hmem

omit [DecidableEq ι] in
private theorem Balanced.pulse (h : Balanced capacity id server c) (hpg : pg.ParsesOwn) (hc : c.pulse pg = some c') :
    Balanced capacity id server c' := by
  unfold StatementClient.pulse at hc
  split at hc
  · rename_i submission hactive hadmitted
    have hnone : ∀ name query, (none : Option (StatementSubmission ι)) = some (.named name query) →
        query.invalid = false → c.Accounted id name := fun _ _ he => by cases he
    have hplain : ∀ {active : StatementSubmission ι}, (∀ name query, active ≠ .named name query) →
        ∀ name query d f st, ActiveQuery.query active false false false = .query (.named name query) d f st →
          c.Accounted id name := fun hne name query d f st he => by
      cases he
      exact absurd rfl (hne name query)
    have hunsettled : ∀ {active : StatementSubmission ι} {ds : Bool}, ∀ submission d f st,
        ActiveQuery.query active ds false false = .query submission d f st → (st = false → true = true) ∧
          (st = true → ∀ name query, submission = .named name query → query.fast = false) := fun _ d f st he => by
      cases he
      exact ⟨fun _ => rfl, fun he => by cases he⟩
    cases submission with
    | unnamed query =>
      dsimp only at hc
      split at hc
      · cases hc
        exact h.refuse hactive
      · cases hc
        exact h.write hnone (by simp) (hplain fun _ _ he => by cases he) hunsettled
    | invalidation scope =>
      cases hc
      exact h.write hnone (by simp) (hplain fun _ _ he => by cases he) hunsettled
    | named name query =>
      dsimp only at hc
      split at hc
      · cases hc
        exact h.refuse hactive
      · rename_i hvalid
        have hacc : c.Accounted id name := h.admitted name query hadmitted (by simpa using hvalid)
        have hown : ∀ {messages : List (StatementMessage ι)},
            (∀ name' text, .parse name' text ∈ messages → name' = name) →
            ∀ name' text, .parse name' text ∈ messages → c.Accounted id name' := fun hparses name' text hmem => by
          rw [hparses name' text hmem]
          exact hacc
        split at hc
        · split at hc
          · cases hc
            exact h.refuse hactive
          · rename_i messages describeSent hsubmit
            cases hc
            refine h.write hnone (hown (fastSubmit_parses hsubmit)) (fun name' query' d f st he => ?_) hunsettled
            cases he
            exact hacc
        · rename_i hfast
          split at hc
          · cases hc
            exact h.refuse hactive
          · rename_i messages hprepare
            cases hc
            refine h.write hnone (hown (hpg _ _ _ _ _ hprepare)) (fun name' query' d f st he => ?_)
              fun submission d f st he => ?_
            · cases he
              exact hacc
            · cases he
              refine ⟨fun hthrows => by rw [hthrows]; rfl, fun _ name' query' he => ?_⟩
              cases he
              simpa using hfast
  · cases hc

omit [DecidableEq ι] in
private theorem Balanced.pulseSubmittable (h : Balanced capacity id server c)
    {scope : Option (StatementCacheInvalidation ι)}
    {armed : Bool} (hc : c.pulseSubmittable scope armed = some c') : Balanced capacity id server c' := by
  unfold StatementClient.pulseSubmittable at hc
  split at hc
  · cases hc
    refine h.write h.admitted (fun name text hmem => ?_) (fun _ _ _ _ _ he => by cases he) fun _ _ _ _ he => by cases he
    cases scope <;> simp at hmem
  · cases hc

/-- The backend executes a Close. -/
private theorem Balanced.serveClose (h : Balanced capacity id server c) (hwire : c.wire = .close name :: wire) :
    Balanced capacity id (Function.update server name none) { c with wire } := by
  have hclose : ∀ name', .close name' ∈ wire → .close name' ∈ c.wire := fun name' hmem =>
    hwire ▸ List.mem_cons_of_mem _ hmem
  have hparsing : ({ c with wire } : StatementClient ι).parsing = c.parsing := by
    simp [StatementClient.parsing, hwire, WireItem.parses]
  have hcovered := h.wire
  rw [hwire] at hcovered
  refine ⟨h.capacity, h.bounded, h.pendingCloses, fun name' hmem => h.closes name' (hclose name' hmem), h.admitted,
    fun name' query d f st he hwhen => h.active name' query d f st he (hparsing ▸ hwhen), h.settled, h.parsed, h.fields,
    hcovered, fun name' hid hsome => ?_⟩
  by_cases he : name' = name
  · subst he
    simp at hsome
  · rw [Function.update_of_ne he] at hsome
    rcases h.stored name' hid hsome with hacc | hmem
    · exact Or.inl hacc
    · rw [hwire] at hmem
      refine Or.inr ((List.mem_cons.mp hmem).resolve_left fun he' => he ?_)
      cases he'
      rfl

/-- The backend executes the messages of a query. -/
private theorem Balanced.serveTrain (h : Balanced capacity id server c) {columns : Bool} {fails : Option Nat}
    (hwire : c.wire = .train messages :: wire) :
    Balanced capacity id (execTrain columns server messages fails).server
      { c with wire, responses := c.responses ++ (execTrain columns server messages fails).responses } := by
  have hclose : ∀ name', .close name' ∈ wire → .close name' ∈ c.wire := fun name' hmem =>
    hwire ▸ List.mem_cons_of_mem _ hmem
  have hparsing : ({ c with wire, responses := c.responses ++ (execTrain columns server messages fails).responses } :
      StatementClient ι).parsing = true → c.parsing = true := by
    intro hp
    simp only [StatementClient.parsing, Bool.or_eq_true, List.any_append, hwire, List.any_cons] at hp ⊢
    rcases hp with hp | hp | hp
    · exact Or.inl (Or.inr hp)
    · exact Or.inr hp
    · exact Or.inl (Or.inl (execTrain_parseComplete hp))
  have hcovered := h.wire
  rw [hwire] at hcovered
  refine ⟨h.capacity, h.bounded, h.pendingCloses, fun name' hmem => h.closes name' (hclose name' hmem), h.admitted,
    fun name' query d f st he hwhen => h.active name' query d f st he (hwhen.imp_right hparsing), h.settled, h.parsed,
    h.fields, hcovered.2, fun name' hid hsome => ?_⟩
  rcases execTrain_stored hsome with hsome | ⟨text, hmem⟩
  · rcases h.stored name' hid hsome with hacc | hmem
    · exact Or.inl hacc
    · rw [hwire] at hmem
      exact Or.inr ((List.mem_cons.mp hmem).resolve_left fun he => by cases he)
  · exact hcovered.1 name' text hmem

omit [DecidableEq ι] in
/-- Fewer entries in the books. -/
private theorem Balanced.forget (h : Balanced capacity id server c) {live : Bool}
    {parsedStatements : StatementName ι → Option SqlText}
    {fieldsCache : StatementName ι → Bool} {evictions : List (StatementCacheInvalidation ι)}
    (hparsed : ∀ name, parsedStatements name ≠ none → c.parsedStatements name ≠ none)
    (hfields : ∀ name, fieldsCache name = true → c.fieldsCache name = true) :
    Balanced capacity id server { c with live, parsedStatements, fieldsCache, evictions } :=
  ⟨h.capacity, h.bounded, h.pendingCloses, h.closes, h.admitted, h.active, h.settled,
    fun name he => h.parsed name (hparsed name he), fun name he => h.fields name (hfields name he), h.wire, h.stored⟩

/-- pg learns what the active query has done. -/
private theorem Balanced.receive (h : Balanced capacity id server c) {response : StatementResponse ι}
    {responses : List (StatementResponse ι)} (hr : c.responses = response :: responses) :
    Balanced capacity id server ({ c with responses }.receive response) := by
  have hparsing : ({ c with responses } : StatementClient ι).parsing = true → c.parsing = true := by
    intro hp
    simp only [StatementClient.parsing, Bool.or_eq_true, hr, List.any_cons] at hp ⊢
    exact hp.imp_right Or.inr
  have hpopped : Balanced capacity id server { c with responses } :=
    ⟨h.capacity, h.bounded, h.pendingCloses, h.closes, h.admitted,
      fun name query d f st he hwhen => h.active name query d f st he (hwhen.imp_right hparsing), h.settled, h.parsed,
      h.fields, h.wire, h.stored⟩
  -- the active query ends
  have hended : ∀ {active : ActiveQuery ι} {busy evictions confirmed} {fieldsCache : StatementName ι → Bool},
      (∀ submission d f st, active ≠ .query submission d f st) →
      (∀ name, fieldsCache name = true → c.Accounted id name) →
      Balanced capacity id server { c with responses, active, busy, evictions, confirmed, fieldsCache } :=
    fun hactive hfields => ⟨h.capacity, h.bounded, h.pendingCloses, h.closes, h.admitted,
      fun _ _ d f st he => absurd he (hactive _ d f st), fun _ d f st he => absurd he (hactive _ d f st), h.parsed,
      hfields, h.wire, h.stored⟩
  have hupdated : ∀ {name query d f st}, c.active = .query (.named name query) d f st → query.fast = true →
      ∀ name', Function.update c.fieldsCache name true name' = true → c.Accounted id name' := by
    intro name query d f st hactive hfast name' he
    by_cases hname : name' = name
    · rw [hname]
      exact h.active name query d f st hactive (Or.inl hfast)
    · rw [Function.update_of_ne hname] at he
      exact h.fields name' he
  cases response with
  | parseComplete =>
    simp only [StatementClient.receive]
    split
    · rename_i name query d f st hactive
      refine ⟨h.capacity, h.bounded, h.pendingCloses, h.closes, h.admitted, hpopped.active, h.settled,
        fun name' he => ?_, h.fields, h.wire, h.stored⟩
      by_cases hname : name' = name
      · rw [hname]
        exact h.active name query d f st hactive (Or.inr
          (by simp [StatementClient.parsing, StatementResponse.isParseComplete, hr]))
      · exact h.parsed name' (by simpa [Function.update_of_ne hname] using he)
    · exact hpopped
  | rowDescription =>
    simp only [StatementClient.receive]
    split
    · rename_i name query d f st hactive
      split
      · rename_i hfast
        refine ⟨h.capacity, h.bounded, h.pendingCloses, h.closes, h.admitted, fun name' query' d' f' st' he _ => ?_,
          fun submission d' f' st' he => ?_, h.parsed, hupdated hactive hfast, h.wire, h.stored⟩
        · cases he
          exact h.active name query d f st hactive (Or.inl hfast)
        · cases he
          exact h.settled _ d f st hactive
      · exact hpopped
    · exact hpopped
  | errorResponse =>
    simp only [StatementClient.receive]
    split <;> exact hended (fun _ _ _ _ he => by cases he) h.fields
  | invalidated scope => exact ⟨h.capacity, h.bounded, h.pendingCloses, h.closes, h.admitted, hpopped.active, h.settled,
      h.parsed, h.fields, h.wire, h.stored⟩
  | readyForQuery =>
    simp only [StatementClient.receive]
    split
    · rename_i submission d f st hactive
      unfold StatementClient.noData
      split
      · rename_i name query
        split
        · rename_i hdescribed
          simp only [Bool.and_eq_true] at hdescribed
          exact hended (fun _ _ _ _ he => by cases he) (hupdated hactive hdescribed.1.1)
        · exact hended (fun _ _ _ _ he => by cases he) h.fields
      · exact hended (fun _ _ _ _ he => by cases he) h.fields
    · exact hended (fun _ _ _ _ he => by cases he) h.fields
    · exact hended (fun _ _ _ _ he => by cases he) h.fields

/-! ### The session -/

namespace StatementSession

variable {s s' : StatementSession ι} {a : StatementAction ι}

omit [DecidableEq ι] in
private theorem initial_balanced (capacity minUsages : Nat) (id : ι) :
    Balanced capacity id (initial capacity minUsages : StatementSession ι).server
      ((initial capacity minUsages : StatementSession ι).client id) where
  capacity := rfl
  bounded := ⟨Nat.zero_le _, List.nodup_nil⟩
  pendingCloses _ hmem := by cases hmem
  closes _ hmem := by cases hmem
  admitted _ _ he := by cases he
  active _ _ _ _ _ he := by cases he
  settled _ _ _ _ he := by cases he
  parsed _ he := absurd rfl he
  fields _ he := by cases he
  wire := trivial
  stored _ _ he := absurd rfl he

/-- What an execution submits is still given. -/
def SubmitsHeld (s : StatementSession ι) : StatementAction ι → Prop
  | .execute id => (s.client id).SubmitsHeld id
  | _ => True

instance (s : StatementSession ι) : (a : StatementAction ι) → Decidable (s.SubmitsHeld a)
  | .execute id => inferInstanceAs (Decidable ((s.client id).SubmitsHeld id))
  | .call .. | .expire _ | .pulse _ | .pulseSubmittable .. | .serve .. | .receive _ | .evict _ | .deregister _ =>
    isTrue trivial

/-- A step of one client that stores no statement of another. -/
private theorem balanced_set {c : StatementClient ι} (violations : List (StatementViolation ι))
    (h : ∀ id', Balanced capacity id' s.server (s.client id')) (hc : Balanced capacity id server c)
    (hothers : ∀ name, name.client ≠ id → server name ≠ none → s.server name ≠ none) (id' : ι) :
    Balanced capacity id' server (({ s.set id c with server, violations } : StatementSession ι).client id') := by
  show Balanced capacity id' server (Function.update s.client id c id')
  by_cases he : id' = id
  · subst he
    rw [Function.update_self]
    exact hc
  · rw [Function.update_of_ne he]
    exact (h id').fewer fun name hid => hothers name fun hid' => he (hid.symm.trans hid')

private theorem balanced_serve (h : ∀ id', Balanced capacity id' s.server (s.client id')) {fails : Option Nat}
    {columns : Bool}
    (hs : s.serve id fails columns = some s') (id' : ι) : Balanced capacity id' s'.server (s'.client id') := by
  unfold StatementSession.serve at hs
  split at hs
  · cases hs
  · rename_i name wire hwire
    cases hs
    refine balanced_set _ h ((h id).serveClose hwire) (fun name' hne hsome => ?_) id'
    by_cases he : name' = name
    · subst he
      simp at hsome
    · rwa [Function.update_of_ne he] at hsome
  · rename_i messages wire hwire
    cases hs
    refine balanced_set _ h ((h id).serveTrain hwire) (fun name hne hsome => ?_) id'
    refine (execTrain_stored hsome).resolve_right fun hparse => hne ?_
    obtain ⟨text, hmem⟩ := hparse
    have hcovered := (h id).wire
    rw [hwire] at hcovered
    rcases hcovered.1 name text hmem with hacc | hclose
    · exact (h id).owned hacc
    · exact (h id).closes name (hwire ▸ List.mem_cons_of_mem _ hclose)

private theorem balanced_step (hpg : pg.ParsesOwn) (h : ∀ id', Balanced capacity id' s.server (s.client id'))
    (hheld : s.SubmitsHeld a) (hs : step pg s a = some s') (id' : ι) :
    Balanced capacity id' s'.server (s'.client id') := by
  have hset : ∀ {id : ι} {c : StatementClient ι}, Balanced capacity id s.server c →
      Balanced capacity id' s.server ((s.set id c).client id') := fun hc =>
    balanced_set s.violations h hc (fun _ _ hsome => hsome) id'
  cases a with
  | call id call =>
    simp only [StatementSession.step] at hs
    split at hs
    · cases hs
      exact hset ((h id).call call)
    · cases hs
  | execute id =>
    obtain ⟨c, hc, rfl⟩ := Option.map_eq_some_iff.mp hs
    exact hset ((h id).execute hheld hc)
  | expire id =>
    obtain ⟨c, hc, rfl⟩ := Option.map_eq_some_iff.mp hs
    exact hset ((h id).expire hc)
  | pulse id =>
    obtain ⟨c, hc, rfl⟩ := Option.map_eq_some_iff.mp hs
    exact hset ((h id).pulse hpg hc)
  | pulseSubmittable id scope armed =>
    simp only [StatementSession.step] at hs
    split at hs
    · obtain ⟨c, hc, rfl⟩ := Option.map_eq_some_iff.mp hs
      exact hset ((h id).pulseSubmittable hc)
    · cases hs
  | serve id fails columns => exact balanced_serve h hs id'
  | receive id =>
    simp only [StatementSession.step] at hs
    split at hs
    · cases hs
    · rename_i response responses hr
      cases hs
      exact hset ((h id).receive hr)
  | evict id =>
    simp only [StatementSession.step] at hs
    split at hs
    · cases hs
    · rename_i scope evictions _
      cases hs
      have hpopped : Balanced capacity id' s.server ((s.set id { s.client id with evictions }).client id') :=
        hset ((h id).forget (fun _ he => he) fun _ he => he)
      simp only [evictStatementCachesEverywhere]
      split
      · refine hpopped.forget (fun name he => ?_) fun name he => ?_
        · split at he
          · exact absurd rfl he
          · exact he
        · rw [Bool.and_eq_true] at he
          exact he.1
      · exact hpopped
  | deregister id =>
    simp only [StatementSession.step] at hs
    split at hs
    · cases hs
      exact hset ((h id).forget (fun _ he => he) fun _ he => he)
    · cases hs

/-! ### Every run -/

/-- The names whose Close is written. -/
def closing (wire : List (WireItem ι)) : List (StatementName ι) :=
  wire.filterMap fun
    | .close name => some name
    | .train _ => none

omit [DecidableEq ι] in
private theorem mem_closing : name ∈ closing wire ↔ .close name ∈ wire := by
  simp only [closing, List.mem_filterMap]
  constructor
  · rintro ⟨item, hmem, he⟩
    cases item with
    | close name' =>
      cases he
      exact hmem
    | train => cases he
  · intro hmem
    exact ⟨_, hmem, rfl⟩

theorem balanced_run (hpg : pg.ParsesOwn) {capacity minUsages : Nat}
    (run : Run (step pg) SubmitsHeld (initial capacity minUsages) s) :
    ∀ id, Balanced capacity id s.server (s.client id) :=
  run.invariant (initial_balanced capacity minUsages) fun _ _ _ h hheld hstep => balanced_step hpg h hheld hstep

/-- Every statement of a client on the server, every entry of its `parsedStatements` and every key of its fields cache
is still given or waits for its Close; so the client has no more statements than its capacity and these Closes. -/
theorem statements_accounted (hpg : pg.ParsesOwn) {capacity minUsages : Nat}
    (run : Run (step pg) SubmitsHeld (initial capacity minUsages) s) (id : ι) :
    (∀ name, name.client = id → s.server name ≠ none →
      (s.client id).Accounted id name ∨ .close name ∈ (s.client id).wire) ∧
    (∀ name, (s.client id).parsedStatements name ≠ none → (s.client id).Accounted id name) ∧
    (∀ name, (s.client id).fieldsCache name = true → (s.client id).Accounted id name) ∧
    (1 ≤ capacity → ∀ names : List (StatementName ι), names.Nodup →
      (∀ name ∈ names, name.client = id ∧ s.server name ≠ none) →
        names.length ≤ capacity + (s.client id).pendingCloses.length + (closing (s.client id).wire).length) := by
  have h := balanced_run hpg run id
  refine ⟨h.stored, h.parsed, h.fields, fun hcapacity names hnodup hnames => ?_⟩
  have hsubset : names ⊆ (s.client id).held id ++ (s.client id).pendingCloses ++ closing (s.client id).wire := by
    intro name hmem
    obtain ⟨hid, hsome⟩ := hnames name hmem
    rw [List.mem_append, List.mem_append, mem_closing]
    exact h.stored name hid hsome
  have hlength := (hnodup.subperm hsubset).length_le
  have hheld : ((s.client id).held id).length ≤ max capacity 1 := by
    have hle := h.bounded.length
    rw [h.capacity] at hle
    simpa [StatementClient.held] using hle
  rw [List.length_append, List.length_append] at hlength
  omega

theorem statements_accounted_takingTurns : ∃ s : StatementSession Unit,
    Run (step stockQuery) SubmitsHeld (initial 1 1) s ∧ (s.client ()).generator.seq = 3 ∧
      ∀ names : List (StatementName Unit), names.Nodup → (∀ name ∈ names, name.client = () ∧ s.server name ≠ none) →
        names.length ≤ 1 + (s.client ()).pendingCloses.length + (closing (s.client ()).wire).length := by
  have hexists : ∃ s : StatementSession Unit, Run (step stockQuery) SubmitsHeld (initial 1 1) s ∧
      (s.client ()).generator.seq = 3 := exists_run takingTurns (by decide)
  obtain ⟨s, run, hseq⟩ := hexists
  exact ⟨s, run, hseq, (statements_accounted stockQuery_parsesOwn run ()).2.2.2 (le_refl 1)⟩

/-- While a first query is in flight two more are called: the one waits on the chain when the other's call evicts its
name.  `query` on an idle chain executes at once, so the first query's `execute` comes before the other calls. -/
def evictedWhileQueued : List (StatementAction Unit) :=
  [.call () (.sql { text := "SELECT 0".toList, injectable := false }), .execute (), .pulse (),
    .call () (.sql select), .call () (.sql { select with text := "VALUES ($1)".toList }),
    .serve () none false, .receive (),
    .execute (), .pulse (), .serve () none false, .serve () none false, .receive (), .receive (),
    .execute (), .pulse (), .serve () none false, .receive (), .receive ()]

theorem evictedWhileQueued_leaks :
    ¬ ∀ pg : StockQuery, pg.Prepares → pg.ClosesOnThrow → pg.ParsesOwn → ∀ capacity minUsages, 1 ≤ capacity →
      1 ≤ minUsages → ∀ s : StatementSession Unit,
        Run (step pg) (fun s a => a.OwnTraffic ∧ s.Serialises a) (initial capacity minUsages) s →
          ∀ id, (s.client id).drained = true →
            (∀ name, name.client = id → s.server name ≠ none →
              (s.client id).Accounted id name ∨ .close name ∈ (s.client id).wire) ∧
            (∀ names : List (StatementName Unit), names.Nodup →
              (∀ name ∈ names, name.client = id ∧ s.server name ≠ none) →
                names.length ≤ capacity + (s.client id).pendingCloses.length) := by
  intro hclaim
  have hexists : ∃ s : StatementSession Unit,
      Run (step stockQuery) (fun s a => a.OwnTraffic ∧ s.Serialises a) (initial 1 1) s ∧
        (s.client ()).drained = true ∧ (s.client ()).pendingCloses = [] ∧
          s.server ⟨(), 0⟩ ≠ none ∧ s.server ⟨(), 1⟩ ≠ none := exists_run evictedWhileQueued (by decide)
  obtain ⟨s, run, hdrained, hpending, hfirst, hsecond⟩ := hexists
  obtain ⟨-, hcount⟩ := hclaim stockQuery stockQuery_prepares stockQuery_closesOnThrow stockQuery_parsesOwn 1 1
    (le_refl 1) (le_refl 1) s run () hdrained
  have hle := hcount [⟨(), 0⟩, ⟨(), 1⟩] (by decide) (by simp [hfirst, hsecond])
  rw [hpending] at hle
  simp at hle

end StatementSession

end PgliteBridge
