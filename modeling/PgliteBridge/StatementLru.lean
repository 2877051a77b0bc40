import PgliteBridge.Lru
import PgliteBridge.StatementLeaks

/-!
# The generator is a gated LRU

The insertion order of the two maps of `createStatementNameGenerator` is the order of the last use.  The reference keeps
times instead (`GatedLru`), and the generator gives its answers and evictions (`next_simulates`).  The names of
different generators differ, since each takes a namespace of its own from the global slot (`generators_lawful`).
-/

namespace PgliteBridge

open Lru

/-- A single statement of a cacheable shape. -/
def nameable (sql : SqlText) : Bool := isCacheableSql sql && !sql.contains ';'

/-! ### The reference -/

structure GatedLru where
  capacity : Nat
  minUsages : Nat
  now : Nat
  counts : Cache SqlText Nat
  names : Cache SqlText Nat
  issued : Nat

namespace GatedLru

structure Answer where
  name : Option Nat
  evicted : Finset Nat

def fresh (capacity minUsages : Nat) : GatedLru := ⟨capacity, minUsages, 0, .empty, .empty, 0⟩

variable (r : GatedLru)

def promote (sql : SqlText) : Answer × GatedLru :=
  let full := decide (r.capacity ≤ r.names.keys.card)
  (⟨some r.issued, if full then r.names.oldest.image r.names.value else ∅⟩,
    { r with
      now := r.now + 1
      counts := r.counts.erase sql
      names := (if full then r.names.dropOldest else r.names).use sql r.issued r.now
      issued := r.issued + 1 })

/-- A text is seen. -/
def see (sql : SqlText) : Answer × GatedLru :=
  if !nameable sql then (⟨none, ∅⟩, r)
  else
    match r.names.get? sql with
    | some name => (⟨some name, ∅⟩, { r with now := r.now + 1, names := r.names.use sql name r.now })
    | none =>
      let count := (r.counts.get? sql).getD 0 + 1
      if count < r.minUsages then
        let counts := r.counts.use sql count r.now
        (⟨none, ∅⟩,
          { r with
            now := r.now + 1
            counts := if r.capacity < counts.keys.card then counts.dropOldest else counts })
      else r.promote sql

def answers (r : GatedLru) : List SqlText → List Answer
  | [] => []
  | sql :: texts => (r.see sql).1 :: (r.see sql).2.answers texts

end GatedLru

/-! ### One call -/

namespace NameGenerator

/-- What one call of the generator may do. -/
inductive Step (g : NameGenerator) (sql : SqlText) : Naming → Prop
  | ignored (hshape : nameable sql = false) : Step g sql ⟨none, none, g⟩
  | refreshed (name : Nat) (hshape : nameable sql = true) (hname : mapGet g.names sql = some name) :
    Step g sql ⟨some name, none, { g with names := mapDelete g.names sql ++ [(sql, name)] }⟩
  | counted (counts : List (SqlText × Nat)) (hshape : nameable sql = true) (hnew : mapGet g.names sql = none)
    (hkeys : counts.map Prod.fst = bump g.capacity (g.counts.map Prod.fst) sql) :
    Step g sql ⟨none, none, { g with counts }⟩
  | promoted (hshape : nameable sql = true) (hnew : mapGet g.names sql = none)
    (hcount : g.minUsages ≤ (mapGet g.counts sql).getD 0 + 1) :
    Step g sql ({ g with counts := mapDelete g.counts sql }.promote sql)

theorem next_step (g : NameGenerator) (sql : SqlText) : Step g sql (g.next sql) := by
  unfold next
  by_cases hnameable : nameable sql = true
  · have hshape : (!isCacheableSql sql || sql.contains ';') = false := by simpa [nameable] using hnameable
    rw [hshape, if_neg Bool.false_ne_true]
    split
    · rename_i name hname
      exact Step.refreshed name hnameable hname
    · rename_i hnew
      unfold count
      dsimp only
      split
      · refine Step.counted _ hnameable hnew ?_
        have hdelete : (mapDelete g.counts sql).map Prod.fst = (g.counts.map Prod.fst).filter (· ≠ sql) := by
          rw [List.filter_map]
          rfl
        unfold bump
        rw [← hdelete]
        simp only [List.length_append, List.length_map, List.length_singleton]
        split
        · rw [List.map_tail, List.map_append]
          rfl
        · rw [List.map_append]
          rfl
      · rename_i hcount
        exact Step.promoted hnameable hnew (Nat.le_of_not_lt hcount)
  · have hshape : (!isCacheableSql sql || sql.contains ';') = true := by
      have hnot := eq_false_of_ne_true hnameable
      revert hnot
      unfold nameable
      cases isCacheableSql sql <;> simp
    rw [hshape, if_pos rfl]
    exact Step.ignored (eq_false_of_ne_true hnameable)

private theorem promote_evicted (g : NameGenerator) (sql : SqlText) :
    (g.promote sql).evicted = (if g.capacity ≤ g.names.length then g.names.head?.map Prod.snd else none) ∧
      (g.promote sql).generator.names =
        (if g.capacity ≤ g.names.length then g.names.tail else g.names) ++ [(sql, g.seq)] := by
  by_cases hfull : g.capacity ≤ g.names.length <;> simp [promote, hfull]

end NameGenerator

/-! ### Simulation -/

namespace NameGenerator

/-- The maps in insertion order are the caches in order of the last use. -/
structure Simulates (g : NameGenerator) (r : GatedLru) : Prop where
  capacity : g.capacity = r.capacity
  minUsages : g.minUsages = r.minUsages
  counts : Represents g.counts r.counts r.now
  names : Represents g.names r.names r.now
  seq : g.seq = r.issued

/-- Name and eviction of a call are those of the reference, and the states stay in step. -/
structure Answers (naming : Naming) (result : GatedLru.Answer × GatedLru) : Prop where
  name : naming.name = result.1.name
  evicted : naming.evicted.toFinset = result.1.evicted
  simulates : Simulates naming.generator result.2

variable {g : NameGenerator} {r : GatedLru} {sql : SqlText}

private theorem promote_simulates (h : Simulates g r) (hsql : sql ∉ g.names.map Prod.fst) :
    Answers ({ g with counts := mapDelete g.counts sql }.promote sql) (r.promote sql) := by
  have hcard := h.names.card_keys
  have hcapacity := h.capacity
  have hcounts : Represents (mapDelete g.counts sql) (r.counts.erase sql) (r.now + 1) :=
    (h.counts.erase sql).mono (Nat.le_succ _)
  refine ⟨congrArg some h.seq, ?_, h.capacity, h.minUsages, hcounts, ?_, congrArg (· + 1) h.seq⟩
  · simp only [promote, GatedLru.promote, h.names.image_oldest, ← hcapacity, hcard]
    split
    · rfl
    · rfl
  · simp only [promote, GatedLru.promote, ← hcapacity, hcard, h.seq]
    split
    · refine h.names.dropOldest.use_new (fun hmem => hsql ?_) r.issued
      rw [List.map_tail] at hmem
      exact List.mem_of_mem_tail hmem
    · exact h.names.use_new hsql r.issued

/-- One call of the generator. -/
theorem next_simulates (h : Simulates g r) (sql : SqlText) : Answers (g.next sql) (r.see sql) := by
  have hget : ∀ {map : List (SqlText × Nat)} {c : Cache SqlText Nat}, Represents map c r.now →
      mapGet map sql = c.get? sql := fun hmap => (hmap.get? sql).symm
  unfold next GatedLru.see
  by_cases hnameable : nameable sql = true
  · have hshape : (!isCacheableSql sql || sql.contains ';') = false := by
      simpa [nameable] using hnameable
    rw [hshape, hnameable, hget h.names]
    simp only [Bool.false_eq_true, if_false, Bool.not_true]
    cases hname : r.names.get? sql with
    | some name => exact ⟨rfl, rfl, h.capacity, h.minUsages, h.counts.mono (Nat.le_succ _), h.names.use sql name, h.seq⟩
    | none =>
      simp only [count, hget h.counts, ← h.minUsages]
      split
      · have huse : Represents (mapDelete g.counts sql ++ [(sql, (r.counts.get? sql).getD 0 + 1)])
            (r.counts.use sql ((r.counts.get? sql).getD 0 + 1) r.now) (r.now + 1) := h.counts.use sql _
        have hcard := huse.card_keys
        refine ⟨rfl, rfl, h.capacity, rfl, ?_, h.names.mono (Nat.le_succ _), h.seq⟩
        simp only [hcard, ← h.capacity]
        split
        · exact huse.dropOldest
        · exact huse
      · exact promote_simulates h (not_mem_of_mapGet ((hget h.names).trans hname))
  · have hshape : (!isCacheableSql sql || sql.contains ';') = true := by
      have hnot := eq_false_of_ne_true hnameable
      revert hnot
      unfold nameable
      cases isCacheableSql sql <;> simp
    rw [hshape, eq_false_of_ne_true hnameable]
    exact ⟨rfl, rfl, h⟩

/-! ### Runs -/

/-- The calls with the texts, one after the other. -/
def calls (g : NameGenerator) : List SqlText → List Naming
  | [] => []
  | sql :: texts => g.next sql :: (g.next sql).generator.calls texts

def after (g : NameGenerator) (texts : List SqlText) : NameGenerator :=
  texts.foldl (fun g sql => (g.next sql).generator) g

theorem calls_append_singleton (g : NameGenerator) (texts : List SqlText) (sql : SqlText) :
    g.calls (texts ++ [sql]) = g.calls texts ++ [(g.after texts).next sql] := by
  induction texts generalizing g with
  | nil => rfl
  | cons first texts ih => exact congrArg (g.next first :: ·) (ih (g.next first).generator)

theorem after_append (g : NameGenerator) (texts texts' : List SqlText) :
    g.after (texts ++ texts') = (g.after texts).after texts' := List.foldl_append

/-- What a call does, in order. -/
inductive Event
  | onEvict (name : Nat)
  | returned (name : Option Nat)
deriving DecidableEq, Repr

end NameGenerator

open NameGenerator (Event) in
def Naming.events (naming : Naming) : List Event := naming.evicted.toList.map .onEvict ++ [.returned naming.name]

/-- `onEvict` is called once for every name that is evicted, and then the answer is returned. -/
def GatedLru.Answer.Fires (answer : GatedLru.Answer) (events : List NameGenerator.Event) : Prop :=
  ∃ evictions : List Nat, evictions.Nodup ∧ evictions.toFinset = answer.evicted ∧
    events = evictions.map .onEvict ++ [.returned answer.name]

namespace NameGenerator

variable {g : NameGenerator} {r : GatedLru} {sql : SqlText} {texts : List SqlText}

private theorem fresh_simulates (capacity minUsages : Nat) :
    Simulates { capacity, minUsages } (GatedLru.fresh capacity minUsages) :=
  ⟨rfl, rfl, represents_empty 0, represents_empty 0, rfl⟩

private theorem Answers.fires {naming : Naming} {result : GatedLru.Answer × GatedLru} (h : Answers naming result) :
    result.1.Fires naming.events := by
  refine ⟨naming.evicted.toList, ?_, ?_, ?_⟩
  · cases naming.evicted <;> simp
  · rw [← h.evicted]
    cases naming.evicted <;> rfl
  · rw [← h.name]
    rfl

private theorem calls_fires (h : Simulates g r) (texts : List SqlText) :
    List.Forall₂ GatedLru.Answer.Fires (r.answers texts) ((g.calls texts).map Naming.events) := by
  induction texts generalizing g r with
  | nil => exact List.Forall₂.nil
  | cons sql texts ih =>
    have hnext := next_simulates h sql
    exact List.Forall₂.cons hnext.fires (ih hnext.simulates)

/-! ### Names are never used again -/

/-- The names that are held differ and have been given. -/
structure Held (g : NameGenerator) : Prop where
  bounded : g.Bounded
  nodup : (g.names.map Prod.snd).Nodup
  given : ∀ entry ∈ g.names, entry.2 < g.seq

/-- A name that has been given and is held no more. -/
structure Gone (g : NameGenerator) (name : Nat) : Prop where
  given : name < g.seq
  released : name ∉ g.names.map Prod.snd

private theorem next_gone (sql : SqlText) {name : Nat} (h : Gone g name) :
    (g.next sql).name ≠ some name ∧ Gone (g.next sql).generator name := by
  have hspec := next_step g sql
  generalize g.next sql = naming at hspec ⊢
  cases hspec with
  | ignored hshape => exact ⟨by simp, h⟩
  | counted counts hshape hnew hkeys => exact ⟨by simp, h.given, h.released⟩
  | refreshed cached hshape hname =>
    have hmem : cached ∈ g.names.map Prod.snd := List.mem_map_of_mem (f := Prod.snd) (mem_of_mapGet hname)
    have hne : cached ≠ name := fun he => h.released (he ▸ hmem)
    refine ⟨by simpa using hne, h.given, ?_⟩
    simp only [List.map_append, List.mem_append, not_or]
    refine ⟨fun hkept => h.released ?_, by simpa using hne.symm⟩
    exact (List.filter_sublist.map Prod.snd).mem hkept
  | promoted hshape hnew hcount =>
    have hgiven := h.given
    have hne : g.seq ≠ name := by omega
    refine ⟨by simpa [promote] using hne, Nat.lt_succ_of_lt hgiven, ?_⟩
    rw [(promote_evicted _ sql).2]
    simp only [List.map_append, List.mem_append, not_or]
    refine ⟨fun hkept => h.released ?_, by simpa using hne.symm⟩
    split at hkept
    · exact ((List.tail_sublist _).map Prod.snd).mem hkept
    · exact hkept

private theorem next_held (h : Held g) (sql : SqlText) :
    Held (g.next sql).generator ∧ ∀ name, (g.next sql).evicted = some name → Gone (g.next sql).generator name := by
  have hbounded := (next_retains h.bounded sql).bounded
  have hspec := next_step g sql
  generalize g.next sql = naming at hspec hbounded ⊢
  cases hspec with
  | ignored hshape => exact ⟨h, by simp⟩
  | counted counts hshape hnew hkeys => exact ⟨⟨hbounded, h.nodup, h.given⟩, by simp⟩
  | refreshed cached hshape hname =>
    have hmem := mem_of_mapGet hname
    refine ⟨⟨hbounded, ?_, fun entry hentry => ?_⟩, by simp⟩
    · rw [List.map_append]
      refine List.nodup_append.mpr ⟨h.nodup.sublist (List.filter_sublist.map _), List.nodup_singleton _, ?_⟩
      intro name hkept name' hlast
      obtain ⟨entry, hentry, rfl⟩ := List.mem_map.mp hkept
      obtain ⟨hentry, hother⟩ := List.mem_filter.mp hentry
      intro he
      have hsame := List.inj_on_of_nodup_map h.nodup hentry hmem (he.trans (List.mem_singleton.mp hlast))
      simp [hsame] at hother
    · rcases List.mem_append.mp hentry with hkept | hlast
      · exact h.given entry (List.mem_filter.mp hkept).1
      · rw [List.mem_singleton.mp hlast]
        exact h.given _ hmem
  | promoted hshape hnew hcount =>
    obtain ⟨hevicted, hnames⟩ := promote_evicted { g with counts := mapDelete g.counts sql } sql
    have hkept : ∀ entry ∈ (if g.capacity ≤ g.names.length then g.names.tail else g.names), entry ∈ g.names := by
      intro entry hentry
      split at hentry
      · exact List.mem_of_mem_tail hentry
      · exact hentry
    refine ⟨⟨hbounded, ?_, fun entry hentry => ?_⟩, fun name hname => ⟨?_, ?_⟩⟩
    · rw [hnames, List.map_append]
      refine List.nodup_append.mpr ⟨?_, List.nodup_singleton _, fun name hmem name' hlast he => ?_⟩
      · split
        · exact h.nodup.sublist ((List.tail_sublist _).map _)
        · exact h.nodup
      · obtain ⟨entry, hentry, rfl⟩ := List.mem_map.mp hmem
        have hgiven := h.given entry (hkept entry hentry)
        have hseq : entry.2 = g.seq := he.trans (List.mem_singleton.mp hlast)
        omega
    · rw [hnames] at hentry
      rcases List.mem_append.mp hentry with hmem | hlast
      · exact Nat.lt_succ_of_lt (h.given entry (hkept entry hmem))
      · rw [List.mem_singleton.mp hlast]
        exact Nat.lt_succ_self _
    · rw [hevicted] at hname
      split at hname
      · obtain ⟨entry, hhead, rfl⟩ := Option.map_eq_some_iff.mp hname
        exact Nat.lt_succ_of_lt (h.given entry (List.mem_of_mem_head? hhead))
      · cases hname
    · rw [hevicted] at hname
      rw [hnames]
      split at hname
      · rename_i hfull
        obtain ⟨entry, hhead, rfl⟩ := Option.map_eq_some_iff.mp hname
        have hgiven := h.given entry (List.mem_of_mem_head? hhead)
        obtain ⟨rest, hrest⟩ : ∃ rest, g.names = entry :: rest := by
          cases hcases : g.names with
          | nil => simp [hcases] at hhead
          | cons first rest => exact ⟨rest, by simp [hcases] at hhead; rw [hhead]⟩
        have hnodup := h.nodup
        rw [if_pos hfull]
        change entry.2 ∉ (g.names.tail ++ [(sql, g.seq)]).map Prod.snd
        rw [hrest, List.map_cons, List.nodup_cons] at hnodup
        rw [hrest]
        simp only [List.tail_cons, List.map_append, List.map_cons, List.map_nil, List.mem_append, List.mem_singleton,
          not_or]
        exact ⟨hnodup.1, by omega⟩
      · cases hname

private theorem held_fresh (capacity minUsages : Nat) : Held { capacity, minUsages } :=
  ⟨⟨Nat.zero_le _, List.nodup_nil⟩, List.nodup_nil, by simp⟩

private theorem after_held (h : Held g) (texts : List SqlText) : Held (g.after texts) := by
  induction texts generalizing g with
  | nil => exact h
  | cons sql texts ih => exact ih (next_held h sql).1

private theorem calls_gone {name : Nat} (h : Gone g name) (texts : List SqlText) :
    ∀ naming ∈ g.calls texts, naming.name ≠ some name := by
  induction texts generalizing g with
  | nil => simp [calls]
  | cons sql texts ih =>
    intro naming hnaming
    rcases List.mem_cons.mp hnaming with rfl | hrest
    · exact (next_gone sql h).1
    · exact ih (next_gone sql h).2 naming hrest

private theorem calls_same_text {textOf : Nat → SqlText} (h : g.Names textOf) (texts : List SqlText) :
    ∃ textOf' : Nat → SqlText, (∀ name < g.seq, textOf' name = textOf name) ∧
      ∀ call ∈ texts.zip (g.calls texts), ∀ name, call.2.name = some name → textOf' name = call.1 := by
  induction texts generalizing g textOf with
  | nil => exact ⟨textOf, fun _ _ => rfl, by simp [calls]⟩
  | cons sql texts ih =>
    obtain ⟨textOf₁, hgives⟩ := next_gives h sql
    obtain ⟨textOf₂, hsame, hcalls⟩ := ih hgives.names
    have hseq := hgives.seq
    refine ⟨textOf₂, fun name hname => (hsame name (by omega)).trans (hgives.same name hname), fun call hcall => ?_⟩
    rcases List.mem_cons.mp hcall with rfl | hrest
    · intro name hname
      obtain ⟨htext, hlt⟩ := hgives.name name hname
      exact (hsame name hlt).trans htext
    · exact hcalls call hrest

/-- No name is given to two texts, and none is given once it is evicted. -/
structure GivenOnce (texts : List SqlText) (namings : List Naming) : Prop where
  sameText : ∀ call ∈ texts.zip namings, ∀ call' ∈ texts.zip namings, ∀ name,
    call.2.name = some name → call'.2.name = some name → call.1 = call'.1
  another : ∀ naming ∈ namings, ∀ name, naming.evicted = some name → naming.name ≠ some name
  notAgain : namings.Pairwise fun before behind => ∀ name, before.evicted = some name → behind.name ≠ some name

private theorem calls_given_once (h : Held g) {textOf : Nat → SqlText} (hnames : g.Names textOf)
    (texts : List SqlText) :
    GivenOnce texts (g.calls texts) := by
  obtain ⟨textOf', -, hcalls⟩ := calls_same_text hnames texts
  refine ⟨fun call hcall call' hcall' name hname hname' => ?_, ?_, ?_⟩
  · rw [← hcalls call hcall name hname, hcalls call' hcall' name hname']
  · clear hcalls hnames
    induction texts generalizing g with
    | nil => simp [calls]
    | cons sql texts ih =>
      intro naming hnaming name hevicted
      rcases List.mem_cons.mp hnaming with rfl | hrest
      · intro hname
        obtain ⟨entry, hentry, rfl⟩ := (next_retains h.bounded sql).given name hname
        exact ((next_held h sql).2 _ hevicted).released (List.mem_map_of_mem hentry)
      · exact ih (next_held h sql).1 naming hrest name hevicted
  · clear hcalls hnames
    induction texts generalizing g with
    | nil => exact List.Pairwise.nil
    | cons sql texts ih =>
      refine List.pairwise_cons.mpr ⟨fun naming hnaming name hevicted => ?_, ih (next_held h sql).1⟩
      exact calls_gone ((next_held h sql).2 name hevicted) texts naming hnaming

end NameGenerator

/-! ### Namespaces -/

/-- What `globalThis` holds for `NAMESPACE_SEQ`. -/
inductive NamespaceSlot
  | counter (value : Nat)
  /-- Nothing, or something that is no counter. -/
  | other
deriving DecidableEq, Repr

def nextNamespace (slot : NamespaceSlot) : Nat × NamespaceSlot :=
  let id := match slot with
    | .counter value => value
    | .other => 0
  (id, .counter (id + 1))

def statementName (id seq : Nat) : String := "ppb_" ++ toString id ++ "_" ++ toString seq

private theorem append_cons_inj {α : Type} {x : α} {l l' m m' : List α} (hl : x ∉ l) (hl' : x ∉ l')
    (h : l ++ x :: m = l' ++ x :: m') : l = l' ∧ m = m' := by
  induction l generalizing l' with
  | nil =>
    cases l' with
    | nil => exact ⟨rfl, (List.cons.inj h).2⟩
    | cons a l' => exact (hl' (by simp [(List.cons.inj h).1])).elim
  | cons a l ih =>
    cases l' with
    | nil => exact (hl (by simp [(List.cons.inj h).1])).elim
    | cons b l' =>
      obtain ⟨rfl, hrest⟩ := List.cons.inj h
      obtain ⟨rfl, hm⟩ := ih (fun hmem => hl (List.mem_cons_of_mem _ hmem))
        (fun hmem => hl' (List.mem_cons_of_mem _ hmem)) hrest
      exact ⟨rfl, hm⟩

/-- A number is read back up to the underscore. -/
private theorem statementName_inj {id id' seq seq' : Nat} (h : statementName id seq = statementName id' seq') :
    id = id' ∧ seq = seq' := by
  have hdigits : ∀ {n m : Nat}, Nat.toDigits 10 n = Nat.toDigits 10 m → n = m := by
    intro n m hnm
    rw [← Nat.ofDigitChars_ten_toDigits (n := n), hnm, Nat.ofDigitChars_ten_toDigits]
  have hlist := congrArg String.toList h
  simp only [statementName, String.toList_append, Nat.toString_eq_repr, Nat.toList_repr, List.append_assoc] at hlist
  have htail := List.append_cancel_left hlist
  obtain ⟨hid, hseq⟩ := append_cons_inj Nat.underscore_not_in_toDigits Nat.underscore_not_in_toDigits htail
  exact ⟨hdigits hid, hdigits hseq⟩

/-- A generator, the texts it has been called with and its answers. -/
structure CreatedGenerator where
  id : Nat
  generator : NameGenerator
  texts : List SqlText
  namings : List Naming

namespace CreatedGenerator

def see (c : CreatedGenerator) (sql : SqlText) : CreatedGenerator :=
  { c with
    generator := (c.generator.next sql).generator
    texts := c.texts ++ [sql]
    namings := c.namings ++ [c.generator.next sql] }

/-- The names that it has issued. -/
def issued (c : CreatedGenerator) : List String :=
  c.namings.filterMap fun naming => naming.name.map (statementName c.id)

end CreatedGenerator

/-- The generators of a process. -/
structure Generators where
  slot : NamespaceSlot
  created : List CreatedGenerator

namespace Generators

inductive Action
  /-- `createStatementNameGenerator` -/
  | create (capacity minUsages : Nat)
  | see (index : Nat) (sql : SqlText)
deriving DecidableEq, Repr

def step (gs : Generators) : Action → Generators
  | .create capacity minUsages =>
    { slot := (nextNamespace gs.slot).2
      created := gs.created ++ [⟨(nextNamespace gs.slot).1, { capacity, minUsages }, [], []⟩] }
  | .see index sql => { gs with created := gs.created.modify index (·.see sql) }

def run (gs : Generators) (actions : List Action) : Generators := actions.foldl step gs

/-- Options are positive. -/
def Action.Positive : Action → Prop
  | .create capacity minUsages => 1 ≤ capacity ∧ 1 ≤ minUsages
  | .see _ _ => True

end Generators

/-! ### The law -/

/-- The generator does what the gated LRU does, holds no more names than its capacity and gives every name once. -/
structure CreatedGenerator.Lawful (c : CreatedGenerator) : Prop where
  fires : List.Forall₂ GatedLru.Answer.Fires
    ((GatedLru.fresh c.generator.capacity c.generator.minUsages).answers c.texts) (c.namings.map Naming.events)
  ignored : ∀ sql, nameable sql = false → c.generator.next sql = ⟨none, none, c.generator⟩
  bounded : c.generator.names.length ≤ c.generator.capacity
  once : NameGenerator.GivenOnce c.texts c.namings

namespace NameGenerator

private theorem next_options (g : NameGenerator) (sql : SqlText) :
    (g.next sql).generator.capacity = g.capacity ∧ (g.next sql).generator.minUsages = g.minUsages := by
  have hspec := next_step g sql
  generalize g.next sql = naming at hspec
  cases hspec <;> exact ⟨rfl, rfl⟩

theorem after_options (g : NameGenerator) (texts : List SqlText) :
    (g.after texts).capacity = g.capacity ∧ (g.after texts).minUsages = g.minUsages := by
  induction texts generalizing g with
  | nil => exact ⟨rfl, rfl⟩
  | cons sql texts ih =>
    obtain ⟨hcapacity, hminUsages⟩ := next_options g sql
    obtain ⟨hcapacity', hminUsages'⟩ := ih (g.next sql).generator
    exact ⟨hcapacity'.trans hcapacity, hminUsages'.trans hminUsages⟩

private theorem next_ignored (g : NameGenerator) {sql : SqlText} (h : nameable sql = false) :
    g.next sql = ⟨none, none, g⟩ := by
  have hspec := next_step g sql
  generalize g.next sql = naming at hspec
  cases hspec with
  | ignored _ => rfl
  | refreshed _ hshape _ => rw [h] at hshape; cases hshape
  | counted _ hshape _ _ => rw [h] at hshape; cases hshape
  | promoted hshape _ _ => rw [h] at hshape; cases hshape

end NameGenerator

namespace CreatedGenerator

/-- The generator has been created with a positive capacity and called with its texts. -/
def Reached (c : CreatedGenerator) : Prop :=
  ∃ capacity minUsages, 1 ≤ capacity ∧ c.generator = ({ capacity, minUsages } : NameGenerator).after c.texts ∧
    c.namings = ({ capacity, minUsages } : NameGenerator).calls c.texts

theorem Reached.see {c : CreatedGenerator} (h : c.Reached) (sql : SqlText) : (c.see sql).Reached := by
  obtain ⟨capacity, minUsages, hpositive, hgenerator, hnamings⟩ := h
  refine ⟨capacity, minUsages, hpositive, ?_, ?_⟩
  · rw [CreatedGenerator.see, NameGenerator.after_append, ← hgenerator]
    rfl
  · rw [CreatedGenerator.see, NameGenerator.calls_append_singleton, ← hgenerator, ← hnamings]

theorem Reached.lawful {c : CreatedGenerator} (h : c.Reached) : c.Lawful := by
  obtain ⟨capacity, minUsages, hpositive, hgenerator, hnamings⟩ := h
  have hheld := NameGenerator.held_fresh capacity minUsages
  obtain ⟨hcapacity, hminUsages⟩ := NameGenerator.after_options { capacity, minUsages } c.texts
  refine ⟨?_, fun sql hsql => NameGenerator.next_ignored _ hsql, ?_, ?_⟩
  · rw [hgenerator, hcapacity, hminUsages, hnamings]
    exact NameGenerator.calls_fires (NameGenerator.fresh_simulates capacity minUsages) c.texts
  · have hlength := (NameGenerator.after_held hheld c.texts).bounded.length
    rw [hcapacity] at hlength
    rw [hgenerator, hcapacity]
    exact Nat.le_trans hlength (Nat.max_le.mpr ⟨Nat.le_refl _, hpositive⟩)
  · rw [hnamings]
    have hnames : ({ capacity, minUsages } : NameGenerator).Names fun _ => [] := by simp [NameGenerator.Names]
    exact NameGenerator.calls_given_once hheld hnames c.texts

end CreatedGenerator

namespace Generators

/-- Every generator is reached, and their namespaces have been taken from the slot in order. -/
structure Inv (gs : Generators) : Prop where
  reached : ∀ c ∈ gs.created, c.Reached
  ids : (gs.created.map (·.id)).Pairwise (· < ·)
  before : ∀ c ∈ gs.created, c.id < (nextNamespace gs.slot).1

private theorem step_inv {gs : Generators} (h : gs.Inv) {action : Action} (hpositive : action.Positive) :
    (gs.step action).Inv := by
  cases action with
  | create capacity minUsages =>
    refine ⟨fun c hc => ?_, ?_, fun c hc => ?_⟩
    · rcases List.mem_append.mp hc with hmem | hmem
      · exact h.reached c hmem
      · rw [List.mem_singleton.mp hmem]
        exact ⟨capacity, minUsages, hpositive.1, rfl, rfl⟩
    · refine (List.map_append ▸
        List.pairwise_append.mpr ⟨h.ids, List.pairwise_singleton _ _, fun id hid id' hid' => ?_⟩)
      obtain ⟨c, hc, rfl⟩ := List.mem_map.mp hid
      obtain rfl := List.mem_singleton.mp hid'
      exact h.before c hc
    · have hslot : (nextNamespace (nextNamespace gs.slot).2).1 = (nextNamespace gs.slot).1 + 1 := rfl
      change c.id < (nextNamespace (nextNamespace gs.slot).2).1
      rw [hslot]
      rcases List.mem_append.mp hc with hmem | hmem
      · exact Nat.lt_succ_of_lt (h.before c hmem)
      · rw [List.mem_singleton.mp hmem]
        exact Nat.lt_succ_self _
  | see index sql =>
    have hids : ((gs.created.modify index (·.see sql)).map (·.id)) = gs.created.map (·.id) := by
      refine List.ext_getElem? fun i => ?_
      rw [List.getElem?_map, List.getElem?_map, List.getElem?_modify]
      cases gs.created[i]? with
      | none => rfl
      | some c =>
        simp only [Option.map_eq_map, Option.map_some]
        split <;> rfl
    have hmem : ∀ c ∈ gs.created.modify index (·.see sql), c ∈ gs.created ∨ ∃ d ∈ gs.created, c = d.see sql := by
      intro c hc
      obtain ⟨i, hi⟩ := List.mem_iff_getElem?.mp hc
      rw [List.getElem?_modify] at hi
      obtain ⟨d, hd, rfl⟩ := Option.map_eq_some_iff.mp hi
      have hd' := List.mem_of_getElem? hd
      split
      · exact Or.inr ⟨d, hd', rfl⟩
      · exact Or.inl hd'
    refine ⟨fun c hc => ?_, hids ▸ h.ids, fun c hc => ?_⟩
    · rcases hmem c hc with hold | ⟨d, hd, rfl⟩
      · exact h.reached c hold
      · exact (h.reached d hd).see sql
    · rcases hmem c hc with hold | ⟨d, hd, rfl⟩
      · exact h.before c hold
      · exact h.before d hd

private theorem run_inv {gs : Generators} (h : gs.Inv) {actions : List Action}
    (hpositive : ∀ action ∈ actions, action.Positive) :
    (gs.run actions).Inv := by
  induction actions generalizing gs with
  | nil => exact h
  | cons action actions ih =>
    exact ih (step_inv h (hpositive action List.mem_cons_self)) fun other hother =>
      hpositive other (List.mem_cons_of_mem _ hother)

/-- Whatever the generators of a process are called with, each is a gated LRU, and no two of them issue one name. -/
theorem generators_lawful (slot : NamespaceSlot) {actions : List Action}
    (hpositive : ∀ action ∈ actions, action.Positive) :
    (∀ c ∈ (run ⟨slot, []⟩ actions).created, c.Lawful) ∧
      (run ⟨slot, []⟩ actions).created.Pairwise fun c d => ∀ name ∈ c.issued, name ∉ d.issued := by
  have hinv : (run ⟨slot, []⟩ actions).Inv := run_inv ⟨by simp, List.Pairwise.nil, by simp⟩ hpositive
  refine ⟨fun c hc => (hinv.reached c hc).lawful, ?_⟩
  refine (List.pairwise_map.mp hinv.ids).imp fun {c d} hid name hname hname' => ?_
  obtain ⟨naming, -, hissued⟩ := List.mem_filterMap.mp hname
  obtain ⟨naming', -, hissued'⟩ := List.mem_filterMap.mp hname'
  obtain ⟨seq, -, rfl⟩ := Option.map_eq_some_iff.mp hissued
  obtain ⟨seq', -, he⟩ := Option.map_eq_some_iff.mp hissued'
  have hsame := (statementName_inj he).1
  omega

theorem generators_lawful_two :
    let gs := run ⟨.other, []⟩ [.create 1 1, .create 1 1, .see 0 "select 1".toList, .see 1 "select 1".toList]
    (∀ c ∈ gs.created, c.Lawful) ∧ gs.created.Pairwise fun c d => ∀ name ∈ c.issued, name ∉ d.issued :=
  generators_lawful .other (by simp [Action.Positive])

end Generators

end PgliteBridge
