import PgliteBridge.CopyIn
import Mathlib.Data.List.Basic

/-!
# Statement names

`createStatementNameGenerator` (`utils/statement-names.ts`) names a cacheable SQL text when it is seen for the
`minUsages`-th time and keeps at most `capacity` names.  A JavaScript `Map` is the list of its entries in insertion
order; a name `ppb_<namespace>_<seq>` is the `<seq>` of it.
-/

namespace PgliteBridge

abbrev SqlText := List Char

/-! ### Cacheable texts -/

def isWordChar (ch : Char) : Bool := isAsciiLetter ch || isAsciiDigit ch || ch == '_'

def cacheableKeywords : List (List Char) :=
  ["select", "insert", "update", "delete", "with", "merge", "values"].map String.toList

/-- `keyword` at the start of the text, in any case, and a word boundary behind it. -/
def startsWithKeyword (keyword text : List Char) : Bool :=
  (text.take keyword.length).map Char.toLower == keyword && !(text.drop keyword.length).head?.any isWordChar

/-- `/^\s*(?:select|insert|update|delete|with|merge|values)\b/i`. -/
def isCacheableSql (text : SqlText) : Bool :=
  cacheableKeywords.any fun keyword => startsWithKeyword keyword (text.dropWhile isJsSpace)

/-! ### Insertion-ordered maps -/

/-- `map.get(key)`. -/
def mapGet {κ ν : Type} [DecidableEq κ] (map : List (κ × ν)) (key : κ) : Option ν :=
  (map.find? fun entry => entry.1 = key).map Prod.snd

/-- `map.delete(key)`. -/
def mapDelete {κ ν : Type} [DecidableEq κ] (map : List (κ × ν)) (key : κ) : List (κ × ν) :=
  map.filter fun entry => entry.1 ≠ key

/-! ### The generator -/

structure NameGenerator where
  capacity : Nat := 500
  minUsages : Nat := 2
  counts : List (SqlText × Nat) := []
  names : List (SqlText × Nat) := []
  seq : Nat := 0
deriving DecidableEq, Repr

/-- The name of a text and the name that is evicted for it. -/
structure Naming where
  name : Option Nat
  evicted : Option Nat
  generator : NameGenerator
deriving DecidableEq, Repr

namespace NameGenerator

/-- A text that is seen often enough gets the next name; at capacity the least recently used name goes. -/
def promote (g : NameGenerator) (sql : SqlText) : Naming :=
  let evicting := decide (g.capacity ≤ g.names.length)
  { name := some g.seq
    evicted := if evicting then g.names.head?.map Prod.snd else none
    generator := { g with
      names := (if evicting then g.names.tail else g.names) ++ [(sql, g.seq)]
      seq := g.seq + 1 } }

/-- The text is counted once more. -/
def count (g : NameGenerator) (sql : SqlText) : Naming :=
  let count := (mapGet g.counts sql).getD 0 + 1
  let counts := mapDelete g.counts sql
  if count < g.minUsages then
    let counts := counts ++ [(sql, count)]
    let counts := if g.capacity < counts.length then counts.tail else counts
    { name := none, evicted := none, generator := { g with counts } }
  else { g with counts }.promote sql

/-- One call of the generator. -/
def next (g : NameGenerator) (sql : SqlText) : Naming :=
  if !isCacheableSql sql || sql.contains ';' then { name := none, evicted := none, generator := g }
  else
    match mapGet g.names sql with
    | some cached =>
      { name := some cached
        evicted := none
        generator := { g with names := mapDelete g.names sql ++ [(sql, cached)] } }
    | none => g.count sql

example : (({ minUsages := 1 } : NameGenerator).next " SELECT 1".toList).name = some 0 := by decide

/-! ### What a name stands for -/

/-- The names given so far are those before `seq`, and `textOf` knows the text of each that is still held. -/
def Names (g : NameGenerator) (textOf : Nat → SqlText) : Prop :=
  ∀ entry ∈ g.names, textOf entry.2 = entry.1 ∧ entry.2 < g.seq

variable {g : NameGenerator} {sql : SqlText} {textOf : Nat → SqlText}

theorem mem_of_mapGet {κ ν : Type} [DecidableEq κ] {map : List (κ × ν)} {key : κ} {value : ν}
    (h : mapGet map key = some value) : (key, value) ∈ map := by
  obtain ⟨entry, hfind, rfl⟩ := Option.map_eq_some_iff.mp h
  have hkey := List.find?_some hfind
  rw [decide_eq_true_eq] at hkey
  rw [← hkey]
  exact List.mem_of_find?_eq_some hfind

/-- What one call of the generator gives. -/
structure Gives (g : NameGenerator) (sql : SqlText) (textOf textOf' : Nat → SqlText) (naming : Naming) : Prop where
  names : naming.generator.Names textOf'
  seq : g.seq ≤ naming.generator.seq
  same : ∀ name < g.seq, textOf' name = textOf name
  name : ∀ name, naming.name = some name → textOf' name = sql ∧ name < naming.generator.seq
  evicted : ∀ name, naming.evicted = some name → name < g.seq

private theorem promote_gives (h : g.Names textOf) (sql : SqlText) :
    Gives g sql textOf (Function.update textOf g.seq sql) (g.promote sql) where
  names entry hentry := by
    simp only [promote, List.mem_append, List.mem_singleton] at hentry ⊢
    rcases hentry with hentry | rfl
    · have hmem : entry ∈ g.names := by
        split at hentry
        · exact List.mem_of_mem_tail hentry
        · exact hentry
      obtain ⟨htext, hlt⟩ := h entry hmem
      rw [Function.update_of_ne (by omega)]
      exact ⟨htext, by omega⟩
    · simp
  seq := Nat.le_succ _
  same name hlt := Function.update_of_ne (by omega) ..
  name name hname := by
    cases hname
    simp [promote]
  evicted name hname := by
    simp only [promote] at hname
    split at hname
    · obtain ⟨entry, hhead, rfl⟩ := Option.map_eq_some_iff.mp hname
      exact (h entry (List.mem_of_mem_head? hhead)).2
    · cases hname

private theorem count_gives (h : g.Names textOf) (sql : SqlText) :
    ∃ textOf', Gives g sql textOf textOf' (g.count sql) := by
  unfold count
  dsimp only
  split
  · exact ⟨textOf, h, Nat.le_refl _, fun _ _ => rfl, (fun _ he => by cases he), (fun _ he => by cases he)⟩
  · have hnames : ({ g with counts := mapDelete g.counts sql } : NameGenerator).Names textOf := h
    have hgives := promote_gives hnames sql
    exact ⟨_, hgives.names, hgives.seq, hgives.same, hgives.name, hgives.evicted⟩

/-- Names stay with their texts. -/
theorem next_gives (h : g.Names textOf) (sql : SqlText) : ∃ textOf', Gives g sql textOf textOf' (g.next sql) := by
  unfold next
  split
  · exact ⟨textOf, h, Nat.le_refl _, fun _ _ => rfl, (fun _ he => by cases he), (fun _ he => by cases he)⟩
  · split
    · rename_i cached hcached
      obtain ⟨htext, hlt⟩ := h _ (mem_of_mapGet hcached)
      refine ⟨textOf, fun entry hentry => ?_, Nat.le_refl _, fun _ _ => rfl, ?_, (fun _ he => by cases he)⟩
      · rcases List.mem_append.mp hentry with hentry | hentry
        · exact h entry (List.mem_filter.mp hentry).1
        · rw [List.mem_singleton.mp hentry]
          exact ⟨htext, hlt⟩
      · intro name hname
        cases hname
        exact ⟨htext, hlt⟩
    · exact count_gives h sql

end NameGenerator

end PgliteBridge
