import Mathlib.Data.Finset.Card
import Mathlib.Data.Finset.Option
import Mathlib.Data.List.Dedup

/-!
# Least recently used

A cache keeps a value and the time of the last use for each of its keys.  A list of entries represents it when the list
is in order of the last use (`Represents`): then the head is what is least recently used.  A list of keys that is cut
to a capacity holds the keys that were used last, in order (`suffix_bump`).
-/

namespace Lru

variable {κ ν : Type} [DecidableEq κ]

structure Cache (κ ν : Type) where
  keys : Finset κ
  value : κ → ν
  /-- The time of the last use. -/
  used : κ → Nat

namespace Cache

variable (c : Cache κ ν)

def empty [Inhabited ν] : Cache κ ν := ⟨∅, fun _ => default, fun _ => 0⟩

def get? (k : κ) : Option ν := if k ∈ c.keys then some (c.value k) else none

/-- `k` gets a value and is used. -/
def use (k : κ) (v : ν) (now : Nat) : Cache κ ν :=
  ⟨insert k c.keys, Function.update c.value k v, Function.update c.used k now⟩

def erase (k : κ) : Cache κ ν := { c with keys := c.keys.erase k }

/-- What is least recently used. -/
def oldest : Finset κ := c.keys.filter fun k => ∀ k' ∈ c.keys, c.used k ≤ c.used k'

def dropOldest : Cache κ ν := { c with keys := c.keys \ c.oldest }

end Cache

/-! ### Entries in order of their last use -/

/-- The entries of the cache in order of their last use, which is before `now`. -/
structure Represents (l : List (κ × ν)) (c : Cache κ ν) (now : Nat) : Prop where
  keys : c.keys = (l.map Prod.fst).toFinset
  value : ∀ entry ∈ l, c.value entry.1 = entry.2
  order : l.Pairwise fun a b => c.used a.1 < c.used b.1
  before : ∀ entry ∈ l, c.used entry.1 < now

theorem represents_empty [Inhabited ν] (now : Nat) : Represents ([] : List (κ × ν)) Cache.empty now where
  keys := rfl
  value := by simp
  order := List.Pairwise.nil
  before := by simp

namespace Represents

variable {l : List (κ × ν)} {c : Cache κ ν} {now : Nat} {k : κ}

theorem mem_keys (h : Represents l c now) : k ∈ c.keys ↔ k ∈ l.map Prod.fst := by rw [h.keys, List.mem_toFinset]

theorem nodup (h : Represents l c now) : (l.map Prod.fst).Nodup := by
  rw [List.Nodup, List.pairwise_map]
  refine h.order.imp fun {a b} hab he => ?_
  rw [he] at hab
  exact Nat.lt_irrefl _ hab

theorem card_keys (h : Represents l c now) : c.keys.card = l.length := by
  rw [h.keys, List.toFinset_card_of_nodup h.nodup, List.length_map]

theorem get? (h : Represents l c now) (k : κ) : c.get? k = (l.find? fun entry => entry.1 = k).map Prod.snd := by
  unfold Cache.get?
  cases hfind : l.find? (fun entry => entry.1 = k) with
  | none =>
    have hmem : k ∉ c.keys := by
      rw [h.mem_keys, List.mem_map]
      rintro ⟨entry, hentry, rfl⟩
      simpa using List.find?_eq_none.mp hfind entry hentry
    rw [if_neg hmem]
    rfl
  | some entry =>
    have hentry := List.mem_of_find?_eq_some hfind
    have hkey : entry.1 = k := by simpa using List.find?_some hfind
    subst hkey
    rw [if_pos (h.mem_keys.mpr (List.mem_map_of_mem hentry)), h.value entry hentry]
    rfl

theorem erase (h : Represents l c now) (k : κ) : Represents (l.filter fun entry => entry.1 ≠ k) (c.erase k) now where
  keys := by
    ext key
    simp only [Cache.erase, Finset.mem_erase, h.mem_keys, List.mem_toFinset, List.mem_map, List.mem_filter]
    constructor
    · rintro ⟨hne, entry, hentry, rfl⟩
      exact ⟨entry, ⟨hentry, by simpa using hne⟩, rfl⟩
    · rintro ⟨entry, ⟨hentry, hne⟩, rfl⟩
      exact ⟨by simpa using hne, entry, hentry, rfl⟩
  value entry hentry := h.value entry (List.mem_filter.mp hentry).1
  order := h.order.sublist List.filter_sublist
  before entry hentry := h.before entry (List.mem_filter.mp hentry).1

theorem use (h : Represents l c now) (k : κ) (v : ν) :
    Represents ((l.filter fun entry => entry.1 ≠ k) ++ [(k, v)]) (c.use k v now) (now + 1) := by
  have hother : ∀ entry ∈ l.filter fun entry => entry.1 ≠ k, entry ∈ l ∧ entry.1 ≠ k := by
    intro entry hentry
    simpa using hentry
  have hused : ∀ entry ∈ l.filter fun entry => entry.1 ≠ k, (c.use k v now).used entry.1 = c.used entry.1 :=
    fun entry hentry => Function.update_of_ne (hother entry hentry).2 ..
  have hself : (c.use k v now).used k = now := Function.update_self ..
  refine ⟨?_, ?_, ?_, ?_⟩
  · ext key
    simp only [Cache.use, Finset.mem_insert, h.mem_keys, List.mem_toFinset, List.map_append, List.mem_append,
      List.map_cons, List.map_nil, List.mem_singleton, List.mem_map, List.mem_filter]
    constructor
    · rintro (rfl | ⟨entry, hentry, rfl⟩)
      · exact Or.inr rfl
      · by_cases hk : entry.1 = k
        · exact Or.inr hk
        · exact Or.inl ⟨entry, ⟨hentry, by simpa using hk⟩, rfl⟩
    · rintro (⟨entry, ⟨hentry, -⟩, rfl⟩ | rfl)
      · exact Or.inr ⟨entry, hentry, rfl⟩
      · exact Or.inl rfl
  · intro entry hentry
    rcases List.mem_append.mp hentry with hmem | hmem
    · have hvalue : (c.use k v now).value entry.1 = c.value entry.1 := Function.update_of_ne (hother entry hmem).2 ..
      rw [hvalue, h.value entry (hother entry hmem).1]
    · rw [List.mem_singleton.mp hmem]
      exact Function.update_self ..
  · refine List.pairwise_append.mpr ⟨?_, List.pairwise_singleton _ _, ?_⟩
    · refine (h.order.sublist List.filter_sublist).imp_of_mem fun {a b} ha hb hab => ?_
      rw [hused a ha, hused b hb]
      exact hab
    · intro a ha b hb
      rw [List.mem_singleton.mp hb, hused a ha, hself]
      exact h.before a (hother a ha).1
  · intro entry hentry
    rcases List.mem_append.mp hentry with hmem | hmem
    · have hbefore := h.before entry (hother entry hmem).1
      rw [hused entry hmem]
      omega
    · rw [List.mem_singleton.mp hmem, hself]
      exact Nat.lt_succ_self now

theorem use_new (h : Represents l c now) (hk : k ∉ l.map Prod.fst) (v : ν) :
    Represents (l ++ [(k, v)]) (c.use k v now) (now + 1) := by
  have huse := h.use k v
  rwa [List.filter_eq_self.mpr] at huse
  intro entry hentry
  have hne : entry.1 ≠ k := fun he => hk (he ▸ List.mem_map_of_mem hentry)
  simpa using hne

theorem oldest (h : Represents l c now) : c.oldest = (l.head?.map Prod.fst).toFinset := by
  ext k
  rw [Cache.oldest, Finset.mem_filter, h.mem_keys]
  cases l with
  | nil => simp
  | cons first rest =>
    have horder := List.pairwise_cons.mp h.order
    simp only [List.head?_cons, Option.map_some, Option.mem_toFinset, Option.mem_some_iff]
    constructor
    · rintro ⟨hk, hleast⟩
      rcases List.mem_cons.mp hk with he | hrest
      · exact he.symm
      · obtain ⟨entry, hentry, rfl⟩ := List.mem_map.mp hrest
        have hlt := horder.1 entry hentry
        have hle := hleast first.1 (h.mem_keys.mpr (by simp))
        omega
    · rintro rfl
      refine ⟨by simp, fun k hk => ?_⟩
      rcases List.mem_cons.mp (h.mem_keys.mp hk) with rfl | hrest
      · exact Nat.le_refl _
      · obtain ⟨entry, hentry, rfl⟩ := List.mem_map.mp hrest
        exact Nat.le_of_lt (horder.1 entry hentry)

theorem dropOldest (h : Represents l c now) : Represents l.tail c.dropOldest now where
  keys := by
    have hnodup := h.nodup
    ext k
    rw [Cache.dropOldest, Finset.mem_sdiff, h.oldest, h.mem_keys, List.mem_toFinset]
    cases l with
    | nil => simp
    | cons first rest =>
      rw [List.map_cons, List.nodup_cons] at hnodup
      simp only [List.map_cons, List.mem_cons, List.head?_cons, Option.map_some, Option.mem_toFinset,
        Option.mem_some_iff, List.tail_cons]
      constructor
      · rintro ⟨rfl | hrest, hne⟩
        · exact (hne rfl).elim
        · exact hrest
      · intro hrest
        refine ⟨Or.inr hrest, ?_⟩
        rintro rfl
        exact hnodup.1 hrest
  value entry hentry := h.value entry (List.mem_of_mem_tail hentry)
  order := h.order.sublist (List.tail_sublist l)
  before entry hentry := h.before entry (List.mem_of_mem_tail hentry)

/-- The value of what is least recently used. -/
theorem image_oldest [DecidableEq ν] (h : Represents l c now) :
    c.oldest.image c.value = (l.head?.map Prod.snd).toFinset := by
  rw [h.oldest]
  cases l with
  | nil => rfl
  | cons first rest =>
    simp only [List.head?_cons, Option.map_some, Option.toFinset_some, Finset.image_singleton]
    rw [h.value first List.mem_cons_self]

theorem mono {now' : Nat} (h : Represents l c now) (hle : now ≤ now') : Represents l c now' :=
  ⟨h.keys, h.value, h.order, fun entry hentry => Nat.lt_of_lt_of_le (h.before entry hentry) hle⟩

end Represents

/-! ### Keys cut to a capacity -/

/-- `k` is used, and what is least recently used goes when there is no room for it. -/
def bump (capacity : Nat) (l : List κ) (k : κ) : List κ :=
  let used := l.filter (· ≠ k) ++ [k]
  if capacity < used.length then used.tail else used

variable {capacity : Nat} {l old w before between : List κ} {k : κ}

theorem dedup_append_singleton (w : List κ) (k : κ) : (w ++ [k]).dedup = w.dedup.filter (· ≠ k) ++ [k] := by
  induction w with
  | nil => rfl
  | cons a w ih =>
    rw [List.cons_append]
    by_cases hmem : a ∈ w
    · rw [List.dedup_cons_of_mem hmem, List.dedup_cons_of_mem (List.mem_append_left _ hmem), ih]
    · rw [List.dedup_cons_of_notMem hmem]
      by_cases hak : a = k
      · subst hak
        rw [List.dedup_cons_of_mem (by simp), ih]
        simp
      · rw [List.dedup_cons_of_notMem (by simp [hmem, hak]), ih, List.filter_cons_of_pos (by simpa using hak)]
        rfl

/-- The keys that were used last stay the keys that were used last. -/
theorem suffix_bump (h : l <:+ old ++ w.dedup) (hold : k ∉ old) :
    bump capacity l k <:+ old ++ (w ++ [k]).dedup := by
  have hself : ∀ keys : List κ, k ∉ keys → keys.filter (· ≠ k) = keys := fun keys hkeys =>
    List.filter_eq_self.mpr fun key hkey => by
      have hne : key ≠ k := fun he => hkeys (he ▸ hkey)
      simpa using hne
  have hused : l.filter (· ≠ k) ++ [k] <:+ old ++ (w ++ [k]).dedup := by
    have hfilter := h.filter (· ≠ k)
    rw [List.filter_append, hself old hold] at hfilter
    rw [dedup_append_singleton, ← List.append_assoc]
    obtain ⟨rest, hrest⟩ := hfilter
    exact ⟨rest, by rw [← List.append_assoc, hrest]⟩
  unfold bump
  dsimp only
  split
  · exact (List.tail_suffix _).trans hused
  · exact hused

theorem length_bump (h : l.length ≤ capacity) : (bump capacity l k).length ≤ capacity := by
  have hfilter : (l.filter (· ≠ k)).length ≤ l.length := List.length_filter_le ..
  unfold bump
  dsimp only
  split
  · rw [List.length_tail, List.length_append, List.length_singleton]
    omega
  · omega

/-- A key is gone when as many other keys have been used since. -/
theorem not_mem_of_length_le (h : l <:+ old ++ (before ++ k :: between).dedup) (hk : k ∉ between)
    (hlength : l.length ≤ between.dedup.length) : k ∉ l := by
  have hbetween : between.dedup <:+ old ++ (before ++ k :: between).dedup := by
    rw [List.dedup_append, List.dedup_cons_of_notMem hk]
    exact (List.suffix_cons _ _).trans ((List.suffix_union_right _ _).trans (List.suffix_append _ _))
  intro hmem
  exact hk (List.mem_dedup.mp ((List.suffix_of_suffix_length_le h hbetween hlength).mem hmem))

end Lru
