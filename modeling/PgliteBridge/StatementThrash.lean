import PgliteBridge.StatementLru
import Mathlib.Data.Nat.ModEq

/-!
# The generator refuses to thrash

A text is counted for as long as fewer than `capacity` other new texts are seen.  When new texts come back later than
that, each is seen for the first time again: nothing is promoted and no name is evicted (`refuses_to_thrash`).
-/

namespace PgliteBridge.NameGenerator

open Lru

variable {g : NameGenerator} {sql : SqlText} {texts : List SqlText}

/-- A text that may be named and has no name. -/
def isNew (g : NameGenerator) (sql : SqlText) : Bool := nameable sql && (mapGet g.names sql).isNone

def counted (g : NameGenerator) : List SqlText := g.counts.map Prod.fst

/-- Between two sightings of a new text at least `capacity` other new texts are seen. -/
def Spread (g : NameGenerator) (texts : List SqlText) : Prop :=
  ∀ before sql between behind, texts = before ++ sql :: between ++ sql :: behind → sql ∉ between → g.isNew sql = true →
    g.capacity ≤ (between.filter g.isNew).dedup.length

/-- Nothing is promoted or evicted, and names stay as they are. -/
structure Keeps (g : NameGenerator) (texts : List SqlText) : Prop where
  seq : (g.after texts).seq = g.seq
  evicted : ∀ naming ∈ g.calls texts, naming.evicted = none
  answers : ∀ call ∈ texts.zip (g.calls texts),
    call.2.name = if nameable call.1 then mapGet g.names call.1 else none
  names : ∀ sql, mapGet (g.after texts).names sql = mapGet g.names sql

private theorem length_calls (g : NameGenerator) (texts : List SqlText) : (g.calls texts).length = texts.length := by
  induction texts generalizing g with
  | nil => rfl
  | cons sql texts ih => exact congrArg (· + 1) (ih (g.next sql).generator)

private theorem Keeps.append_singleton (h : Keeps g texts) (sql : SqlText)
    (hseq : ((g.after texts).next sql).generator.seq = (g.after texts).seq)
    (hevicted : ((g.after texts).next sql).evicted = none)
    (hname : ((g.after texts).next sql).name = if nameable sql then mapGet (g.after texts).names sql else none)
    (hnames : ∀ other, mapGet ((g.after texts).next sql).generator.names other = mapGet (g.after texts).names other) :
    Keeps g (texts ++ [sql]) := by
  have hafter : g.after (texts ++ [sql]) = ((g.after texts).next sql).generator := after_append g texts [sql]
  refine ⟨?_, ?_, ?_, ?_⟩
  · rw [hafter, hseq]
    exact h.seq
  · rw [calls_append_singleton]
    intro naming hnaming
    rcases List.mem_append.mp hnaming with hmem | hmem
    · exact h.evicted naming hmem
    · rw [List.mem_singleton.mp hmem]
      exact hevicted
  · rw [calls_append_singleton, List.zip_append (length_calls g texts).symm]
    intro call hcall
    rcases List.mem_append.mp hcall with hmem | hmem
    · exact h.answers call hmem
    · rw [List.zip_cons_cons, List.zip_nil_right, List.mem_singleton] at hmem
      subst hmem
      rw [hname, h.names]
  · intro other
    rw [hafter, hnames, h.names]

/-! ### What is counted -/

private theorem mapGet_eq_none {κ ν : Type} [DecidableEq κ] {map : List (κ × ν)} {key : κ}
    (h : key ∉ map.map Prod.fst) :
    mapGet map key = none := by
  refine Option.map_eq_none_iff.mpr (List.find?_eq_none.mpr fun entry hentry hkey => h ?_)
  exact List.mem_map.mpr ⟨entry, hentry, by simpa using hkey⟩

private theorem mapGet_append_singleton {κ ν : Type} [DecidableEq κ] {map : List (κ × ν)} {key : κ} {value : ν}
    (h : mapGet map key = some value) (other : κ) :
    mapGet (mapDelete map key ++ [(key, value)]) other = mapGet map other := by
  unfold mapGet mapDelete
  rw [List.find?_append]
  by_cases hother : other = key
  · subst hother
    have hnone : (map.filter fun entry => entry.1 ≠ other).find? (fun entry => entry.1 = other) = none := by
      refine List.find?_eq_none.mpr fun entry hentry => ?_
      have hne := (List.mem_filter.mp hentry).2
      simpa using hne
    rw [hnone]
    simpa [mapGet] using h.symm
  · have hlast : [(key, value)].find? (fun entry => entry.1 = other) = none := by simpa using Ne.symm hother
    have hkept : (map.filter fun entry => entry.1 ≠ key).find? (fun entry => entry.1 = other) =
        map.find? fun entry => entry.1 = other := by
      rw [List.find?_filter]
      congr 1
      funext entry
      by_cases hentry : entry.1 = other
      · simp [hentry, hother]
      · simp [hentry]
    rw [hlast, hkept, Option.or_none]

private theorem counts_length_le (h : g.counts.length ≤ g.capacity) (texts : List SqlText) :
    (g.after texts).counts.length ≤ (g.after texts).capacity := by
  induction texts generalizing g with
  | nil => exact h
  | cons sql texts ih =>
    refine ih (g := (g.next sql).generator) ?_
    have hspec := next_step g sql
    generalize g.next sql = naming at hspec ⊢
    cases hspec with
    | ignored hshape => exact h
    | refreshed name hshape hname => exact h
    | counted counts hshape hnew hkeys =>
      have hlength : (g.counts.map Prod.fst).length ≤ g.capacity := by rwa [List.length_map]
      have hbump := length_bump (k := sql) hlength
      rwa [← hkeys, List.length_map] at hbump
    | promoted hshape hnew hcount => exact Nat.le_trans (List.length_filter_le ..) h

/-- What is counted behind the texts, when none of them is promoted. -/
structure Recent (g : NameGenerator) (texts : List SqlText) : Prop where
  keeps : Keeps g texts
  counted : (g.after texts).counted <:+ g.counted ++ (texts.filter g.isNew).dedup

private theorem spread_of_append {behind : List SqlText} (h : Spread g (texts ++ behind)) : Spread g texts := by
  intro before sql between rest htexts
  refine h before sql between (rest ++ behind) ?_
  rw [htexts]
  simp

/-- A new text is not counted when it comes back. -/
private theorem not_counted (h : Recent g texts) (hlength : (g.after texts).counts.length ≤ g.capacity)
    (hspread : Spread g (texts ++ [sql])) (hnew : g.isNew sql = true) (hfresh : sql ∉ g.counted) :
    sql ∉ (g.after texts).counted := by
  by_cases hmem : sql ∈ texts
  · obtain ⟨between, before, hsplit, hbetween⟩ := List.eq_append_cons_of_mem (List.mem_reverse.mpr hmem)
    have htexts : texts = before.reverse ++ sql :: between.reverse := by
      have hreverse := congrArg List.reverse hsplit
      simpa using hreverse
    have hnot : sql ∉ between.reverse := by simpa using hbetween
    have hle := hspread before.reverse sql between.reverse [] (by rw [htexts]) hnot hnew
    have hcounted := h.counted
    rw [htexts, List.filter_append, List.filter_cons_of_pos hnew] at hcounted
    rw [← htexts] at hcounted
    refine not_mem_of_length_le hcounted (fun hfilter => hnot (List.mem_of_mem_filter hfilter)) ?_
    rw [NameGenerator.counted, List.length_map]
    omega
  · intro hcounted
    rcases List.mem_append.mp (h.counted.mem hcounted) with hold | hseen
    · exact hfresh hold
    · exact hmem (List.mem_of_mem_filter (List.mem_dedup.mp hseen))

private theorem recent (hminUsages : 2 ≤ g.minUsages) (hlength : g.counts.length ≤ g.capacity)
    (hspread : Spread g texts)
    (hfresh : ∀ sql ∈ texts, g.isNew sql = true → sql ∉ g.counted) : Recent g texts := by
  induction texts using List.reverseRecOn with
  | nil => exact ⟨⟨rfl, by simp [calls], by simp, fun _ => rfl⟩, by simp [after]⟩
  | append_singleton texts sql ih =>
    have hrecent := ih (spread_of_append hspread) fun other hother => hfresh other (List.mem_append_left _ hother)
    have hkeeps := hrecent.keeps
    obtain ⟨hcapacity, hminUsages'⟩ := after_options g texts
    have hlength' := counts_length_le hlength texts
    rw [hcapacity] at hlength'
    have hafter : g.after (texts ++ [sql]) = ((g.after texts).next sql).generator := after_append g texts [sql]
    have hspec := next_step (g.after texts) sql
    have hsnoc := hkeeps.append_singleton sql
    have hold : g.isNew sql = false → (texts ++ [sql]).filter g.isNew = texts.filter g.isNew := by
      intro hnew
      rw [List.filter_append, List.filter_cons_of_neg (by simp [hnew])]
      simp
    generalize (g.after texts).next sql = naming at hspec hafter hsnoc
    cases hspec with
    | ignored hshape =>
      refine ⟨hsnoc rfl rfl (by simp [hshape]) fun _ => rfl, ?_⟩
      rw [hafter, hold (by simp [isNew, hshape])]
      exact hrecent.counted
    | refreshed name hshape hname =>
      refine ⟨hsnoc rfl rfl (by simp [hshape, hname]) (mapGet_append_singleton hname), ?_⟩
      rw [hkeeps.names] at hname
      rw [hafter, hold (by simp [isNew, hname])]
      exact hrecent.counted
    | counted counts hshape hnew hkeys =>
      refine ⟨hsnoc rfl rfl (by simp [hnew]) fun _ => rfl, ?_⟩
      rw [hkeeps.names] at hnew
      have hisNew : g.isNew sql = true := by simp [isNew, hshape, hnew]
      have hcounted : counts.map Prod.fst = bump (g.after texts).capacity (g.after texts).counted sql := hkeys
      rw [hafter, List.filter_append, List.filter_cons_of_pos hisNew, List.filter_nil]
      change counts.map Prod.fst <:+ _
      rw [hcounted]
      exact suffix_bump hrecent.counted (hfresh sql (by simp) hisNew)
    | promoted hshape hnew hcount =>
      rw [hkeeps.names] at hnew
      have hisNew : g.isNew sql = true := by simp [isNew, hshape, hnew]
      have hnot := not_counted hrecent hlength' hspread hisNew (hfresh sql (by simp) hisNew)
      rw [mapGet_eq_none hnot, hminUsages'] at hcount
      simp at hcount
      omega

/-! ### Scans -/

/-- The first `n` texts of a cycle that is scanned over and over. -/
def scan (cycle : List SqlText) (n : Nat) : List SqlText :=
  (List.range n).map fun i => cycle.getD (i % cycle.length) []

section Scan

variable {cycle : List SqlText} {n : Nat}

private theorem getD_mod_mem (hne : cycle ≠ []) (i : Nat) : cycle.getD (i % cycle.length) [] ∈ cycle := by
  have hlt : i % cycle.length < cycle.length := Nat.mod_lt _ (List.length_pos_iff.mpr hne)
  rw [List.getD_eq_getElem?_getD, List.getElem?_eq_getElem hlt]
  exact List.getElem_mem hlt

private theorem mod_eq_of_getD_eq (hnodup : cycle.Nodup) (hne : cycle ≠ []) {i j : Nat}
    (h : cycle.getD (i % cycle.length) [] = cycle.getD (j % cycle.length) []) :
    i % cycle.length = j % cycle.length := by
  have hlt : ∀ k, k % cycle.length < cycle.length := fun k => Nat.mod_lt _ (List.length_pos_iff.mpr hne)
  rw [List.getD_eq_getElem?_getD, List.getElem?_eq_getElem (hlt i), List.getD_eq_getElem?_getD,
    List.getElem?_eq_getElem (hlt j)] at h
  exact (List.Nodup.getElem_inj_iff hnodup).mp h

private theorem getElem?_scan {i : Nat} {text : SqlText} (h : (scan cycle n)[i]? = some text) :
    text = cycle.getD (i % cycle.length) [] := by
  simp only [scan, List.getElem?_map, Option.map_eq_some_iff] at h
  obtain ⟨j, hj, rfl⟩ := h
  obtain ⟨hlt, rfl⟩ := List.getElem?_eq_some_iff.mp hj
  simp

/-- A scan over more than `capacity` texts comes back too late. -/
private theorem scan_spread (hnodup : cycle.Nodup) (hlength : g.capacity < cycle.length)
    (hnew : ∀ sql ∈ cycle, g.isNew sql = true) (n : Nat) : Spread g (scan cycle n) := by
  intro before sql between behind hsplit hsql _
  have hne : cycle ≠ [] := by
    rintro rfl
    simp at hlength
  have hget : ∀ i text, (before ++ sql :: between ++ sql :: behind)[i]? = some text →
      text = cycle.getD (i % cycle.length) [] := fun i text h => getElem?_scan (n := n) (hsplit ▸ h)
  have hfirst : sql = cycle.getD (before.length % cycle.length) [] := hget _ _ (by simp)
  have hsecond : sql = cycle.getD ((before.length + (between.length + 1)) % cycle.length) [] :=
    hget _ _ (by rw [List.append_assoc, List.getElem?_append_right (by omega)]; simp)
  have hbetween : ∀ k < between.length, cycle.getD ((before.length + 1 + k) % cycle.length) [] ∈ between := by
    intro k hk
    have htext := hget (before.length + 1 + k) between[k] (by
      rw [List.append_assoc, List.getElem?_append_right (by omega)]
      have hindex : before.length + 1 + k - before.length = k + 1 := by omega
      simp [hindex, List.getElem?_append_left hk])
    exact htext ▸ List.getElem_mem hk
  have hround : cycle.length ≤ between.length + 1 := by
    have hmod := mod_eq_of_getD_eq hnodup hne (hfirst.symm.trans hsecond)
    have hdvd : cycle.length ∣ before.length + (between.length + 1) - before.length :=
      (Nat.modEq_iff_dvd' (by omega)).mp hmod
    exact Nat.le_of_dvd (by omega) (by simpa using hdvd)
  -- the texts of one round
  let round := (List.range (cycle.length - 1)).map fun k => cycle.getD ((before.length + 1 + k) % cycle.length) []
  have hdistinct : round.Nodup := by
    refine (List.nodup_map_iff_inj_on List.nodup_range).mpr fun k hk k' hk' he => ?_
    have hmod := mod_eq_of_getD_eq hnodup hne he
    rw [List.mem_range] at hk hk'
    have hcancel : k % cycle.length = k' % cycle.length := Nat.ModEq.add_left_cancel' _ hmod
    rwa [Nat.mod_eq_of_lt (by omega), Nat.mod_eq_of_lt (by omega)] at hcancel
  have hsubset : round ⊆ (between.filter g.isNew).dedup := by
    intro text htext
    obtain ⟨k, hk, rfl⟩ := List.mem_map.mp htext
    rw [List.mem_range] at hk
    exact List.mem_dedup.mpr (List.mem_filter.mpr ⟨hbetween k (by omega), hnew _ (getD_mod_mem hne _)⟩)
  have hle := (List.subperm_of_subset hdistinct hsubset).length_le
  simp only [round, List.length_map, List.length_range] at hle
  omega

end Scan

/-- New texts that come back late, such as a scan over more than `capacity` of them, change no name. -/
theorem refuses_to_thrash {capacity minUsages : Nat} (hminUsages : 2 ≤ minUsages) (history : List SqlText) :
    let g := ({ capacity, minUsages } : NameGenerator).after history
    (∀ texts, Spread g texts → (∀ sql ∈ texts, g.isNew sql = true → sql ∉ g.counted) → Keeps g texts) ∧
      ∀ cycle : List SqlText, cycle.Nodup → capacity < cycle.length →
        (∀ sql ∈ cycle, g.isNew sql = true ∧ sql ∉ g.counted) → ∀ n, Keeps g (scan cycle n) := by
  intro g
  obtain ⟨hcapacity, hminUsages'⟩ := after_options { capacity, minUsages } history
  have hlength : g.counts.length ≤ g.capacity :=
    counts_length_le (g := { capacity, minUsages }) (Nat.zero_le _) history
  have hgate : 2 ≤ g.minUsages := hminUsages' ▸ hminUsages
  refine ⟨fun texts hspread hfresh => (recent hgate hlength hspread hfresh).keeps,
    fun cycle hnodup hlong hcycle n => ?_⟩
  have hne : cycle ≠ [] := by
    rintro rfl
    simp at hlong
  have hspread := scan_spread (g := g) hnodup (hcapacity ▸ hlong) (fun sql hsql => (hcycle sql hsql).1) n
  refine (recent hgate hlength hspread fun sql hsql _ => ?_).keeps
  obtain ⟨i, -, rfl⟩ := List.mem_map.mp hsql
  exact (hcycle _ (getD_mod_mem hne i)).2

theorem refuses_to_thrash_pair :
    Keeps { capacity := 1, minUsages := 2 } (scan ["select 1".toList, "select 2".toList] 7) :=
  (refuses_to_thrash (Nat.le_refl 2) []).2 ["select 1".toList, "select 2".toList] (by decide) (by decide) (by decide) 7

end PgliteBridge.NameGenerator
