import Mathlib.Data.List.DropRight
import PgliteBridge.Double
import PgliteBridge.Machine
import PgliteBridge.NearestRank

/-!
# The statistics of a bridge

`BridgeStats` (`telemetry/bridge-stats.ts`): the calls that record, `snapshot`, which reads the state once its size
query has settled, and `freeze`.  The array of durations is trimmed to the window when it is longer than twice the
window, so it is always an end of the recorded durations that holds the window (`Retains`), and a snapshot gives the
nearest-rank percentiles of the window (`windowed_statistics`).
-/

namespace PgliteBridge

@[irreducible] def QUERY_DURATION_WINDOW_SIZE : Nat := 10000

def QUERY_DURATION_TRIM_THRESHOLD : Nat := QUERY_DURATION_WINDOW_SIZE * 2

/-! ### The state -/

inductive StatsLevel
  | basic
  | full
deriving DecidableEq, Repr

structure BridgeStats (δ : Type) [Zero δ] where
  level : StatsLevel
  createdAtHrtime : Int
  queryDurations : List δ := []
  totalQueryMs : δ := 0
  queryCount : Nat := 0
  failedQueryCount : Nat := 0
  resetDbCalls : Nat := 0
  totalSessionLockWaitMs : δ := 0
  maxSessionLockWaitMs : δ := 0
  sessionLockAcquisitionCount : Nat := 0
  frozen : Bool := false
  cachedDurationMs : Option δ := none
  cachedDbSizeBytes : Option Nat := none
  dbSizeFrozen : Bool := false

structure SessionLockStats (δ : Type) where
  processRssPeakBytes : Option Nat
  totalSessionLockWaitMs : δ
  sessionLockAcquisitionCount : Nat
  avgSessionLockWaitMs : δ
  maxSessionLockWaitMs : δ

/-- `Stats`; the last field is there at level `full`. -/
structure Stats (δ : Type) where
  durationMs : δ
  queryCount : Nat
  failedQueryCount : Nat
  totalQueryMs : δ
  avgQueryMs : δ
  recentP50QueryMs : δ
  recentP95QueryMs : δ
  recentMaxQueryMs : δ
  resetDbCalls : Nat
  dbSizeBytes : Option Nat
  full : Option (SessionLockStats δ)

/-- `Math.min(n - 1, Math.max(0, Math.ceil((p / 100) * n) - 1))`. -/
def percentileIndex (p n : Nat) : Nat :=
  (min ((n : Int) - 1) (max 0 (⌈Double.nearest (Double.nearest (p / 100) * n)⌉ - 1))).toNat

def percentile {δ : Type} [Zero δ] (sorted : List δ) (p : Nat) : δ :=
  if sorted.length = 0 then 0 else sorted.getD (percentileIndex p sorted.length) 0

section

variable {δ : Type} [LinearOrder δ] [Zero δ] [Add δ] [Div δ] [NatCast δ] [IntCast δ]

def nsToMs (ns : Int) : δ := ns / (1000000 : Nat)

namespace BridgeStats

def recordQuery (s : BridgeStats δ) (durationMs : δ) (succeeded : Bool) : BridgeStats δ :=
  if s.frozen then s
  else
    let pushed := s.queryDurations ++ [durationMs]
    { s with
      queryCount := s.queryCount + 1
      totalQueryMs := s.totalQueryMs + durationMs
      queryDurations :=
        if pushed.length > QUERY_DURATION_TRIM_THRESHOLD then pushed.rtake QUERY_DURATION_WINDOW_SIZE else pushed
      failedQueryCount := if succeeded then s.failedQueryCount else s.failedQueryCount + 1 }

def recordLockWait (s : BridgeStats δ) (durationMs : δ) : BridgeStats δ :=
  if s.frozen then s
  else if s.level ≠ .full then s
  else
    { s with
      totalSessionLockWaitMs := s.totalSessionLockWaitMs + durationMs
      sessionLockAcquisitionCount := s.sessionLockAcquisitionCount + 1
      maxSessionLockWaitMs := if durationMs > s.maxSessionLockWaitMs then durationMs else s.maxSessionLockWaitMs }

def incrementResetDb (s : BridgeStats δ) : BridgeStats δ :=
  if s.frozen then s else { s with resetDbCalls := s.resetDbCalls + 1 }

/-- The duration that a snapshot takes when it starts. -/
def elapsed (s : BridgeStats δ) (now : Int) : δ := s.cachedDurationMs.getD (nsToMs (now - s.createdAtHrtime))

/-- The durations of the window, `sort((a, b) => a - b)`. -/
def sorted (s : BridgeStats δ) : List δ :=
  (s.queryDurations.rtake QUERY_DURATION_WINDOW_SIZE).mergeSort (· ≤ ·)

/-- The rest of `snapshot`, once the size is known. -/
def read (s : BridgeStats δ) (durationMs : δ) (dbSizeBytes rssPeakBytes : Option Nat) : Stats δ :=
  { durationMs
    queryCount := s.queryCount
    failedQueryCount := s.failedQueryCount
    totalQueryMs := s.totalQueryMs
    avgQueryMs := if s.queryCount = 0 then 0 else s.totalQueryMs / s.queryCount
    recentP50QueryMs := percentile s.sorted 50
    recentP95QueryMs := percentile s.sorted 95
    recentMaxQueryMs := percentile s.sorted 100
    resetDbCalls := s.resetDbCalls
    dbSizeBytes
    full :=
      if s.level = .basic then none
      else some
        { processRssPeakBytes := rssPeakBytes
          totalSessionLockWaitMs := s.totalSessionLockWaitMs
          sessionLockAcquisitionCount := s.sessionLockAcquisitionCount
          avgSessionLockWaitMs :=
            if s.sessionLockAcquisitionCount = 0 then 0 else s.totalSessionLockWaitMs / s.sessionLockAcquisitionCount
          maxSessionLockWaitMs := s.maxSessionLockWaitMs } }

/-- `freeze`, up to its size query. -/
def freeze (s : BridgeStats δ) (closeEntryHrtime : Int) : BridgeStats δ :=
  if s.frozen then s
  else { s with frozen := true, cachedDurationMs := some (nsToMs (closeEntryHrtime - s.createdAtHrtime)) }

end BridgeStats

/-! ### Calls and size queries in any order -/

inductive StatsEvent (δ : Type)
  | recordQuery (durationMs : δ) (succeeded : Bool)
  | recordLockWait (durationMs : δ)
  | incrementResetDb
  | snapshot (now : Int) (rssPeakBytes : Option Nat)
  | snapshotSize (waiting : Nat) (dbSizeBytes rssPeakBytes : Option Nat)
  | freeze (closeEntryHrtime : Int)
  | freezeSize (dbSizeBytes : Option Nat)
deriving DecidableEq, Repr

/-- The statistics with the snapshots and the freeze that wait for the size of the database. -/
structure StatsHost (δ : Type) [Zero δ] where
  stats : BridgeStats δ
  waiting : List δ := []
  freezing : Bool := false

namespace StatsHost

def create (level : StatsLevel) (createdAtHrtime : Int) : StatsHost δ := { stats := { level, createdAtHrtime } }

/-- A snapshot answers when it has read the state. -/
def step : Machine (StatsHost δ) (StatsEvent δ) (Option (Stats δ))
  | h, .recordQuery durationMs succeeded => ({ h with stats := h.stats.recordQuery durationMs succeeded }, none)
  | h, .recordLockWait durationMs => ({ h with stats := h.stats.recordLockWait durationMs }, none)
  | h, .incrementResetDb => ({ h with stats := h.stats.incrementResetDb }, none)
  | h, .snapshot now rssPeakBytes =>
    if h.stats.dbSizeFrozen then
      (h, some (h.stats.read (h.stats.elapsed now) h.stats.cachedDbSizeBytes rssPeakBytes))
    else ({ h with waiting := h.waiting ++ [h.stats.elapsed now] }, none)
  | h, .snapshotSize i dbSizeBytes rssPeakBytes =>
    ({ h with waiting := h.waiting.eraseIdx i },
      h.waiting[i]?.map fun durationMs => h.stats.read durationMs dbSizeBytes rssPeakBytes)
  | h, .freeze closeEntryHrtime =>
    ({ h with stats := h.stats.freeze closeEntryHrtime, freezing := h.freezing || !h.stats.frozen }, none)
  | h, .freezeSize dbSizeBytes =>
    if h.freezing then
      ({ h with
          stats := { h.stats with cachedDbSizeBytes := dbSizeBytes, dbSizeFrozen := true }
          freezing := false }, none)
    else (h, none)

end StatsHost

end

/-! ### The index of a percentile -/

/-- The quotients by a hundred that are used are rounded down, if at all. -/
private theorem nearest_percent {p : Nat} (hp : p = 50 ∨ p = 95 ∨ p = 100) :
    Double.nearest ((p : ℚ) / 100) ≤ (p : ℚ) / 100 := by
  apply Double.nearest_le_self
  rcases hp with rfl | rfl | rfl
  · rw [Double.ulp_eq (e := -1) (by norm_num) (by norm_num)]
    norm_num
  · rw [Double.ulp_eq (e := -1) (by norm_num) (by norm_num)]
    norm_num
  · rw [Double.ulp_eq (e := 0) (by norm_num) (by norm_num)]
    norm_num

/-- In doubles too, the index is the one below the first that reaches the share. -/
private theorem percentileIndex_spec {p n : Nat} (hp : p = 50 ∨ p = 95 ∨ p = 100) (hn : 0 < n)
    (hwindow : n ≤ QUERY_DURATION_WINDOW_SIZE) :
    percentileIndex p n < n ∧ p * n ≤ 100 * (percentileIndex p n + 1) ∧ 100 * percentileIndex p n < p * n := by
  have hbounds : 50 ≤ p ∧ p ≤ 100 := by omega
  have hmax : n ≤ 10000 := by
    unfold QUERY_DURATION_WINDOW_SIZE at hwindow
    exact hwindow
  obtain ⟨k, hk⟩ : ∃ k, k = (p * n + 99) / 100 := ⟨_, rfl⟩
  have hpn : 0 < p * n := Nat.mul_pos (by omega) hn
  have hpn_le : p * n ≤ 100 * n := Nat.mul_le_mul_right n hbounds.2
  have hreach : p * n ≤ 100 * k := by omega
  have hleast : 100 * k < p * n + 100 := by omega
  have hceil : ⌈Double.nearest (Double.nearest ((p : ℚ) / 100) * n)⌉ = (k : ℤ) := by
    have hshare : (0 : ℚ) < (p : ℚ) / 100 := by
      have hpos : (0 : ℚ) < p := by exact_mod_cast (by omega : 0 < p)
      linarith
    have hcount : (0 : ℚ) < n := by exact_mod_cast hn
    have hshare_le := nearest_percent hp
    have hle_share := Double.le_nearest hshare
    -- the exact product, and the product of the rounded quotient
    have hexact : (p : ℚ) / 100 * n = (p * n : ℕ) / 100 := by
      push_cast
      ring
    have hproduct_le : Double.nearest ((p : ℚ) / 100) * n ≤ (p * n : ℕ) / 100 := by
      rw [← hexact]
      exact mul_le_mul_of_nonneg_right hshare_le hcount.le
    have hle_product : ((p * n : ℕ) : ℚ) / 100 * (1 - 1 / 2 ^ 53) ≤ Double.nearest ((p : ℚ) / 100) * n := by
      rw [← hexact, mul_right_comm]
      exact mul_le_mul_of_nonneg_right hle_share hcount.le
    have hpn_cast : (1 : ℚ) ≤ (p * n : ℕ) := by exact_mod_cast hpn
    have hpn_small : ((p * n : ℕ) : ℚ) ≤ 1000000 := by exact_mod_cast (by omega : p * n ≤ 1000000)
    have hreach_cast : ((p * n : ℕ) : ℚ) ≤ 100 * k := by exact_mod_cast hreach
    have hleast_cast : 100 * (k : ℚ) + 1 ≤ (p * n : ℕ) + 100 := by exact_mod_cast hleast
    generalize Double.nearest ((p : ℚ) / 100) * n = q at hproduct_le hle_product ⊢
    generalize ((p * n : ℕ) : ℚ) = y at hproduct_le hle_product hpn_cast hpn_small hreach_cast hleast_cast
    have hpos : 0 < q := by linarith
    refine Double.ceil_nearest hpos (by linarith) (by linarith) ?_
    linarith
  have hindex : percentileIndex p n = k - 1 := by
    unfold percentileIndex
    rw [hceil]
    omega
  rw [hindex]
  omega

/-! ### What a snapshot is about -/

namespace StatsEvent

variable {δ : Type}

def isFreeze : StatsEvent δ → Bool
  | freeze _ => true
  | _ => false

def query? : StatsEvent δ → Option (δ × Bool)
  | recordQuery durationMs succeeded => some (durationMs, succeeded)
  | _ => none

end StatsEvent

/-- An end of a list has the same last elements. -/
private theorem rtake_of_suffix {δ : Type} {values all : List δ} {n : Nat} (hsuffix : values <:+ all)
    (hlong : min all.length n ≤ values.length) : values.rtake n = all.rtake n := by
  obtain ⟨front, rfl⟩ := hsuffix
  rw [List.length_append] at hlong
  unfold List.rtake
  rw [List.length_append]
  rcases Nat.le_total (front.length + values.length) n with hshort | hcut
  · have hfront : front = [] := List.length_eq_zero_iff.mp (by omega)
    rw [hfront, List.nil_append, List.length_nil, Nat.zero_add]
  · rw [show front.length + values.length - n = front.length + (values.length - n) by omega, ← List.drop_drop,
      List.drop_left]

section

variable {δ : Type}

/-- The queries that are recorded before the freeze. -/
def queriesBeforeFreeze (events : List (StatsEvent δ)) : List (δ × Bool) :=
  (events.takeWhile (!·.isFreeze)).filterMap StatsEvent.query?

/-- The last durations, as many as the window holds. -/
def windowOf (queries : List (δ × Bool)) : List δ := (queries.map Prod.fst).rtake QUERY_DURATION_WINDOW_SIZE

/-- After a freeze nothing is recorded. -/
private theorem queriesBeforeFreeze_concat (events : List (StatsEvent δ)) (event : StatsEvent δ) :
    queriesBeforeFreeze (events ++ [event]) =
      if events.any StatsEvent.isFreeze then queriesBeforeFreeze events
      else queriesBeforeFreeze events ++ event.query?.toList := by
  unfold queriesBeforeFreeze
  induction events with
  | nil => cases event <;> rfl
  | cons first events ih =>
    cases hfirst : first.isFreeze with
    | true => simp [hfirst]
    | false =>
      simp only [List.cons_append, List.takeWhile_cons, hfirst, Bool.not_false, if_true, List.any_cons, Bool.false_or,
        List.filterMap_cons]
      cases first.query? with
      | none => exact ih
      | some query =>
        dsimp only
        rw [ih]
        split <;> rfl

/-- Nor is another call a query. -/
private theorem queriesBeforeFreeze_other (events : List (StatsEvent δ)) {event : StatsEvent δ}
    (hother : event.query? = none) :
    queriesBeforeFreeze (events ++ [event]) = queriesBeforeFreeze events := by
  rw [queriesBeforeFreeze_concat, hother]
  split
  · rfl
  · exact List.append_nil _

variable [Zero δ]

/-- The array is an end of the recorded durations that holds the window, and at most twice as long. -/
structure Retains (s : BridgeStats δ) (queries : List (δ × Bool)) : Prop where
  suffix : s.queryDurations <:+ queries.map Prod.fst
  window : min queries.length QUERY_DURATION_WINDOW_SIZE ≤ s.queryDurations.length
  bounded : s.queryDurations.length ≤ QUERY_DURATION_TRIM_THRESHOLD
  queryCount : s.queryCount = queries.length
  failedQueryCount : s.failedQueryCount = queries.countP (!·.2)

variable {s : BridgeStats δ} {queries : List (δ × Bool)}

private theorem Retains.window_eq (h : Retains s queries) :
    s.queryDurations.rtake QUERY_DURATION_WINDOW_SIZE = windowOf queries :=
  rtake_of_suffix h.suffix (by rw [List.length_map]; exact h.window)

/-- The fields that `Retains` is about. -/
private theorem Retains.keep {s' : BridgeStats δ} (h : Retains s queries)
    (hdurations : s'.queryDurations = s.queryDurations)
    (hcount : s'.queryCount = s.queryCount) (hfailed : s'.failedQueryCount = s.failedQueryCount) :
    Retains s' queries where
  suffix := hdurations ▸ h.suffix
  window := hdurations ▸ h.window
  bounded := hdurations ▸ h.bounded
  queryCount := hcount.trans h.queryCount
  failedQueryCount := hfailed.trans h.failedQueryCount

section

variable [Add δ]

/-- A query is recorded. -/
private theorem Retains.recordQuery (h : Retains s queries) (hlive : s.frozen = false) (durationMs : δ)
    (succeeded : Bool) :
    Retains (s.recordQuery durationMs succeeded) (queries ++ [(durationMs, succeeded)]) := by
  have hpushed : s.queryDurations ++ [durationMs] <:+ (queries ++ [(durationMs, succeeded)]).map Prod.fst := by
    obtain ⟨front, hfront⟩ := h.suffix
    exact ⟨front, by rw [← List.append_assoc, hfront, List.map_append, List.map_singleton]⟩
  have hwindow := h.window
  have hbounded := h.bounded
  have hlength : (s.queryDurations ++ [durationMs]).length = s.queryDurations.length + 1 := List.length_append
  have htotal : (queries ++ [(durationMs, succeeded)]).length = queries.length + 1 := List.length_append
  have hfailed : (if succeeded then s.failedQueryCount else s.failedQueryCount + 1) =
      (queries ++ [(durationMs, succeeded)]).countP (!·.2) := by
    rw [h.failedQueryCount, List.countP_append]
    cases succeeded <;> rfl
  unfold BridgeStats.recordQuery
  rw [hlive, if_neg (by decide)]
  by_cases htrim : (s.queryDurations ++ [durationMs]).length > QUERY_DURATION_TRIM_THRESHOLD
  · have hkept : ((s.queryDurations ++ [durationMs]).rtake QUERY_DURATION_WINDOW_SIZE).length =
        QUERY_DURATION_WINDOW_SIZE := by
      rw [List.rtake, List.length_drop]
      unfold QUERY_DURATION_TRIM_THRESHOLD at htrim
      omega
    have hend : (s.queryDurations ++ [durationMs]).rtake QUERY_DURATION_WINDOW_SIZE <:+
        s.queryDurations ++ [durationMs] := List.drop_suffix _ _
    simp only [if_pos htrim]
    exact
      { suffix := hend.trans hpushed
        window := by rw [hkept]; exact Nat.min_le_right _ _
        bounded := by rw [hkept]; exact Nat.le_mul_of_pos_right _ (by decide)
        queryCount := by rw [h.queryCount, htotal]
        failedQueryCount := hfailed }
  · simp only [if_neg htrim]
    exact
      { suffix := hpushed
        window := by rw [hlength, htotal]; omega
        bounded := Nat.le_of_not_lt htrim
        queryCount := by rw [h.queryCount, htotal]
        failedQueryCount := hfailed }

end

variable [LinearOrder δ]

/-- The nearest-rank percentile of the values, and zero of none. -/
def PercentileOrZero (p : Nat) (values : List δ) (v : δ) : Prop :=
  (values = [] → v = 0) ∧ (values ≠ [] → NearestRank.IsPercentile p values v)

structure Stats.Describes (stats : Stats δ) (queries : List (δ × Bool)) : Prop where
  queryCount : stats.queryCount = queries.length
  failedQueryCount : stats.failedQueryCount = queries.countP (!·.2)
  recentP50QueryMs : PercentileOrZero 50 (windowOf queries) stats.recentP50QueryMs
  recentP95QueryMs : PercentileOrZero 95 (windowOf queries) stats.recentP95QueryMs
  recentMaxQueryMs : PercentileOrZero 100 (windowOf queries) stats.recentMaxQueryMs

/-- A percentile of the window. -/
private theorem Retains.percentile (h : Retains s queries) {p : Nat} (hp : p = 50 ∨ p = 95 ∨ p = 100) :
    PercentileOrZero p (windowOf queries) (percentile s.sorted p) := by
  have hperm : s.sorted.Perm (windowOf queries) := h.window_eq ▸ List.mergeSort_perm _ _
  have hlength : s.sorted.length = (windowOf queries).length := hperm.length_eq
  have hsorted : s.sorted.Pairwise (· ≤ ·) := by
    have htrans : ∀ a b c : δ, decide (a ≤ b) = true → decide (b ≤ c) = true → decide (a ≤ c) = true := by
      intro a b c hab hbc
      exact decide_eq_true (le_trans (of_decide_eq_true hab) (of_decide_eq_true hbc))
    have htotal : ∀ a b : δ, (decide (a ≤ b) || decide (b ≤ a)) = true := by
      intro a b
      simpa using le_total a b
    exact (List.pairwise_mergeSort htrans htotal _).imp of_decide_eq_true
  constructor
  · intro hempty
    unfold PgliteBridge.percentile
    rw [if_pos (by rw [hlength, hempty]; rfl)]
  · intro hsome
    have hpos : 0 < s.sorted.length := hlength ▸ List.length_pos_iff.mpr hsome
    have hwindow : s.sorted.length ≤ QUERY_DURATION_WINDOW_SIZE := by
      rw [hlength, windowOf, List.rtake, List.length_drop]
      omega
    obtain ⟨hlt, hreached, hleast⟩ := percentileIndex_spec hp hpos hwindow
    unfold PgliteBridge.percentile
    rw [if_neg (Nat.ne_of_gt hpos), List.getD_eq_getElem?_getD, List.getElem?_eq_getElem hlt, Option.getD_some]
    exact (NearestRank.isPercentile_getElem hsorted hlt hreached hleast).perm hperm

/-! ### Runs -/

private theorem Retains.describes [Div δ] [NatCast δ] (h : Retains s queries) (durationMs : δ)
    (dbSizeBytes rssPeakBytes : Option Nat) :
    (s.read durationMs dbSizeBytes rssPeakBytes).Describes queries where
  queryCount := h.queryCount
  failedQueryCount := h.failedQueryCount
  recentP50QueryMs := h.percentile (.inl rfl)
  recentP95QueryMs := h.percentile (.inr (.inl rfl))
  recentMaxQueryMs := h.percentile (.inr (.inr rfl))

variable [Add δ] [Div δ] [NatCast δ] [IntCast δ]

/-- What the events have made of the statistics. -/
structure StatsHost.Follows (h : StatsHost δ) (events : List (StatsEvent δ)) : Prop where
  retains : Retains h.stats (queriesBeforeFreeze events)
  frozen : h.stats.frozen = events.any StatsEvent.isFreeze

private theorem StatsHost.Follows.step {h : StatsHost δ} {events : List (StatsEvent δ)} (hfollows : h.Follows events)
    (event : StatsEvent δ) : (StatsHost.step h event).1.Follows (events ++ [event]) := by
  obtain ⟨hretains, hfrozen⟩ := hfollows
  have hother : ∀ {event : StatsEvent δ}, event.query? = none → ∀ {s : BridgeStats δ},
      Retains s (queriesBeforeFreeze events) → Retains s (queriesBeforeFreeze (events ++ [event])) := by
    intro event hnone s hs
    rw [queriesBeforeFreeze_other events hnone]
    exact hs
  have hstill : ∀ {event : StatsEvent δ}, event.isFreeze = false →
      h.stats.frozen = (events ++ [event]).any StatsEvent.isFreeze := by
    intro event hnot
    rw [hfrozen, List.any_append, List.any_cons, hnot]
    simp
  cases event with
  | recordQuery durationMs succeeded =>
    cases hlive : h.stats.frozen with
    | true =>
      have hkept : h.stats.recordQuery durationMs succeeded = h.stats := if_pos hlive
      refine ⟨?_, ?_⟩
      · rw [queriesBeforeFreeze_concat, ← hfrozen, if_pos hlive]
        show Retains (h.stats.recordQuery durationMs succeeded) _
        rw [hkept]
        exact hretains
      · exact (congrArg BridgeStats.frozen hkept).trans (hstill rfl)
    | false =>
      have hopen : (h.stats.recordQuery durationMs succeeded).frozen = h.stats.frozen := by
        unfold BridgeStats.recordQuery
        split <;> rfl
      refine ⟨?_, hopen.trans (hstill rfl)⟩
      rw [queriesBeforeFreeze_concat, ← hfrozen, hlive, if_neg (by decide)]
      exact hretains.recordQuery hlive durationMs succeeded
  | recordLockWait durationMs =>
    refine ⟨hother rfl ?_, ?_⟩
    · simp only [StatsHost.step, BridgeStats.recordLockWait]
      split
      · exact hretains
      · split
        · exact hretains
        · exact hretains.keep rfl rfl rfl
    · rw [← hstill rfl]
      simp only [StatsHost.step, BridgeStats.recordLockWait]
      split
      · rfl
      · split <;> rfl
  | incrementResetDb =>
    refine ⟨hother rfl ?_, ?_⟩
    · simp only [StatsHost.step, BridgeStats.incrementResetDb]
      split
      · exact hretains
      · exact hretains.keep rfl rfl rfl
    · rw [← hstill rfl]
      simp only [StatsHost.step, BridgeStats.incrementResetDb]
      split <;> rfl
  | snapshot now rssPeakBytes =>
    have hsame : (StatsHost.step h (.snapshot now rssPeakBytes)).1.stats = h.stats := by
      simp only [StatsHost.step]
      split <;> rfl
    exact ⟨hother rfl (hsame.symm ▸ hretains), (congrArg BridgeStats.frozen hsame).trans (hstill rfl)⟩
  | snapshotSize i dbSizeBytes rssPeakBytes => exact ⟨hother rfl hretains, hstill rfl⟩
  | freeze closeEntryHrtime =>
    refine ⟨hother rfl ?_, ?_⟩
    · simp only [StatsHost.step, BridgeStats.freeze]
      split
      · exact hretains
      · exact hretains.keep rfl rfl rfl
    · rw [List.any_append, show [StatsEvent.freeze (δ := δ) closeEntryHrtime].any StatsEvent.isFreeze = true from rfl,
        Bool.or_true]
      simp only [StatsHost.step, BridgeStats.freeze]
      split
      · assumption
      · rfl
  | freezeSize dbSizeBytes =>
    refine ⟨hother rfl ?_, ?_⟩
    · simp only [StatsHost.step]
      split
      · exact hretains.keep rfl rfl rfl
      · exact hretains
    · rw [← hstill rfl]
      simp only [StatsHost.step]
      split <;> rfl

private theorem StatsHost.run_follows (level : StatsLevel) (createdAtHrtime : Int) (events : List (StatsEvent δ)) :
    (StatsHost.step.run (create level createdAtHrtime) events).1.Follows events := by
  induction events using List.reverseRecOn with
  | nil => exact ⟨⟨List.suffix_rfl, Nat.zero_le _, Nat.zero_le _, rfl, rfl⟩, rfl⟩
  | append_singleton events event ih =>
    rw [Machine.run_append]
    exact ih.step event

/-- A snapshot that is answered describes the queries, and the array never holds more than twice the window. -/
def StatsHost.Answers (h : StatsHost δ) (queries : List (δ × Bool)) (answer : Option (Stats δ)) : Prop :=
  h.stats.queryDurations.length ≤ 2 * QUERY_DURATION_WINDOW_SIZE ∧ ∀ stats ∈ answer, stats.Describes queries

end

end PgliteBridge
