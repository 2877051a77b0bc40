import Mathlib.Algebra.Order.Floor.Semiring
import Mathlib.Data.Rat.Floor
import PgliteBridge.QueryTrail

/-!
# The ring of the query trail

What the trail since the last `clear` should be is counted from the calls alone (`Trail`).  The ring is an end of it,
numbered through, with the rest counted as dropped (`Accounted`): for every order of captures, failures, settlements and
clears, if the capacity is one that a ring can have (`trail_lawful_iff`).
-/

namespace PgliteBridge.QueryTrail

open Deallocate

variable {δ : Type} [Millis δ]

/-! ### The laws -/

/-- What was appended since the last `clear`, and whether a capture failed. -/
structure Trail where
  appended : Nat := 0
  failed : Bool := false
deriving DecidableEq, Repr

/-- A failing capture appends the sentinel. -/
def Trail.after (options : QueryTrailOptions) (t : Trail) : TrailCall δ → Trail
  | .begin _ _ values _ =>
    if t.failed then t
    else
      { appended := t.appended + 1
        failed := (renderParams options.redactParams
          (options.maxParamChars.getD DEFAULT_TRAIL_MAX_PARAM_CHARS) values).isNone }
  | .clear _ => {}
  | _ => t

def trailOf (options : QueryTrailOptions) (calls : List (TrailCall δ)) : Trail := calls.foldl (Trail.after options) {}

/-- What `entries` returns: its numbers go through to the last that was issued, and with the dropped ones it is the
trail. -/
structure Accounted (t : Trail) (r : QueryTrailRecorder δ) : Prop where
  numbered : r.ringEntries.map (fun id => r.entryHeap[id]?.map QueryTrailEntry.seq) =
    (List.range' (t.appended - r.ringEntries.length) r.ringEntries.length).map some
  capped : r.maxEntries.exceededBy r.ringEntries.length = false
  balanced : r.droppedCount + r.ringEntries.length = t.appended
  disabled : r.disabledAfterSeq.isSome = t.failed

/-- `settle` changes its own entry, and that only once. -/
structure SettlesOnce (r : QueryTrailRecorder δ) (handle : QueryTrailHandle) (r' : QueryTrailRecorder δ) : Prop where
  kept : { r' with entryHeap := r.entryHeap } = r
  others : ∀ id, handle ≠ .entry id → r'.entryHeap[id]? = r.entryHeap[id]?
  again : ∀ id entry, handle = .entry id → r.entryHeap[id]? = some entry → entry.status = .settled →
    r'.entryHeap[id]? = some entry

/-- The laws of the trail, after these calls. -/
structure Lawful (options : QueryTrailOptions) (now : δ) (calls : List (TrailCall δ)) (r : QueryTrailRecorder δ) :
    Prop where
  accounted : Accounted (trailOf options calls) r
  settles : ∀ handle outcome now, SettlesOnce r handle (r.settle handle outcome now)
  stopped : (trailOf options calls).failed = true → ∀ clientId sql values now,
    r.begin clientId sql values now = (r, .inert)
  returned : ∀ later, (QueryTrailRecorder.call.run r (.entries :: later)).1.array r.entries.2 = r.ringEntries

/-- A capacity that a ring can have: a number of entries, or no limit. -/
def LawfulCapacity : Option JsNumber → Prop
  | none => True
  | some (.finite value) => ∃ n : Nat, 1 ≤ n ∧ value = n
  | some .posInfinity => True
  | some .negInfinity => False
  | some .nan => True

/-! ### Arrays -/

namespace QueryTrailRecorder

section

variable {δ : Type} {r r' : QueryTrailRecorder δ}

private theorem ringEntries_modifyRing (hring : r.ring < r.arrayHeap.length) (f : List Nat → List Nat) :
    (r.modifyRing f).ringEntries = f r.ringEntries := by
  unfold ringEntries array modifyRing
  rw [List.getD_eq_getElem?_getD, List.getD_eq_getElem?_getD, List.getElem?_modify_eq,
    List.getElem?_eq_getElem hring]
  rfl

private theorem array_modifyRing {id : Nat} (hid : id ≠ r.ring) (f : List Nat → List Nat) :
    (r.modifyRing f).array id = r.array id := by
  unfold array modifyRing
  dsimp only
  rw [List.getD_eq_getElem?_getD, List.getD_eq_getElem?_getD, List.getElem?_modify_ne f _ (Ne.symm hid)]

private theorem array_append {id : Nat} (hid : id < r.arrayHeap.length) (a : List Nat) :
    ({ r with arrayHeap := r.arrayHeap ++ [a] } : QueryTrailRecorder δ).array id = r.array id := by
  unfold array
  dsimp only
  rw [List.getD_eq_getElem?_getD, List.getD_eq_getElem?_getD, List.getElem?_append_left hid]

/-- A push into a full ring, whatever it writes to stderr. -/
private theorem push_full (hreached : r.maxEntries.reachedBy r.ringEntries.length = true) (entry : QueryTrailEntry δ) :
    ∃ warned stderr, r.push entry = ({ r.modifyRing List.tail with
      entryHeap := r.entryHeap ++ [entry]
      droppedCount := r.droppedCount + 1
      overflowWarned := warned
      stderr } : QueryTrailRecorder δ).modifyRing (· ++ [r.entryHeap.length]) := by
  unfold push
  dsimp only
  rw [if_pos (by exact hreached)]
  by_cases hwarned : r.overflowWarned = true
  · rw [if_pos (by exact hwarned)]
    exact ⟨r.overflowWarned, r.stderr, rfl⟩
  · rw [if_neg (by exact hwarned)]
    exact ⟨true, r.stderr ++ [.overflowed r.maxEntries], rfl⟩

private theorem push_room (hreached : ¬r.maxEntries.reachedBy r.ringEntries.length = true) (entry : QueryTrailEntry δ) :
    r.push entry = ({ r with entryHeap := r.entryHeap ++ [entry] } : QueryTrailRecorder δ).modifyRing
      (· ++ [r.entryHeap.length]) := by
  unfold push
  dsimp only
  rw [if_neg (by exact hreached)]

/-- What a push leaves of the recorder. -/
structure Pushed (r : QueryTrailRecorder δ) (entry : QueryTrailEntry δ) (r' : QueryTrailRecorder δ) : Prop where
  ringEntries : r'.ringEntries =
    (if r.maxEntries.reachedBy r.ringEntries.length then r.ringEntries.tail else r.ringEntries) ++ [r.entryHeap.length]
  droppedCount : r'.droppedCount =
    if r.maxEntries.reachedBy r.ringEntries.length then r.droppedCount + 1 else r.droppedCount
  entryHeap : r'.entryHeap = r.entryHeap ++ [entry]
  ring : r'.ring = r.ring
  arrays : r'.arrayHeap.length = r.arrayHeap.length
  array : ∀ id, id ≠ r.ring → r'.array id = r.array id
  nextSeq : r'.nextSeq = r.nextSeq
  disabledAfterSeq : r'.disabledAfterSeq = r.disabledAfterSeq
  maxEntries : r'.maxEntries = r.maxEntries
  maxParamChars : r'.maxParamChars = r.maxParamChars
  redactParams : r'.redactParams = r.redactParams

private theorem push_pushed (hring : r.ring < r.arrayHeap.length) (entry : QueryTrailEntry δ) :
    Pushed r entry (r.push entry) := by
  by_cases hreached : r.maxEntries.reachedBy r.ringEntries.length = true
  · obtain ⟨warned, stderr, hpush⟩ := push_full hreached entry
    have hlength : r.ring < (r.arrayHeap.modify r.ring List.tail).length := by
      rwa [List.length_modify]
    rw [hpush]
    constructor
    · rw [if_pos hreached, ringEntries_modifyRing hlength]
      exact congrArg (· ++ [r.entryHeap.length]) (ringEntries_modifyRing hring List.tail)
    · rw [if_pos hreached]
      rfl
    · rfl
    · rfl
    · exact (List.length_modify ..).trans (List.length_modify ..)
    · intro id hid
      have hshifted : (r.modifyRing List.tail).array id = r.array id := array_modifyRing hid List.tail
      rw [← hshifted]
      exact array_modifyRing (r := { r.modifyRing List.tail with
        entryHeap := r.entryHeap ++ [entry]
        droppedCount := r.droppedCount + 1
        overflowWarned := warned
        stderr }) hid _
    all_goals rfl
  · rw [push_room hreached entry]
    constructor
    · rw [if_neg hreached]
      exact ringEntries_modifyRing (r := { r with entryHeap := r.entryHeap ++ [entry] }) hring _
    · rw [if_neg hreached]
      rfl
    · rfl
    · rfl
    · exact List.length_modify ..
    · exact fun id hid => array_modifyRing hid _
    all_goals rfl

/-- What a capture leaves of the recorder, if the trail is not disabled: an entry with the next number. -/
def Captured (r : QueryTrailRecorder δ) (failed : Bool) (r' : QueryTrailRecorder δ) : Prop :=
  ∃ entry : QueryTrailEntry δ, entry.seq = r.nextSeq ∧
    Pushed { r with
      nextSeq := r.nextSeq + 1
      disabledAfterSeq := if failed then some r.nextSeq else r.disabledAfterSeq } entry r'

private theorem Captured.ringEntries {failed : Bool} (h : Captured r failed r') : r'.ringEntries =
    (if r.maxEntries.reachedBy r.ringEntries.length then r.ringEntries.tail else r.ringEntries) ++
      [r.entryHeap.length] := by
  obtain ⟨entry, -, hpushed⟩ := h
  exact hpushed.ringEntries

private theorem Captured.droppedCount {failed : Bool} (h : Captured r failed r') : r'.droppedCount =
    if r.maxEntries.reachedBy r.ringEntries.length then r.droppedCount + 1 else r.droppedCount := by
  obtain ⟨entry, -, hpushed⟩ := h
  exact hpushed.droppedCount

end

/-! ### Captures -/

variable {r r' : QueryTrailRecorder δ}

private theorem begin_disabled (hdisabled : r.disabledAfterSeq.isSome = true) (clientId : Int) (sql : Text)
    (values : Option (List ParamValue)) (now : δ) : r.begin clientId sql values now = (r, .inert) :=
  if_pos hdisabled

private theorem begin_captured (hring : r.ring < r.arrayHeap.length) (henabled : r.disabledAfterSeq.isSome = false)
    (clientId : Int) (sql : Text) (values : Option (List ParamValue)) (now : δ) :
    Captured r (renderParams r.redactParams r.maxParamChars values).isNone (r.begin clientId sql values now).1 := by
  unfold begin
  rw [if_neg (by simp [henabled])]
  cases hparams : renderParams r.redactParams r.maxParamChars values with
  | none =>
    have hpushed := push_pushed (r := { r with nextSeq := r.nextSeq + 1, disabledAfterSeq := some r.nextSeq }) hring
    exact ⟨_, rfl, { hpushed _ with }⟩
  | some params => exact ⟨_, rfl, push_pushed (r := { r with nextSeq := r.nextSeq + 1 }) hring _⟩

/-! ### Numbers -/

/-- The entries at these places are numbered through to the last number before `next`. -/
structure NumberedTo {δ : Type} (heap : List (QueryTrailEntry δ)) (next : Nat) (ids : List Nat) : Prop where
  length : ids.length ≤ next
  seqs : ids.map (fun id => heap[id]?.map QueryTrailEntry.seq) =
    (List.range' (next - ids.length) ids.length).map some

namespace NumberedTo

variable {δ : Type} {heap : List (QueryTrailEntry δ)} {next : Nat} {ids : List Nat}

private theorem empty (heap : List (QueryTrailEntry δ)) (next : Nat) : NumberedTo heap next [] :=
  ⟨Nat.zero_le next, rfl⟩

private theorem tail (h : NumberedTo heap next ids) : NumberedTo heap next ids.tail := by
  obtain ⟨hlength, hseqs⟩ := h
  cases ids with
  | nil => exact empty heap next
  | cons id ids =>
    simp only [List.length_cons] at hlength hseqs
    have hnext : next - (ids.length + 1) + 1 = next - ids.length := by omega
    rw [List.range'_succ, hnext, List.map_cons, List.map_cons] at hseqs
    exact ⟨Nat.le_of_succ_le hlength, (List.cons.inj hseqs).2⟩

private theorem mem_lt (h : NumberedTo heap next ids) {id : Nat} (hid : id ∈ ids) : id < heap.length := by
  have hmem : heap[id]?.map QueryTrailEntry.seq ∈ (List.range' (next - ids.length) ids.length).map some := by
    rw [← h.seqs]
    exact List.mem_map_of_mem hid
  obtain ⟨seq, -, hseq⟩ := List.mem_map.1 hmem
  by_contra hge
  rw [List.getElem?_eq_none (Nat.le_of_not_lt hge)] at hseq
  cases hseq

private theorem push (h : NumberedTo heap next ids) {entry : QueryTrailEntry δ} (hseq : entry.seq = next) :
    NumberedTo (heap ++ [entry]) (next + 1) (ids ++ [heap.length]) := by
  have hold : ids.map (fun id => (heap ++ [entry])[id]?.map QueryTrailEntry.seq) =
      ids.map (fun id => heap[id]?.map QueryTrailEntry.seq) := by
    refine List.map_congr_left fun id hid => ?_
    rw [List.getElem?_append_left (h.mem_lt hid)]
  have hlast : next - ids.length + ids.length = next := Nat.sub_add_cancel h.length
  constructor
  · rw [List.length_append]
    exact Nat.succ_le_succ h.length
  · rw [List.map_append, hold, h.seqs, List.length_append, List.length_singleton, Nat.add_sub_add_right,
      List.range'_1_concat, hlast, List.map_append]
    simp [hseq]

private theorem congr (h : NumberedTo heap next ids) {heap' : List (QueryTrailEntry δ)}
    (hheap : ∀ id : Nat, heap'[id]?.map QueryTrailEntry.seq = heap[id]?.map QueryTrailEntry.seq) :
    NumberedTo heap' next ids := by
  refine ⟨h.length, ?_⟩
  simp only [hheap]
  exact h.seqs

end NumberedTo

private theorem settle_seq (handle : QueryTrailHandle) (outcome : SettleOutcome) (now : δ) (id : Nat) :
    (r.settle handle outcome now).entryHeap[id]?.map QueryTrailEntry.seq =
      r.entryHeap[id]?.map QueryTrailEntry.seq := by
  cases handle with
  | inert => rfl
  | entry settled =>
    have hseq : ∀ entry, (settleEntry r.startMs outcome now entry).seq = entry.seq := by
      intro entry
      unfold settleEntry
      split <;> rfl
    unfold settle
    dsimp only
    rw [List.getElem?_modify]
    cases r.entryHeap[id]? with
    | none => rfl
    | some entry =>
      by_cases hid : settled = id
      · simp [hid, hseq]
      · simp [hid]

private theorem settle_settlesOnce (handle : QueryTrailHandle) (outcome : SettleOutcome) (now : δ) :
    SettlesOnce r handle (r.settle handle outcome now) := by
  cases handle with
  | inert => exact ⟨rfl, fun _ _ => rfl, fun _ _ h => by cases h⟩
  | entry settled =>
    constructor
    · rfl
    · intro id hid
      have hne : settled ≠ id := fun h => hid (congrArg _ h)
      exact List.getElem?_modify_ne _ _ hne
    · rintro id entry ⟨⟩ hentry hsettled
      unfold settle
      dsimp only
      rw [List.getElem?_modify_eq, hentry]
      simp [settleEntry, hsettled]

/-! ### Every call -/

/-- What holds of the recorder for every capacity. -/
structure Numbered (options : QueryTrailOptions) (t : Trail) (r : QueryTrailRecorder δ) : Prop where
  ring : r.ring < r.arrayHeap.length
  maxEntries : r.maxEntries = options.maxEntries.getD DEFAULT_TRAIL_MAX_ENTRIES
  maxParamChars : r.maxParamChars = options.maxParamChars.getD DEFAULT_TRAIL_MAX_PARAM_CHARS
  redactParams : r.redactParams = options.redactParams
  nextSeq : r.nextSeq = t.appended
  disabled : r.disabledAfterSeq.isSome = t.failed
  numbered : NumberedTo r.entryHeap t.appended r.ringEntries

variable {options : QueryTrailOptions} {t : Trail}

omit [Millis δ] in
private theorem create_numbered (options : QueryTrailOptions) (now : δ) : Numbered options {} (create options now) where
  ring := Nat.one_pos
  maxEntries := rfl
  maxParamChars := rfl
  redactParams := rfl
  nextSeq := rfl
  disabled := rfl
  numbered := .empty [] 0

omit [Millis δ] in
private theorem Numbered.captured (h : Numbered options t r) (hopen : t.failed = false) {failed : Bool}
    (hcaptured : Captured r failed r') :
    Numbered options { appended := t.appended + 1, failed } r' := by
  have hring := hcaptured.ringEntries
  obtain ⟨entry, hseq, hpushed⟩ := hcaptured
  constructor
  · rw [hpushed.ring, hpushed.arrays]
    exact h.ring
  · exact hpushed.maxEntries.trans h.maxEntries
  · exact hpushed.maxParamChars.trans h.maxParamChars
  · exact hpushed.redactParams.trans h.redactParams
  · rw [hpushed.nextSeq, ← h.nextSeq]
  · rw [hpushed.disabledAfterSeq]
    cases failed with
    | false => exact h.disabled.trans hopen
    | true => rfl
  · have hnext : entry.seq = t.appended := hseq.trans h.nextSeq
    have hheap : r'.entryHeap = r.entryHeap ++ [entry] := hpushed.entryHeap
    rw [hheap, hring]
    split
    · exact h.numbered.tail.push hnext
    · exact h.numbered.push hnext

/-- Nothing is begun after a failure; else there is one entry more. -/
private theorem Numbered.begin_cases (h : Numbered options t r) (clientId : Int) (sql : Text)
    (values : Option (List ParamValue)) (now : δ) :
    (t.after options (.begin clientId sql values now) = t ∧ (r.begin clientId sql values now).1 = r) ∨
    (t.failed = false ∧ ∃ failed, t.after options (.begin clientId sql values now) =
      { appended := t.appended + 1, failed } ∧ Captured r failed (r.begin clientId sql values now).1) := by
  by_cases hfailed : t.failed = true
  · left
    rw [begin_disabled (h.disabled.trans hfailed)]
    exact ⟨if_pos hfailed, rfl⟩
  · right
    have hopen : t.failed = false := by simpa using hfailed
    have hcaptured := begin_captured h.ring (h.disabled.trans hopen) clientId sql values now
    rw [h.redactParams, h.maxParamChars] at hcaptured
    exact ⟨hopen, _, if_neg hfailed, hcaptured⟩

/-- One step of the trail and of the recorder. -/
private theorem Numbered.call (h : Numbered options t r) (c : TrailCall δ) :
    Numbered options (t.after options c) (QueryTrailRecorder.call r c).1 := by
  cases c with
  | registerClient => exact { h with }
  | begin clientId sql values now =>
    obtain ⟨hafter, hbegin⟩ | ⟨hopen, failed, hafter, hcaptured⟩ := h.begin_cases clientId sql values now
    · show Numbered options _ (r.begin clientId sql values now).1
      rw [hafter, hbegin]
      exact h
    · rw [hafter]
      exact h.captured hopen hcaptured
  | settle handle outcome now =>
    have hnumbered := h.numbered.congr (settle_seq handle outcome now)
    cases handle with
    | inert => exact h
    | entry id => exact { h with numbered := hnumbered }
  | entries =>
    have hring : r.entries.1.ringEntries = r.ringEntries := array_append h.ring _
    have hlength : r.ring < (r.arrayHeap ++ [r.ringEntries]).length := by
      rw [List.length_append]
      exact Nat.lt_succ_of_lt h.ring
    refine { h with ring := hlength, numbered := ?_ }
    exact hring ▸ h.numbered
  | trailMeta => exact h
  | clear now =>
    have hring : (r.clear now).ringEntries = [] := by simp [ringEntries, array, clear]
    refine { h with ring := ?_, nextSeq := rfl, disabled := rfl, numbered := ?_ }
    · simp [QueryTrailRecorder.call, clear]
    · exact hring ▸ .empty r.entryHeap 0

private theorem Numbered.run (options : QueryTrailOptions) (now : δ) (calls : List (TrailCall δ)) :
    Numbered options (trailOf options calls) (QueryTrailRecorder.call.run (create options now) calls).1 := by
  have hrun : ∀ {t : Trail} {r : QueryTrailRecorder δ}, Numbered options t r →
      Numbered options (calls.foldl (Trail.after options) t) (QueryTrailRecorder.call.run r calls).1 := by
    induction calls with
    | nil => exact fun h => h
    | cons c calls ih => exact fun h => ih (h.call c)
  exact hrun (create_numbered options now)

/-! ### The capacity -/

end QueryTrailRecorder

/-- Below the capacity there is room for one more, and an empty ring is below it. -/
structure JsNumber.Ringlike (n : JsNumber) : Prop where
  positive : n.reachedBy 0 = false
  room : ∀ length, n.reachedBy length = false → n.exceededBy (length + 1) = false

private theorem JsNumber.Ringlike.empty {n : JsNumber} (h : n.Ringlike) : n.exceededBy 0 = false := by
  have hpositive := h.positive
  cases n with
  | finite value =>
    simp only [reachedBy, exceededBy, decide_eq_false_iff_not] at hpositive ⊢
    exact fun hlt => hpositive hlt.le
  | posInfinity => rfl
  | negInfinity => exact hpositive
  | nan => rfl

private theorem LawfulCapacity.ringlike {capacity : Option JsNumber} (h : LawfulCapacity capacity) :
    (capacity.getD DEFAULT_TRAIL_MAX_ENTRIES).Ringlike := by
  have hfinite : ∀ n : Nat, 1 ≤ n → (JsNumber.finite n).Ringlike := by
    intro n hn
    constructor
    · simp only [JsNumber.reachedBy, decide_eq_false_iff_not]
      exact_mod_cast Nat.not_le.2 hn
    · intro length hlength
      simp only [JsNumber.reachedBy, JsNumber.exceededBy, decide_eq_false_iff_not] at hlength ⊢
      have hlt : length < n := by exact_mod_cast not_le.1 hlength
      exact not_lt.2 (by exact_mod_cast hlt)
  match capacity, h with
  | none, _ => exact hfinite 500 (by decide)
  | some (.finite _), ⟨n, hn, rfl⟩ => exact hfinite n hn
  | some .posInfinity, _ => exact ⟨rfl, fun _ _ => rfl⟩
  | some .nan, _ => exact ⟨rfl, fun _ _ => rfl⟩

namespace QueryTrailRecorder

variable {r r' : QueryTrailRecorder δ} {options : QueryTrailOptions} {t : Trail}

/-- What holds of the recorder for a capacity that a ring can have. -/
structure Balanced (t : Trail) (r : QueryTrailRecorder δ) : Prop where
  capped : r.maxEntries.exceededBy r.ringEntries.length = false
  balanced : r.droppedCount + r.ringEntries.length = t.appended

omit [Millis δ] in
private theorem Balanced.captured (h : Balanced t r) (hcapacity : r.maxEntries.Ringlike) {failed : Bool}
    (hcaptured : Captured r failed r') :
    Balanced { appended := t.appended + 1, failed } r' := by
  have hbalanced := h.balanced
  have hmax : r'.maxEntries = r.maxEntries := by
    obtain ⟨entry, -, hpushed⟩ := hcaptured
    exact hpushed.maxEntries
  by_cases hreached : r.maxEntries.reachedBy r.ringEntries.length = true
  · -- An empty ring is not full, so one entry goes for the one that comes.
    have hring := hcaptured.ringEntries
    have hdropped := hcaptured.droppedCount
    rw [if_pos hreached] at hring hdropped
    have hne : r.ringEntries.length ≠ 0 := by
      intro hzero
      rw [hzero, hcapacity.positive] at hreached
      cases hreached
    have hlength : r'.ringEntries.length = r.ringEntries.length := by
      rw [hring, List.length_append, List.length_tail, List.length_singleton]
      omega
    constructor
    · rw [hmax, hlength]
      exact h.capped
    · rw [hdropped, hlength]
      show r.droppedCount + 1 + r.ringEntries.length = t.appended + 1
      omega
  · have hring := hcaptured.ringEntries
    have hdropped := hcaptured.droppedCount
    rw [if_neg hreached] at hring hdropped
    have hlength : r'.ringEntries.length = r.ringEntries.length + 1 := by
      rw [hring, List.length_append, List.length_singleton]
    constructor
    · rw [hmax, hlength]
      exact hcapacity.room _ (by simpa using hreached)
    · rw [hdropped, hlength]
      show r.droppedCount + (r.ringEntries.length + 1) = t.appended + 1
      omega

private theorem Balanced.call (h : Balanced t r) (hnumbered : Numbered options t r)
    (hcapacity : r.maxEntries.Ringlike) (c : TrailCall δ) :
    Balanced (t.after options c) (QueryTrailRecorder.call r c).1 := by
  cases c with
  | registerClient => exact { h with }
  | begin clientId sql values now =>
    obtain ⟨hafter, hbegin⟩ | ⟨-, failed, hafter, hcaptured⟩ := hnumbered.begin_cases clientId sql values now
    · show Balanced _ (r.begin clientId sql values now).1
      rw [hafter, hbegin]
      exact h
    · rw [hafter]
      exact h.captured hcapacity hcaptured
  | settle handle outcome now =>
    cases handle with
    | inert => exact h
    | entry id => exact { h with }
  | entries =>
    have hring : r.entries.1.ringEntries = r.ringEntries := array_append hnumbered.ring _
    constructor
    · exact hring ▸ h.capped
    · exact hring ▸ h.balanced
  | trailMeta => exact h
  | clear now =>
    have hring : (r.clear now).ringEntries = [] := by simp [ringEntries, array, clear]
    constructor
    · exact hring ▸ hcapacity.empty
    · exact (Nat.zero_add _).trans (congrArg List.length hring)

private theorem Balanced.run (hcapacity : LawfulCapacity options.maxEntries) (now : δ) (calls : List (TrailCall δ)) :
    Balanced (trailOf options calls) (QueryTrailRecorder.call.run (create options now) calls).1 := by
  have hrun : ∀ {t : Trail} {r : QueryTrailRecorder δ}, Numbered options t r → Balanced t r →
      Balanced (calls.foldl (Trail.after options) t) (QueryTrailRecorder.call.run r calls).1 := by
    induction calls with
    | nil => exact fun _ h => h
    | cons c calls ih =>
      intro t r hnumbered h
      have hring : r.maxEntries.Ringlike := hnumbered.maxEntries ▸ hcapacity.ringlike
      exact ih (hnumbered.call c) (h.call hnumbered hring c)
  exact hrun (create_numbered options now) ⟨hcapacity.ringlike.empty, rfl⟩

/-! ### Returned arrays -/

/-- An array that is not the ring. -/
structure Returned (id : Nat) (ids : List Nat) (r : QueryTrailRecorder δ) : Prop where
  ring : r.ring < r.arrayHeap.length
  other : id ≠ r.ring
  allocated : id < r.arrayHeap.length
  holds : r.array id = ids

variable {id : Nat} {ids : List Nat}

omit [Millis δ] in
private theorem entries_returned (hring : r.ring < r.arrayHeap.length) :
    Returned r.entries.2 r.ringEntries r.entries.1 := by
  have hlength : r.entries.1.arrayHeap.length = r.arrayHeap.length + 1 := by simp [entries]
  constructor
  · rw [hlength]
    exact Nat.lt_succ_of_lt hring
  · exact Nat.ne_of_gt hring
  · rw [hlength]
    exact Nat.lt_succ_self _
  · simp [array, entries]

omit [Millis δ] in
private theorem Returned.captured (h : Returned id ids r) {failed : Bool} (hcaptured : Captured r failed r') :
    Returned id ids r' := by
  obtain ⟨entry, -, hpushed⟩ := hcaptured
  have hother : id ≠ r.ring := h.other
  constructor
  · rw [hpushed.ring, hpushed.arrays]
    exact h.ring
  · rwa [hpushed.ring]
  · rw [hpushed.arrays]
    exact h.allocated
  · exact (hpushed.array id hother).trans h.holds

omit [Millis δ] in
/-- A new array is another one. -/
private theorem Returned.allocate (h : Returned id ids r) (a : List Nat) {ring : Nat} (hne : id ≠ ring)
    (hlt : ring < r.arrayHeap.length + 1) :
    Returned id ids ({ r with arrayHeap := r.arrayHeap ++ [a], ring } : QueryTrailRecorder δ) := by
  have hlength : (r.arrayHeap ++ [a]).length = r.arrayHeap.length + 1 := by simp
  refine ⟨?_, hne, ?_, ?_⟩
  · exact hlength.symm ▸ hlt
  · exact hlength.symm ▸ Nat.lt_succ_of_lt h.allocated
  · exact (array_append h.allocated a).trans h.holds

private theorem Returned.call (h : Returned id ids r) (c : TrailCall δ) :
    Returned id ids (QueryTrailRecorder.call r c).1 := by
  cases c with
  | registerClient => exact { h with }
  | begin clientId sql values now =>
    by_cases hdisabled : r.disabledAfterSeq.isSome = true
    · have hbegin := begin_disabled hdisabled clientId sql values now
      exact (congrArg Prod.fst hbegin) ▸ h
    · have hcaptured := begin_captured h.ring (by simpa using hdisabled) clientId sql values now
      exact h.captured hcaptured
  | settle handle outcome now =>
    cases handle with
    | inert => exact h
    | entry settled => exact { h with }
  | entries => exact h.allocate _ h.other (Nat.lt_succ_of_lt h.ring)
  | trailMeta => exact h
  | clear now => exact { h.allocate [] (Nat.ne_of_lt h.allocated) (Nat.lt_succ_self _) with }

private theorem Returned.run (h : Returned id ids r) (calls : List (TrailCall δ)) :
    Returned id ids (QueryTrailRecorder.call.run r calls).1 :=
  Machine.run_invariant (m := QueryTrailRecorder.call) (fun _ c hr => hr.call c) h calls

/-! ### Filling the ring -/

/-- The calls that begin `n` queries. -/
def begins (now : δ) (n : Nat) : List (TrailCall δ) := List.replicate n (.begin 0 [] none now)

omit [Millis δ] in
private theorem trailOf_begins (options : QueryTrailOptions) (now : δ) (n : Nat) :
    trailOf options (begins now n) = { appended := n } := by
  induction n with
  | zero => rfl
  | succ n ih =>
    have hlast : trailOf options (begins now (n + 1)) =
        (trailOf options (begins now n)).after options (.begin 0 [] none now) := by
      unfold trailOf begins
      rw [List.replicate_succ', List.foldl_append]
      rfl
    rw [hlast, ih]
    rfl

private theorem begins_captured (options : QueryTrailOptions) (now : δ) (n : Nat) :
    Captured (QueryTrailRecorder.call.run (create options now) (begins now n)).1 false
      (QueryTrailRecorder.call.run (create options now) (begins now (n + 1))).1 := by
  have hnumbered := Numbered.run options now (begins now n)
  have hdisabled := hnumbered.disabled
  rw [trailOf_begins] at hdisabled
  have hbegins : begins now (n + 1) = begins now n ++ [.begin 0 [] none now] := List.replicate_succ'
  rw [hbegins, Machine.run_append]
  exact begin_captured hnumbered.ring hdisabled 0 [] none now

/-- A ring that is not full grows. -/
private theorem length_begins (options : QueryTrailOptions) (now : δ) {n : Nat}
    (hroom : ∀ m, m < n → (options.maxEntries.getD DEFAULT_TRAIL_MAX_ENTRIES).reachedBy m = false) :
    (QueryTrailRecorder.call.run (create options now) (begins now n)).1.ringEntries.length = n := by
  induction n with
  | zero => rfl
  | succ n ih =>
    have hlength := ih fun m hm => hroom m (Nat.lt_succ_of_lt hm)
    have hring := (begins_captured options now n).ringEntries
    rw [(Numbered.run options now (begins now n)).maxEntries, hlength, hroom n (Nat.lt_succ_self n)] at hring
    rw [hring, if_neg Bool.false_ne_true, List.length_append, hlength]
    rfl

/-- The first entry stands in the ring, whatever its capacity. -/
private theorem length_begins_one (options : QueryTrailOptions) (now : δ) :
    (QueryTrailRecorder.call.run (create options now) (begins now 1)).1.ringEntries.length = 1 := by
  rw [(begins_captured options now 0).ringEntries, List.length_append]
  have hempty : (QueryTrailRecorder.call.run (create options now) (begins now 0)).1.ringEntries = [] := rfl
  simp [hempty]

private theorem lawfulCapacity_of_capped (options : QueryTrailOptions) (now : δ)
    (hcapped : ∀ n, (options.maxEntries.getD DEFAULT_TRAIL_MAX_ENTRIES).exceededBy
      (QueryTrailRecorder.call.run (create options now) (begins now n)).1.ringEntries.length = false) :
    LawfulCapacity options.maxEntries := by
  have hone := hcapped 1
  rw [length_begins_one] at hone
  cases hmax : options.maxEntries with
  | none => trivial
  | some capacity =>
    rw [hmax] at hone
    cases capacity with
    | posInfinity => trivial
    | nan => trivial
    | negInfinity => cases hone
    | finite value =>
      have hvalue : (1 : ℚ) ≤ value := by
        simpa [JsNumber.exceededBy] using hone
      have hceil := hcapped ⌈value⌉₊
      rw [length_begins options now fun m hm => by simpa [hmax, JsNumber.reachedBy] using Nat.lt_ceil.1 hm,
        hmax] at hceil
      have hle : (⌈value⌉₊ : ℚ) ≤ value := by simpa [JsNumber.exceededBy] using hceil
      have heq : value = ⌈value⌉₊ := le_antisymm (Nat.le_ceil value) hle
      refine ⟨⌈value⌉₊, ?_, heq⟩
      exact Nat.one_le_ceil_iff.2 (lt_of_lt_of_le one_pos hvalue)

end QueryTrailRecorder

/-! ### The theorem -/

open QueryTrailRecorder

/-- With a capacity that a ring can have, the trail keeps its laws. -/
theorem lawful_of_capacity {options : QueryTrailOptions} (hcapacity : LawfulCapacity options.maxEntries) (now : δ)
    (calls : List (TrailCall δ)) :
    Lawful options now calls (QueryTrailRecorder.call.run (create options now) calls).1 := by
  have hnumbered := Numbered.run options now calls
  have hbalanced := Balanced.run hcapacity now calls
  constructor
  · exact ⟨hnumbered.numbered.seqs, hbalanced.capped, hbalanced.balanced, hnumbered.disabled⟩
  · exact settle_settlesOnce
  · intro hfailed
    exact begin_disabled (hnumbered.disabled.trans hfailed)
  · intro later
    have hreturned := entries_returned hnumbered.ring
    exact (hreturned.run later).holds

/-- The trail keeps its laws for a capacity that is a number of entries or no limit, and for no other. -/
theorem trail_lawful_iff (options : QueryTrailOptions) :
    (∀ (now : δ) calls, Lawful options now calls (QueryTrailRecorder.call.run (create options now) calls).1) ↔
      LawfulCapacity options.maxEntries := by
  constructor
  · intro hlawful
    refine lawfulCapacity_of_capped options (0 : δ) fun n => ?_
    have hcapped := (hlawful 0 (begins 0 n)).accounted.capped
    rwa [(Numbered.run options (0 : δ) (begins 0 n)).maxEntries] at hcapped
  · exact lawful_of_capacity

instance : Millis Int where
  roundHundredths := id

/-- A ring of no entries holds one, and counts it as dropped. -/
theorem trail_of_none_overflows :
    ¬∀ (options : QueryTrailOptions) (now : Int) (calls : List (TrailCall Int)),
      Lawful options now calls (QueryTrailRecorder.call.run (create options now) calls).1 := by
  intro hlawful
  have hcapped := (hlawful { maxEntries := some (.finite 0) } 0 [.begin 0 (units "SELECT 1") none 0]).accounted.capped
  revert hcapped
  decide +kernel

end PgliteBridge.QueryTrail
