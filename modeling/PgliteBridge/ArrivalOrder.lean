import PgliteBridge.FrontendRefinement
import Mathlib.Data.List.Chain

/-!
# Arrival order

Extended messages wait for their Sync or Flush while other messages are handed to PGlite at once.  So the batches keep
the order in which the messages arrived if and only if no other message arrives directly behind an extended one
(`arrival_order_iff`).
-/

namespace PgliteBridge

/-! ### What is handed over -/

/-- A whole message. -/
def IsMessage (message : Bytes) : Prop := takeMessage message = .message message []

instance (message : Bytes) : Decidable (IsMessage message) := inferInstanceAs (Decidable (_ = _))

def isExtended (message : Bytes) : Bool := decide (messageKind message = .extended)

/-- Neither an extended message nor a Sync or Flush. -/
def isStandalone (message : Bytes) : Bool :=
  match messageKind message with
  | .extended | .batchEnd _ => false
  | _ => true

/-- No Terminate and no COPY that is captured or rejected. -/
def isOrdinary (message : Bytes) : Bool :=
  match messageKind message with
  | .terminate | .query .capture | .query .rejectMulti => false
  | _ => true

/-- The batches of the messages behind those that are collected. -/
def handed : (collected : List Bytes) → List Bytes → List Bytes
  | _, [] => []
  | collected, message :: messages =>
    match messageKind message with
    | .extended => handed (collected ++ [message]) messages
    | .batchEnd _ => (collected ++ [message]).flatten :: handed [] messages
    | _ => message :: handed collected messages

/-- No standalone message directly behind an extended one. -/
def InOrder (messages : List Bytes) : Prop :=
  messages.IsChain fun message message' => isExtended message = true → isStandalone message' = false

instance (messages : List Bytes) : Decidable (InOrder messages) :=
  inferInstanceAs (Decidable (messages.IsChain fun message message' => isExtended message = true →
    isStandalone message' = false))

/-! ### The order of the batches -/

private theorem isExtended_iff {message : Bytes} :
    isExtended message = true ↔ message.getD 0 0 ∈ Duplex.EQP_MESSAGES := by
  obtain ⟨msgType, htype⟩ : ∃ msgType, message.getD 0 0 = msgType := ⟨_, rfl⟩
  unfold isExtended
  rw [decide_eq_true_eq]
  unfold messageKind
  simp only [htype]
  by_cases hterminate : msgType = TERMINATE
  · rw [if_pos hterminate, hterminate]
    decide
  · rw [if_neg hterminate]
    by_cases hextended : msgType ∈ Duplex.EQP_MESSAGES
    · rw [if_pos hextended]
      exact ⟨fun _ => hextended, fun _ => rfl⟩
    · rw [if_neg hextended]
      refine ⟨fun he => ?_, fun he => absurd he hextended⟩
      repeat' split at he
      all_goals cases he

/-- Messages that begin alike are alike extended. -/
private theorem isExtended_of_append_eq {message message' rest rest' : Bytes} (hne : message ≠ [])
    (hne' : message' ≠ [])
    (h : message ++ rest = message' ++ rest') : isExtended message = isExtended message' := by
  have hfirst : ∀ {first rest : Bytes}, first ≠ [] → (first ++ rest).getD 0 0 = first.getD 0 0 := by
    intro first rest hne
    cases first with
    | nil => exact absurd rfl hne
    | cons byte first => rfl
  have hsame : message.getD 0 0 = message'.getD 0 0 := by
    rw [← hfirst hne, h, hfirst hne']
  rw [Bool.eq_iff_iff, isExtended_iff, isExtended_iff, hsame]

private theorem inOrder_append_extended {collected messages : List Bytes}
    (hcollected : ∀ message ∈ collected, isExtended message = true) :
    InOrder (collected ++ messages) ↔
      InOrder messages ∧ (collected ≠ [] → ∀ message ∈ messages.head?, isStandalone message = false) := by
  have hstandalone : ∀ message, isExtended message = true → isStandalone message = false := by
    intro message hextended
    rw [isExtended, decide_eq_true_eq] at hextended
    rw [isStandalone, hextended]
  induction collected with
  | nil => simp
  | cons first collected ih =>
    have hfirst := hcollected first List.mem_cons_self
    have hrest := fun message hmem => hcollected message (List.mem_cons_of_mem _ hmem)
    cases collected with
    | nil =>
      unfold InOrder
      rw [List.singleton_append, List.isChain_cons]
      simp only [hfirst, forall_const, ne_eq, List.cons_ne_nil, not_false_eq_true]
      exact and_comm
    | cons second collected =>
      have hsecond := hstandalone second (hrest second List.mem_cons_self)
      have hskip : InOrder (first :: second :: (collected ++ messages)) ↔
          InOrder (second :: (collected ++ messages)) := by
        unfold InOrder
        rw [List.isChain_cons_cons]
        simp [hsecond]
      have ih' := ih hrest
      simp only [List.cons_append, ne_eq, List.cons_ne_nil, not_false_eq_true, forall_const] at ih' ⊢
      exact hskip.trans ih'

/-- A message that is not extended leaves the order to those behind it. -/
private theorem inOrder_cons {message : Bytes} {messages : List Bytes} (h : isExtended message = false) :
    InOrder (message :: messages) ↔ InOrder messages := by
  unfold InOrder
  rw [List.isChain_cons]
  simp [h]

private theorem handed_flatten_iff {collected messages : List Bytes}
    (hcollected : ∀ message ∈ collected, isExtended message = true)
    (hne : ∀ message ∈ collected ++ messages, message ≠ [])
    (hend : ∀ message ∈ (collected ++ messages).getLast?, isExtended message = false) :
    (handed collected messages).flatten = (collected ++ messages).flatten ↔ InOrder (collected ++ messages) := by
  induction messages generalizing collected with
  | nil =>
    have hnone : collected = [] := by
      by_contra hsome
      obtain ⟨init, last, rfl⟩ := List.eq_nil_or_concat collected |>.resolve_left hsome
      have hlast := hend last (by simp)
      rw [hcollected last (by simp)] at hlast
      cases hlast
    rw [hnone]
    simp [handed, InOrder]
  | cons message messages ih =>
    have hne' : ∀ other ∈ messages, other ≠ [] := fun other hmem =>
      hne other (List.mem_append_right _ (List.mem_cons_of_mem _ hmem))
    have hlater : ∀ other ∈ messages.getLast?, isExtended other = false := by
      intro other hmem
      apply hend other
      cases messages with
      | nil => cases hmem
      | cons next messages => simpa [List.getLast?_append, List.getLast?_cons] using hmem
    have hrest : (handed [] messages).flatten = messages.flatten ↔ InOrder messages :=
      ih (fun _ hmem => by cases hmem) hne' hlater
    by_cases hextended : messageKind message = .extended
    · have hcollected' : ∀ other ∈ collected ++ [message], isExtended other = true := by
        intro other hmem
        rcases List.mem_append.mp hmem with hmem | hmem
        · exact hcollected other hmem
        · rw [List.mem_singleton.mp hmem, isExtended, hextended]
          rfl
      have hassoc : collected ++ message :: messages = collected ++ [message] ++ messages := by simp
      simp only [handed, hextended]
      rw [hassoc] at hne hend ⊢
      exact ih hcollected' hne hend
    · have hnot : isExtended message = false := by simpa [isExtended] using hextended
      rw [inOrder_append_extended hcollected, inOrder_cons hnot]
      by_cases hbatch : ∃ mode, messageKind message = .batchEnd mode
      · obtain ⟨mode, hmode⟩ := hbatch
        have hstandalone : isStandalone message = false := by simp [isStandalone, hmode]
        have hflat : (collected ++ message :: messages).flatten =
            (collected ++ [message]).flatten ++ messages.flatten := by
          simp
        simp only [handed, hmode, List.flatten_cons, hflat, List.append_cancel_left_eq, hrest]
        simp [hstandalone]
      · have hhanded : handed collected (message :: messages) = message :: handed collected messages := by
          simp only [handed]
          split
          · rename_i he
            exact absurd he hextended
          · rename_i mode he
            exact absurd ⟨mode, he⟩ hbatch
          · rfl
        have hstandalone : isStandalone message = true := by
          unfold isStandalone
          split
          · rename_i he
            exact absurd he hextended
          · rename_i mode he
            exact absurd ⟨mode, he⟩ hbatch
          · rfl
        rw [hhanded, List.flatten_cons]
        cases collected with
        | nil =>
          rw [List.nil_append, List.flatten_cons, List.append_cancel_left_eq, hrest]
          simp
        | cons first collected =>
          -- what is collected comes behind the message
          constructor
          · intro he
            have hfirst : isExtended message = isExtended first := by
              rw [List.cons_append, List.flatten_cons] at he
              exact isExtended_of_append_eq (hne message (by simp)) (hne first (by simp)) he
            rw [hnot, hcollected first List.mem_cons_self] at hfirst
            cases hfirst
          · rintro ⟨-, hhead⟩
            have hstandalone' := hhead (List.cons_ne_nil _ _) message rfl
            rw [hstandalone] at hstandalone'
            cases hstandalone'

/-! ### The calls of a connection -/

theorem cut_flatten {messages : List Bytes} (h : ∀ message ∈ messages, IsMessage message) :
    cut messages.flatten = { messages } := by
  induction messages with
  | nil => exact cut_incomplete rfl
  | cons message messages ih =>
    have hfirst : takeMessage (message ++ messages.flatten) = .message message ([] ++ messages.flatten) :=
      takeMessage_append _ (h message List.mem_cons_self)
    rw [List.flatten_cons, cut_message hfirst, List.nil_append,
      ih fun other hmem => h other (List.mem_cons_of_mem _ hmem)]

private theorem ne_nil_of_isMessage {message : Bytes} (h : IsMessage message) : message ≠ [] := by
  rintro rfl
  cases h

/-- PGlite answers every call. -/
def PGlite.Answers (pglite : PGlite) : Prop := ∀ calls, ∃ status forwarded, pglite calls = .answered status forwarded

variable {cap : Nat} {pglite : PGlite} {r : Exchange}

private theorem call_answered (h : pglite.Answers) (r : Exchange) (batch : Bytes) (mode : RfqMode) :
    ∃ status pushed,
      r.call pglite batch mode = { r with calls := r.calls ++ [PGliteCall.mk batch mode], status, pushed } := by
  obtain ⟨status, forwarded, hstatus⟩ := h (r.calls ++ [PGliteCall.mk batch mode])
  refine ⟨status <|> r.status, r.pushed ++ forwarded.map Push.chunk, ?_⟩
  unfold Exchange.call
  simp only [hstatus]

/-- An ordinary message outside a COPY is collected, closes a batch, or is a batch of its own. -/
private theorem next_ordinary (cap : Nat) (h : pglite.Answers) (hcaptured : r.captured = none) {message : Bytes}
    (hordinary : isOrdinary message = true) : ∃ collected calls status pushed,
      r.next cap pglite message = { r with collected, calls, status, pushed } ∧
        ∀ messages, calls.map PGliteCall.batch ++ handed collected messages =
          r.calls.map PGliteCall.batch ++ handed r.collected (message :: messages) := by
  obtain ⟨collected₀, captured, status₀, calls₀, pushed, error, ended⟩ := r
  obtain rfl : captured = none := hcaptured
  let r₀ : Exchange := ⟨collected₀, none, status₀, calls₀, pushed, error, ended⟩
  have hsent : ∀ batch mode collected,
      (∀ messages, handed collected₀ (message :: messages) = batch :: handed collected messages) →
      r₀.next cap pglite message = Exchange.call pglite { r₀ with collected } batch mode →
      ∃ collected calls status pushed, r₀.next cap pglite message = { r₀ with collected, calls, status, pushed } ∧
        ∀ messages, calls.map PGliteCall.batch ++ handed collected messages =
          calls₀.map PGliteCall.batch ++ handed collected₀ (message :: messages) := by
    intro batch mode collected hhanded hnext
    obtain ⟨status, pushed, hcall⟩ := call_answered h { r₀ with collected } batch mode
    refine ⟨collected, _, status, pushed, hnext.trans hcall, fun messages => ?_⟩
    rw [hhanded, List.map_append, List.append_assoc]
    rfl
  cases hkind : messageKind message with
  | terminate => simp [isOrdinary, hkind] at hordinary
  | extended =>
    refine ⟨collected₀ ++ [message], calls₀, status₀, pushed, ?_, fun messages => ?_⟩
    · simp only [Exchange.next, hkind]
    · simp only [handed, hkind]
  | batchEnd mode =>
    exact hsent (collected₀ ++ [message]).flatten mode [] (fun _ => by simp only [handed, hkind])
      (by simp only [Exchange.next, hkind, r₀])
  | copyData =>
    exact hsent message .passthrough collected₀ (fun _ => by simp only [handed, hkind])
      (by simp only [Exchange.next, hkind, r₀])
  | copyEnd =>
    exact hsent message .passthrough collected₀ (fun _ => by simp only [handed, hkind])
      (by simp only [Exchange.next, hkind, r₀])
  | other =>
    exact hsent message .passthrough collected₀ (fun _ => by simp only [handed, hkind])
      (by simp only [Exchange.next, hkind, r₀])
  | query verdict =>
    cases verdict with
    | capture => simp [isOrdinary, hkind] at hordinary
    | rejectMulti => simp [isOrdinary, hkind] at hordinary
    | notCopyIn =>
      exact hsent message .passthrough collected₀ (fun _ => by simp only [handed, hkind])
        (by simp only [Exchange.next, hkind, r₀])

private theorem fold_handed (h : pglite.Answers) {messages : List Bytes}
    (hordinary : ∀ message ∈ messages, isOrdinary message = true)
    (hcaptured : r.captured = none) (hlive : r.stopped = false) :
    (r.fold cap pglite messages).calls.map PGliteCall.batch =
      r.calls.map PGliteCall.batch ++ handed r.collected messages := by
  induction messages generalizing r with
  | nil => simp [Exchange.fold, handed]
  | cons message messages ih =>
    obtain ⟨collected, calls, status, pushed, hnext, hbatches⟩ :=
      next_ordinary cap h hcaptured (hordinary message List.mem_cons_self)
    rw [Exchange.fold_cons, if_neg (by rw [hlive]; decide), hnext, ← hbatches]
    exact ih (fun other hmem => hordinary other (List.mem_cons_of_mem _ hmem)) hcaptured hlive

/-- What a connection hands to PGlite behind its startup packet. -/
private theorem batches_eq_handed (h : pglite.Answers) {writes : List (List Bytes)} {packet : Bytes}
    {messages : List Bytes}
    (hpacket : takeStartup packet = .message packet []) (hmessages : ∀ message ∈ messages, IsMessage message)
    (hordinary : ∀ message ∈ messages, isOrdinary message = true)
    (hwrites : writes.flatten.flatten = packet ++ messages.flatten) :
    (Connection.writes cap pglite writes).calls.map PGliteCall.batch = packet :: handed [] messages := by
  have hstream : takeStartup (packet ++ messages.flatten) = .message packet ([] ++ messages.flatten) :=
    takeStartup_append _ hpacket
  obtain ⟨status, pushed, hcall⟩ := call_answered h {} packet .passthrough
  rw [(writes_reads cap pglite writes).agrees.calls, hwrites, reference_message hstream, List.nil_append,
    cut_flatten hmessages, hcall]
  exact fold_handed h hordinary rfl rfl

/-- The batches are the messages in the order in which they arrived if and only if no standalone message arrives
directly behind an extended one. -/
theorem arrival_order_iff (cap : Nat) (h : pglite.Answers) {writes : List (List Bytes)} {packet : Bytes}
    {messages : List Bytes} (hpacket : takeStartup packet = .message packet [])
    (hmessages : ∀ message ∈ messages, IsMessage message) (hordinary : ∀ message ∈ messages, isOrdinary message = true)
    (hend : ∀ message ∈ messages.getLast?, isExtended message = false)
    (hwrites : writes.flatten.flatten = packet ++ messages.flatten) :
    ((Connection.writes cap pglite writes).calls.map PGliteCall.batch).flatten = packet ++ messages.flatten ↔
      InOrder messages := by
  rw [batches_eq_handed h hpacket hmessages hordinary hwrites, List.flatten_cons, List.append_cancel_left_eq]
  exact handed_flatten_iff (fun _ hmem => by cases hmem)
    (fun message hmem => ne_nil_of_isMessage (hmessages message hmem)) hend

/-- An SSL request. -/
def sslRequest : Bytes := [0, 0, 0, 8, 4, 210, 22, 47]

def ascii (text : String) : Bytes := text.toList.map fun ch => UInt8.ofNat ch.toNat

def selectQuery : Bytes := encodeMessage QUERY (ascii "SELECT 1" ++ [0])

def syncMessage : Bytes := encodeMessage SYNC []

def parseMessage : Bytes := encodeMessage PARSE (ascii "s1" ++ [0] ++ ascii "SELECT 1" ++ [0, 0, 0])

theorem arrival_order_trains :
    ((Connection.writes 1 (fun _ => .answered (some RFQ_STATUS_IDLE))
      [[sslRequest ++ parseMessage.take 3], [parseMessage.drop 3, syncMessage], [selectQuery]]).calls.map
        PGliteCall.batch).flatten = sslRequest ++ [parseMessage, syncMessage, selectQuery].flatten :=
  (arrival_order_iff 1 (fun _ => ⟨_, _, rfl⟩) (by decide) (by decide) (by decide) (by decide) (by decide)).mpr
    (by decide)

/-- The Close of an evicted statement, and a simple query behind it. -/
def closeThenQuery : List Bytes :=
  [encodeMessage CLOSE (ascii "Sppb_0_0" ++ [0]), selectQuery, syncMessage]

theorem closeThenQuery_reordered :
    ¬ ∀ (cap : Nat) (pglite : PGlite), pglite.Answers → ∀ (writes : List (List Bytes)) (packet : Bytes)
      (messages : List Bytes), takeStartup packet = .message packet [] → (∀ message ∈ messages, IsMessage message) →
        (∀ message ∈ messages, isOrdinary message = true) →
        (∀ message ∈ messages.getLast?, isExtended message = false) →
        writes.flatten.flatten = packet ++ messages.flatten →
          ((Connection.writes cap pglite writes).calls.map PGliteCall.batch).flatten = packet ++ messages.flatten := by
  intro hclaim
  have hordered := hclaim 1 (fun _ => .answered none) (fun _ => ⟨_, _, rfl⟩) [sslRequest :: closeThenQuery] sslRequest
    closeThenQuery (by decide) (by decide) (by decide) (by decide) (by decide)
  exact absurd hordered (by decide)

end PgliteBridge
