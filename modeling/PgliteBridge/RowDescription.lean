import PgliteBridge.Wire

/-!
# RowDescription: gate and rewrite

`rowDescriptionNeedsRewrite` decides whether a `RowDescription` frame has a system-catalog `"char"` column, and
`rewriteRowDescriptionInPlace` widens every such column to `text` (`duplex/row-description.ts`).  Both walk the
fields in the same way; the gate may look at a window of a larger chunk.  A frame the gate refuses is left as it
is by the rewrite (`rewriteRowDescriptionInPlace_eq_self`), and the gate on a window is the gate on the copied
slice (`rowDescriptionNeedsRewrite_subarray`).
-/

namespace PgliteBridge

/-- `while (p < end && buf[p] !== 0) p++`. -/
def nameEnd (buf : Bytes) (stop p : Nat) : Nat :=
  if p < stop ∧ buf.getD p 0 ≠ 0 then nameEnd buf stop (p + 1) else p
termination_by stop - p

/-- The fields whose type is widened: `"char"` columns of a catalog relation. -/
def isCatalogChar (buf : Bytes) (p : Nat) : Bool :=
  let tableOID := readUInt32BE buf p
  let oid := readUInt32BE buf (p + 6)
  oid == PG_TYPE_OID_CHAR && tableOID != 0 && decide (tableOID < PG_FIRST_USER_OID)

/-- The field loop of the gate: `fields` fields are left, the next one starts at `p`. -/
def needsRewriteFrom (buf : Bytes) (stop : Nat) : Nat → Nat → Bool
  | 0, _ => false
  | fields + 1, p =>
    let p := nameEnd buf stop p + 1
    if p + 18 > stop then false
    else if isCatalogChar buf p then true
    else needsRewriteFrom buf stop fields (p + 18)

def rowDescriptionNeedsRewrite (buf : Bytes) (start stop : Nat) : Bool :=
  if stop - start < 7 then false
  else needsRewriteFrom buf stop (readUInt16BE buf (start + 5)) (start + 7)

/-- `buf.writeUInt32BE(PG_TYPE_OID_TEXT, p)` and `buf.writeInt16BE(-1, p + 4)`. -/
def widenField (buf : Bytes) (p : Nat) : Bytes :=
  setBytes (setBytes buf p [0, 0, 0, 25]) (p + 4) [0xff, 0xff]

/-- The field loop of the rewrite. -/
def rewriteFrom : Nat → Nat → Bytes → Bytes
  | 0, _, buf => buf
  | fields + 1, p, buf =>
    let p := nameEnd buf buf.length p + 1
    if p + 18 > buf.length then buf
    else rewriteFrom fields (p + 18) (if isCatalogChar buf p then widenField buf (p + 6) else buf)

def rewriteRowDescriptionInPlace (buf : Bytes) : Bytes :=
  if buf.length < 7 then buf
  else rewriteFrom (readUInt16BE buf 5) 7 buf

/-! ### The gate and the rewrite -/

private theorem rewriteFrom_eq_self {buf : Bytes} (fields p : Nat)
    (h : needsRewriteFrom buf buf.length fields p = false) : rewriteFrom fields p buf = buf := by
  induction fields generalizing p with
  | zero => rfl
  | succ fields ih =>
    simp only [needsRewriteFrom] at h
    simp only [rewriteFrom]
    split
    · rfl
    · rename_i hfit
      rw [if_neg hfit] at h
      split at h
      · cases h
      · rename_i hchar
        rw [if_neg hchar]
        exact ih _ h

/-- A frame the gate refuses has no field to widen. -/
theorem rewriteRowDescriptionInPlace_eq_self {buf : Bytes}
    (h : rowDescriptionNeedsRewrite buf 0 buf.length = false) :
    rewriteRowDescriptionInPlace buf = buf := by
  unfold rewriteRowDescriptionInPlace
  split
  · rfl
  · rename_i hlen
    unfold rowDescriptionNeedsRewrite at h
    rw [if_neg (by omega)] at h
    exact rewriteFrom_eq_self _ _ (by simpa using h)

/-! ### The gate on a window -/

private theorem readUInt32BE_subarray {buf : Bytes} {start stop p : Nat} (h : start + p + 4 ≤ stop) :
    readUInt32BE (subarray buf start stop) p = readUInt32BE buf (start + p) := by
  unfold readUInt32BE
  rw [getD_subarray _ (by omega), getD_subarray _ (by omega), getD_subarray _ (by omega), getD_subarray _ (by omega)]
  simp only [Nat.add_assoc]

private theorem nameEnd_of_pos {buf : Bytes} {stop p : Nat} (h : p < stop ∧ buf.getD p 0 ≠ 0) :
    nameEnd buf stop p = nameEnd buf stop (p + 1) := by
  rw [nameEnd, if_pos h]

private theorem nameEnd_of_neg {buf : Bytes} {stop p : Nat} (h : ¬(p < stop ∧ buf.getD p 0 ≠ 0)) :
    nameEnd buf stop p = p := by
  rw [nameEnd, if_neg h]

private theorem nameEnd_subarray (buf : Bytes) {start stop : Nat} (h : start ≤ stop) (p : Nat) :
    nameEnd buf stop (start + p) = start + nameEnd (subarray buf start stop) (stop - start) p := by
  by_cases hp : start + p < stop
  · have hget := getD_subarray buf hp
    by_cases h0 : buf.getD (start + p) 0 ≠ 0
    · have hsub : p < stop - start ∧ (subarray buf start stop).getD p 0 ≠ 0 := ⟨by omega, by rwa [hget]⟩
      rw [nameEnd_of_pos ⟨hp, h0⟩, nameEnd_of_pos hsub]
      exact nameEnd_subarray buf h (p + 1)
    · rw [nameEnd_of_neg (fun c => h0 c.2), nameEnd_of_neg (fun c => h0 (by rw [← hget]; exact c.2))]
  · have hsub : ¬p < stop - start := by omega
    rw [nameEnd_of_neg (fun c => hp c.1), nameEnd_of_neg (fun c => hsub c.1)]
termination_by stop - (start + p)

private theorem needsRewriteFrom_subarray (buf : Bytes) {start stop : Nat} (h : start ≤ stop) (fields p : Nat) :
    needsRewriteFrom buf stop fields (start + p) =
      needsRewriteFrom (subarray buf start stop) (stop - start) fields p := by
  induction fields generalizing p with
  | zero => rfl
  | succ fields ih =>
    simp only [needsRewriteFrom, nameEnd_subarray buf h]
    generalize nameEnd (subarray buf start stop) (stop - start) p = q
    by_cases hfit : start + q + 1 + 18 > stop
    · rw [if_pos hfit, if_pos (by omega)]
    · have hchar : isCatalogChar buf (start + q + 1) = isCatalogChar (subarray buf start stop) (q + 1) := by
        unfold isCatalogChar
        rw [readUInt32BE_subarray (by omega), readUInt32BE_subarray (by omega)]
        simp only [Nat.add_assoc]
      have hnext : start + q + 1 + 18 = start + (q + 1 + 18) := by omega
      have hfit' : ¬(q + 1 + 18 > stop - start) := by omega
      rw [if_neg hfit, if_neg hfit', hchar, hnext, ih]

/-- The gate on the window `[start, stop)` of a chunk is the gate on the copied slice. -/
theorem rowDescriptionNeedsRewrite_subarray (buf : Bytes) {start stop : Nat} (h : start ≤ stop) :
    rowDescriptionNeedsRewrite buf start stop =
      rowDescriptionNeedsRewrite (subarray buf start stop) 0 (stop - start) := by
  unfold rowDescriptionNeedsRewrite
  by_cases hlen : stop - start < 7
  · rw [if_pos hlen, if_pos (by simpa using hlen)]
  · have hcount : readUInt16BE (subarray buf start stop) 5 = readUInt16BE buf (start + 5) := by
      unfold readUInt16BE
      rw [getD_subarray _ (by omega), getD_subarray _ (by omega)]
    rw [if_neg hlen, if_neg (by simpa using hlen), Nat.zero_add, Nat.zero_add, hcount,
      needsRewriteFrom_subarray buf h]

end PgliteBridge
