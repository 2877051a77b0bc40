import PgliteBridge.RowDescription

/-!
# The fields of a RowDescription

Which bytes the rewrite changes: the type and the size of the catalog `"char"` fields among those that a buffer has
whole (`fieldsOf`).  The gate and the rewrite walk the same fields, on any buffer and through the bytes that are being
rewritten (`rowDescription_agrees`).  Node checks the accesses of the rewrite; the checked walk never fails
(`rewriteChecked_eq`).
-/

namespace PgliteBridge

/-! ### Bytes -/

private theorem getD_setBytes {buf src : Bytes} {offset : Nat} (h : offset + src.length ≤ buf.length) (i : Nat) :
    (setBytes buf offset src).getD i 0 =
      if offset ≤ i ∧ i < offset + src.length then src.getD (i - offset) 0 else buf.getD i 0 := by
  have htake : (buf.take offset).length = offset := by
    rw [List.length_take]
    omega
  simp only [setBytes, List.getD_eq_getElem?_getD]
  by_cases hbefore : i < offset
  · rw [if_neg (by omega), List.append_assoc, List.getElem?_append_left (by omega), List.getElem?_take_of_lt hbefore]
  · by_cases hinside : i < offset + src.length
    · rw [if_pos ⟨by omega, hinside⟩, List.append_assoc, List.getElem?_append_right (by omega), htake,
        List.getElem?_append_left (by omega)]
    · rw [if_neg (by omega), List.getElem?_append_right (by rw [List.length_append]; omega), List.length_append, htake,
        List.getElem?_drop]
      congr 2
      omega

/-- The six bytes of a widened type. -/
def widened : Bytes := [0, 0, 0, 25, 0xff, 0xff]

private theorem length_widenField {buf : Bytes} {p : Nat} (h : p + 6 ≤ buf.length) :
    (widenField buf p).length = buf.length := by
  have hfirst : (setBytes buf p [0, 0, 0, 25]).length = buf.length :=
    length_setBytes (by simp only [List.length_cons, List.length_nil]; omega)
  unfold widenField
  rw [length_setBytes (by rw [hfirst]; simp only [List.length_cons, List.length_nil]; omega), hfirst]

private theorem getD_widenField {buf : Bytes} {p : Nat} (h : p + 6 ≤ buf.length) (i : Nat) :
    (widenField buf p).getD i 0 = if p ≤ i ∧ i < p + 6 then widened.getD (i - p) 0 else buf.getD i 0 := by
  have hfits : p + ([0, 0, 0, 25] : Bytes).length ≤ buf.length := by
    simp only [List.length_cons, List.length_nil]
    omega
  have hfits' : p + 4 + ([0xff, 0xff] : Bytes).length ≤ (setBytes buf p [0, 0, 0, 25]).length := by
    rw [length_setBytes hfits]
    simp only [List.length_cons, List.length_nil]
    omega
  have hlow : ∀ k < 4, ([0, 0, 0, 25] : Bytes).getD k 0 = widened.getD k 0 := by decide
  have hhigh : ∀ k < 2, ([0xff, 0xff] : Bytes).getD k 0 = widened.getD (4 + k) 0 := by decide
  unfold widenField
  rw [getD_setBytes hfits', getD_setBytes hfits]
  simp only [List.length_cons, List.length_nil]
  by_cases hsize : p + 4 ≤ i ∧ i < p + 4 + (0 + 1 + 1)
  · rw [if_pos hsize, if_pos (by omega), hhigh _ (by omega)]
    congr 1
    omega
  · rw [if_neg hsize]
    by_cases htype : p ≤ i ∧ i < p + (0 + 1 + 1 + 1 + 1)
    · rw [if_pos htype, if_pos (by omega), hlow _ (by omega)]
    · rw [if_neg htype, if_neg (by omega)]

/-! ### The walk -/

private theorem le_nameEnd (buf : Bytes) (stop p : Nat) : p ≤ nameEnd buf stop p := by
  fun_induction nameEnd buf stop p with
  | case1 p h ih => omega
  | case2 p h => exact Nat.le_refl p

/-- Only the name and its NUL are looked at. -/
private theorem nameEnd_congr {buf buf' : Bytes} {stop p : Nat}
    (h : ∀ i, p ≤ i → i ≤ nameEnd buf stop p → buf'.getD i 0 = buf.getD i 0) :
    nameEnd buf' stop p = nameEnd buf stop p := by
  fun_induction nameEnd buf stop p with
  | case1 p hp ih =>
    have hle := le_nameEnd buf stop (p + 1)
    have hsame := h p (Nat.le_refl p) (by omega)
    rw [nameEnd, if_pos ⟨hp.1, by rw [hsame]; exact hp.2⟩]
    exact ih fun i hi hlt => h i (by omega) hlt
  | case2 p hp =>
    have hsame := h p (Nat.le_refl p) (Nat.le_refl p)
    rw [nameEnd, if_neg (by rw [hsame]; exact hp)]

private theorem readUInt32BE_congr {buf buf' : Bytes} {p : Nat}
    (h : ∀ i, p ≤ i → i < p + 4 → buf'.getD i 0 = buf.getD i 0) :
    readUInt32BE buf' p = readUInt32BE buf p := by
  unfold readUInt32BE
  rw [h p (by omega) (by omega), h (p + 1) (by omega) (by omega), h (p + 2) (by omega) (by omega),
    h (p + 3) (by omega) (by omega)]

private theorem isCatalogChar_congr {buf buf' : Bytes} {p : Nat}
    (h : ∀ i, p ≤ i → i < p + 10 → buf'.getD i 0 = buf.getD i 0) : isCatalogChar buf' p = isCatalogChar buf p := by
  unfold isCatalogChar
  rw [readUInt32BE_congr (p := p) fun i hi hlt => h i hi (by omega),
    readUInt32BE_congr (p := p + 6) fun i hi hlt => h i (by omega) (by omega)]

/-- The fields that are selected. -/
private theorem isCatalogChar_iff {buf : Bytes} {p : Nat} : isCatalogChar buf p = true ↔
    readUInt32BE buf (p + 6) = PG_TYPE_OID_CHAR ∧ readUInt32BE buf p ≠ 0 ∧ readUInt32BE buf p < PG_FIRST_USER_OID := by
  unfold isCatalogChar
  simp [and_assoc]

/-- Where the fixed parts of the next `fields` fields begin, up to the first that the buffer does not have whole. -/
def fieldsFrom (buf : Bytes) : Nat → Nat → List Nat
  | 0, _ => []
  | fields + 1, p =>
    let p := nameEnd buf buf.length p + 1
    if p + 18 > buf.length then [] else p :: fieldsFrom buf fields (p + 18)

/-- The fields of a RowDescription. -/
def fieldsOf (buf : Bytes) : List Nat :=
  if buf.length < 7 then [] else fieldsFrom buf (readUInt16BE buf 5) 7

/-- They lie in the buffer. -/
private theorem mem_fieldsFrom {buf : Bytes} {fields p q : Nat} (h : q ∈ fieldsFrom buf fields p) :
    p < q ∧ q + 18 ≤ buf.length := by
  induction fields generalizing p with
  | zero => cases h
  | succ fields ih =>
    have hle := le_nameEnd buf buf.length p
    simp only [fieldsFrom] at h
    split at h
    · cases h
    · rcases List.mem_cons.mp h with rfl | h
      · omega
      · have hlater := ih h
        omega

/-! ### What the rewrite changes -/

/-- The next field, widened if it is selected. -/
def widenSelected (buf : Bytes) (q : Nat) : Bytes := if isCatalogChar buf q then widenField buf (q + 6) else buf

private theorem rewriteFrom_succ (fields p : Nat) (buf : Bytes) : rewriteFrom (fields + 1) p buf =
    if nameEnd buf buf.length p + 1 + 18 > buf.length then buf
    else rewriteFrom fields (nameEnd buf buf.length p + 1 + 18)
      (widenSelected buf (nameEnd buf buf.length p + 1)) := rfl

private theorem length_widenSelected {buf : Bytes} {q : Nat} (h : q + 18 ≤ buf.length) :
    (widenSelected buf q).length = buf.length := by
  unfold widenSelected
  split
  · exact length_widenField (by omega)
  · rfl

private theorem getD_widenSelected {buf : Bytes} {q i : Nat} (h : q + 18 ≤ buf.length) (hi : i < q + 6 ∨ q + 12 ≤ i) :
    (widenSelected buf q).getD i 0 = buf.getD i 0 := by
  unfold widenSelected
  split
  · rw [getD_widenField (by omega), if_neg (by omega)]
  · rfl

private theorem length_rewriteFrom (fields p : Nat) (buf : Bytes) : (rewriteFrom fields p buf).length = buf.length := by
  induction fields generalizing p buf with
  | zero => rfl
  | succ fields ih =>
    rw [rewriteFrom_succ]
    split
    · rfl
    · rw [ih, length_widenSelected (by omega)]

/-- Nothing before the next field is changed. -/
private theorem getD_rewriteFrom_before {fields p i : Nat} {buf : Bytes} (h : i < p) :
    (rewriteFrom fields p buf).getD i 0 = buf.getD i 0 := by
  induction fields generalizing p buf with
  | zero => rfl
  | succ fields ih =>
    have hle := le_nameEnd buf buf.length p
    rw [rewriteFrom_succ]
    split
    · rfl
    · rw [ih (by omega), getD_widenSelected (by omega) (by omega)]

/-- The walk through a buffer whose bytes behind `p` are still those of `buf`. -/
private theorem rewriteFrom_fields {buf out : Bytes} {fields p : Nat} (hlength : out.length = buf.length)
    (hsame : ∀ i, p ≤ i → out.getD i 0 = buf.getD i 0) :
    (∀ i, (∀ q ∈ fieldsFrom buf fields p, isCatalogChar buf q = true → i < q + 6 ∨ q + 12 ≤ i) →
      (rewriteFrom fields p out).getD i 0 = out.getD i 0) ∧
    (∀ q ∈ fieldsFrom buf fields p, isCatalogChar buf q = true →
      ∀ k < 6, (rewriteFrom fields p out).getD (q + 6 + k) 0 = widened.getD k 0) := by
  induction fields generalizing p out with
  | zero => exact ⟨fun _ _ => rfl, fun _ hmem => by cases hmem⟩
  | succ fields ih =>
    have hle := le_nameEnd buf buf.length p
    have hname : nameEnd out out.length p = nameEnd buf buf.length p := by
      rw [hlength]
      exact nameEnd_congr fun i hi _ => hsame i hi
    obtain ⟨q, hq⟩ : ∃ q, nameEnd buf buf.length p + 1 = q := ⟨_, rfl⟩
    rw [rewriteFrom_succ, hname, hlength, hq]
    simp only [fieldsFrom, hq]
    by_cases hfit : q + 18 > buf.length
    · rw [if_pos hfit, if_pos hfit]
      exact ⟨fun _ _ => rfl, fun _ hmem => by cases hmem⟩
    · rw [if_neg hfit, if_neg hfit]
      have hselected : isCatalogChar out q = isCatalogChar buf q := isCatalogChar_congr fun i hi _ => hsame i (by omega)
      have hlength' : (widenSelected out q).length = buf.length := by rw [length_widenSelected (by omega), hlength]
      have hsame' : ∀ i, q + 18 ≤ i → (widenSelected out q).getD i 0 = buf.getD i 0 := by
        intro i hi
        rw [getD_widenSelected (by omega) (by omega), hsame i (by omega)]
      obtain ⟨houtside, hinside⟩ := ih hlength' hsame'
      refine ⟨fun i hi => ?_, fun other hmem hchar k hk => ?_⟩
      · rw [houtside i fun other hmem => hi other (List.mem_cons_of_mem _ hmem)]
        have hfirst := hi q List.mem_cons_self
        unfold widenSelected
        split
        · rename_i hchar
          rw [hselected] at hchar
          have hout := hfirst hchar
          rw [getD_widenField (by omega), if_neg (by omega)]
        · rfl
      · rcases List.mem_cons.mp hmem with rfl | hmem
        · rw [getD_rewriteFrom_before (by omega), widenSelected, hselected, if_pos hchar, getD_widenField (by omega),
            if_pos (by omega), Nat.add_sub_cancel_left]
        · exact hinside other hmem hchar k hk

/-- The gate has nothing left behind the rewrite. -/
private theorem needsRewriteFrom_rewriteFrom (fields p : Nat) (buf : Bytes) :
    needsRewriteFrom (rewriteFrom fields p buf) buf.length fields p = false := by
  induction fields generalizing p buf with
  | zero => rfl
  | succ fields ih =>
    have hle := le_nameEnd buf buf.length p
    obtain ⟨q, hq⟩ : ∃ q, nameEnd buf buf.length p + 1 = q := ⟨_, rfl⟩
    rw [rewriteFrom_succ, hq]
    by_cases hfit : q + 18 > buf.length
    · rw [if_pos hfit]
      simp only [needsRewriteFrom, hq]
      rw [if_pos hfit]
    · rw [if_neg hfit]
      have hbefore : ∀ i, i < q + 18 →
          (rewriteFrom fields (q + 18) (widenSelected buf q)).getD i 0 = (widenSelected buf q).getD i 0 :=
        fun i hi => getD_rewriteFrom_before hi
      have hname : nameEnd (rewriteFrom fields (q + 18) (widenSelected buf q)) buf.length p =
          nameEnd buf buf.length p :=
        nameEnd_congr fun i _ hi => by rw [hbefore i (by omega), getD_widenSelected (by omega) (by omega)]
      have hchar : isCatalogChar (rewriteFrom fields (q + 18) (widenSelected buf q)) q = false := by
        rw [isCatalogChar_congr fun i _ hi => hbefore i (by omega)]
        unfold widenSelected
        split
        · have hoid : readUInt32BE (widenField buf (q + 6)) (q + 6) = PG_TYPE_OID_TEXT := by
            have hbyte : ∀ k < 6, (widenField buf (q + 6)).getD (q + 6 + k) 0 = widened.getD k 0 := by
              intro k hk
              rw [getD_widenField (by omega), if_pos (by omega), Nat.add_sub_cancel_left]
            unfold readUInt32BE
            rw [hbyte 1 (by omega), hbyte 2 (by omega), hbyte 3 (by omega), ← Nat.add_zero (q + 6), hbyte 0 (by omega)]
            rfl
          rw [← Bool.not_eq_true, isCatalogChar_iff, hoid]
          rintro ⟨hchar, -⟩
          cases hchar
        · rename_i hchar
          simpa using hchar
      have hrest := ih (q + 18) (widenSelected buf q)
      rw [length_widenSelected (by omega)] at hrest
      simp only [needsRewriteFrom, hname, hq]
      rw [if_neg hfit, if_neg (by rw [hchar]; decide)]
      exact hrest

/-! ### Checked accesses -/

/-- `buf.readUInt32BE(p)`, which throws outside of the buffer. -/
def readUInt32BEChecked (buf : Bytes) (p : Nat) : Option Nat :=
  if p + 4 ≤ buf.length then some (readUInt32BE buf p) else none

def readUInt16BEChecked (buf : Bytes) (p : Nat) : Option Nat :=
  if p + 2 ≤ buf.length then some (readUInt16BE buf p) else none

/-- `buf.writeUInt32BE` and `buf.writeInt16BE` of these bytes. -/
def writeChecked (buf : Bytes) (p : Nat) (src : Bytes) : Option Bytes :=
  if p + src.length ≤ buf.length then some (setBytes buf p src) else none

/-- `while (p < buf.length && buf[p] !== 0) p++`, where every byte that is looked at is there. -/
def nameEndChecked (buf : Bytes) (p : Nat) : Option Nat :=
  if p < buf.length then
    match buf[p]? with
    | none => none
    | some byte => if byte ≠ 0 then nameEndChecked buf (p + 1) else some p
  else some p
termination_by buf.length - p

def rewriteFromChecked : Nat → Nat → Bytes → Option Bytes
  | 0, _, buf => some buf
  | fields + 1, p, buf => do
    let p := (← nameEndChecked buf p) + 1
    if p + 18 > buf.length then some buf
    else
      let tableOID ← readUInt32BEChecked buf p
      let oid ← readUInt32BEChecked buf (p + 6)
      if oid = PG_TYPE_OID_CHAR ∧ tableOID ≠ 0 ∧ tableOID < PG_FIRST_USER_OID then
        let buf ← writeChecked buf (p + 6) [0, 0, 0, 25]
        let buf ← writeChecked buf (p + 6 + 4) [0xff, 0xff]
        rewriteFromChecked fields (p + 18) buf
      else rewriteFromChecked fields (p + 18) buf

def rewriteChecked (buf : Bytes) : Option Bytes :=
  if buf.length < 7 then some buf
  else do
    let fieldCount ← readUInt16BEChecked buf 5
    rewriteFromChecked fieldCount 7 buf

private theorem nameEndChecked_eq (buf : Bytes) (p : Nat) : nameEndChecked buf p = some (nameEnd buf buf.length p) := by
  fun_induction nameEnd buf buf.length p with
  | case1 p hp ih =>
    have hget : buf[p]? = some buf[p] := List.getElem?_eq_getElem hp.1
    have hbyte : buf[p] ≠ 0 := by
      have hne := hp.2
      rwa [List.getD_eq_getElem?_getD, hget] at hne
    rw [nameEndChecked, if_pos hp.1, hget]
    dsimp only
    rw [if_pos hbyte]
    exact ih
  | case2 p hp =>
    rw [nameEndChecked]
    by_cases hlt : p < buf.length
    · have hget : buf[p]? = some buf[p] := List.getElem?_eq_getElem hlt
      have hbyte : ¬ buf[p] ≠ 0 := by
        intro hne
        refine hp ⟨hlt, ?_⟩
        rwa [List.getD_eq_getElem?_getD, hget]
      rw [if_pos hlt, hget]
      dsimp only
      rw [if_neg hbyte]
    · rw [if_neg hlt]

private theorem rewriteFromChecked_eq (fields p : Nat) (buf : Bytes) :
    rewriteFromChecked fields p buf = some (rewriteFrom fields p buf) := by
  induction fields generalizing p buf with
  | zero => rfl
  | succ fields ih =>
    obtain ⟨q, hq⟩ : ∃ q, nameEnd buf buf.length p + 1 = q := ⟨_, rfl⟩
    rw [rewriteFrom_succ, hq]
    simp only [rewriteFromChecked, nameEndChecked_eq, hq, Option.bind_eq_bind, Option.bind_some]
    by_cases hfit : q + 18 > buf.length
    · rw [if_pos hfit, if_pos hfit]
    · have htable : readUInt32BEChecked buf q = some (readUInt32BE buf q) := if_pos (by omega)
      have hoid : readUInt32BEChecked buf (q + 6) = some (readUInt32BE buf (q + 6)) := if_pos (by omega)
      rw [if_neg hfit, if_neg hfit, htable, hoid]
      simp only [Option.bind_some]
      unfold widenSelected
      by_cases hchar : isCatalogChar buf q = true
      · have htype : writeChecked buf (q + 6) [0, 0, 0, 25] = some (setBytes buf (q + 6) [0, 0, 0, 25]) :=
          if_pos (by simp only [List.length_cons, List.length_nil]; omega)
        have hkept : (setBytes buf (q + 6) [0, 0, 0, 25]).length = buf.length :=
          length_setBytes (by simp only [List.length_cons, List.length_nil]; omega)
        have hsize : writeChecked (setBytes buf (q + 6) [0, 0, 0, 25]) (q + 6 + 4) [0xff, 0xff] =
            some (widenField buf (q + 6)) :=
          if_pos (by rw [hkept]; simp only [List.length_cons, List.length_nil]; omega)
        rw [if_pos (isCatalogChar_iff.mp hchar), if_pos hchar, htype]
        simp only [Option.bind_some, hsize]
        exact ih _ _
      · rw [if_neg fun hselected => hchar (isCatalogChar_iff.mpr hselected), if_neg hchar]
        exact ih _ _

/-- No access of the rewrite is out of bounds. -/
theorem rewriteChecked_eq (buf : Bytes) : rewriteChecked buf = some (rewriteRowDescriptionInPlace buf) := by
  unfold rewriteChecked rewriteRowDescriptionInPlace
  split
  · rfl
  · have hcount : readUInt16BEChecked buf 5 = some (readUInt16BE buf 5) := if_pos (by omega)
    rw [hcount]
    exact rewriteFromChecked_eq _ _ _

/-! ### The gate and the rewrite agree -/

private theorem length_rewriteRowDescriptionInPlace (buf : Bytes) :
    (rewriteRowDescriptionInPlace buf).length = buf.length := by
  unfold rewriteRowDescriptionInPlace
  split
  · rfl
  · exact length_rewriteFrom _ _ _

private theorem rowDescriptionNeedsRewrite_rewrite (buf : Bytes) :
    rowDescriptionNeedsRewrite (rewriteRowDescriptionInPlace buf) 0 buf.length = false := by
  unfold rowDescriptionNeedsRewrite rewriteRowDescriptionInPlace
  by_cases hshort : buf.length < 7
  · rw [if_pos (by omega)]
  · rw [if_neg hshort, if_neg (by omega)]
    have hcount : readUInt16BE (rewriteFrom (readUInt16BE buf 5) 7 buf) (0 + 5) = readUInt16BE buf 5 := by
      rw [Nat.zero_add]
      conv_lhs => unfold readUInt16BE
      rw [getD_rewriteFrom_before (by omega), getD_rewriteFrom_before (by omega)]
      rfl
    rw [hcount, Nat.zero_add]
    exact needsRewriteFrom_rewriteFrom _ _ _

private theorem rewriteRowDescriptionInPlace_idem (buf : Bytes) :
    rewriteRowDescriptionInPlace (rewriteRowDescriptionInPlace buf) = rewriteRowDescriptionInPlace buf := by
  apply rewriteRowDescriptionInPlace_eq_self
  rw [length_rewriteRowDescriptionInPlace]
  exact rowDescriptionNeedsRewrite_rewrite buf

private theorem rowDescriptionNeedsRewrite_iff (buf : Bytes) :
    rowDescriptionNeedsRewrite buf 0 buf.length = true ↔ rewriteRowDescriptionInPlace buf ≠ buf := by
  constructor
  · intro hneeds hself
    have hleft := rowDescriptionNeedsRewrite_rewrite buf
    rw [hself, hneeds] at hleft
    cases hleft
  · intro hchanged
    by_contra hrefused
    exact hchanged (rewriteRowDescriptionInPlace_eq_self (by simpa using hrefused))

private theorem rewriteRowDescriptionInPlace_fields (buf : Bytes) :
    (∀ i, (∀ q ∈ fieldsOf buf, isCatalogChar buf q = true → i < q + 6 ∨ q + 12 ≤ i) →
      (rewriteRowDescriptionInPlace buf).getD i 0 = buf.getD i 0) ∧
    (∀ q ∈ fieldsOf buf, isCatalogChar buf q = true →
      ∀ k < 6, (rewriteRowDescriptionInPlace buf).getD (q + 6 + k) 0 = widened.getD k 0) := by
  unfold rewriteRowDescriptionInPlace fieldsOf
  split
  · exact ⟨fun _ _ => rfl, fun _ hmem => by cases hmem⟩
  · exact rewriteFrom_fields rfl fun _ _ => rfl

/-- On every buffer the gate says whether the rewrite changes anything, and the rewrite changes the types and sizes of
the catalog `"char"` fields that the buffer has whole, and nothing else. -/
theorem rowDescription_agrees (buf : Bytes) :
    (rowDescriptionNeedsRewrite buf 0 buf.length = true ↔ rewriteRowDescriptionInPlace buf ≠ buf) ∧
    rewriteChecked buf = some (rewriteRowDescriptionInPlace buf) ∧
    (rewriteRowDescriptionInPlace buf).length = buf.length ∧
    (∀ q ∈ fieldsOf buf, q + 18 ≤ buf.length) ∧
    (∀ i, (∀ q ∈ fieldsOf buf, isCatalogChar buf q = true → i < q + 6 ∨ q + 12 ≤ i) →
      (rewriteRowDescriptionInPlace buf).getD i 0 = buf.getD i 0) ∧
    (∀ q ∈ fieldsOf buf, isCatalogChar buf q = true →
      ∀ k < 6, (rewriteRowDescriptionInPlace buf).getD (q + 6 + k) 0 = widened.getD k 0) ∧
    rewriteRowDescriptionInPlace (rewriteRowDescriptionInPlace buf) = rewriteRowDescriptionInPlace buf ∧
    rowDescriptionNeedsRewrite (rewriteRowDescriptionInPlace buf) 0 buf.length = false ∧
    ∀ start stop, start ≤ stop → stop ≤ buf.length → rowDescriptionNeedsRewrite buf start stop =
      rowDescriptionNeedsRewrite (subarray buf start stop) 0 (subarray buf start stop).length := by
  obtain ⟨houtside, hinside⟩ := rewriteRowDescriptionInPlace_fields buf
  refine ⟨rowDescriptionNeedsRewrite_iff buf, rewriteChecked_eq buf, length_rewriteRowDescriptionInPlace buf,
    fun q hmem => ?_, houtside, hinside, rewriteRowDescriptionInPlace_idem buf, rowDescriptionNeedsRewrite_rewrite buf,
    fun start stop hle hstop => ?_⟩
  · unfold fieldsOf at hmem
    split at hmem
    · cases hmem
    · exact (mem_fieldsFrom hmem).2
  · rw [length_subarray hstop]
    exact rowDescriptionNeedsRewrite_subarray buf hle

end PgliteBridge
