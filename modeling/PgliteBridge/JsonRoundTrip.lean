import Mathlib.Data.List.TakeWhile
import Mathlib.Data.Nat.Digits.Lemmas
import PgliteBridge.Json

/-!
# What JSON writes, it reads back

Of every value, `parse` reads what `stringify` writes, lone surrogates in its strings included.  The text is well-formed
UTF-16 and has no control characters, so it survives an encoding to UTF-8 and never breaks a line.
-/

namespace Json

open Lexing

/-! ### Strings -/

private theorem hexValue_hexDigit : ∀ n < 16, hexValue (hexDigit n) = some n := by decide

private theorem unicodeUnit_digits (c : UInt16) :
    unicodeUnit (hexDigit (c.toNat / 4096)) (hexDigit (c.toNat / 256 % 16))
      (hexDigit (c.toNat / 16 % 16)) (hexDigit (c.toNat % 16)) = some c := by
  have hc : c.toNat < 65536 := c.toNat_lt
  have hsum : c.toNat / 4096 * 4096 + c.toNat / 256 % 16 * 256 + c.toNat / 16 % 16 * 16 + c.toNat % 16 = c.toNat := by
    omega
  unfold unicodeUnit
  rw [hexValue_hexDigit _ (by omega), hexValue_hexDigit _ (by omega), hexValue_hexDigit _ (by omega),
    hexValue_hexDigit _ (by omega)]
  change some (UInt16.ofNat _) = some c
  rw [hsum, UInt16.ofNat_toNat]

private theorem unescape_shortEscape {c letter : UInt16} (h : shortEscape c = some letter) :
    letter ≠ 0x75 ∧ unescape letter = some c := by
  unfold shortEscape at h
  split_ifs at h with h₁ h₂ h₃ h₄ h₅ h₆ h₇
  all_goals
    obtain rfl := Option.some.inj h
    subst c
    decide

private theorem shortEscape_eq_none {c : UInt16} (h : shortEscape c = none) : c ≠ 0x22 ∧ c ≠ 0x5c := by
  constructor
  · rintro rfl
    cases h
  · rintro rfl
    cases h

private theorem parseString_plain {c : UInt16} {rest : Text} (hquote : c ≠ 0x22) (hslash : c ≠ 0x5c) (hc : ¬ c < 0x20) :
    parseString (c :: rest) = (parseString rest).map fun (s, rest) => (c :: s, rest) := by
  rw [parseString.eq_def]
  dsimp only
  rw [if_neg hquote, if_neg hc, if_neg hslash]
  cases parseString rest <;> rfl

private theorem parseString_short {letter c : UInt16} {rest : Text} (hletter : letter ≠ 0x75)
    (hc : unescape letter = some c) :
    parseString (0x5c :: letter :: rest) = (parseString rest).map fun (s, rest) => (c :: s, rest) := by
  rw [parseString, if_neg (by decide), if_neg (by decide), if_pos rfl, hc]
  · cases parseString rest <;> rfl
  · exact fun _ _ _ _ _ he => absurd he hletter

private theorem parseString_unicode (c : UInt16) (rest : Text) :
    parseString (unicodeEscape c ++ rest) = (parseString rest).map fun (s, rest) => (c :: s, rest) := by
  have hunit := unicodeUnit_digits c
  simp only [unicodeEscape, List.cons_append, List.nil_append]
  rw [parseString, if_neg (by decide), if_neg (by decide), if_pos rfl]
  simp only [hunit]
  cases parseString rest <;> rfl

private theorem parseString_writeUnit (c : UInt16) (rest : Text) :
    parseString (writeUnit c ++ rest) = (parseString rest).map fun (s, rest) => (c :: s, rest) := by
  unfold writeUnit
  cases hshort : shortEscape c with
  | some letter =>
    obtain ⟨hletter, hc⟩ := unescape_shortEscape hshort
    exact parseString_short hletter hc
  | none =>
    obtain ⟨hquote, hslash⟩ := shortEscape_eq_none hshort
    dsimp only
    split
    · exact parseString_unicode c rest
    · rename_i hplain
      have hc : ¬ c < 0x20 := by
        intro hlt
        simp [hlt] at hplain
      exact parseString_plain hquote hslash hc

private theorem plain_of_surrogate {c : UInt16} (h : isHighSurrogate c = true ∨ isLowSurrogate c = true) :
    c ≠ 0x22 ∧ c ≠ 0x5c ∧ ¬ c < 0x20 := by
  unfold isHighSurrogate isLowSurrogate at h
  refine ⟨?_, ?_, ?_⟩ <;> grind

private theorem parseString_quote (rest : Text) : parseString (0x22 :: rest) = some ([], rest) := by
  rw [parseString.eq_def]
  rfl

private theorem parseString_writeUnits (s rest : Text) :
    parseString (writeUnits s ++ 0x22 :: rest) = some (s, rest) := by
  fun_induction writeUnits s with
  | case1 => exact parseString_quote rest
  | case2 c =>
    rw [parseString_writeUnit, parseString_quote]
    rfl
  | case3 c d tail hpair ih =>
    -- a pair stands as it is, and neither half is a quote, a backslash or a control character
    obtain ⟨hhigh, hlow⟩ := Bool.and_eq_true_iff.mp hpair
    obtain ⟨hquote, hslash, hc⟩ := plain_of_surrogate (Or.inl hhigh)
    obtain ⟨hquote', hslash', hd⟩ := plain_of_surrogate (Or.inr hlow)
    rw [List.cons_append, List.cons_append, parseString_plain hquote hslash hc,
      parseString_plain hquote' hslash' hd, ih]
    rfl
  | case4 c d tail hpair ih =>
    rw [List.append_assoc, parseString_writeUnit, ih]
    rfl

/-! ### Numerals -/

/-- A part of a numeral stands before `rest`. -/
def Before (text rest : Text) : Prop := ∃ part, text = part ++ rest ∧ ∀ c ∈ part, isNumeralUnit c = true

section Before

variable {text rest rest' : Text}

private theorem Before.rfl : Before text text := ⟨[], by simp⟩

private theorem Before.trans (h : Before text rest) (h' : Before rest rest') : Before text rest' := by
  obtain ⟨part, rfl, hpart⟩ := h
  obtain ⟨part', rfl, hpart'⟩ := h'
  refine ⟨part ++ part', (List.append_assoc _ _ _).symm, fun c hc => ?_⟩
  rcases List.mem_append.mp hc with hmem | hmem
  · exact hpart c hmem
  · exact hpart' c hmem

private theorem before_tail {k : UInt16} (h : text.head? = some k) (hk : isNumeralUnit k = true) :
    Before text text.tail := by
  obtain ⟨tail, rfl⟩ := List.head?_eq_some_iff.mp h
  exact ⟨[k], by simp, by simpa using hk⟩

private theorem before_someDigits (h : someDigits text = some rest) : Before text rest := by
  unfold someDigits at h
  split at h
  · obtain rfl := Option.some.inj h
    refine ⟨text.takeWhile isDigit, List.takeWhile_append_dropWhile.symm, fun c hc => ?_⟩
    simp [isNumeralUnit, (run_takeWhile isDigit text).word c hc]
  · cases h

private theorem before_afterMinus (text : Text) : Before text (afterMinus text) := by
  unfold afterMinus
  split
  · exact before_tail ‹_› (by decide)
  · exact Before.rfl

private theorem before_afterInteger (h : afterInteger text = some rest) : Before text rest := by
  unfold afterInteger at h
  split at h
  · obtain rfl := Option.some.inj h
    exact before_tail ‹_› (by decide)
  · exact before_someDigits h

private theorem before_afterFraction (h : afterFraction text = some rest) : Before text rest := by
  unfold afterFraction at h
  split at h
  · exact (before_tail ‹_› (by decide)).trans (before_someDigits h)
  · obtain rfl := Option.some.inj h
    exact Before.rfl

private theorem before_afterSign (text : Text) : Before text (afterSign text) := by
  unfold afterSign
  split
  · rename_i hsign
    rcases hsign with hplus | hminus
    · exact before_tail hplus (by decide)
    · exact before_tail hminus (by decide)
  · exact Before.rfl

private theorem before_afterExponent (h : afterExponent text = some rest) : Before text rest := by
  unfold afterExponent at h
  split at h
  · rename_i he
    have htail : Before text text.tail := by
      rcases he with hlower | hupper
      · exact before_tail hlower (by decide)
      · exact before_tail hupper (by decide)
    exact (htail.trans (before_afterSign _)).trans (before_someDigits h)
  · obtain rfl := Option.some.inj h
    exact Before.rfl

end Before

namespace Numeral

private theorem isNumeralUnit (n : Numeral) : ∀ c ∈ n.text, isNumeralUnit c = true := by
  have hvalid := n.valid
  simp only [isNumeral, decide_eq_true_eq, Option.bind_eq_bind, Option.bind_eq_some_iff] at hvalid
  obtain ⟨afterFraction, ⟨afterInteger, hinteger, hfraction⟩, hexponent⟩ := hvalid
  have hall : Before n.text [] :=
    (((before_afterMinus n.text).trans (before_afterInteger hinteger)).trans (before_afterFraction hfraction)).trans
      (before_afterExponent hexponent)
  obtain ⟨part, htext, hpart⟩ := hall
  rw [htext, List.append_nil]
  exact hpart

private theorem exists_cons (n : Numeral) : ∃ c tail, n.text = c :: tail ∧ Json.isNumeralUnit c = true := by
  have hne : n.text ≠ [] := by
    intro h
    have hvalid := n.valid
    rw [h] at hvalid
    cases hvalid
  obtain ⟨c, tail, htext⟩ := List.exists_cons_of_ne_nil hne
  refine ⟨c, tail, htext, n.isNumeralUnit c ?_⟩
  rw [htext]
  exact List.mem_cons_self

end Numeral

private theorem not_ws_of_isNumeralUnit {c : UInt16} (h : isNumeralUnit c = true) : isWs c = false := by
  unfold isNumeralUnit isDigit at h
  unfold isWs
  grind

/-- No numeral goes on here. -/
def Follows (rest : Text) : Prop := ∀ c ∈ rest.head?, isNumeralUnit c = false

private theorem parseNumber_text (n : Numeral) {rest : Text} (h : Follows rest) :
    parseNumber (n.text ++ rest) = some (.number n, rest) := by
  have hrun : Run Json.isNumeralUnit n.text rest := ⟨n.isNumeralUnit, h⟩
  unfold parseNumber
  simp only [hrun.takeWhile, hrun.dropWhile, n.valid, ↓reduceDIte]

/-! ### Values -/

private theorem skipWs_cons {c : UInt16} {rest : Text} (h : isWs c = false) : skipWs (c :: rest) = c :: rest := by
  simp [skipWs, h]

private theorem expect_cons {c d : UInt16} {rest : Text} (h : isWs d = false) :
    expect c (d :: rest) = if d = c then some rest else none := by
  rw [expect, skipWs_cons h]

/-- How the text of a value begins. -/
private theorem stringify_head (v : Value) : ∃ c tail, stringify v = c :: tail ∧ isWs c = false ∧ c ≠ 0x5d := by
  cases v with
  | null => exact ⟨_, _, by rw [stringify, nullText], by decide, by decide⟩
  | bool b =>
    cases b with
    | false => exact ⟨_, _, by rw [stringify]; rfl, by decide, by decide⟩
    | true => exact ⟨_, _, by rw [stringify]; rfl, by decide, by decide⟩
  | number n =>
    obtain ⟨c, tail, htext, hc⟩ := n.exists_cons
    refine ⟨c, tail, by rw [stringify, htext], not_ws_of_isNumeralUnit hc, ?_⟩
    rintro rfl
    cases hc
  | string s => exact ⟨_, _, by rw [stringify, writeString], by decide, by decide⟩
  | array items =>
    cases items with
    | nil => exact ⟨_, _, by rw [stringify], by decide, by decide⟩
    | cons item items => exact ⟨_, _, by rw [stringify], by decide, by decide⟩
  | object members =>
    cases members with
    | nil => exact ⟨_, _, by rw [stringify], by decide, by decide⟩
    | cons member members => exact ⟨_, _, by rw [stringify], by decide, by decide⟩

/-- With this much fuel, what a shorter text was written for is read from it. -/
structure Reads (fuel : Nat) : Prop where
  value : ∀ v rest, (stringify v).length < fuel → Follows rest → parseValue fuel (stringify v ++ rest) = some (v, rest)
  items : ∀ items rest, (stringifyItems items).length < fuel →
    parseItems fuel (stringifyItems items ++ rest) = some (items, rest)
  member : ∀ key v rest, (writeString key ++ 0x3a :: stringify v).length < fuel → Follows rest →
    parseMember fuel (writeString key ++ 0x3a :: (stringify v ++ rest)) = some ((key, v), rest)
  members : ∀ members rest, (stringifyMembers members).length < fuel →
    parseMembers fuel (stringifyMembers members ++ rest) = some (members, rest)

section Step

variable {fuel : Nat} {rest : Text}

private theorem follows_cons {c : UInt16} (h : isNumeralUnit c = false) : Follows (c :: rest) := by
  intro d hd
  obtain rfl := Option.some.inj hd
  exact h

private theorem follows_items (items : List Value) (rest : Text) : Follows (stringifyItems items ++ rest) := by
  cases items with
  | nil =>
    rw [stringifyItems]
    exact follows_cons (by decide)
  | cons item items =>
    rw [stringifyItems]
    exact follows_cons (by decide)

private theorem follows_members (members : List (Text × Value)) (rest : Text) :
    Follows (stringifyMembers members ++ rest) := by
  cases members with
  | nil =>
    rw [stringifyMembers]
    exact follows_cons (by decide)
  | cons member members =>
    rw [stringifyMembers]
    exact follows_cons (by decide)

private theorem Reads.array_step (h : Reads fuel) (items : List Value)
    (hlength : (stringify (.array items)).length < fuel + 1) :
    parseValue (fuel + 1) (stringify (.array items) ++ rest) = some (.array items, rest) := by
  cases items with
  | nil => rw [stringify]; rfl
  | cons item items =>
    rw [stringify] at hlength ⊢
    simp only [List.length_cons, List.length_append] at hlength
    obtain ⟨c, tail, hhead, hws, hbracket⟩ := stringify_head item
    have hexpect : expect 0x5d (stringify item ++ (stringifyItems items ++ rest)) = none := by
      rw [hhead, List.cons_append, expect_cons hws, if_neg hbracket]
    have hitem := h.value item (stringifyItems items ++ rest) (by omega) (follows_items items rest)
    have hitems := h.items items rest (by omega)
    rw [List.cons_append, List.append_assoc, parseValue, skipWs_cons (by decide)]
    dsimp only
    rw [if_neg (by decide), if_pos rfl, hexpect]
    simp only [hitem, hitems, Option.bind_eq_bind, Option.bind_some]

private theorem Reads.object_step (h : Reads fuel) (members : List (Text × Value))
    (hlength : (stringify (.object members)).length < fuel + 1) :
    parseValue (fuel + 1) (stringify (.object members) ++ rest) = some (.object members, rest) := by
  cases members with
  | nil => rw [stringify]; rfl
  | cons member members =>
    obtain ⟨key, v⟩ := member
    rw [stringify] at hlength ⊢
    simp only [List.length_cons, List.length_append] at hlength
    have hmember := h.member key v (stringifyMembers members ++ rest)
      (by simp only [List.length_cons, List.length_append]; omega) (follows_members members rest)
    have hmembers := h.members members rest (by omega)
    have htext : (0x7b :: (writeString key ++ 0x3a :: (stringify v ++ stringifyMembers members))) ++ rest =
        0x7b :: (writeString key ++ 0x3a :: (stringify v ++ (stringifyMembers members ++ rest))) := by
      simp only [List.cons_append, List.append_assoc]
    have hexpect :
        expect 0x7d (writeString key ++ 0x3a :: (stringify v ++ (stringifyMembers members ++ rest))) = none := by
      rw [writeString, List.cons_append, expect_cons (by decide), if_neg (by decide)]
    rw [htext, parseValue, skipWs_cons (by decide)]
    dsimp only
    rw [if_neg (by decide), if_neg (by decide), if_pos rfl, hexpect]
    simp only [hmember, hmembers, Option.bind_eq_bind, Option.bind_some]

private theorem Reads.number_step (n : Numeral) (hrest : Follows rest) :
    parseValue (fuel + 1) (stringify (.number n) ++ rest) = some (.number n, rest) := by
  have hparse := parseNumber_text n hrest
  obtain ⟨c, tail, htext, hc⟩ := n.exists_cons
  have hother : ∀ d : UInt16, Json.isNumeralUnit d = false → c ≠ d := by
    rintro d hd rfl
    rw [hc] at hd
    cases hd
  rw [htext, List.cons_append] at hparse
  rw [stringify, htext, List.cons_append, parseValue, skipWs_cons (not_ws_of_isNumeralUnit hc)]
  dsimp only
  rw [if_neg (hother _ (by decide)), if_neg (hother _ (by decide)), if_neg (hother _ (by decide)),
    if_neg (hother _ (by decide)), if_neg (hother _ (by decide)), if_neg (hother _ (by decide))]
  exact hparse

private theorem Reads.value_step (h : Reads fuel) (v : Value) (hlength : (stringify v).length < fuel + 1)
    (hrest : Follows rest) : parseValue (fuel + 1) (stringify v ++ rest) = some (v, rest) := by
  cases v with
  | null => rw [stringify]; rfl
  | bool b => cases b <;> (rw [stringify]; rfl)
  | number n => exact number_step n hrest
  | string s =>
    have hs := parseString_writeUnits s rest
    rw [stringify, writeString, List.cons_append, List.append_assoc, parseValue, skipWs_cons (by decide)]
    dsimp only
    rw [if_pos rfl, List.singleton_append, hs]
    rfl
  | array items => exact h.array_step items hlength
  | object members => exact h.object_step members hlength

private theorem Reads.items_step (h : Reads fuel) (items : List Value)
    (hlength : (stringifyItems items).length < fuel + 1) :
    parseItems (fuel + 1) (stringifyItems items ++ rest) = some (items, rest) := by
  cases items with
  | nil => rw [stringifyItems]; rfl
  | cons item items =>
    rw [stringifyItems] at hlength ⊢
    simp only [List.length_cons, List.length_append] at hlength
    have hitem := h.value item (stringifyItems items ++ rest) (by omega) (follows_items items rest)
    have hitems := h.items items rest (by omega)
    rw [List.cons_append, List.append_assoc, parseItems, expect_cons (by decide), if_neg (by decide),
      expect_cons (by decide), if_pos rfl]
    simp only [hitem, hitems, Option.bind_eq_bind, Option.bind_some]

private theorem Reads.member_step (h : Reads fuel) (key : Text) (v : Value)
    (hlength : (writeString key ++ 0x3a :: stringify v).length < fuel + 1) (hrest : Follows rest) :
    parseMember (fuel + 1) (writeString key ++ 0x3a :: (stringify v ++ rest)) = some ((key, v), rest) := by
  simp only [writeString, List.length_cons, List.length_append] at hlength
  have hkey := parseString_writeUnits key (0x3a :: (stringify v ++ rest))
  have hvalue := h.value v rest (by omega) hrest
  have htext : writeString key ++ 0x3a :: (stringify v ++ rest) =
      0x22 :: (writeUnits key ++ 0x22 :: 0x3a :: (stringify v ++ rest)) := by
    simp only [writeString, List.cons_append, List.append_assoc, List.nil_append]
  rw [htext, parseMember, expect_cons (by decide), if_pos rfl]
  simp only [hkey, Option.bind_eq_bind, Option.bind_some]
  rw [expect_cons (by decide), if_pos rfl]
  simp only [hvalue, Option.bind_some]

private theorem Reads.members_step (h : Reads fuel) (members : List (Text × Value))
    (hlength : (stringifyMembers members).length < fuel + 1) :
    parseMembers (fuel + 1) (stringifyMembers members ++ rest) = some (members, rest) := by
  cases members with
  | nil => rw [stringifyMembers]; rfl
  | cons member members =>
    obtain ⟨key, v⟩ := member
    rw [stringifyMembers] at hlength ⊢
    simp only [List.length_cons, List.length_append] at hlength
    have hmember := h.member key v (stringifyMembers members ++ rest)
      (by simp only [List.length_cons, List.length_append]; omega) (follows_members members rest)
    have hmembers := h.members members rest (by omega)
    have htext : (0x2c :: (writeString key ++ 0x3a :: (stringify v ++ stringifyMembers members))) ++ rest =
        0x2c :: (writeString key ++ 0x3a :: (stringify v ++ (stringifyMembers members ++ rest))) := by
      simp only [List.cons_append, List.append_assoc]
    rw [htext, parseMembers, expect_cons (by decide), if_neg (by decide), expect_cons (by decide), if_pos rfl]
    simp only [hmember, hmembers, Option.bind_eq_bind, Option.bind_some]

end Step

private theorem reads (fuel : Nat) : Reads fuel := by
  -- Every call of the reader is made behind a unit of the text, so the fuel of the calls within it is enough.
  induction fuel with
  | zero => exact ⟨fun _ _ h => by omega, fun _ _ h => by omega, fun _ _ _ h => by omega, fun _ _ h => by omega⟩
  | succ fuel ih =>
    constructor
    · exact fun v rest hlength hrest => ih.value_step v hlength hrest
    · exact fun items rest hlength => ih.items_step items hlength
    · exact fun key v rest hlength hrest => ih.member_step key v hlength hrest
    · exact fun members rest hlength => ih.members_step members hlength

theorem parse_stringify (v : Value) : parse (stringify v) = some v := by
  have hread := (reads ((stringify v).length + 1)).value v [] (by omega) (by simp [Follows])
  rw [List.append_nil] at hread
  unfold parse
  rw [hread]
  rfl

/-- A line feed and half of a pair: `["\n\ud83d"]`. -/
example : stringify (.array [.string [0x0a, 0xd83d]]) =
    [0x5b, 0x22, 0x5c, 0x6e, 0x5c, 0x75, 0x64, 0x38, 0x33, 0x64, 0x22, 0x5d] := by
  decide

/-! ### Lines -/

/-- Well-formed, and without a control character. -/
structure Printable (text : Text) : Prop where
  wellFormed : wellFormed text = true
  plain : ∀ c ∈ text, ¬ c < 0x20

private theorem wellFormed_append {s t : Text} (h : wellFormed s = true) : wellFormed (s ++ t) = wellFormed t := by
  fun_induction wellFormed s with
  | case1 => rfl
  | case2 c =>
    obtain ⟨hhigh, hlow⟩ := Bool.and_eq_true_iff.mp h
    cases t with
    | nil => simp_all [wellFormed]
    | cons d t => simp_all [wellFormed]
  | case3 c d rest hhigh ih =>
    obtain ⟨hlow, hrest⟩ := Bool.and_eq_true_iff.mp h
    rw [List.cons_append, List.cons_append, wellFormed, if_pos hhigh, hlow, ih hrest, Bool.true_and]
  | case4 c d rest hhigh ih =>
    obtain ⟨hlow, hrest⟩ := Bool.and_eq_true_iff.mp h
    rw [List.cons_append, List.cons_append, wellFormed, if_neg hhigh, hlow, Bool.true_and]
    exact ih hrest

theorem wellFormed_intercalate {separator : Text} (h : wellFormed separator = true) {lines : List Text}
    (hlines : ∀ line ∈ lines, wellFormed line = true) : wellFormed (separator.intercalate lines) = true := by
  induction lines with
  | nil => rfl
  | cons line lines ih =>
    have hline := hlines line List.mem_cons_self
    have ih := ih fun line hmem => hlines line (List.mem_cons_of_mem _ hmem)
    cases lines with
    | nil => simpa using hline
    | cons next lines =>
      rw [List.intercalate_cons_cons, List.append_assoc, wellFormed_append hline, wellFormed_append h, ih]

private theorem Printable.append {s t : Text} (hs : Printable s) (ht : Printable t) : Printable (s ++ t) := by
  constructor
  · rw [wellFormed_append hs.wellFormed, ht.wellFormed]
  · intro c hc
    rcases List.mem_append.mp hc with hmem | hmem
    · exact hs.plain c hmem
    · exact ht.plain c hmem

/-- A printable unit that is no surrogate. -/
def isPlain (c : UInt16) : Bool := !(c < 0x20 || isHighSurrogate c || isLowSurrogate c)

private theorem printable_unit {c : UInt16} (h : isPlain c = true) : Printable [c] := by
  unfold isPlain at h
  constructor
  · simp_all [wellFormed]
  · simp_all

private theorem printable_of_all {text : Text} (h : text.all isPlain = true) : Printable text := by
  induction text with
  | nil => exact ⟨rfl, fun c hc => by cases hc⟩
  | cons c text ih =>
    rw [List.all_cons, Bool.and_eq_true] at h
    exact (printable_unit h.1).append (ih h.2)

private theorem Printable.cons {c : UInt16} {text : Text} (h : Printable text) (hc : isPlain c = true) :
    Printable (c :: text) :=
  (printable_unit hc).append h

private theorem isPlain_hexDigit : ∀ n < 16, isPlain (hexDigit n) = true := by decide

private theorem printable_unicodeEscape (c : UInt16) : Printable (unicodeEscape c) := by
  have hc : c.toNat < 65536 := c.toNat_lt
  refine printable_of_all ?_
  simp only [unicodeEscape, List.all_cons, List.all_nil, Bool.and_true, Bool.and_eq_true]
  refine ⟨by decide, by decide, ?_, ?_, ?_, ?_⟩
  all_goals exact isPlain_hexDigit _ (by omega)

private theorem isPlain_shortEscape {c letter : UInt16} (h : shortEscape c = some letter) : isPlain letter = true := by
  unfold shortEscape at h
  split_ifs at h
  all_goals
    obtain rfl := Option.some.inj h
    decide

private theorem printable_writeUnit (c : UInt16) : Printable (writeUnit c) := by
  unfold writeUnit
  split
  · rename_i letter hletter
    exact (printable_unit (isPlain_shortEscape hletter)).cons (by decide)
  · split
    · exact printable_unicodeEscape c
    · rename_i hplain
      refine printable_unit ?_
      rw [isPlain, Bool.eq_false_of_not_eq_true hplain, Bool.not_false]

private theorem printable_pair {c d : UInt16} (hc : isHighSurrogate c = true) (hd : isLowSurrogate d = true) :
    Printable [c, d] := by
  constructor
  · rw [wellFormed, if_pos hc, hd]
    rfl
  · intro e he
    rcases List.mem_pair.mp he with rfl | rfl
    · exact (plain_of_surrogate (Or.inl hc)).2.2
    · exact (plain_of_surrogate (Or.inr hd)).2.2

private theorem printable_writeUnits (s : Text) : Printable (writeUnits s) := by
  fun_induction writeUnits s with
  | case1 => exact printable_of_all rfl
  | case2 c => exact printable_writeUnit c
  | case3 c d rest hpair ih =>
    obtain ⟨hhigh, hlow⟩ := Bool.and_eq_true_iff.mp hpair
    exact (printable_pair hhigh hlow).append ih
  | case4 c d rest hpair ih => exact (printable_writeUnit c).append ih

private theorem printable_writeString (s : Text) : Printable (writeString s) :=
  ((printable_writeUnits s).append (printable_unit (by decide))).cons (by decide)

private theorem isPlain_of_isDigit {c : UInt16} (h : isDigit c = true) : isPlain c = true := by
  have hrange : 48 ≤ c.toNat ∧ c.toNat ≤ 57 := by
    simpa [isDigit, UInt16.le_iff_toNat_le] using h
  have hplain : (32 ≤ c.toNat ∧ (c.toNat < 55296 ∨ 56319 < c.toNat)) ∧ (c.toNat < 56320 ∨ 57343 < c.toNat) := by omega
  simpa [isPlain, isHighSurrogate, isLowSurrogate, UInt16.le_iff_toNat_le, UInt16.lt_iff_toNat_lt] using hplain

private theorem printable_numeral (n : Numeral) : Printable n.text := by
  refine printable_of_all (List.all_eq_true.mpr fun c hc => ?_)
  have hunit := n.isNumeralUnit c hc
  simp only [isNumeralUnit, Bool.or_eq_true, beq_iff_eq] at hunit
  rcases hunit with ((((hdigit | rfl) | rfl) | rfl) | rfl) | rfl
  · exact isPlain_of_isDigit hdigit
  all_goals decide

mutual

theorem printable_stringify : ∀ v : Value, Printable (stringify v)
  | .null => printable_of_all rfl
  | .bool true => printable_of_all rfl
  | .bool false => printable_of_all rfl
  | .number n => by
    rw [stringify]
    exact printable_numeral n
  | .string s => by
    rw [stringify]
    exact printable_writeString s
  | .array [] => printable_of_all rfl
  | .array (item :: items) => by
    rw [stringify]
    exact ((printable_stringify item).append (printable_items items)).cons (by decide)
  | .object [] => printable_of_all rfl
  | .object ((key, v) :: members) => by
    have hvalue := (printable_stringify v).append (printable_members members)
    rw [stringify]
    exact ((printable_writeString key).append (hvalue.cons (by decide))).cons (by decide)

theorem printable_items : ∀ items : List Value, Printable (stringifyItems items)
  | [] => printable_of_all rfl
  | item :: items => by
    rw [stringifyItems]
    exact ((printable_stringify item).append (printable_items items)).cons (by decide)

theorem printable_members : ∀ members : List (Text × Value), Printable (stringifyMembers members)
  | [] => printable_of_all rfl
  | (key, v) :: members => by
    have hvalue := (printable_stringify v).append (printable_members members)
    rw [stringifyMembers]
    exact ((printable_writeString key).append (hvalue.cons (by decide))).cons (by decide)

end

/-! ### Whole numbers and records -/

private theorem digitUnit_spec : ∀ d < 10, isDigit (digitUnit d) = true ∧ (digitUnit d).toNat - 0x30 = d ∧
    (d ≠ 0 → digitUnit d ≠ 0x30) := by
  decide

private theorem decimal_digits (n : Nat) : decimal n ≠ [] ∧ ∀ c ∈ decimal n, isDigit c = true := by
  unfold decimal
  split
  · simp [isDigit]
  · rename_i hn
    refine ⟨by simpa [Nat.digits_ne_nil_iff_ne_zero] using hn, fun c hc => ?_⟩
    obtain ⟨d, hd, rfl⟩ := List.mem_map.mp hc
    exact (digitUnit_spec d (Nat.digits_lt_base (by decide) (List.mem_reverse.mp hd))).1

private theorem readDecimal_decimal (n : Nat) : readDecimal (decimal n) = some n := by
  obtain ⟨hne, hdigits⟩ := decimal_digits n
  unfold readDecimal
  rw [if_pos ⟨hne, List.all_eq_true.mpr hdigits⟩]
  unfold decimal
  split
  · rename_i hn
    rw [hn]
    rfl
  · have hstep : ∀ (d acc : Nat), d ∈ (Nat.digits 10 n).reverse →
        ((digitUnit d).toNat - 0x30) + 10 * acc = d + 10 * acc := by
      intro d acc hd
      rw [(digitUnit_spec d (Nat.digits_lt_base (by decide) (List.mem_reverse.mp hd))).2.1]
    have hfold : ((Nat.digits 10 n).reverse.map digitUnit).foldl (fun n c => (c.toNat - 0x30) + 10 * n) 0 =
        Nat.ofDigits 10 (Nat.digits 10 n) := by
      rw [List.foldl_map, Nat.ofDigits_eq_foldr, ← List.foldl_reverse]
      exact List.foldl_ext _ _ _ fun acc d hd => hstep d acc hd
    rw [hfold, Nat.ofDigits_digits]

private theorem isNumeral_decimal (n : Nat) : isNumeral (decimal n) = true ∧ isNumeral (0x2d :: decimal n) = true := by
  have hinteger : afterInteger (decimal n) = some [] := by
    obtain ⟨hne, hdigits⟩ := decimal_digits n
    obtain ⟨c, tail, hcons⟩ := List.exists_cons_of_ne_nil hne
    have hc : isDigit c = true := hdigits c (by rw [hcons]; exact List.mem_cons_self)
    unfold afterInteger
    by_cases hn : n = 0
    · rw [hn]
      rfl
    · -- `Nat.digits` begins with the last digit, so the first one written is not zero
      have hhead : (decimal n).head? ≠ some 0x30 := by
        have hlast : (Nat.digits 10 n).getLast (Nat.digits_ne_nil_iff_ne_zero.mpr hn) ≠ 0 :=
          Nat.getLast_digit_ne_zero 10 hn
        have hlt := Nat.digits_lt_base (b := 10) (by decide)
          (List.getLast_mem (Nat.digits_ne_nil_iff_ne_zero.mpr hn))
        unfold decimal
        rw [if_neg hn, List.head?_map, List.head?_reverse,
          List.getLast?_eq_some_getLast (Nat.digits_ne_nil_iff_ne_zero.mpr hn), Option.map_some]
        exact fun he => (digitUnit_spec _ hlt).2.2 hlast (Option.some.inj he)
      have hdrop : (decimal n).dropWhile isDigit = [] := List.dropWhile_eq_nil_iff.mpr hdigits
      rw [if_neg hhead, someDigits, hdrop, hcons]
      simp [hc]
  have hminus : afterMinus (decimal n) = decimal n := by
    unfold afterMinus
    rw [if_neg]
    intro he
    have hdigit := (decimal_digits n).2 0x2d (List.mem_of_mem_head? he)
    cases hdigit
  constructor
  · rw [isNumeral, hminus, hinteger]
    rfl
  · have hminus' : afterMinus (0x2d :: decimal n) = decimal n := rfl
    rw [isNumeral, hminus', hinteger]
    rfl

def Numeral.ofInt (i : Int) : Numeral where
  text := integerText i
  valid := by
    unfold integerText
    split
    · exact (isNumeral_decimal i.natAbs).2
    · exact (isNumeral_decimal i.natAbs).1

theorem readInteger_ofInt (i : Int) : readInteger (Numeral.ofInt i).text = some i := by
  change readInteger (integerText i) = some i
  unfold integerText readInteger
  by_cases hi : i < 0
  · rw [if_pos hi, List.head?_cons, if_pos rfl, List.tail_cons, readDecimal_decimal, Option.map_some]
    congr 1
    omega
  · have hhead : (decimal i.natAbs).head? ≠ some 0x2d := by
      intro he
      have hdigit := (decimal_digits i.natAbs).2 0x2d (List.mem_of_mem_head? he)
      cases hdigit
    rw [if_neg hi, if_neg hhead, readDecimal_decimal, Option.map_some]
    exact congrArg some (Int.natAbs_of_nonneg (Int.not_lt.mp hi))

section Record

variable {properties : List (Text × Option Value)} {members : List (Text × Value)} {key : Text}

private theorem lookup_eq_some (h : (members.map Prod.fst).Nodup) {v : Value} :
    members.lookup key = some v ↔ (key, v) ∈ members := by
  induction members with
  | nil => simp
  | cons member members ih =>
    obtain ⟨key', v'⟩ := member
    obtain ⟨hnot, hnodup⟩ := List.nodup_cons.mp h
    by_cases hkey : key = key'
    · subst hkey
      have hother : (key, v) ∉ members := fun hmem => hnot (List.mem_map.mpr ⟨_, hmem, rfl⟩)
      simp [hother, eq_comm]
    · have hbeq : (key == key') = false := by simpa using hkey
      rw [List.lookup_cons, hbeq]
      simp [hkey, ih hnodup]

private theorem lookup_reverse (h : (members.map Prod.fst).Nodup) :
    members.reverse.lookup key = members.lookup key := by
  have hreverse : (members.reverse.map Prod.fst).Nodup := by
    rw [List.map_reverse]
    exact List.nodup_reverse.mpr h
  refine Option.ext fun v => ?_
  rw [lookup_eq_some hreverse, lookup_eq_some h, List.mem_reverse]

private theorem lookup_filterMap (h : (properties.map Prod.fst).Nodup) :
    (properties.filterMap fun (key, value) => value.map fun value => (key, value)).lookup key =
      (properties.lookup key).join := by
  induction properties with
  | nil => rfl
  | cons property properties ih =>
    obtain ⟨key', value⟩ := property
    obtain ⟨hnot, hnodup⟩ := List.nodup_cons.mp h
    have ih := ih hnodup
    by_cases hkey : key = key'
    · subst hkey
      have hnone : properties.lookup key = none := by
        rw [List.lookup_eq_none_iff]
        intro property hmem
        have hne : property.1 ≠ key := fun he => hnot (List.mem_map.mpr ⟨property, hmem, he⟩)
        simpa using hne.symm
      rw [hnone] at ih
      cases value with
      | none => simpa using ih
      | some value => simp
    · have hbeq : (key == key') = false := by simpa using hkey
      rw [List.lookup_cons, hbeq]
      cases value with
      | none => simpa using ih
      | some value => simpa [List.lookup_cons, hbeq] using ih

private theorem keys_filterMap (h : (properties.map Prod.fst).Nodup) :
    ((properties.filterMap fun (key, value) => value.map fun value => (key, value)).map Prod.fst).Nodup := by
  refine h.sublist ?_
  induction properties with
  | nil => exact List.Sublist.refl _
  | cons property properties ih =>
    obtain ⟨key', value⟩ := property
    have ih := ih (List.nodup_cons.mp h).2
    cases value with
    | none => exact List.Sublist.cons key' ih
    | some value => exact List.Sublist.cons_cons key' ih

/-- An object whose keys differ has the properties it was written with. -/
theorem property_record (h : (properties.map Prod.fst).Nodup) (key : Text) :
    (Value.record properties).property key = (properties.lookup key).join := by
  change List.lookup key (List.reverse _) = _
  rw [lookup_reverse (keys_filterMap h), lookup_filterMap h]

end Record

end Json
