import PgliteBridge.CopyInScan

/-!
# Verdicts on composed texts

The words of the stripped text are the words of its tokens, and what is blank of it are the empty statements, so the
verdict is that of the words (`sniff_by_words`).
-/

namespace PgliteBridge.CopyIn

/-! ### Images -/

private theorem not_space_of_wordChar {ch : Char} (h : isWordChar ch = true) : isJsSpace ch = false := by
  have hletter : isAsciiLetter ch = true → isJsSpace ch = false := by
    intro hl
    simp only [isAsciiLetter, Bool.or_eq_true, Bool.and_eq_true, decide_eq_true_eq, Char.le_def,
      UInt32.le_iff_toNat_le] at hl
    simp only [isJsSpace, List.mem_cons, List.not_mem_nil, or_false, Bool.or_eq_false_iff, decide_eq_false_iff_not]
    have hnat : ch.toNat = ch.val.toNat := rfl
    simp only [Char.reduceVal, UInt32.reduceToNat] at hl
    omega
  have hdigit : isAsciiDigit ch = true → isJsSpace ch = false := by
    intro hd
    simp only [isAsciiDigit, Bool.and_eq_true, decide_eq_true_eq, Char.le_def, UInt32.le_iff_toNat_le] at hd
    simp only [isJsSpace, List.mem_cons, List.not_mem_nil, or_false, Bool.or_eq_false_iff, decide_eq_false_iff_not]
    have hnat : ch.toNat = ch.val.toNat := rfl
    simp only [Char.reduceVal, UInt32.reduceToNat] at hd
    omega
  simp only [isWordChar, isWordHead, Bool.or_eq_true, Bool.and_eq_true, beq_iff_eq, Bool.not_eq_true'] at h
  rcases h with (((h | rfl) | ⟨-, h⟩) | h) | rfl
  · exact hletter h
  · decide
  · exact h
  · exact hdigit h
  · decide

/-- A character between words: no letter, no digit, and not beyond ASCII. -/
def isSeparator (ch : Char) : Bool := !isWordChar ch && !isHighBit ch

theorem separator_of_space {ch : Char} (hspace : isJsSpace ch = true) (hhigh : isHighBit ch = false) :
    isSeparator ch = true := by
  have hword : isWordChar ch = false := by
    cases hw : isWordChar ch with
    | false => rfl
    | true =>
      rw [not_space_of_wordChar hw] at hspace
      cases hspace
  simp [isSeparator, hword, hhigh]

theorem separator_of_punctuation {ch : Char} (h : isPunctuation ch = true) : isSeparator ch = true := by
  unfold isPunctuation at h
  simp only [Bool.and_eq_true] at h
  simp [isSeparator, h.1.1.1.1.1, h.1.1.1.1.2]

/-- What is pushed for a token, character by character. -/
private theorem image_cases {prev next : Option Char} {p : Piece} (h : p.Fits prev next) :
    ∀ ch ∈ p.image, isWordChar ch = true ∨ isSeparator ch = true ∧ ch ≠ ';' := by
  have hmark : isSeparator '?' = true ∧ '?' ≠ ';' := by decide
  have hblank : isSeparator ' ' = true ∧ ' ' ≠ ';' := by decide
  have hnewline : isSeparator '\n' = true ∧ '\n' ≠ ';' := by decide
  intro ch hch
  cases p with
  | token t =>
    cases t with
    | word text =>
      obtain ⟨⟨head, tail, rfl, hhead, htail⟩, -⟩ := h
      left
      rcases List.mem_cons.1 hch with rfl | hch
      · exact wordChar_of_head hhead
      · exact htail ch hch
    | number text => exact .inl (wordChar_of_digit (h.2.1 ch hch))
    | punctuation ch' =>
      obtain rfl := List.mem_singleton.1 hch
      refine .inr ⟨separator_of_punctuation h.1, ?_⟩
      rintro rfl
      exact absurd h.1 (by decide)
    | quotedIdentifier body => exact .inr (List.mem_singleton.1 hch ▸ hmark)
    | standardString body => exact .inr (List.mem_singleton.1 hch ▸ hmark)
    | escapeString mark body => exact .inr (List.mem_singleton.1 hch ▸ hmark)
    | dollarQuote tag body => exact .inr (List.mem_singleton.1 hch ▸ hmark)
  | trivia t =>
    right
    cases t with
    | space ch' =>
      obtain rfl := List.mem_singleton.1 hch
      refine ⟨separator_of_space h.1 h.2, ?_⟩
      rintro rfl
      exact absurd h.1 (by decide)
    | lineComment body =>
      rcases List.mem_cons.1 hch with rfl | hch
      · exact hblank
      · exact List.mem_singleton.1 hch ▸ hnewline
    | blockComment body => exact List.mem_singleton.1 hch ▸ hblank

private theorem Statement.Fits.mem {s : Statement} {prev : Option Char} (h : s.Fits prev) {p : Piece} (hp : p ∈ s) :
    ∃ prev next, p.Fits prev next := by
  induction s generalizing prev with
  | nil => cases hp
  | cons q s ih =>
    rcases List.mem_cons.1 hp with rfl | hp
    · exact ⟨_, _, h.1⟩
    · exact ih h.2 hp

private theorem not_mem_image {s : Statement} {prev : Option Char} (h : s.Fits prev) : ';' ∉ s.image := by
  intro hmem
  obtain ⟨p, hp, hch⟩ := List.mem_flatMap.1 hmem
  obtain ⟨prev', next, hfits⟩ := h.mem hp
  rcases image_cases hfits ';' hch with hword | ⟨-, hne⟩
  · exact absurd hword (by decide)
  · exact hne rfl

private theorem token_not_blank {prev next : Option Char} {t : Token} (h : t.Fits prev next) :
    t.image.all isJsSpace = false := by
  have hhead : ∀ {ch : Char} {text : List Char}, isWordChar ch = true → (ch :: text).all isJsSpace = false := by
    intro ch text hword
    rw [List.all_cons, not_space_of_wordChar hword]
    rfl
  cases t with
  | word text =>
    obtain ⟨⟨head, tail, rfl, hfirst, -⟩, -⟩ := h
    exact hhead (wordChar_of_head hfirst)
  | number text =>
    obtain ⟨hne, hdigits, -⟩ := h
    obtain ⟨head, tail, rfl⟩ := List.exists_cons_of_ne_nil hne
    exact hhead (wordChar_of_digit (hdigits head List.mem_cons_self))
  | punctuation ch =>
    have hpunct := h.1
    unfold isPunctuation at hpunct
    simp only [Bool.and_eq_true, Bool.not_eq_true'] at hpunct
    simpa [Token.image] using hpunct.1.1.1.2
  | quotedIdentifier body => rfl
  | standardString body => rfl
  | escapeString mark body => rfl
  | dollarQuote tag body => rfl

/-- A statement is blank when it has no token. -/
private theorem blank_image {s : Statement} {prev : Option Char} (h : s.Fits prev) :
    s.image.all isJsSpace = s.tokens.isEmpty := by
  induction s generalizing prev with
  | nil => rfl
  | cons p s ih =>
    obtain ⟨hpiece, hrest⟩ := h
    have himage : Statement.image (p :: s) = p.image ++ Statement.image s := List.flatMap_cons
    rw [himage, List.all_append, ih hrest]
    cases p with
    | token t =>
      have hseen : t.image.all isJsSpace = false := token_not_blank hpiece
      have htokens : Statement.tokens (.token t :: s) = t :: Statement.tokens s := rfl
      rw [Piece.image, hseen, htokens]
      rfl
    | trivia t =>
      have hblank : t.image.all isJsSpace = true := by
        cases t with
        | space ch => simpa [Trivia.image] using hpiece.1
        | lineComment body => rfl
        | blockComment body => rfl
      have htokens : Statement.tokens (.trivia t :: s) = Statement.tokens s := rfl
      rw [Piece.image, hblank, htokens]
      rfl

/-! ### Words -/

section Words

variable {ch : Char} {current a b : List Char}

theorem wordsFrom_separator (hstart : isWordStart ch = false) (hdigit : isAsciiDigit ch = false) (text : List Char) :
    wordsFrom current (ch :: text) = wordsFrom current [] ++ wordsFrom [] text := by
  cases current with
  | nil => simp [wordsFrom, hstart]
  | cons c current => simp [wordsFrom, hstart, hdigit]

private theorem wordsFrom_append (hb : ∀ ch ∈ b.head?, isWordStart ch = false ∧ isAsciiDigit ch = false) :
    wordsFrom current (a ++ b) = wordsFrom current a ++ wordsFrom [] b := by
  induction a generalizing current with
  | nil =>
    cases b with
    | nil => simp [wordsFrom]
    | cons ch b =>
      obtain ⟨hstart, hdigit⟩ := hb ch rfl
      rw [List.nil_append, wordsFrom_separator hstart hdigit, wordsFrom_separator hstart hdigit]
      simp [wordsFrom]
  | cons ch a ih =>
    rw [List.cons_append, wordsFrom, wordsFrom]
    split
    · exact ih
    · split
      · exact ih
      · rw [ih]
        rfl

private theorem toLowerCase_other (hletter : isAsciiLetter ch = false) (hhigh : isHighBit ch = false) :
    toLowerCase ch = [ch] := by
  have hsmall : ch.toNat < 0x80 := by simpa [isHighBit] using hhigh
  simp only [isAsciiLetter, Bool.or_eq_false_iff] at hletter
  have hlower : ch.toLower = ch := by
    unfold Char.toLower
    rw [dif_neg]
    rintro ⟨hge, hle⟩
    have hupper := hletter.2
    simp only [Bool.and_eq_false_iff, decide_eq_false_iff_not, Char.le_def] at hupper
    exact hupper.elim (fun hn => hn hge) (fun hn => hn hle)
  unfold toLowerCase
  rw [if_neg (by omega), if_neg (by omega), hlower]

private theorem toLowerCase_separator (h : isSeparator ch = true) :
    toLowerCase ch = [ch] ∧ isWordStart ch = false ∧ isAsciiDigit ch = false := by
  simp only [isSeparator, isWordChar, isWordHead, Bool.and_eq_true, Bool.not_eq_true', Bool.or_eq_false_iff] at h
  obtain ⟨⟨⟨⟨⟨hletter, hunder⟩, -⟩, hdigit⟩, -⟩, hhigh⟩ := h
  refine ⟨toLowerCase_other hletter hhigh, ?_, hdigit⟩
  simp only [isAsciiLetter, Bool.or_eq_false_iff] at hletter
  simp [isWordStart, hletter.1, hunder]

theorem not_letter_of_digit (h : isAsciiDigit ch = true) : isAsciiLetter ch = false ∧ isHighBit ch = false := by
  simp only [isAsciiDigit, Bool.and_eq_true, decide_eq_true_eq, Char.le_def, UInt32.le_iff_toNat_le,
    Char.reduceVal, UInt32.reduceToNat] at h
  have hnat : ch.toNat = ch.val.toNat := rfl
  constructor
  · simp only [isAsciiLetter, Bool.or_eq_false_iff, Bool.and_eq_false_iff, decide_eq_false_iff_not, Char.le_def,
      UInt32.le_iff_toNat_le, Char.reduceVal, UInt32.reduceToNat]
    omega
  · simp only [isHighBit, decide_eq_false_iff_not]
    omega

private theorem tokenize_append (hb : ∀ ch ∈ b.head?, isSeparator ch = true) :
    tokenize (a ++ b) = tokenize a ++ tokenize b := by
  unfold tokenize
  rw [List.flatMap_append, wordsFrom_append]
  intro ch hch
  cases b with
  | nil => cases hch
  | cons first b =>
    obtain ⟨hlower, hends⟩ := toLowerCase_separator (hb first rfl)
    rw [List.flatMap_cons, hlower] at hch
    cases hch
    exact hends

private theorem tokenize_separators (ha : ∀ ch ∈ a, isSeparator ch = true) : tokenize (a ++ b) = tokenize b := by
  induction a with
  | nil => rfl
  | cons ch a ih =>
    obtain ⟨hlower, hstart, hdigit⟩ := toLowerCase_separator (ha ch List.mem_cons_self)
    rw [← ih fun ch' hch' => ha ch' (List.mem_cons_of_mem _ hch')]
    unfold tokenize
    rw [List.cons_append, List.flatMap_cons, hlower, List.singleton_append, wordsFrom_separator hstart hdigit]
    rfl

private theorem tokenize_digits (ha : ∀ ch ∈ a, isAsciiDigit ch = true) : tokenize a = [] := by
  induction a with
  | nil => rfl
  | cons ch a ih =>
    have hdigit := ha ch List.mem_cons_self
    obtain ⟨hletter, hhigh⟩ := not_letter_of_digit hdigit
    have hstart : isWordStart ch = false := by
      have hne : ch ≠ '_' := by
        rintro rfl
        exact absurd hdigit (by decide)
      simp only [isAsciiLetter, Bool.or_eq_false_iff] at hletter
      simp [isWordStart, hletter.1, hne]
    rw [← ih fun ch' hch' => ha ch' (List.mem_cons_of_mem _ hch')]
    unfold tokenize
    rw [List.flatMap_cons, toLowerCase_other hletter hhigh, List.singleton_append]
    simp [wordsFrom, hstart]

end Words

/-- Behind a word or a number stands a separator. -/
private theorem head_image {s : Statement} {prev : Option Char} (h : s.Fits prev)
    (hend : ∀ ch ∈ (Statement.text s).head?, isWordChar ch = false) :
    ∀ ch ∈ (Statement.image s).head?, isSeparator ch = true := by
  have hmark : ∀ text : List Char, ∀ ch ∈ ('?' :: text).head?, isSeparator ch = true := by
    rintro text ch ⟨⟩
    decide
  have hblank : ∀ text : List Char, ∀ ch ∈ (' ' :: text).head?, isSeparator ch = true := by
    rintro text ch ⟨⟩
    decide
  cases s with
  | nil => exact fun ch hch => by cases hch
  | cons p s =>
    obtain ⟨hpiece, -⟩ := h
    cases p with
    | trivia t =>
      cases t with
      | space ch =>
        rintro ch' ⟨⟩
        exact separator_of_space hpiece.1 hpiece.2
      | lineComment body => exact hblank _
      | blockComment body => exact hblank _
    | token t =>
      cases t with
      | word text =>
        obtain ⟨⟨head, tail, rfl, hfirst, -⟩, -⟩ := hpiece
        have hword := wordChar_of_head hfirst
        rw [hend head rfl] at hword
        cases hword
      | number text =>
        obtain ⟨hne, hdigits, -⟩ := hpiece
        obtain ⟨head, tail, rfl⟩ := List.exists_cons_of_ne_nil hne
        have hword := wordChar_of_digit (hdigits head List.mem_cons_self)
        rw [hend head rfl] at hword
        cases hword
      | punctuation ch =>
        rintro ch' ⟨⟩
        exact separator_of_punctuation hpiece.1
      | quotedIdentifier body => exact hmark _
      | standardString body => exact hmark _
      | escapeString mark body =>
        have hword := hend mark rfl
        rcases hpiece.1 with rfl | rfl
        · exact absurd hword (by decide)
        · exact absurd hword (by decide)
      | dollarQuote tag body => exact absurd (hend '$' rfl) (by decide)

/-- The words of the stripped statement are the words of its tokens. -/
private theorem tokenize_image {s : Statement} {prev : Option Char} (h : s.Fits prev) : tokenize s.image = s.words := by
  induction s generalizing prev with
  | nil => rfl
  | cons p s ih =>
    obtain ⟨hpiece, hrest⟩ := h
    have himage : Statement.image (p :: s) = p.image ++ Statement.image s := List.flatMap_cons
    have hwords : Statement.words (p :: s) = p.words ++ Statement.words s := List.flatMap_cons
    have hskip : (∀ ch ∈ p.image, isSeparator ch = true) →
        tokenize (p.image ++ Statement.image s) = Statement.words s :=
      fun hseparators => (tokenize_separators hseparators).trans (ih hrest)
    have hmark : ∀ ch ∈ ['?'], isSeparator ch = true := List.all_eq_true.1 rfl
    rw [himage, hwords]
    cases p with
    | trivia t =>
      refine hskip ?_
      cases t with
      | space ch => exact fun ch' hch' => List.mem_singleton.1 hch' ▸ separator_of_space hpiece.1 hpiece.2
      | lineComment body => exact (List.all_eq_true.1 rfl : ∀ ch ∈ [' ', '\n'], isSeparator ch = true)
      | blockComment body => exact (List.all_eq_true.1 rfl : ∀ ch ∈ [' '], isSeparator ch = true)
    | token t =>
      cases t with
      | word text =>
        rw [tokenize_append (head_image hrest hpiece.2.1), ih hrest]
        rfl
      | number text =>
        have hnone : tokenize (Piece.token (.number text)).image = [] := tokenize_digits hpiece.2.1
        rw [tokenize_append (head_image hrest hpiece.2.2), ih hrest, hnone]
        rfl
      | punctuation ch => exact hskip fun ch' hch' => List.mem_singleton.1 hch' ▸ separator_of_punctuation hpiece.1
      | quotedIdentifier body => exact hskip hmark
      | standardString body => exact hskip hmark
      | escapeString mark body => exact hskip hmark
      | dollarQuote tag body => exact hskip hmark

/-! ### The verdict by words -/

private theorem isCopyInStatement_eq (statement : List Char) :
    isCopyInStatement statement = readsCopyIn (tokenize statement) := by
  unfold isCopyInStatement readsCopyIn
  cases tokenize statement <;> rfl

private theorem statements_image {ss : List Statement} (h : Composed ss) :
    statements ([';'].intercalate (ss.map Statement.image)) =
      (ss.filter fun s => !s.tokens.isEmpty).map Statement.image := by
  unfold statements
  by_cases hempty : ss = []
  · subst hempty
    rfl
  have hsplit : ([';'].intercalate (ss.map Statement.image)).splitOn ';' = ss.map Statement.image := by
    refine List.splitOn_intercalate ';' ?_ (by simpa using hempty)
    intro image himage
    obtain ⟨s, hs, rfl⟩ := List.mem_map.1 himage
    exact not_mem_image (h s hs)
  rw [hsplit, List.filter_map]
  congr 1
  refine List.filter_congr fun s hs => ?_
  rw [Function.comp_apply, blank_image (h s hs)]

/-- The verdict on a composed text is that of its words. -/
theorem sniff_by_words {ss : List Statement} (h : Composed ss) :
    sniffCopyIn (composedText ss) = expectedVerdict (fun s => readsCopyIn s.words) ss := by
  have hstrip : stripQuotedAndComments (composedText ss) = [';'].intercalate (ss.map Statement.image) :=
    strip_composed h rfl
  have hany : ((ss.filter fun s => !s.tokens.isEmpty).map Statement.image).any isCopyInStatement =
      (ss.filter fun s => !s.tokens.isEmpty).any fun s => readsCopyIn s.words := by
    rw [List.any_map, Bool.eq_iff_iff, List.any_eq_true, List.any_eq_true]
    refine exists_congr fun s => and_congr_right fun hs => ?_
    have hfits := h s (List.mem_filter.1 hs).1
    rw [Function.comp_apply, isCopyInStatement_eq, tokenize_image hfits]
  unfold sniffCopyIn expectedVerdict
  simp only [hstrip, statements_image h, hany, List.length_map]

end PgliteBridge.CopyIn
