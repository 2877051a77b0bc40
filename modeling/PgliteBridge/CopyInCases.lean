import PgliteBridge.CopyInVerdicts

/-!
# Letter case

A change of case replaces the letters of a whole text character by character.  A composed text whose dollar quotes
still close where they did stays composed (`Statement.Fits.recase`), and shows the same words.
-/

namespace PgliteBridge.CopyIn

/-! ### Case changes -/

/-- A letter beyond ASCII, without an ASCII letter in its lower case. -/
def isForeign (ch : Char) : Bool := isHighBit ch && !isJsSpace ch && toLowerCase ch == [ch]

/-- Letters become letters: in ASCII the same letter in the other case, elsewhere any letters beyond ASCII. -/
def CaseChange (f : Char → List Char) : Prop :=
  ∀ ch, f ch = [ch] ∨
    (isAsciiLetter ch = true ∧ ∃ c, f ch = [c] ∧ isAsciiLetter c = true ∧ c.toLower = ch.toLower) ∨
    (isForeign ch = true ∧ f ch ≠ [] ∧ ∀ c ∈ f ch, isForeign c = true)

section Recase

variable (f : Char → List Char)

def EscapeUnit.recase : EscapeUnit → List EscapeUnit
  | plain ch => (f ch).map plain
  | escaped ch =>
    match f ch with
    | [] => [escaped ch]
    | c :: cs => escaped c :: cs.map plain
  | doubled => [doubled]

def Token.recase : Token → Token
  | word text => word (text.flatMap f)
  | number text => number text
  | punctuation ch => punctuation ch
  | quotedIdentifier body => quotedIdentifier (body.flatMap f)
  | standardString body => standardString (body.flatMap f)
  | escapeString mark body => escapeString ((f mark).headD mark) (body.flatMap (EscapeUnit.recase f))
  | dollarQuote tag body => dollarQuote (tag.flatMap f) (body.flatMap f)

def Trivia.recase : Trivia → Trivia
  | space ch => space ch
  | lineComment body => lineComment (body.flatMap f)
  | blockComment body => blockComment (body.flatMap f)

def Piece.recase : Piece → Piece
  | token t => token (t.recase f)
  | trivia t => trivia (t.recase f)

def Statement.recase (s : Statement) : Statement := s.map (Piece.recase f)

/-- Every dollar quote closes where it did. -/
def Statement.StillCloses (s : Statement) : Prop :=
  ∀ tag body, .token (.dollarQuote tag body) ∈ s → Closes (tag.flatMap f) (body.flatMap f)

end Recase

variable {f : Char → List Char}

private theorem head_of_foreign {ch : Char} (h : isForeign ch = true) : isWordHead ch = true := by
  unfold isForeign at h
  simp only [Bool.and_eq_true] at h
  simp [isWordHead, h.1.1, h.1.2]

/-- What is replaced is a letter, and so is everything in its place. -/
private theorem CaseChange.letters (hf : CaseChange f) (ch : Char) :
    f ch = [ch] ∨ isWordHead ch = true ∧ f ch ≠ [] ∧ ∀ c ∈ f ch, isWordHead c = true := by
  rcases hf ch with h | ⟨hletter, c, hfc, hc, -⟩ | ⟨hforeign, hne, hcs⟩
  · exact .inl h
  · refine .inr ⟨by simp [isWordHead, hletter], by simp [hfc], ?_⟩
    intro c' hc'
    rw [hfc] at hc'
    rw [List.mem_singleton.1 hc']
    simp [isWordHead, hc]
  · exact .inr ⟨head_of_foreign hforeign, hne, fun c hc => head_of_foreign (hcs c hc)⟩

private theorem CaseChange.ne_nil (hf : CaseChange f) (ch : Char) : f ch ≠ [] := by
  rcases hf.letters ch with h | ⟨-, h, -⟩
  · simp [h]
  · exact h

private theorem CaseChange.other (hf : CaseChange f) {ch : Char} (h : isWordHead ch = false) : f ch = [ch] := by
  rcases hf.letters ch with hsame | ⟨hword, -⟩
  · exact hsame
  · rw [h] at hword
    cases hword

/-- What is true of all letters survives. -/
private theorem CaseChange.keeps (hf : CaseChange f) {kind : Char → Bool}
    (hkind : ∀ c, isWordHead c = true → kind c = true)
    {text : List Char} (h : ∀ ch ∈ text, kind ch = true) : ∀ c ∈ text.flatMap f, kind c = true := by
  intro c hc
  obtain ⟨ch, hch, hmem⟩ := List.mem_flatMap.1 hc
  rcases hf.letters ch with hsame | ⟨-, -, hcs⟩
  · rw [hsame] at hmem
    exact List.mem_singleton.1 hmem ▸ h ch hch
  · exact hkind c (hcs c hmem)

private theorem CaseChange.mem_flatMap (hf : CaseChange f) {c : Char} (hc : isWordHead c = false) {text : List Char}
    (h : c ∈ text.flatMap f) : c ∈ text := by
  obtain ⟨ch, hch, hmem⟩ := List.mem_flatMap.1 h
  rcases hf.letters ch with hsame | ⟨-, -, hcs⟩
  · rw [hsame] at hmem
    exact List.mem_singleton.1 hmem ▸ hch
  · rw [hcs c hmem] at hc
    cases hc

private theorem CaseChange.fixes (hf : CaseChange f) {text : List Char} (h : ∀ ch ∈ text, isWordHead ch = false) :
    text.flatMap f = text := by
  induction text with
  | nil => rfl
  | cons ch text ih =>
    rw [List.flatMap_cons, hf.other (h ch List.mem_cons_self), ih fun c hc => h c (List.mem_cons_of_mem _ hc)]
    rfl

private theorem not_highBit_of_tagChar {ch : Char} (h : isTagChar ch = true) : isHighBit ch = false := by
  simp only [isTagChar, isAsciiLetter, isAsciiDigit, Bool.or_eq_true, Bool.and_eq_true, decide_eq_true_eq, beq_iff_eq,
    Char.le_def, UInt32.le_iff_toNat_le, Char.reduceVal, UInt32.reduceToNat] at h
  have hnat : ch.toNat = ch.val.toNat := rfl
  simp only [isHighBit, decide_eq_false_iff_not]
  rcases h with (h | h) | rfl
  · omega
  · omega
  · decide

private theorem not_digit_of_head {ch : Char} (h : isWordHead ch = true) : isAsciiDigit ch = false := by
  cases hdigit : isAsciiDigit ch with
  | false => rfl
  | true =>
    obtain ⟨hletter, hhigh⟩ := not_letter_of_digit hdigit
    have hne : ch ≠ '_' := by
      rintro rfl
      exact absurd hdigit (by decide)
    simp [isWordHead, hletter, hhigh, hne] at h

private theorem CaseChange.tagChars (hf : CaseChange f) {tag : List Char} (h : ∀ ch ∈ tag, isTagChar ch = true) :
    ∀ c ∈ tag.flatMap f, isTagChar c = true := by
  intro c hc
  obtain ⟨ch, hch, hmem⟩ := List.mem_flatMap.1 hc
  have htag := h ch hch
  rcases hf ch with hsame | ⟨-, c', hfc, hc', -⟩ | ⟨hforeign, -⟩
  · rw [hsame] at hmem
    exact List.mem_singleton.1 hmem ▸ htag
  · rw [hfc] at hmem
    rw [List.mem_singleton.1 hmem]
    simp [isTagChar, hc']
  · unfold isForeign at hforeign
    simp only [Bool.and_eq_true] at hforeign
    rw [not_highBit_of_tagChar htag] at hforeign
    cases hforeign.1.1

/-! ### Neighbours -/

/-- The same character, or two word characters. -/
def Alike (a b : Option Char) : Prop :=
  a = b ∨ ∃ ch c, a = some ch ∧ b = some c ∧ isWordChar ch = true ∧ isWordChar c = true

namespace Alike

variable {a b : Option Char}

private theorem ne_iff (h : Alike a b) {ch : Char} (hch : isWordChar ch = false) (hne : a ≠ some ch) : b ≠ some ch := by
  rintro rfl
  rcases h with rfl | ⟨c, c', -, hb, -, hc'⟩
  · exact hne rfl
  · obtain rfl := Option.some.inj hb
    rw [hch] at hc'
    cases hc'

private theorem not_word (h : Alike a b) (hword : ∀ ch ∈ a, isWordChar ch = false) :
    ∀ ch ∈ b, isWordChar ch = false := by
  rcases h with rfl | ⟨c, c', rfl, -, hc, -⟩
  · exact hword
  · rw [hword c rfl] at hc
    cases hc

private theorem glue (h : Alike a b) : isIdentifierGlue a = isIdentifierGlue b := by
  rcases h with rfl | ⟨c, c', rfl, rfl, hc, hc'⟩
  · rfl
  · rw [glue_of_wordChar hc, glue_of_wordChar hc']

end Alike

private theorem CaseChange.head? (hf : CaseChange f) (text : List Char) : Alike text.head? (text.flatMap f).head? := by
  cases text with
  | nil => exact .inl rfl
  | cons ch text =>
    rw [List.flatMap_cons, head?_append_of_ne_nil (hf.ne_nil ch)]
    rcases hf.letters ch with hsame | ⟨hword, hne, hcs⟩
    · exact .inl (by rw [hsame]; rfl)
    · obtain ⟨c, cs, hfc⟩ := List.exists_cons_of_ne_nil hne
      right
      refine ⟨ch, c, rfl, by rw [hfc]; rfl, wordChar_of_head hword, wordChar_of_head (hcs c ?_)⟩
      rw [hfc]
      exact List.mem_cons_self

private theorem CaseChange.getLast? (hf : CaseChange f) (text : List Char) :
    Alike text.getLast? (text.flatMap f).getLast? := by
  rcases List.eq_nil_or_concat text with rfl | ⟨text, ch, rfl⟩
  · exact .inl rfl
  · rw [List.concat_eq_append, List.flatMap_append, List.flatMap_singleton,
      List.getLast?_append_of_ne_nil _ (hf.ne_nil ch), List.getLast?_append_of_ne_nil _ (by simp)]
    rcases hf.letters ch with hsame | ⟨hword, hne, hcs⟩
    · exact .inl (by rw [hsame])
    · right
      refine ⟨ch, (f ch).getLast hne, rfl, List.getLast?_eq_some_getLast hne, wordChar_of_head hword, ?_⟩
      exact wordChar_of_head (hcs _ (List.getLast_mem hne))

/-! ### Composed texts -/

private theorem doubleQuotes_recase (hf : CaseChange f) {quote : Char} (hquote : isWordHead quote = false)
    (body : List Char) :
    doubleQuotes quote (body.flatMap f) = (doubleQuotes quote body).flatMap f := by
  induction body with
  | nil => rfl
  | cons ch body ih =>
    have hcons : doubleQuotes quote (ch :: body) = doubleQuotes quote [ch] ++ doubleQuotes quote body := by
      simp [doubleQuotes]
    have happend : doubleQuotes quote (f ch ++ body.flatMap f) =
        doubleQuotes quote (f ch) ++ doubleQuotes quote (body.flatMap f) := List.flatMap_append
    rw [List.flatMap_cons, happend, ih, hcons, List.flatMap_append]
    congr 1
    by_cases hch : ch = quote
    · subst hch
      simp [doubleQuotes, hf.other hquote]
    · have hsame : ∀ c ∈ f ch, (if c = quote then [quote, quote] else [c]) = [c] := by
        intro c hc
        refine if_neg ?_
        rintro rfl
        have hmem : c ∈ [ch].flatMap f := by simpa using hc
        exact hch (List.mem_singleton.1 (hf.mem_flatMap hquote hmem)).symm
      rw [doubleQuotes, List.flatMap_congr hsame]
      simp [doubleQuotes, hch]

private theorem EscapeUnit.text_recase (hf : CaseChange f) (unit : EscapeUnit) :
    (unit.recase f).flatMap EscapeUnit.text = unit.text.flatMap f := by
  have hplain : ∀ cs : List Char, (cs.map EscapeUnit.plain).flatMap EscapeUnit.text = cs := by
    intro cs
    induction cs with
    | nil => rfl
    | cons c cs ih => simp [EscapeUnit.text, ih]
  have hbackslash : f '\\' = ['\\'] := hf.other (by decide)
  have hquote : f '\'' = ['\''] := hf.other (by decide)
  cases unit with
  | plain ch => simp [EscapeUnit.recase, EscapeUnit.text, hplain]
  | escaped ch =>
    obtain ⟨c, cs, hfc⟩ := List.exists_cons_of_ne_nil (hf.ne_nil ch)
    simp [EscapeUnit.recase, EscapeUnit.text, hfc, hplain, hbackslash]
  | doubled => simp [EscapeUnit.recase, EscapeUnit.text, hquote]

private theorem EscapeUnit.Fits.recase (hf : CaseChange f) {unit : EscapeUnit} (h : unit.Fits) :
    ∀ unit' ∈ unit.recase f, unit'.Fits := by
  have hplain : ∀ c : Char, isWordHead c = true → (EscapeUnit.plain c).Fits := by
    intro c hc
    exact ⟨ne_of_wordChar (wordChar_of_head hc) (by decide), ne_of_wordChar (wordChar_of_head hc) (by decide)⟩
  intro unit' hunit'
  cases unit with
  | plain ch =>
    obtain ⟨c, hc, rfl⟩ := List.mem_map.1 hunit'
    rcases hf.letters ch with hsame | ⟨-, -, hcs⟩
    · rw [hsame] at hc
      exact List.mem_singleton.1 hc ▸ h
    · exact hplain c (hcs c hc)
  | escaped ch =>
    obtain ⟨c, cs, hfc⟩ := List.exists_cons_of_ne_nil (hf.ne_nil ch)
    rw [EscapeUnit.recase, hfc] at hunit'
    rcases List.mem_cons.1 hunit' with rfl | hmem
    · trivial
    · obtain ⟨c', hc', rfl⟩ := List.mem_map.1 hmem
      rcases hf.letters ch with hsame | ⟨-, -, hcs⟩
      · rw [hsame] at hfc
        rw [← (List.cons.inj hfc).2] at hc'
        cases hc'
      · exact hplain c' (hcs c' (hfc ▸ List.mem_cons_of_mem _ hc'))
  | doubled =>
    rw [List.mem_singleton.1 hunit']
    trivial

private theorem BlockBody.letters {letters body : List Char} (hletters : ∀ c ∈ letters, isWordChar c = true)
    (h : BlockBody body) : BlockBody (letters ++ body) := by
  induction letters with
  | nil => exact h
  | cons c letters ih =>
    have hc := hletters c List.mem_cons_self
    have hrest := ih fun c' hc' => hletters c' (List.mem_cons_of_mem _ hc')
    exact .char hrest (fun hslash => absurd hslash (ne_of_wordChar hc (by decide)))
      (fun hstar => absurd hstar (ne_of_wordChar hc (by decide)))

private theorem BlockBody.recase (hf : CaseChange f) {body : List Char} (h : BlockBody body) :
    BlockBody (body.flatMap f) := by
  have hslash : f '/' = ['/'] := hf.other (by decide)
  have hstar : f '*' = ['*'] := hf.other (by decide)
  induction h with
  | nil => exact .nil
  | @char ch body hbody hopens hcloses ih =>
    rw [List.flatMap_cons]
    rcases hf.letters ch with hsame | ⟨-, -, hcs⟩
    · have hnext : Alike (body ++ ['*', '/']).head? (body.flatMap f ++ ['*', '/']).head? := by
        have halike := hf.head? (body ++ ['*', '/'])
        simpa [hslash, hstar] using halike
      rw [hsame]
      exact .char ih (fun hch => hnext.ne_iff (by decide) (hopens hch))
        (fun hch => hnext.ne_iff (by decide) (hcloses hch))
    · exact ih.letters fun c hc => wordChar_of_head (hcs c hc)
  | @nested inner body hinner hbody ihinner ihbody =>
    have htext : ('/' :: '*' :: (inner ++ '*' :: '/' :: body)).flatMap f =
        '/' :: '*' :: (inner.flatMap f ++ '*' :: '/' :: body.flatMap f) := by
      simp [hslash, hstar]
    rw [htext]
    exact .nested ihinner ihbody

section Fits

variable {prev prev' next next' : Option Char}

/-- The marks of `E'…'`. -/
private theorem mark_iff {ch : Char} : ch = 'e' ∨ ch = 'E' ↔ ch.toLower = 'e' := by
  constructor
  · rintro (rfl | rfl) <;> rfl
  · intro h
    unfold Char.toLower at h
    split at h
    · right
      have hval : ch.val + ('a'.val - 'A'.val) = 'e'.val := congrArg Char.val h
      have hnat := congrArg UInt32.toNat hval
      rename_i hupper
      have hbound := UInt32.le_iff_toNat_le.1 hupper.2
      simp only [Char.reduceVal, UInt32.reduceToNat, UInt32.toNat_add, UInt32.reduceSub] at hnat hbound
      refine Char.ext (UInt32.toNat_inj.1 ?_)
      simp only [Char.reduceVal, UInt32.reduceToNat]
      omega
    · exact .inl h

private theorem CaseChange.mark_iff (hf : CaseChange f) {ch c : Char} (h : c ∈ f ch) :
    c = 'e' ∨ c = 'E' ↔ ch = 'e' ∨ ch = 'E' := by
  rcases hf ch with hsame | ⟨-, c', hfc, -, hcase⟩ | ⟨hforeign, -, hcs⟩
  · rw [hsame] at h
    rw [List.mem_singleton.1 h]
  · rw [hfc] at h
    rw [List.mem_singleton.1 h, CopyIn.mark_iff, CopyIn.mark_iff, hcase]
  · have hne : ∀ c, isForeign c = true → ¬(c = 'e' ∨ c = 'E') := by
      rintro c hc (rfl | rfl)
      · exact absurd hc (by decide)
      · exact absurd hc (by decide)
    exact iff_of_false (hne c (hcs c h)) (hne ch hforeign)

/-- What is one letter was one. -/
private theorem CaseChange.eq_singleton (hf : CaseChange f) {text : List Char} {c : Char} (h : text.flatMap f = [c]) :
    ∃ ch, text = [ch] ∧ c ∈ f ch := by
  cases text with
  | nil => cases h
  | cons ch text =>
    obtain ⟨c', cs, hfc⟩ := List.exists_cons_of_ne_nil (hf.ne_nil ch)
    rw [List.flatMap_cons, hfc, List.cons_append] at h
    obtain ⟨rfl, hrest⟩ := List.cons.inj h
    have hnil : text = [] := by
      cases text with
      | nil => rfl
      | cons ch' text =>
        rw [List.flatMap_cons] at hrest
        exact absurd (List.append_eq_nil_iff.1 (List.append_eq_nil_iff.1 hrest).2).1 (hf.ne_nil ch')
    exact ⟨ch, by rw [hnil], by rw [hfc]; exact List.mem_cons_self⟩

private theorem Token.Fits.recase (hf : CaseChange f) (hprev : Alike prev prev') (hnext : Alike next next') {t : Token}
    (h : t.Fits prev next)
    (hcloses : ∀ tag body, t = .dollarQuote tag body → Closes (tag.flatMap f) (body.flatMap f)) :
    (t.recase f).Fits prev' next' := by
  cases t with
  | word text =>
    obtain ⟨⟨head, tail, rfl, hhead, htail⟩, hend, hquote⟩ := h
    refine ⟨?_, hnext.not_word hend, ?_⟩
    · obtain ⟨c, cs, hfc⟩ := List.exists_cons_of_ne_nil (hf.ne_nil head)
      have hheads : ∀ ch ∈ c :: cs, isWordHead ch = true := by
        have hone : ∀ ch ∈ [head], isWordHead ch = true := by simpa using hhead
        simpa [hfc] using hf.keeps (fun _ h => h) hone
      refine ⟨c, cs ++ tail.flatMap f, by simp [hfc], hheads c List.mem_cons_self, ?_⟩
      intro ch hch
      rcases List.mem_append.1 hch with hch | hch
      · exact wordChar_of_head (hheads ch (List.mem_cons_of_mem _ hch))
      · exact hf.keeps (fun _ => wordChar_of_head) htail ch hch
    · intro hnext'
      have hquoted : next = some '\'' := by
        by_contra hne
        exact hnext.ne_iff (by decide) hne hnext'
      have hmark : ∀ c : Char, c = 'e' ∨ c = 'E' → (head :: tail).flatMap f ≠ [c] := by
        intro c hc heq
        obtain ⟨ch, htext, hmem⟩ := hf.eq_singleton heq
        rw [htext] at hquote
        rcases (hf.mark_iff hmem).1 hc with rfl | rfl
        · exact (hquote hquoted).1 rfl
        · exact (hquote hquoted).2 rfl
      exact ⟨hmark 'e' (.inl rfl), hmark 'E' (.inr rfl)⟩
  | number text => exact ⟨h.1, h.2.1, hnext.not_word h.2.2⟩
  | punctuation ch =>
    exact ⟨h.1, fun hch => hnext.ne_iff (by decide) (h.2.1 hch), fun hch => hnext.ne_iff (by decide) (h.2.2 hch)⟩
  | quotedIdentifier body => exact hnext.ne_iff (by decide) h
  | standardString body => exact hnext.ne_iff (by decide) h
  | escapeString mark body =>
    obtain ⟨hmarks, hbody, hglue, hend⟩ := h
    refine ⟨?_, ?_, hprev.glue ▸ hglue, hnext.ne_iff (by decide) hend⟩
    · obtain ⟨c, cs, hfc⟩ := List.exists_cons_of_ne_nil (hf.ne_nil mark)
      rw [hfc]
      exact (hf.mark_iff (by rw [hfc]; exact List.mem_cons_self)).2 hmarks
    · intro unit hunit
      obtain ⟨unit', hunit', hmem⟩ := List.mem_flatMap.1 hunit
      exact (hbody unit' hunit').recase hf unit hmem
  | dollarQuote tag body =>
    obtain ⟨⟨htag, hhead⟩, -, hglue⟩ := h
    refine ⟨⟨hf.tagChars htag, ?_⟩, hcloses tag body rfl, hprev.glue ▸ hglue⟩
    cases tag with
    | nil => exact hhead
    | cons ch tag =>
      intro c hc
      obtain ⟨c', cs, hfc⟩ := List.exists_cons_of_ne_nil (hf.ne_nil ch)
      rw [List.flatMap_cons, hfc] at hc
      cases hc
      rcases hf.letters ch with hsame | ⟨-, -, hcs⟩
      · rw [hsame] at hfc
        rw [← (List.cons.inj hfc).1]
        exact hhead ch rfl
      · exact not_digit_of_head (hcs c (hfc ▸ List.mem_cons_self))

private theorem Trivia.Fits.recase (hf : CaseChange f) {t : Trivia} (h : t.Fits) : (t.recase f).Fits := by
  cases t with
  | space ch => exact h
  | lineComment body => exact fun hmem => h (hf.mem_flatMap (by decide) hmem)
  | blockComment body => exact BlockBody.recase hf h

private theorem Token.text_recase (hf : CaseChange f) {t : Token} (h : t.Fits prev next) :
    (t.recase f).text = t.text.flatMap f := by
  have hother : ∀ ch : Char, isWordHead ch = false → f ch = [ch] := fun ch => hf.other
  have hquote := hother '\'' (by decide)
  have hident := hother '"' (by decide)
  have hdollar := hother '$' (by decide)
  cases t with
  | word text => rfl
  | number text =>
    refine (hf.fixes fun ch hch => ?_).symm
    cases hhead : isWordHead ch with
    | false => rfl
    | true =>
      have hdigit := h.2.1 ch hch
      rw [not_digit_of_head hhead] at hdigit
      cases hdigit
  | punctuation ch =>
    have hsep := separator_of_punctuation h.1
    simp only [isSeparator, isWordChar, Bool.and_eq_true, Bool.not_eq_true', Bool.or_eq_false_iff] at hsep
    simp [Token.recase, Token.text, hother ch hsep.1.1.1]
  | quotedIdentifier body =>
    simp [Token.recase, Token.text, hident, doubleQuotes_recase hf (by decide : isWordHead '"' = false)]
  | standardString body =>
    simp [Token.recase, Token.text, hquote, doubleQuotes_recase hf (by decide : isWordHead '\'' = false)]
  | escapeString mark body =>
    have hmark : f mark = [(f mark).headD mark] := by
      rcases hf mark with hsame | ⟨-, c, hfc, -⟩ | ⟨hforeign, -⟩
      · rw [hsame]
        rfl
      · rw [hfc]
        rfl
      · rcases h.1 with rfl | rfl
        · exact absurd hforeign (by decide)
        · exact absurd hforeign (by decide)
    have hbody : (body.flatMap (EscapeUnit.recase f)).flatMap EscapeUnit.text =
        (body.flatMap EscapeUnit.text).flatMap f := by
      rw [List.flatMap_assoc, List.flatMap_assoc]
      exact List.flatMap_congr fun unit _ => unit.text_recase hf
    simp only [Token.recase, Token.text, List.flatMap_cons, List.flatMap_append, hquote, hbody,
      List.flatMap_nil, List.append_nil, List.singleton_append]
    rw [hmark]
    rfl
  | dollarQuote tag body => simp [Token.recase, Token.text, delimiter, hdollar]

private theorem Trivia.text_recase (hf : CaseChange f) {t : Trivia} (h : t.Fits) :
    (t.recase f).text = t.text.flatMap f := by
  have hother : ∀ ch : Char, isWordHead ch = false → f ch = [ch] := fun ch => hf.other
  cases t with
  | space ch =>
    have hsep := separator_of_space h.1 h.2
    simp only [isSeparator, isWordChar, Bool.and_eq_true, Bool.not_eq_true', Bool.or_eq_false_iff] at hsep
    simp [Trivia.recase, Trivia.text, hother ch hsep.1.1.1]
  | lineComment body => simp [Trivia.recase, Trivia.text, hother '-' (by decide), hother '\n' (by decide)]
  | blockComment body => simp [Trivia.recase, Trivia.text, hother '/' (by decide), hother '*' (by decide)]

private theorem Piece.text_recase (hf : CaseChange f) {p : Piece} (h : p.Fits prev next) :
    (p.recase f).text = p.text.flatMap f := by
  cases p with
  | token t => exact Token.text_recase hf h
  | trivia t => exact Trivia.text_recase hf h

end Fits

/-- A statement that still closes stays composed. -/
theorem Statement.Fits.recase (hf : CaseChange f) {s : Statement} {prev prev' : Option Char} (h : s.Fits prev)
    (hcloses : s.StillCloses f) (hprev : Alike prev prev') :
    (s.recase f).Fits prev' ∧ (s.recase f).text = s.text.flatMap f := by
  induction s generalizing prev prev' with
  | nil => exact ⟨trivial, rfl⟩
  | cons p s ih =>
    obtain ⟨hpiece, hrest⟩ := h
    have hpieceText := Piece.text_recase hf hpiece
    have hlast : Alike p.text.getLast? (p.recase f).text.getLast? := hpieceText ▸ hf.getLast? p.text
    obtain ⟨hfits, htext⟩ := ih hrest (fun tag body hmem => hcloses tag body (List.mem_cons_of_mem _ hmem)) hlast
    have hnext : Alike (Statement.text s).head? (Statement.text (Statement.recase f s)).head? := htext ▸ hf.head? _
    refine ⟨⟨?_, hfits⟩, ?_⟩
    · cases p with
      | token t =>
        refine Token.Fits.recase hf hprev hnext hpiece ?_
        rintro tag body rfl
        exact hcloses tag body List.mem_cons_self
      | trivia t => exact Trivia.Fits.recase hf hpiece
    · have hcons : ∀ (q : Piece) (r : Statement), Statement.text (q :: r) = q.text ++ Statement.text r :=
        fun _ _ => List.flatMap_cons
      have hrecase : Statement.recase f (p :: s) = p.recase f :: Statement.recase f s := rfl
      rw [hrecase, hcons, hcons, List.flatMap_append, hpieceText, htext]

theorem composedText_recase (hf : CaseChange f) {ss : List Statement}
    (h : ∀ s ∈ ss, (s.recase f).text = s.text.flatMap f) :
    composedText (ss.map (Statement.recase f)) = (composedText ss).flatMap f := by
  have hsemicolon : f ';' = [';'] := hf.other (by decide)
  unfold composedText
  induction ss with
  | nil => rfl
  | cons s ss ih =>
    have hs := h s List.mem_cons_self
    cases ss with
    | nil => simp [hs]
    | cons s' ss =>
      have hrest := ih fun s'' hs'' => h s'' (List.mem_cons_of_mem _ hs'')
      have hcons : ∀ (a b : List Char) (l : List (List Char)),
          [';'].intercalate (a :: b :: l) = a ++ ';' :: [';'].intercalate (b :: l) := by
        intro a b l
        simp [List.intercalate]
      simp only [List.map_cons] at hrest ⊢
      rw [hcons, hcons, hrest, hs, List.flatMap_append, List.flatMap_cons, hsemicolon]
      rfl

/-! ### Words -/

private theorem wordsFrom_separators {separators : List Char} (hne : separators ≠ [])
    (h : ∀ ch ∈ separators, isWordStart ch = false ∧ isAsciiDigit ch = false) (current text : List Char) :
    wordsFrom current (separators ++ text) = wordsFrom current [] ++ wordsFrom [] text := by
  induction separators generalizing current with
  | nil => exact absurd rfl hne
  | cons ch separators ih =>
    obtain ⟨hstart, hdigit⟩ := h ch List.mem_cons_self
    rw [List.cons_append, wordsFrom_separator hstart hdigit]
    by_cases hnil : separators = []
    · rw [hnil, List.nil_append]
    · rw [ih hnil fun c hc => h c (List.mem_cons_of_mem _ hc)]
      rfl

private theorem wordsFrom_congr {a b : List Char} (h : ∀ current, wordsFrom current a = wordsFrom current b)
    (chars current : List Char) : wordsFrom current (chars ++ a) = wordsFrom current (chars ++ b) := by
  induction chars generalizing current with
  | nil => exact h current
  | cons ch chars ih => simp only [List.cons_append, wordsFrom, ih]

private theorem toLowerCase_of_letter {ch : Char} (h : isAsciiLetter ch = true) : toLowerCase ch = [ch.toLower] := by
  have hhigh : isHighBit ch = false := not_highBit_of_tagChar (by simp [isTagChar, h])
  have hsmall : ch.toNat < 0x80 := by simpa [isHighBit] using hhigh
  unfold toLowerCase
  rw [if_neg (by omega), if_neg (by omega)]

private theorem lowerCase_of_foreign {chars : List Char} (h : ∀ c ∈ chars, isForeign c = true) :
    chars.flatMap toLowerCase = chars ∧ ∀ c ∈ chars, isWordStart c = false ∧ isAsciiDigit c = false := by
  have hlower : ∀ c ∈ chars, toLowerCase c = [c] := by
    intro c hc
    have hforeign := h c hc
    unfold isForeign at hforeign
    rw [Bool.and_eq_true, beq_iff_eq] at hforeign
    exact hforeign.2
  refine ⟨by rw [List.flatMap_congr hlower]; simp, ?_⟩
  intro c hc
  have hhead := head_of_foreign (h c hc)
  refine ⟨?_, not_digit_of_head hhead⟩
  cases hstart : isWordStart c with
  | false => rfl
  | true =>
    have htag : isTagChar c = true := by
      simp only [isWordStart, Bool.or_eq_true] at hstart
      simp only [isTagChar, isAsciiLetter, Bool.or_eq_true]
      tauto
    have hforeign := h c hc
    simp [isForeign, not_highBit_of_tagChar htag] at hforeign

/-- The same words are seen in any case. -/
private theorem tokenize_recase (hf : CaseChange f) (text : List Char) : tokenize (text.flatMap f) = tokenize text := by
  suffices h : ∀ current, wordsFrom current ((text.flatMap f).flatMap toLowerCase) =
      wordsFrom current (text.flatMap toLowerCase) from h []
  induction text with
  | nil => exact fun current => rfl
  | cons ch text ih =>
    intro current
    rw [List.flatMap_cons, List.flatMap_cons, List.flatMap_append]
    rcases hf ch with hsame | ⟨hletter, c, hfc, hc, hcase⟩ | ⟨hforeign, hne, hcs⟩
    · rw [hsame, List.flatMap_singleton]
      exact wordsFrom_congr ih _ current
    · rw [hfc, List.flatMap_singleton, toLowerCase_of_letter hc, toLowerCase_of_letter hletter, hcase]
      exact wordsFrom_congr ih _ current
    · -- a letter beyond ASCII ends the word before it, whatever it becomes
      have hone : ∀ c ∈ [ch], isForeign c = true := fun c hc => List.mem_singleton.1 hc ▸ hforeign
      obtain ⟨hlower, hends⟩ := lowerCase_of_foreign hcs
      obtain ⟨hlowerOne, hendsOne⟩ := lowerCase_of_foreign hone
      rw [List.flatMap_singleton] at hlowerOne
      rw [hlower, hlowerOne, wordsFrom_separators hne hends, wordsFrom_separators (List.cons_ne_nil _ _) hendsOne, ih]

theorem Statement.words_recase (hf : CaseChange f) (s : Statement) : (s.recase f).words = s.words := by
  have hpiece : ∀ p : Piece, (p.recase f).words = p.words := by
    intro p
    cases p with
    | token t =>
      cases t with
      | word text => exact tokenize_recase hf text
      | _ => rfl
    | trivia t => rfl
  unfold Statement.words Statement.recase
  rw [List.flatMap_map]
  exact List.flatMap_congr fun p _ => hpiece p

theorem Statement.tokens_recase (s : Statement) : (s.recase f).tokens = s.tokens.map (Token.recase f) := by
  induction s with
  | nil => rfl
  | cons p s ih =>
    have hrecase : Statement.recase f (p :: s) = p.recase f :: Statement.recase f s := rfl
    cases p with
    | token t =>
      have htokens : Statement.tokens (.token t :: s) = t :: Statement.tokens s := rfl
      rw [hrecase, htokens, List.map_cons, ← ih]
      rfl
    | trivia t => exact ih

end PgliteBridge.CopyIn
