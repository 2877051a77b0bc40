import PgliteBridge.CopyInGrammar

/-!
# The scanner on composed texts

Every region the scanner skips is one piece of the grammar, and what it pushes for the piece is its image
(`strip_statement`): words, numbers and punctuation stay, a quoted token is a `?`, a comment a space.
-/

namespace PgliteBridge.CopyIn

/-! ### Skipped regions -/

private theorem skipLiteral_other {escaping : Bool} {ch : Char} (hquote : ch ≠ '\'')
    (hescape : escaping = true → ch ≠ '\\')
    (text : List Char) : skipLiteral escaping (ch :: text) = skipLiteral escaping text := by
  by_cases hback : ch = '\\'
  · subst hback
    have hplain : escaping = false := by simpa using hescape
    subst hplain
    cases text with
    | nil => rfl
    | cons next text => simp [skipLiteral]
  · cases text with
    | nil => simp [skipLiteral, hback]
    | cons next text => simp [skipLiteral, hquote, hback]

private theorem skipLiteral_closes {escaping : Bool} {rest : List Char} (hnext : rest.head? ≠ some '\'') :
    skipLiteral escaping ('\'' :: rest) = rest := by
  cases rest with
  | nil => rfl
  | cons ch rest =>
    have hne : ch ≠ '\'' := by simpa using hnext
    simp [skipLiteral, hne]

private theorem skipLiteral_standard (body : List Char) {rest : List Char} (hnext : rest.head? ≠ some '\'') :
    skipLiteral false (doubleQuotes '\'' body ++ '\'' :: rest) = rest := by
  induction body with
  | nil => exact skipLiteral_closes hnext
  | cons ch body ih =>
    by_cases hquote : ch = '\''
    · subst hquote
      simpa [doubleQuotes, skipLiteral] using ih
    · simp only [doubleQuotes, List.flatMap_cons, if_neg hquote, List.cons_append]
      rw [skipLiteral_other hquote (by simp)]
      exact ih

private theorem skipLiteral_escape {body : List EscapeUnit} (hbody : ∀ unit ∈ body, unit.Fits) {rest : List Char}
    (hnext : rest.head? ≠ some '\'') : skipLiteral true (body.flatMap EscapeUnit.text ++ '\'' :: rest) = rest := by
  induction body with
  | nil => exact skipLiteral_closes hnext
  | cons unit body ih =>
    have hrest := ih fun u hu => hbody u (List.mem_cons_of_mem _ hu)
    rw [List.flatMap_cons, List.append_assoc]
    cases unit with
    | plain ch =>
      obtain ⟨hback, hquote⟩ := hbody _ List.mem_cons_self
      rw [EscapeUnit.text, List.singleton_append, skipLiteral_other hquote (fun _ => hback)]
      exact hrest
    | escaped ch => simpa [EscapeUnit.text, skipLiteral] using hrest
    | doubled => simpa [EscapeUnit.text, skipLiteral] using hrest

private theorem skipQuotedIdentifier_closes {rest : List Char} (hnext : rest.head? ≠ some '"') :
    skipQuotedIdentifier ('"' :: rest) = rest := by
  cases rest with
  | nil => rfl
  | cons ch rest =>
    have hne : ch ≠ '"' := by simpa using hnext
    simp [skipQuotedIdentifier, hne]

private theorem skipQuotedIdentifier_body (body : List Char) {rest : List Char} (hnext : rest.head? ≠ some '"') :
    skipQuotedIdentifier (doubleQuotes '"' body ++ '"' :: rest) = rest := by
  induction body with
  | nil => exact skipQuotedIdentifier_closes hnext
  | cons ch body ih =>
    by_cases hquote : ch = '"'
    · subst hquote
      simpa [doubleQuotes, skipQuotedIdentifier] using ih
    · simpa [doubleQuotes, hquote, skipQuotedIdentifier] using ih

private theorem skipLineComment_body {body : List Char} (hbody : '\n' ∉ body) (rest : List Char) :
    skipLineComment (body ++ '\n' :: rest) = '\n' :: rest := by
  unfold skipLineComment
  rw [List.dropWhile_append_of_pos (by
    intro ch hch
    have hne : ch ≠ '\n' := fun h => hbody (h ▸ hch)
    simpa using hne)]
  rfl

private theorem skipBlockComment_other {ch : Char} {text : List Char} (hopens : ch = '/' → text.head? ≠ some '*')
    (hcloses : ch = '*' → text.head? ≠ some '/') (depth : Nat) :
    skipBlockComment (depth + 1) (ch :: text) = skipBlockComment (depth + 1) text := by
  rw [skipBlockComment.eq_5]
  · rintro rest rfl rfl
    exact hopens rfl rfl
  · rintro rest rfl rfl
    exact hcloses rfl rfl

theorem head?_append_of_ne_nil {a : List Char} (ha : a ≠ []) (b : List Char) : (a ++ b).head? = a.head? := by
  cases a with
  | nil => exact absurd rfl ha
  | cons ch a => rfl

private theorem skipBlockComment_body {body : List Char} (h : BlockBody body) (depth : Nat) (rest : List Char) :
    skipBlockComment (depth + 1) (body ++ '*' :: '/' :: rest) = skipBlockComment depth rest := by
  induction h generalizing depth rest with
  | nil => simp [skipBlockComment]
  | @char ch body hbody hopens hcloses ih =>
    have hhead : (body ++ '*' :: '/' :: rest).head? = (body ++ ['*', '/']).head? := by
      rw [← head?_append_of_ne_nil (a := body ++ ['*', '/']) (by simp) rest]
      simp
    rw [List.cons_append, skipBlockComment_other (hhead ▸ hopens) (hhead ▸ hcloses)]
    exact ih depth rest
  | @nested inner body hinner hbody ihinner ihbody =>
    have hopen : skipBlockComment (depth + 1) ('/' :: '*' :: (inner ++ '*' :: '/' :: (body ++ '*' :: '/' :: rest))) =
        skipBlockComment (depth + 2) (inner ++ '*' :: '/' :: (body ++ '*' :: '/' :: rest)) := by
      simp [skipBlockComment]
    simp only [List.cons_append, List.append_assoc]
    rw [hopen, ihinner, ihbody]

private theorem afterIndexOf_here {closer text rest : List Char} (hclose : closer ≠ [])
    (htext : text = closer ++ rest) :
    afterIndexOf closer text = rest := by
  subst htext
  cases closer with
  | nil => exact absurd rfl hclose
  | cons ch closer =>
    have hpre : (ch :: closer).isPrefixOf (ch :: (closer ++ rest)) = true := by
      rw [List.isPrefixOf_iff_prefix]
      exact List.prefix_append (ch :: closer) rest
    rw [List.cons_append, afterIndexOf, if_pos hpre]
    exact List.drop_left' rfl

/-- The first delimiter behind the opening one ends the body. -/
private theorem afterIndexOf_body {tag body : List Char} (h : Closes tag body) (rest : List Char) :
    afterIndexOf (delimiter tag) (body ++ (delimiter tag ++ rest)) = rest := by
  induction body with
  | nil => exact afterIndexOf_here (by simp [delimiter]) rfl
  | cons ch body ih =>
    have hnot : ¬(delimiter tag).isPrefixOf (ch :: (body ++ (delimiter tag ++ rest))) = true := by
      rw [List.isPrefixOf_iff_prefix]
      intro hpre
      refine h 0 (by simp) ?_
      rw [List.drop_zero]
      have hshort : ch :: body ++ delimiter tag <+: ch :: (body ++ (delimiter tag ++ rest)) := by
        rw [← List.append_assoc]
        exact List.prefix_append (ch :: body ++ delimiter tag) rest
      refine List.prefix_of_prefix_length_le hpre hshort ?_
      simp only [List.length_cons, List.length_append]
      omega
    have htail : Closes tag body := fun n hn => h (n + 1) (Nat.succ_lt_succ hn)
    rw [List.cons_append, afterIndexOf, if_neg hnot]
    exact ih htail

private theorem takeWhile_tag {tag : List Char} (htag : ∀ ch ∈ tag, isTagChar ch = true) (rest : List Char) :
    (tag ++ '$' :: rest).takeWhile isTagChar = tag := by
  rw [List.takeWhile_append_of_pos htag]
  simp [isTagChar, isAsciiLetter, isAsciiDigit]

private theorem dollarTag_tag {tag : List Char} (h : IsTag tag) (rest : List Char) :
    dollarTag (tag ++ '$' :: rest) = some tag := by
  have htake := takeWhile_tag h.1 rest
  have hdigit : tag.head?.any isAsciiDigit = false := by
    cases htag : tag.head? with
    | none => rfl
    | some ch => exact h.2 ch htag
  simp [dollarTag, htake, hdigit]

/-! ### Turns of the scanner -/

private theorem length_skipLineComment (text : List Char) : (skipLineComment text).length ≤ text.length :=
  (List.dropWhile_sublist _).length_le

private theorem length_skipBlockComment (depth : Nat) (text : List Char) :
    (skipBlockComment depth text).length ≤ text.length := by
  fun_induction skipBlockComment depth text with
  | case1 => exact Nat.le_refl _
  | case2 => exact Nat.le_refl _
  | case3 depth text ih => simp only [List.length_cons]; omega
  | case4 depth text ih => simp only [List.length_cons]; omega
  | case5 depth ch text _ _ ih => simp only [List.length_cons]; omega

private theorem length_skipLiteral (escaping : Bool) (text : List Char) :
    (skipLiteral escaping text).length ≤ text.length := by
  fun_induction skipLiteral escaping text with
  | case1 => exact Nat.le_refl _
  | case2 text ih => simp only [List.length_cons]; omega
  | case3 text => simp
  | case4 => simp
  | case5 ch text hescape ih => simp only [List.length_cons]; omega
  | case6 ch text hescape ih => simp only [List.length_cons] at ih ⊢; omega
  | case7 ch text _ _ _ _ ih => simp only [List.length_cons]; omega

private theorem length_skipQuotedIdentifier (text : List Char) : (skipQuotedIdentifier text).length ≤ text.length := by
  fun_induction skipQuotedIdentifier text with
  | case1 => exact Nat.le_refl _
  | case2 text ih => simp only [List.length_cons]; omega
  | case3 text => simp
  | case4 ch text _ _ ih => simp only [List.length_cons]; omega

private theorem length_afterIndexOf (closer text : List Char) : (afterIndexOf closer text).length ≤ text.length := by
  induction text with
  | nil => exact Nat.le_refl _
  | cons ch text ih =>
    unfold afterIndexOf
    split
    · rw [List.length_drop]
      omega
    · rw [List.length_cons]
      omega

private theorem length_stripRegion (prev : Option Char) (ch : Char) (text : List Char) :
    (stripRegion prev ch text).2.length ≤ text.length := by
  unfold stripRegion
  split
  · exact length_skipLineComment text
  split
  · exact Nat.le_trans (length_skipBlockComment 1 _) (by simp)
  split
  · exact length_skipLiteral false text
  split
  · exact Nat.le_trans (length_skipLiteral true _) (by simp)
  split
  · exact length_skipQuotedIdentifier text
  split
  · split
    · exact Nat.le_trans (length_afterIndexOf _ _) (by simp)
    · exact Nat.le_refl _
  · exact Nat.le_refl _

/-- More fuel changes nothing. -/
private theorem stripFrom_fuel {fuel : Nat} {text : List Char} (hfuel : text.length ≤ fuel) (prev : Option Char) :
    stripFrom fuel prev text = stripFrom text.length prev text := by
  induction fuel using Nat.strongRecOn generalizing prev text with
  | ind fuel ih =>
    cases text with
    | nil => cases fuel <;> rfl
    | cons ch text =>
      cases fuel with
      | zero => cases hfuel
      | succ fuel =>
        have hregion := length_stripRegion prev ch text
        rw [List.length_cons] at hfuel
        rw [List.length_cons, stripFrom, stripFrom, ih fuel (Nat.lt_succ_self _) (by omega),
          ih text.length (by omega) hregion]

/-- The scanner behind the character `prev`. -/
def strip (prev : Option Char) (text : List Char) : List Char := stripFrom text.length prev text

/-- A turn takes one region. -/
private theorem strip_region {prev : Option Char} {ch out : Char} {text rest : List Char} (consumed : List Char)
    (hregion : stripRegion prev ch text = (out, rest)) (htext : ch :: text = consumed ++ rest) :
    strip prev (ch :: text) = out :: strip consumed.getLast? rest := by
  have hlength := length_stripRegion prev ch text
  rw [hregion] at hlength
  have hbefore : charBefore (ch :: text) rest = consumed.getLast? := by
    rw [charBefore, htext, List.length_append, Nat.add_sub_cancel, List.take_left]
  unfold strip
  rw [List.length_cons, stripFrom, hregion]
  dsimp only
  rw [hbefore, stripFrom_fuel hlength]

/-- A character that starts nothing is copied. -/
private theorem strip_copy {prev : Option Char} {ch : Char} {text : List Char}
    (h : stripRegion prev ch text = (ch, text)) :
    strip prev (ch :: text) = ch :: strip (some ch) text :=
  strip_region [ch] h rfl

private theorem stripRegion_copy {prev : Option Char} {ch : Char} {text : List Char}
    (hline : ch = '-' → text.head? ≠ some '-')
    (hblock : ch = '/' → text.head? ≠ some '*') (hquote : ch ≠ '\'')
    (hescape : ch = 'e' ∨ ch = 'E' → text.head? = some '\'' → isIdentifierGlue prev = true) (hident : ch ≠ '"')
    (hdollar : ch = '$' → isIdentifierGlue prev = true) : stripRegion prev ch text = (ch, text) := by
  unfold stripRegion
  rw [if_neg (fun h => hline h.1 h.2), if_neg (fun h => hblock h.1 h.2), if_neg hquote,
    if_neg (fun h => by simp [hescape h.1 h.2.1] at h), if_neg hident, if_neg (fun h => by simp [hdollar h.1] at h)]

/-! ### Words -/

theorem glue_of_wordChar {ch : Char} (h : isWordChar ch = true) : isIdentifierGlue (some ch) = true := by
  unfold isWordChar isWordHead at h
  unfold isIdentifierGlue
  simp only [Bool.or_eq_true, Bool.and_eq_true] at h ⊢
  tauto

theorem wordChar_of_head {ch : Char} (h : isWordHead ch = true) : isWordChar ch = true := by
  simp [isWordChar, h]

theorem wordChar_of_digit {ch : Char} (h : isAsciiDigit ch = true) : isWordChar ch = true := by
  simp [isWordChar, h]

theorem ne_of_wordChar {ch other : Char} (h : isWordChar ch = true) (hother : isWordChar other = false) :
    ch ≠ other := by
  rintro rfl
  rw [h] at hother
  cases hother

/-- A word is copied, an `e` before a quote only where it is glued to what is before it. -/
private theorem strip_word {prev : Option Char} {head : Char} {tail rest : List Char}
    (hword : ∀ ch ∈ head :: tail, isWordChar ch = true) (hdollar : head = '$' → isIdentifierGlue prev = true)
    (hescape : tail = [] → head = 'e' ∨ head = 'E' → rest.head? = some '\'' → isIdentifierGlue prev = true) :
    strip prev (head :: (tail ++ rest)) = head :: (tail ++ strip (head :: tail).getLast? rest) := by
  induction tail generalizing prev head with
  | nil =>
    have hchar := hword head List.mem_cons_self
    refine strip_copy (stripRegion_copy ?_ ?_ ?_ (hescape rfl) ?_ hdollar)
    · exact fun h => absurd h (ne_of_wordChar hchar (by decide))
    · exact fun h => absurd h (ne_of_wordChar hchar (by decide))
    · exact ne_of_wordChar hchar (by decide)
    · exact ne_of_wordChar hchar (by decide)
  | cons next tail ih =>
    have hchar := hword head List.mem_cons_self
    have hnext := hword next (List.mem_cons_of_mem _ List.mem_cons_self)
    have hcopy : stripRegion prev head (next :: tail ++ rest) = (head, next :: tail ++ rest) := by
      refine stripRegion_copy ?_ ?_ ?_ ?_ ?_ hdollar
      · exact fun h => absurd h (ne_of_wordChar hchar (by decide))
      · exact fun h => absurd h (ne_of_wordChar hchar (by decide))
      · exact ne_of_wordChar hchar (by decide)
      · intro _ hquote
        exact absurd (Option.some.inj hquote) (ne_of_wordChar hnext (by decide))
      · exact ne_of_wordChar hchar (by decide)
    have hglue := glue_of_wordChar hchar
    rw [strip_copy hcopy, List.cons_append, ih (fun ch hch => hword ch (List.mem_cons_of_mem _ hch)) (fun _ => hglue)
      (fun _ _ _ => hglue)]
    rfl

/-! ### Pieces -/

/-- What the scanner pushes for a token. -/
def Token.image : Token → List Char
  | word text => text
  | number text => text
  | punctuation ch => [ch]
  | _ => ['?']

def Trivia.image : Trivia → List Char
  | space ch => [ch]
  | lineComment _ => [' ', '\n']
  | blockComment _ => [' ']

def Piece.image : Piece → List Char
  | token t => t.image
  | trivia t => t.image

def Statement.image (s : Statement) : List Char := s.flatMap Piece.image

private theorem strip_token {prev : Option Char} {t : Token} {rest : List Char} (h : t.Fits prev rest.head?) :
    strip prev (t.text ++ rest) = t.image ++ strip t.text.getLast? rest := by
  cases t with
  | word text =>
    obtain ⟨⟨head, tail, rfl, hhead, htail⟩, -, hescape⟩ := h
    have hword : ∀ ch ∈ head :: tail, isWordChar ch = true := by
      intro ch hch
      rcases List.mem_cons.1 hch with rfl | hch
      · exact wordChar_of_head hhead
      · exact htail ch hch
    refine strip_word hword ?_ ?_
    · rintro rfl
      exact absurd hhead (by decide)
    · rintro rfl (rfl | rfl) hquote
      · exact absurd rfl (hescape hquote).1
      · exact absurd rfl (hescape hquote).2
  | number text =>
    obtain ⟨hne, hdigits, -⟩ := h
    obtain ⟨head, tail, rfl⟩ := List.exists_cons_of_ne_nil hne
    have hhead := hdigits head List.mem_cons_self
    refine strip_word (fun ch hch => wordChar_of_digit (hdigits ch hch)) ?_ ?_
    · rintro rfl
      exact absurd hhead (by decide)
    · rintro - (rfl | rfl)
      · exact absurd hhead (by decide)
      · exact absurd hhead (by decide)
  | punctuation ch =>
    obtain ⟨hpunct, hline, hblock⟩ := h
    have hne : ∀ other, isPunctuation other = false → ch ≠ other := by
      rintro other hother rfl
      rw [hpunct] at hother
      cases hother
    refine strip_copy (stripRegion_copy hline hblock (hne _ (by decide)) ?_ (hne _ (by decide)) ?_)
    · rintro (rfl | rfl)
      · exact absurd hpunct (by decide)
      · exact absurd hpunct (by decide)
    · rintro rfl
      exact absurd hpunct (by decide)
  | quotedIdentifier body =>
    refine strip_region ('"' :: (doubleQuotes '"' body ++ ['"'])) ?_ ?_
    · have hskip := skipQuotedIdentifier_body body h
      simpa [stripRegion] using hskip
    · simp
  | standardString body =>
    refine strip_region ('\'' :: (doubleQuotes '\'' body ++ ['\''])) ?_ ?_
    · have hskip := skipLiteral_standard body h
      simpa [stripRegion] using hskip
    · simp
  | escapeString mark body =>
    obtain ⟨hmark, hbody, hglue, hnext⟩ := h
    have hskip := skipLiteral_escape hbody hnext
    refine strip_region (mark :: '\'' :: (body.flatMap EscapeUnit.text ++ ['\''])) ?_ ?_
    · rcases hmark with rfl | rfl
      · simpa [stripRegion, hglue] using hskip
      · simpa [stripRegion, hglue] using hskip
    · simp
  | dollarQuote tag body =>
    obtain ⟨htag, hcloses, hglue⟩ := h
    have hfound := dollarTag_tag htag (body ++ (delimiter tag ++ rest))
    have hskip := afterIndexOf_body hcloses rest
    have htext : (Token.dollarQuote tag body).text ++ rest =
        '$' :: (tag ++ '$' :: (body ++ (delimiter tag ++ rest))) := by
      simp [Token.text, delimiter]
    have hdrop : (tag ++ '$' :: (body ++ (delimiter tag ++ rest))).drop (tag.length + 1) =
        body ++ (delimiter tag ++ rest) := by
      rw [← List.drop_drop, List.drop_left]
      rfl
    rw [htext]
    refine strip_region (Token.dollarQuote tag body).text ?_ htext.symm
    simp only [stripRegion, hglue, hfound, hdrop]
    exact congrArg (Prod.mk '?') hskip

private theorem strip_trivia {t : Trivia} (h : t.Fits) (prev : Option Char) (rest : List Char) :
    strip prev (t.text ++ rest) = t.image ++ strip t.text.getLast? rest := by
  cases t with
  | space ch =>
    obtain ⟨hspace, hhigh⟩ := h
    have hne : ∀ other, isJsSpace other = false → ch ≠ other := by
      rintro other hother rfl
      rw [hspace] at hother
      cases hother
    refine strip_copy (stripRegion_copy ?_ ?_ (hne _ (by decide)) ?_ (hne _ (by decide)) ?_)
    · exact fun h => absurd h (hne _ (by decide))
    · exact fun h => absurd h (hne _ (by decide))
    · rintro (h | h)
      · exact absurd h (hne _ (by decide))
      · exact absurd h (hne _ (by decide))
    · exact fun h => absurd h (hne _ (by decide))
  | lineComment body =>
    have hbody : '\n' ∉ '-' :: body := by simpa [Trivia.Fits] using h
    have hskip := skipLineComment_body hbody rest
    have hregion : stripRegion prev '-' ('-' :: (body ++ '\n' :: rest)) = (' ', '\n' :: rest) := by
      simpa [stripRegion] using hskip
    have htext : (Trivia.lineComment body).text ++ rest = '-' :: ('-' :: (body ++ '\n' :: rest)) := by
      simp [Trivia.text]
    rw [htext, strip_region ('-' :: '-' :: body) hregion rfl]
    have hnewline : stripRegion ('-' :: '-' :: body).getLast? '\n' rest = ('\n', rest) := by
      refine stripRegion_copy ?_ ?_ (by decide) ?_ (by decide) ?_
      · exact fun h => absurd h (by decide)
      · exact fun h => absurd h (by decide)
      · exact fun h => absurd h (by decide)
      · exact fun h => absurd h (by decide)
    rw [strip_copy hnewline]
    simp [Trivia.image, Trivia.text, List.getLast?_cons]
  | blockComment body =>
    have hskip := skipBlockComment_body h 0 rest
    refine strip_region (Trivia.blockComment body).text ?_ ?_
    · simpa [stripRegion, skipBlockComment] using hskip
    · simp [Trivia.text]

private theorem strip_piece {prev : Option Char} {p : Piece} {rest : List Char} (h : p.Fits prev rest.head?) :
    strip prev (p.text ++ rest) = p.image ++ strip p.text.getLast? rest := by
  cases p with
  | token t => exact strip_token h
  | trivia t => exact strip_trivia h prev rest

/-! ### Statements -/

/-- What ends a statement ends its last token. -/
private theorem Piece.Fits.end {prev : Option Char} {p : Piece} (h : p.Fits prev none) : p.Fits prev (some ';') := by
  cases p with
  | trivia t => exact h
  | token t =>
    cases t with
    | word text =>
      refine ⟨h.1, ?_, by simp⟩
      rintro ch ⟨⟩
      decide
    | number text =>
      refine ⟨h.1, h.2.1, ?_⟩
      rintro ch ⟨⟩
      decide
    | punctuation ch => exact ⟨h.1, by simp, by simp⟩
    | quotedIdentifier body => exact (by decide : some ';' ≠ some '"')
    | standardString body => exact (by decide : some ';' ≠ some '\'')
    | escapeString mark body => exact ⟨h.1, h.2.1, h.2.2.1, by decide⟩
    | dollarQuote tag body => exact h

/-- The scanner on a statement, to the end of the text or to the `;` behind it. -/
theorem strip_statement {s : Statement} {prev : Option Char} (h : s.Fits prev) {rest : List Char}
    (hrest : rest = [] ∨ rest.head? = some ';') :
    ∃ last, strip prev (s.text ++ rest) = s.image ++ strip last rest := by
  induction s generalizing prev with
  | nil => exact ⟨prev, rfl⟩
  | cons p s ih =>
    obtain ⟨hpiece, hrestFits⟩ := h
    obtain ⟨last, hlast⟩ := ih hrestFits
    have hfits : p.Fits prev (Statement.text s ++ rest).head? := by
      cases htext : Statement.text s with
      | cons ch text =>
        rw [htext] at hpiece
        exact hpiece
      | nil =>
        rw [htext] at hpiece
        rcases hrest with rfl | hsemi
        · exact hpiece
        · rw [List.nil_append, hsemi]
          exact hpiece.end
    refine ⟨last, ?_⟩
    have hcons : Statement.text (p :: s) ++ rest = p.text ++ (Statement.text s ++ rest) := by
      rw [Statement.text, List.flatMap_cons, List.append_assoc]
      rfl
    have himage : Statement.image (p :: s) = p.image ++ Statement.image s := List.flatMap_cons
    rw [hcons, strip_piece hfits, hlast, himage, List.append_assoc]

/-- Of what is before a piece only the glue counts. -/
private theorem Piece.Fits.glue {prev prev' next : Option Char} {p : Piece} (h : p.Fits prev next)
    (hglue : isIdentifierGlue prev' = isIdentifierGlue prev) : p.Fits prev' next := by
  cases p with
  | trivia t => exact h
  | token t =>
    cases t with
    | escapeString mark body => exact ⟨h.1, h.2.1, hglue.trans h.2.2.1, h.2.2.2⟩
    | dollarQuote tag body => exact ⟨h.1, h.2.1, hglue.trans h.2.2⟩
    | _ => exact h

private theorem Statement.Fits.glue {prev prev' : Option Char} {s : Statement} (h : s.Fits prev)
    (hglue : isIdentifierGlue prev' = isIdentifierGlue prev) : s.Fits prev' := by
  cases s with
  | nil => trivial
  | cons p s => exact ⟨h.1.glue hglue, h.2⟩

/-- The scanner on a composed text: it strips every statement for itself. -/
theorem strip_composed {ss : List Statement} (h : Composed ss) {prev : Option Char}
    (hprev : isIdentifierGlue prev = false) :
    strip prev (composedText ss) = [';'].intercalate (ss.map Statement.image) := by
  induction ss generalizing prev with
  | nil => rfl
  | cons s ss ih =>
    have hfirst : s.Fits prev := (h s List.mem_cons_self).glue hprev
    have hlater : Composed ss := fun s' hs' => h s' (List.mem_cons_of_mem _ hs')
    cases ss with
    | nil =>
      obtain ⟨last, hlast⟩ := strip_statement hfirst (.inl rfl)
      rw [List.append_nil] at hlast
      simpa [composedText, List.intercalate_singleton] using hlast.trans (List.append_nil _)
    | cons s' ss =>
      have hsemicolon : (';' :: composedText (s' :: ss)).head? = some ';' := rfl
      obtain ⟨last, hlast⟩ := strip_statement hfirst (.inr hsemicolon)
      have hsemi : stripRegion last ';' (composedText (s' :: ss)) = (';', composedText (s' :: ss)) := by
        refine stripRegion_copy ?_ ?_ (by decide) ?_ (by decide) ?_
        · exact fun h => absurd h (by decide)
        · exact fun h => absurd h (by decide)
        · exact fun h => absurd h (by decide)
        · exact fun h => absurd h (by decide)
      have htext : composedText (s :: s' :: ss) = s.text ++ ';' :: composedText (s' :: ss) := by
        simp [composedText, List.intercalate_cons_cons]
      have himage : [';'].intercalate ((s :: s' :: ss).map Statement.image) =
          s.image ++ ';' :: [';'].intercalate ((s' :: ss).map Statement.image) := by
        simp [List.intercalate_cons_cons]
      rw [htext, hlast, strip_copy hsemi, ih hlater rfl, himage]

end PgliteBridge.CopyIn
