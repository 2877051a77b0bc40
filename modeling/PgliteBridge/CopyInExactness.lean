import PgliteBridge.CopyInCases

/-!
# Exactness

The verdict goes by the words that are seen, which is more than the tokens: a keyword behind a `$` or behind a letter
beyond ASCII is seen as well.  Nothing is missed (`reads_of_copyFromStdin`), and a plain statement is read as it is
written (`copyFromStdin_of_reads`).
-/

namespace PgliteBridge.CopyIn

/-! ### Words and tokens -/

private theorem words_eq (s : Statement) : s.words = s.tokens.flatMap Token.words := by
  induction s with
  | nil => rfl
  | cons p s ih =>
    have hwords : Statement.words (p :: s) = p.words ++ Statement.words s := List.flatMap_cons
    rw [hwords, ih]
    cases p with
    | token t =>
      have htokens : Statement.tokens (.token t :: s) = t :: Statement.tokens s := rfl
      rw [htokens, List.flatMap_cons]
      rfl
    | trivia t => rfl

private theorem toLowerCase_of_toLower {ch c : Char} (h : ch.toLower = c) (hc : isHighBit c = false) :
    toLowerCase ch = [c] := by
  have hne : ∀ n, 0x80 ≤ n → n < 0xd800 → ch.toNat ≠ n := by
    rintro n hlarge hsmall rfl
    have hsame : ch.toLower = ch := by
      unfold Char.toLower
      rw [dif_neg]
      rintro ⟨-, hle⟩
      have hbound := UInt32.le_iff_toNat_le.1 hle
      have hnat : ch.toNat = ch.val.toNat := rfl
      simp only [Char.reduceVal, UInt32.reduceToNat] at hbound
      omega
    rw [hsame] at h
    subst h
    simp only [isHighBit, decide_eq_false_iff_not] at hc
    omega
  unfold toLowerCase
  rw [if_neg (hne _ (by omega) (by omega)), if_neg (hne _ (by omega) (by omega)), h]

private theorem flatMap_toLowerCase {text keyword : List Char} (h : text.map Char.toLower = keyword)
    (hkeyword : (keyword.all fun ch => !isHighBit ch) = true) : text.flatMap toLowerCase = keyword := by
  subst h
  induction text with
  | nil => rfl
  | cons ch text ih =>
    simp only [List.map_cons, List.all_cons, Bool.and_eq_true, Bool.not_eq_true'] at hkeyword
    rw [List.flatMap_cons, List.map_cons, ih hkeyword.2, toLowerCase_of_toLower rfl hkeyword.1]
    rfl

/-- A keyword shows itself. -/
private theorem Token.words_of_is {keyword : String} {t : Token} (h : t.is keyword = true)
    (hkeyword : keyword ∈ ["copy", "from", "stdin"]) : t.words = [keyword.toList] := by
  cases t with
  | word text =>
    have htext : text.map Char.toLower = keyword.toList := by simpa [Token.is] using h
    simp only [Token.words, tokenize]
    simp only [List.mem_cons, List.not_mem_nil, or_false] at hkeyword
    rcases hkeyword with rfl | rfl | rfl
    · rw [flatMap_toLowerCase htext (by decide)]
      decide
    · rw [flatMap_toLowerCase htext (by decide)]
      decide
    · rw [flatMap_toLowerCase htext (by decide)]
      decide
  | _ => cases h

private theorem hasPair_cons {first second : List Char} {words : List (List Char)}
    (h : hasPair first second words = true)
    (w : List Char) : hasPair first second (w :: words) = true := by
  cases words with
  | nil => cases h
  | cons w' words =>
    rw [hasPair, h]
    exact Bool.or_true _

private theorem hasPair_append {first second : List Char} (a b : List (List Char)) :
    hasPair first second (a ++ first :: second :: b) = true := by
  induction a with
  | nil => simp [hasPair]
  | cons w a ih => exact hasPair_cons ih w

private theorem exists_of_hasPair {first second : List Char} {words : List (List Char)}
    (h : hasPair first second words = true) : ∃ a b, words = a ++ first :: second :: b := by
  fun_induction hasPair first second words with
  | case1 x y words ih =>
    rw [Bool.or_eq_true, Bool.and_eq_true, beq_iff_eq, beq_iff_eq] at h
    rcases h with ⟨rfl, rfl⟩ | h
    · exact ⟨[], words, rfl⟩
    · obtain ⟨a, b, hab⟩ := ih h
      exact ⟨x :: a, b, by rw [hab]; rfl⟩
  | case2 => cases h

private theorem fromStdin_cons {tokens : List Token} (h : fromStdin tokens = true) (t : Token) :
    fromStdin (t :: tokens) = true := by
  cases tokens with
  | nil => cases h
  | cons t' tokens =>
    rw [fromStdin, h]
    exact Bool.or_true _

private theorem fromStdin_iff {tokens : List Token} : fromStdin tokens = true ↔
    ∃ before a b after, tokens = before ++ a :: b :: after ∧ a.is "from" = true ∧ b.is "stdin" = true := by
  constructor
  · intro h
    fun_induction fromStdin tokens with
    | case1 x y tokens ih =>
      rw [Bool.or_eq_true, Bool.and_eq_true] at h
      rcases h with ⟨hx, hy⟩ | h
      · exact ⟨[], x, y, tokens, rfl, hx, hy⟩
      · obtain ⟨before, a, b, after, htokens, hab⟩ := ih h
        exact ⟨x :: before, a, b, after, by rw [htokens]; rfl, hab⟩
    | case2 => cases h
  · rintro ⟨before, a, b, after, rfl, ha, hb⟩
    induction before with
    | nil => simp [fromStdin, ha, hb]
    | cons x before ih => exact fromStdin_cons ih x

/-- Nothing that is a `COPY … FROM STDIN` by its tokens is read otherwise. -/
theorem reads_of_copyFromStdin {s : Statement} (h : isCopyFromStdin s.tokens = true) : readsCopyIn s.words = true := by
  rw [words_eq]
  cases htokens : s.tokens with
  | nil =>
    rw [htokens] at h
    cases h
  | cons first tokens =>
    rw [htokens, isCopyFromStdin, Bool.and_eq_true] at h
    obtain ⟨before, a, b, after, rfl, ha, hb⟩ := fromStdin_iff.1 h.2
    have hfirst := Token.words_of_is h.1 (by simp)
    have hfrom := Token.words_of_is ha (by simp)
    have hstdin := Token.words_of_is hb (by simp)
    simp only [List.flatMap_cons, List.flatMap_append, hfirst, hfrom, hstdin, List.singleton_append, readsCopyIn,
      hasPair_append, beq_self_eq_true, Bool.and_true]

/-- The three keywords are seen only where a token is one, the first token shows a word, and nothing without a word
stands between `FROM` and `STDIN`. -/
structure Statement.Plain (s : Statement) : Prop where
  keywords : ∀ t ∈ s.tokens, ∀ keyword ∈ ["copy", "from", "stdin"], keyword.toList ∈ t.words → t.is keyword = true
  first : ∀ t ∈ s.tokens.head?, t.words ≠ []
  gap : ∀ before a mid b after, s.tokens = before ++ a :: (mid ++ b :: after) → a.is "from" = true →
    b.is "stdin" = true → (∀ t ∈ mid, t.words = []) → mid = []

section Split

variable {α β : Type} {f : α → List β} {l : List α} {b : β}

/-- The first element that shows something. -/
private theorem flatMap_eq_cons {rest : List β} (h : l.flatMap f = b :: rest) :
    ∃ mid a after v, l = mid ++ a :: after ∧ (∀ m ∈ mid, f m = []) ∧ f a = b :: v := by
  induction l with
  | nil => cases h
  | cons a l ih =>
    rw [List.flatMap_cons] at h
    cases hfa : f a with
    | nil =>
      rw [hfa, List.nil_append] at h
      obtain ⟨mid, a', after, v, rfl, hmid, ha'⟩ := ih h
      refine ⟨a :: mid, a', after, v, rfl, ?_, ha'⟩
      intro m hm
      rcases List.mem_cons.1 hm with rfl | hm
      · exact hfa
      · exact hmid m hm
    | cons b' v =>
      rw [hfa, List.cons_append] at h
      exact ⟨[], a, l, v, rfl, fun m hm => by (cases hm), by rw [hfa, (List.cons.inj h).1]⟩

/-- Where an element of the image comes from. -/
private theorem flatMap_eq_append (before : List β) {rest : List β} (h : l.flatMap f = before ++ b :: rest) :
    ∃ l₁ a l₂ u v, l = l₁ ++ a :: l₂ ∧ f a = u ++ b :: v ∧ v ++ l₂.flatMap f = rest := by
  induction l generalizing before with
  | nil => simp at h
  | cons a l ih =>
    rw [List.flatMap_cons, List.append_eq_append_iff] at h
    rcases h with ⟨mid, rfl, hl⟩ | ⟨mid, hfa, hl⟩
    · obtain ⟨l₁, a', l₂, u, v, rfl, ha', hv⟩ := ih mid hl
      exact ⟨a :: l₁, a', l₂, u, v, rfl, ha', hv⟩
    · cases mid with
      | nil =>
        obtain ⟨l₁, a', l₂, u, v, rfl, ha', hv⟩ := ih [] hl.symm
        exact ⟨a :: l₁, a', l₂, u, v, rfl, ha', hv⟩
      | cons b' mid =>
        obtain ⟨rfl, rfl⟩ := List.cons.inj hl
        exact ⟨[], a, l, before, mid, rfl, hfa, rfl⟩

end Split

/-- What reads like a `COPY … FROM STDIN` is one, in a plain statement. -/
theorem copyFromStdin_of_reads {s : Statement} (h : s.Plain) (hreads : readsCopyIn s.words = true) :
    isCopyFromStdin s.tokens = true := by
  obtain ⟨hkeywords, hfirst, hgap⟩ := h
  rw [words_eq] at hreads
  have hshows : ∀ t ∈ s.tokens, ∀ keyword ∈ ["copy", "from", "stdin"], keyword.toList ∈ t.words →
      t.is keyword = true ∧ t.words = [keyword.toList] := by
    intro t ht keyword hkeyword hmem
    have his := hkeywords t ht keyword hkeyword hmem
    exact ⟨his, Token.words_of_is his hkeyword⟩
  generalize htokens : s.tokens = tokens at *
  cases tokens with
  | nil => cases hreads
  | cons first tokens =>
    obtain ⟨w, ws, hw⟩ := List.exists_cons_of_ne_nil (hfirst first rfl)
    rw [List.flatMap_cons, hw, List.cons_append, readsCopyIn, Bool.and_eq_true, beq_iff_eq] at hreads
    obtain ⟨rfl, hpair⟩ := hreads
    obtain ⟨hcopy, hcopyWords⟩ := hshows first List.mem_cons_self "copy" (by simp) (by simp [hw])
    have hnone : ws = [] := by
      rw [hw] at hcopyWords
      exact (List.cons.inj hcopyWords).2
    rw [hnone, List.nil_append] at hpair
    obtain ⟨x, y, hwords⟩ := exists_of_hasPair hpair
    obtain ⟨l₁, a, l₂, u, v, rfl, ha, hrest⟩ := flatMap_eq_append x hwords
    obtain ⟨hfrom, hfromWords⟩ := hshows a (by simp) "from" (by simp) (by simp [ha])
    have hv : v = [] := by
      have hlength := congrArg List.length (ha.symm.trans hfromWords)
      simp only [List.length_append, List.length_cons, List.length_nil] at hlength
      exact List.eq_nil_of_length_eq_zero (by omega)
    rw [hv, List.nil_append] at hrest
    obtain ⟨mid, b, after, v', rfl, hmid, hb⟩ := flatMap_eq_cons hrest
    obtain ⟨hstdin, -⟩ := hshows b (by simp) "stdin" (by simp) (by simp [hb])
    have hnil := hgap (first :: l₁) a mid b after rfl hfrom hstdin hmid
    rw [isCopyFromStdin, hcopy, Bool.true_and, fromStdin_iff]
    exact ⟨l₁, a, b, after, by rw [hnil]; rfl, hfrom, hstdin⟩

/-! ### Exactness -/

/-- A verdict depends on which statements are empty and which are copies in. -/
private theorem expectedVerdict_congr {c c' : Statement → Bool} {ss ss' : List Statement}
    (h : ss.map (fun s => (s.tokens.isEmpty, c s)) = ss'.map (fun s => (s.tokens.isEmpty, c' s))) :
    expectedVerdict c ss = expectedVerdict c' ss' := by
  have hany : ∀ (c : Statement → Bool) (ss : List Statement), (ss.filter fun s => !s.tokens.isEmpty).any c =
      ((ss.map fun s => (s.tokens.isEmpty, c s)).filter fun q => !q.1).any Prod.snd := by
    intro c ss
    rw [List.filter_map, List.any_map]
    rfl
  have hlength : ∀ (c : Statement → Bool) (ss : List Statement), (ss.filter fun s => !s.tokens.isEmpty).length =
      ((ss.map fun s => (s.tokens.isEmpty, c s)).filter fun q => !q.1).length := by
    intro c ss
    rw [List.filter_map, List.length_map]
    rfl
  simp only [expectedVerdict]
  rw [hany c ss, hlength c ss, h, ← hany c' ss', ← hlength c' ss']

private theorem verdict_ne_of_copyIn {c : Statement → Bool} {ss : List Statement} {s : Statement} (hs : s ∈ ss)
    (htokens : s.tokens ≠ []) (hc : c s = true) : expectedVerdict c ss ≠ .notCopyIn := by
  have hany : ((ss.filter fun s => !s.tokens.isEmpty).any c) = true := by
    refine List.any_eq_true.2 ⟨s, List.mem_filter.2 ⟨hs, ?_⟩, hc⟩
    simp [htokens]
  simp only [expectedVerdict, hany, Bool.not_true, Bool.false_eq_true, if_false]
  split <;> simp

/-- How exact the classifier is on a composed text. -/
structure Exact (ss : List Statement) : Prop where
  /-- The verdict is that of the words. -/
  byWords : sniffCopyIn (composedText ss) = expectedVerdict (fun s => readsCopyIn s.words) ss
  /-- No `COPY … FROM STDIN` is missed. -/
  closed : (∃ s ∈ ss, isCopyFromStdin s.tokens = true) → sniffCopyIn (composedText ss) ≠ .notCopyIn
  /-- Of plain statements the verdict is that of the tokens. -/
  byTokens : (∀ s ∈ ss, s.Plain) →
    sniffCopyIn (composedText ss) = expectedVerdict (fun s => isCopyFromStdin s.tokens) ss
  /-- Whitespace and comments make no difference. -/
  trivia : ∀ ss', Composed ss' → ss'.map Statement.tokens = ss.map Statement.tokens →
    sniffCopyIn (composedText ss') = sniffCopyIn (composedText ss)
  /-- Nor does letter case, where dollar quotes close as before. -/
  cases : ∀ f, CaseChange f → (∀ s ∈ ss, s.StillCloses f) →
    sniffCopyIn ((composedText ss).flatMap f) = sniffCopyIn (composedText ss)

/-- The verdict on composed statements is by their words, errs to the closed side only, and is blind to trivia. -/
theorem composed_exact (ss : List Statement) (h : Composed ss) : Exact ss where
  byWords := sniff_by_words h
  closed := by
    rintro ⟨s, hs, hcopy⟩
    rw [sniff_by_words h]
    refine verdict_ne_of_copyIn hs ?_ (reads_of_copyFromStdin hcopy)
    intro hempty
    rw [hempty] at hcopy
    cases hcopy
  byTokens := by
    intro hplain
    rw [sniff_by_words h]
    refine expectedVerdict_congr (List.map_congr_left fun s hs => ?_)
    have hreads : readsCopyIn s.words = isCopyFromStdin s.tokens := by
      rw [Bool.eq_iff_iff]
      exact ⟨copyFromStdin_of_reads (hplain s hs), reads_of_copyFromStdin⟩
    rw [hreads]
  trivia := by
    intro ss' h' htokens
    rw [sniff_by_words h, sniff_by_words h']
    refine expectedVerdict_congr ?_
    have hpair : ∀ s : Statement, (s.tokens.isEmpty, readsCopyIn s.words) =
        (s.tokens.isEmpty, readsCopyIn (s.tokens.flatMap Token.words)) := fun s => by rw [words_eq]
    have hmap := congrArg (List.map fun tokens : List Token =>
      (tokens.isEmpty, readsCopyIn (tokens.flatMap Token.words))) htokens
    simpa only [List.map_map, Function.comp_def, hpair] using hmap
  cases := by
    intro f hf hcloses
    have hrecase : ∀ s ∈ ss, (s.recase f).Fits none ∧ (s.recase f).text = s.text.flatMap f :=
      fun s hs => (h s hs).recase hf (hcloses s hs) (.inl rfl)
    have hcomposed : Composed (ss.map (Statement.recase f)) := by
      intro s' hs'
      obtain ⟨s, hs, rfl⟩ := List.mem_map.1 hs'
      exact (hrecase s hs).1
    rw [← composedText_recase hf fun s hs => (hrecase s hs).2, sniff_by_words hcomposed, sniff_by_words h]
    refine expectedVerdict_congr ?_
    rw [List.map_map]
    refine List.map_congr_left fun s _ => ?_
    rw [Function.comp_apply, Statement.words_recase hf, Statement.tokens_recase, List.isEmpty_map]

/-- A word in front of no quote. -/
private theorem Token.fits_word {next : Option Char} (head : Char) (tail : List Char)
    (h : (isWordHead head && tail.all isWordChar && next.all fun ch => !isWordChar ch && ch != '\'') = true) :
    (word (head :: tail)).Fits none next := by
  simp only [Bool.and_eq_true] at h
  obtain ⟨⟨hhead, htail⟩, hnext⟩ := h
  refine ⟨⟨head, tail, rfl, hhead, List.all_eq_true.1 htail⟩, ?_, ?_⟩
  · rintro ch rfl
    simp only [Option.all_some, Bool.and_eq_true, Bool.not_eq_true'] at hnext
    exact hnext.1
  · rintro rfl
    cases hnext

private theorem Token.fits_dollarQuote {prev : Option Char} {tag body : List Char} (hcloses : Closes tag body)
    (h : (tag.all isTagChar && !tag.head?.any isAsciiDigit && !isIdentifierGlue prev) = true) :
    (dollarQuote tag body).Fits prev none := by
  simp only [Bool.and_eq_true, Bool.not_eq_true'] at h
  refine ⟨⟨List.all_eq_true.1 h.1.1, ?_⟩, hcloses, h.2⟩
  intro ch hch
  rw [Option.mem_def.1 hch] at h
  exact h.1.2

/-- `COPY t FROM /* ; */ stdin; SELECT $q$;$q$`. -/
def copyThenQuote : List Statement :=
  [[.token (.word "COPY".toList), .trivia (.space ' '), .token (.word "t".toList), .trivia (.space ' '),
      .token (.word "FROM".toList), .trivia (.blockComment " ; ".toList), .token (.word "stdin".toList)],
    [.trivia (.space ' '), .token (.word "SELECT".toList), .trivia (.space ' '),
      .token (.dollarQuote "q".toList ";".toList)]]

theorem composed_exact_copyThenQuote :
    Exact copyThenQuote ∧ sniffCopyIn (composedText copyThenQuote) = .rejectMulti := by
  have hblock : BlockBody " ; ".toList :=
    .char (.char (.char .nil (by decide) (by decide)) (by decide) (by decide)) (by decide) (by decide)
  refine ⟨composed_exact copyThenQuote ?_, by decide⟩
  intro s hs
  simp only [copyThenQuote, List.mem_cons, List.not_mem_nil, or_false] at hs
  rcases hs with rfl | rfl
  · exact ⟨Token.fits_word 'C' _ rfl, ⟨rfl, rfl⟩, Token.fits_word 't' _ rfl, ⟨rfl, rfl⟩, Token.fits_word 'F' _ rfl,
      hblock, Token.fits_word 's' _ rfl, trivial⟩
  · exact ⟨⟨rfl, rfl⟩, Token.fits_word 'S' _ rfl, ⟨rfl, rfl⟩, Token.fits_dollarQuote (by unfold Closes; decide) rfl,
      trivial⟩

/-! ### What is seen besides the tokens -/

/-- `COPY a$from STDIN`. -/
def hiddenFrom : List Statement :=
  [[.token (.word "COPY".toList), .trivia (.space ' '), .token (.word "a$from".toList), .trivia (.space ' '),
    .token (.word "STDIN".toList)]]

/-- `$q$$Q$;COPY t FROM STDIN$q$`. -/
def hiddenTag : List Statement := [[.token (.dollarQuote "q".toList "$Q$;COPY t FROM STDIN".toList)]]

private theorem caseChange_toUpper : CaseChange fun ch => [ch.toUpper] := by
  have hletters : ∀ n < 26, isAsciiLetter (Char.ofNat (97 + n)) = true ∧
      isAsciiLetter (Char.ofNat (97 + n)).toUpper = true ∧
      (Char.ofNat (97 + n)).toUpper.toLower = (Char.ofNat (97 + n)).toLower := by decide
  intro ch
  by_cases hlower : 'a'.toNat ≤ ch.toNat ∧ ch.toNat ≤ 'z'.toNat
  · obtain ⟨hge, hle⟩ := hlower
    simp only [Char.reduceToNat] at hge hle
    have hch := hletters (ch.toNat - 97) (by omega)
    rw [Nat.add_sub_cancel' hge, Char.ofNat_toNat] at hch
    exact .inr (.inl ⟨hch.1, _, rfl, hch.2⟩)
  · left
    have hsame : ch.toUpper = ch := by
      unfold Char.toUpper
      rw [dif_neg]
      rintro ⟨hge, hle⟩
      exact hlower ⟨UInt32.le_iff_toNat_le.1 hge, UInt32.le_iff_toNat_le.1 hle⟩
    exact congrArg (fun c => [c]) hsame

/-- A keyword behind a `$` counts, a tag in the other case closes a quote, and a letter beyond ASCII can have a
keyword's letter for its other case. -/
theorem composed_inexact :
    (¬∀ ss, Composed ss →
      sniffCopyIn (composedText ss) = expectedVerdict (fun s => isCopyFromStdin s.tokens) ss) ∧
    (¬∀ ss f, Composed ss → CaseChange f →
      sniffCopyIn ((composedText ss).flatMap f) = sniffCopyIn (composedText ss)) ∧
    sniffCopyIn "copy t from \u017ftdin".toList = .notCopyIn ∧
    sniffCopyIn "COPY T FROM STDIN".toList = .capture := by
  refine ⟨fun hall => ?_, fun hall => ?_, by decide, by decide⟩
  · have hcomposed : Composed hiddenFrom := by
      intro s hs
      rw [List.mem_singleton.1 hs]
      exact ⟨Token.fits_word 'C' _ rfl, ⟨rfl, rfl⟩, Token.fits_word 'a' _ rfl, ⟨rfl, rfl⟩, Token.fits_word 'S' _ rfl,
        trivial⟩
    exact absurd (hall hiddenFrom hcomposed) (by decide)
  · have hcomposed : Composed hiddenTag := by
      intro s hs
      rw [List.mem_singleton.1 hs]
      exact ⟨Token.fits_dollarQuote (by unfold Closes; decide) rfl, trivial⟩
    exact absurd (hall hiddenTag _ hcomposed caseChange_toUpper) (by decide)

end PgliteBridge.CopyIn
