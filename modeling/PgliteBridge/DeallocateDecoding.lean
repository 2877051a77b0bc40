import PgliteBridge.DeallocateGrammar

/-!
# The decoder accepts exactly its grammar

A text has at most one derivation (`text_injective`), and `decodeStatementCacheInvalidation` accepts it exactly when it
has one and gives what that denotes (`decoder_exact`).
-/

namespace PgliteBridge.Deallocate

open Lexing

/-! ### A text has one derivation -/

private theorem pieces_injective {pieces pieces' : List Piece}
    (h : pieces.flatMap Piece.text ++ [quote] = pieces'.flatMap Piece.text ++ [quote]) : pieces = pieces' := by
  induction pieces generalizing pieces' with
  | nil =>
    rcases pieces' with _ | ⟨_ | _, pieces'⟩
    · rfl
    · rename_i c hc
      exact (hc (List.cons.inj h).1.symm).elim
    · have htail := (List.cons.inj h).2
      cases htail
  | cons piece pieces ih =>
    cases piece with
    | unit c hc =>
      rcases pieces' with _ | ⟨_ | _, pieces'⟩
      · exact (hc (List.cons.inj h).1).elim
      · obtain ⟨rfl, htail⟩ := List.cons.inj h
        rw [ih htail]
      · exact (hc (List.cons.inj h).1).elim
    | doubled =>
      rcases pieces' with _ | ⟨_ | _, pieces'⟩
      · have htail := (List.cons.inj h).2
        cases htail
      · rename_i c hc
        exact (hc (List.cons.inj h).1.symm).elim
      · have htail := (List.cons.inj (List.cons.inj h).2).2
        rw [ih htail]

theorem Trailer.text_injective {trailer trailer' : Trailer} (h : trailer.text = trailer'.text) :
    trailer = trailer' := by
  have hsemicolon : ∀ {ws before behind : Blank}, ws.units ≠ before.units ++ Deallocate.semicolon :: behind.units := by
    intro ws before behind he
    have hws := ws.blank Deallocate.semicolon (by rw [he]; simp)
    cases hws
  have hboundary : ∀ behind : Text, Boundary isWs (Deallocate.semicolon :: behind) := by
    intro behind c hc
    obtain rfl := Option.some.inj hc
    rfl
  cases trailer with
  | blank ws =>
    cases trailer' with
    | blank ws' => exact congrArg Trailer.blank (Blank.ext h)
    | semicolon before behind => exact (hsemicolon h).elim
  | semicolon before behind =>
    cases trailer' with
    | blank ws => exact (hsemicolon h.symm).elim
    | semicolon before' behind' =>
      obtain ⟨hbefore, hrest⟩ := (before.run (hboundary _)).unique (before'.run (hboundary _)) h
      rw [Blank.ext hbefore, Blank.ext (List.cons.inj hrest).2]

namespace Target

/-- A target is a delimited identifier or a word. -/
private theorem word_or_delimited (target : Target) : (target.isDelimited ∧ target.text.head? = some quote) ∨
    (¬ target.isDelimited ∧ target.text ≠ [] ∧ ∀ c ∈ target.text, isIdentCont c = true) := by
  cases target with
  | delimited pieces hne => exact Or.inl ⟨trivial, rfl⟩
  | all keyword =>
    obtain ⟨start, rest, hunits, -, -⟩ := keyword.exists_cons (by decide) all_letters
    refine Or.inr ⟨id, by simp [text, hunits], fun c hc => ?_⟩
    exact identCont_of_identStart (keyword.identStart all_letters c hc)
  | regular start rest hstart hrest hall =>
    refine Or.inr ⟨id, List.cons_ne_nil _ _, fun c hc => ?_⟩
    rcases List.mem_cons.mp hc with rfl | hmem
    · exact identCont_of_identStart hstart
    · exact hrest c hmem

/-- No target begins with a blank or a semicolon. -/
private theorem head (target : Target) : ∃ c, target.text.head? = some c ∧ isWs c = false ∧ c ≠ semicolon := by
  rcases target.word_or_delimited with ⟨-, hquote⟩ | ⟨-, hne, hword⟩
  · exact ⟨quote, hquote, by decide, by decide⟩
  · obtain ⟨c, rest, hcons⟩ := List.exists_cons_of_ne_nil hne
    have hc : isIdentCont c = true := hword c (by rw [hcons]; exact List.mem_cons_self)
    refine ⟨c, by rw [hcons]; rfl, not_ws_of_identCont hc, ?_⟩
    rintro rfl
    cases hc

theorem text_injective {target target' : Target} (h : target.text = target'.text) : target = target' := by
  have hquote : ∀ {c : CodeUnit}, isIdentCont c = true → c ≠ quote := by
    rintro c hc rfl
    cases hc
  have hdelimited : ∀ {pieces hne} {word : Target}, ¬ word.isDelimited → (delimited pieces hne).text ≠ word.text := by
    intro pieces hne word hnot he
    rcases word.word_or_delimited with ⟨hyes, -⟩ | ⟨-, -, hword⟩
    · exact hnot hyes
    · exact hquote (hword quote (he ▸ List.mem_cons_self)) rfl
  cases target with
  | delimited pieces hne =>
    cases target' with
    | delimited pieces' hne' =>
      obtain rfl := pieces_injective (List.cons.inj h).2
      rfl
    | all keyword => exact (hdelimited id h).elim
    | regular start rest hstart hrest hall => exact (hdelimited id h).elim
  | all keyword =>
    cases target' with
    | delimited pieces' hne' => exact (hdelimited id h.symm).elim
    | all keyword' => exact congrArg Target.all (Keyword.ext h)
    | regular start rest hstart hrest hall =>
      refine (hall (fold_eq_all.mpr ?_)).elim
      have hspells := keyword.spells
      rwa [show keyword.units = start :: rest from h] at hspells
  | regular start rest hstart hrest hall =>
    cases target' with
    | delimited pieces' hne' => exact (hdelimited id h.symm).elim
    | all keyword =>
      refine (hall (fold_eq_all.mpr ?_)).elim
      have hspells := keyword.spells
      rwa [show keyword.units = start :: rest from h.symm] at hspells
    | regular start' rest' hstart' hrest' hall' =>
      obtain ⟨rfl, rfl⟩ := List.cons.inj h
      rfl

/-- What is read of a target is all of it. -/
private theorem trailer_unique {target target' : Target} {trailer trailer' : Trailer}
    (h : target.text ++ trailer.text = target'.text ++ trailer'.text) : target = target' ∧ trailer = trailer' := by
  have hscan := scanTarget_complete target (target.ends_trailer trailer)
  have hscan' := scanTarget_complete target' (target'.ends_trailer trailer')
  rw [h, hscan'] at hscan
  have htrailer := (Prod.mk.inj (Option.some.inj hscan)).2
  rw [htrailer] at h
  exact ⟨text_injective (List.append_cancel_right h), (Trailer.text_injective htrailer).symm⟩

end Target

private theorem Keyword.unique {word rest rest' : Text} {keyword keyword' : Keyword word}
    (h : keyword.units ++ rest = keyword'.units ++ rest') : keyword = keyword' ∧ rest = rest' := by
  obtain ⟨hunits, hrest⟩ := List.append_inj h (keyword.length.trans keyword'.length.symm)
  exact ⟨Keyword.ext hunits, hrest⟩

/-- Two keywords that begin the same text spell the same letters, as far as both go. -/
private theorem Keyword.clash {word word' rest rest' : Text} {keyword : Keyword word} {keyword' : Keyword word'}
    (h : keyword.units ++ rest = keyword'.units ++ rest') : word <+: word' ∨ word' <+: word := by
  have hupper := congrArg (List.map upper) h
  rw [List.map_append, List.map_append, keyword.spells, keyword'.spells] at hupper
  exact List.prefix_or_prefix_of_prefix (List.prefix_append word _) (hupper ▸ List.prefix_append word' _)

private theorem Separator.unique {separator separator' : Separator} {next next' : Text}
    (hleads : separator.LeadsTo next)
    (hleads' : separator'.LeadsTo next') (h : separator.text ++ next = separator'.text ++ next') :
    separator = separator' ∧ next = next' := by
  have hstart := targetStartAfterKeyword_eq_some.mpr ⟨separator, rfl, hleads⟩
  have hstart' := targetStartAfterKeyword_eq_some.mpr ⟨separator', rfl, hleads'⟩
  rw [h, hstart'] at hstart
  obtain rfl := Option.some.inj hstart
  have htext := List.append_cancel_right h
  refine ⟨?_, rfl⟩
  cases separator with
  | gap ws =>
    cases separator' with
    | gap ws' => exact congrArg Separator.gap (Gap.ext htext)
    | adjacent => exact (ws.nonempty htext).elim
  | adjacent =>
    cases separator' with
    | gap ws => exact (ws.nonempty htext.symm).elim
    | adjacent => rfl

private theorem Blank.unique {blank blank' : Blank} {rest rest' : Text} (hrest : Boundary isWs rest)
    (hrest' : Boundary isWs rest') (h : blank.units ++ rest = blank'.units ++ rest') :
    blank = blank' ∧ rest = rest' := by
  obtain ⟨hunits, hnext⟩ := (blank.run hrest).unique (blank'.run hrest') h
  exact ⟨Blank.ext hunits, hnext⟩

private theorem Keyword.boundary {word : Text} (hne : word ≠ []) (hword : ∀ k ∈ word, 0x41 ≤ k ∧ k ≤ 0x5a)
    (keyword : Keyword word) (rest : Text) : Boundary isWs (keyword.units ++ rest) := by
  obtain ⟨start, tail, hunits, hstart, -⟩ := keyword.exists_cons hne hword
  intro c hc
  rw [hunits] at hc
  obtain rfl := Option.some.inj hc
  exact not_ws_of_identCont (identCont_of_identStart hstart)

private theorem discard_letters : ∀ k ∈ units "DISCARD", 0x41 ≤ k ∧ k ≤ 0x5a := letters_of_all (by decide)

private theorem deallocate_letters : ∀ k ∈ units "DEALLOCATE", 0x41 ≤ k ∧ k ≤ 0x5a := letters_of_all (by decide)

private theorem Target.boundary (target : Target) (rest : Text) : Boundary isWs (target.text ++ rest) := by
  obtain ⟨first, hfirst, hws, -⟩ := target.head
  obtain ⟨tail, htail⟩ := List.head?_eq_some_iff.mp hfirst
  intro c hc
  rw [htail] at hc
  obtain rfl := Option.some.inj hc
  exact hws

private theorem Target.leadsTo {separator : Separator} {target : Target}
    (hadjacent : separator = .adjacent → target.isDelimited)
    (rest : Text) : separator.LeadsTo (target.text ++ rest) := by
  cases separator with
  | gap ws => exact target.boundary rest
  | adjacent =>
    rcases target.word_or_delimited with ⟨-, hquote⟩ | ⟨hnot, -, -⟩
    · obtain ⟨tail, htail⟩ := List.head?_eq_some_iff.mp hquote
      rw [Separator.LeadsTo, htail]
      rfl
    · exact (hnot (hadjacent rfl)).elim

private theorem Gap.boundary (gap : Gap) (rest : Text) : Boundary isIdentCont (gap.units ++ rest) := by
  intro c hc
  obtain ⟨first, tail, hunits⟩ := List.exists_cons_of_ne_nil gap.nonempty
  rw [hunits] at hc
  obtain rfl := Option.some.inj hc
  exact not_identCont_of_ws (gap.blank first (by rw [hunits]; exact List.mem_cons_self))

/-- A separator ends the word before it. -/
private theorem Separator.boundary {separator : Separator} {next : Text} (h : separator.LeadsTo next) :
    Boundary isIdentCont (separator.text ++ next) := by
  cases separator with
  | gap ws => exact ws.boundary next
  | adjacent =>
    intro c hc
    rw [Separator.text, List.nil_append, show next.head? = some quote from h] at hc
    obtain rfl := Option.some.inj hc
    decide

/-- A target that is all there is before the trailer is not `PREPARE` with a target of its own. -/
private theorem prepare_not_target {target target' : Target} {trailer : Trailer} {prepare : Keyword (units "PREPARE")}
    {separator : Separator} {rest : Text} (hleads : separator.LeadsTo (target'.text ++ rest))
    (h : target.text ++ trailer.text = prepare.units ++ (separator.text ++ (target'.text ++ rest))) : False := by
  obtain ⟨c, hc, hws, hsemicolon⟩ := target'.head
  have hmem : c ∈ separator.text ++ (target'.text ++ rest) :=
    List.mem_append_right _ (List.mem_append_left _ (List.mem_of_mem_head? hc))
  have hprepare : Run isIdentCont prepare.units (separator.text ++ (target'.text ++ rest)) :=
    ⟨fun c hc => identCont_of_identStart (prepare.identStart prepare_letters c hc), Separator.boundary hleads⟩
  rcases target.word_or_delimited with ⟨-, hquote⟩ | ⟨hnot, -, hword⟩
  · obtain ⟨start, tail, hunits, hstart, -⟩ := prepare.exists_cons (by decide) prepare_letters
    obtain ⟨rest', hrest'⟩ := List.head?_eq_some_iff.mp hquote
    rw [hrest', hunits] at h
    have hhead : quote = start := (List.cons.inj h).1
    rw [← hhead] at hstart
    cases hstart
  · have hends : Boundary isIdentCont trailer.text := by
      have htarget := target.ends_trailer trailer
      cases target with
      | delimited pieces hne => exact (hnot trivial).elim
      | all keyword => exact htarget
      | regular start rest hstart hrest hall => exact htarget
    have hrun : Run isIdentCont target.text trailer.text := ⟨hword, hends⟩
    have htrailer := (hrun.unique hprepare h).2
    rw [← htrailer] at hmem
    have hunit : isWs c = true ∨ c = semicolon := by
      cases trailer with
      | blank ws => exact Or.inl (ws.blank c hmem)
      | semicolon before behind =>
        rcases List.mem_append.mp hmem with hbefore | hbehind
        · exact Or.inl (before.blank c hbefore)
        · rcases List.mem_cons.mp hbehind with he | hbehind
          · exact Or.inr he
          · exact Or.inl (behind.blank c hbehind)
    rcases hunit with hyes | hyes
    · rw [hws] at hyes
      cases hyes
    · exact hsemicolon hyes

/-- The derivation of a text is unique. -/
theorem text_injective {d d' : Command} (h : d.text = d'.text) : d = d' := by
  have hclash : ∀ {start start' : Blank} {discard : Keyword (units "DISCARD")} {keyword : Keyword (units "DEALLOCATE")}
      {rest rest' : Text}, start.units ++ (discard.units ++ rest) ≠ start'.units ++ (keyword.units ++ rest') := by
    intro start start' discard keyword rest rest' he
    obtain ⟨-, hnext⟩ := Blank.unique (discard.boundary (by decide) discard_letters rest)
      (keyword.boundary (by decide) deallocate_letters rest') he
    rcases Keyword.clash hnext with hprefix | hprefix
    · revert hprefix
      decide
    · revert hprefix
      decide
  have hkeyword : ∀ {start start' : Blank} {keyword keyword' : Keyword (units "DEALLOCATE")} {rest rest' : Text},
      start.units ++ (keyword.units ++ rest) = start'.units ++ (keyword'.units ++ rest') →
        start = start' ∧ keyword = keyword' ∧ rest = rest' := by
    intro start start' keyword keyword' rest rest' he
    obtain ⟨rfl, hnext⟩ := Blank.unique (keyword.boundary (by decide) deallocate_letters rest)
      (keyword'.boundary (by decide) deallocate_letters rest') he
    exact ⟨rfl, Keyword.unique hnext⟩
  have hgap : ∀ {gap : Gap} {separator : Separator} {prepare : Keyword (units "PREPARE")} {target : Target}
      {rest rest' : Text}, separator.LeadsTo (target.text ++ rest') →
        gap.units ++ (prepare.units ++ rest) = separator.text ++ (target.text ++ rest') →
          prepare.units ++ rest = target.text ++ rest' := by
    intro gap separator prepare target rest rest' hleads he
    have hprepare : (Separator.gap gap).LeadsTo (prepare.units ++ rest) :=
      prepare.boundary (by decide) prepare_letters rest
    exact (Separator.unique hprepare hleads he).2
  cases d with
  | discardAll start discard gap all trailer =>
    cases d' with
    | discardAll start' discard' gap' all' trailer' =>
      obtain ⟨rfl, hdiscard⟩ := Blank.unique (discard.boundary (by decide) discard_letters _)
        (discard'.boundary (by decide) discard_letters _) h
      obtain ⟨rfl, hrest⟩ := Keyword.unique hdiscard
      obtain ⟨hunits, hall⟩ := Blank.unique (all.boundary (by decide) all_letters _)
        (all'.boundary (by decide) all_letters _) hrest
      obtain rfl : gap = gap' := Gap.ext (congrArg Blank.units hunits)
      obtain ⟨rfl, htrailer⟩ := Keyword.unique hall
      rw [Trailer.text_injective htrailer]
    | deallocate start' keyword' separator' target' trailer' hadjacent' => exact (hclash h).elim
    | deallocatePrepare start' keyword' gap' prepare' separator' target' trailer' hadjacent' => exact (hclash h).elim
  | deallocate start keyword separator target trailer hadjacent =>
    have hleads := target.leadsTo hadjacent trailer.text
    cases d' with
    | discardAll start' discard' gap' all' trailer' => exact (hclash h.symm).elim
    | deallocate start' keyword' separator' target' trailer' hadjacent' =>
      obtain ⟨rfl, rfl, hrest⟩ := hkeyword h
      obtain ⟨rfl, htarget⟩ := Separator.unique hleads (target'.leadsTo hadjacent' trailer'.text) hrest
      obtain ⟨rfl, rfl⟩ := Target.trailer_unique htarget
      rfl
    | deallocatePrepare start' keyword' gap' prepare' separator' target' trailer' hadjacent' =>
      obtain ⟨-, -, hrest⟩ := hkeyword h
      exact (prepare_not_target (target'.leadsTo hadjacent' trailer'.text) (hgap hleads hrest.symm).symm).elim
  | deallocatePrepare start keyword gap prepare separator target trailer hadjacent =>
    have hleads := target.leadsTo hadjacent trailer.text
    cases d' with
    | discardAll start' discard' gap' all' trailer' => exact (hclash h.symm).elim
    | deallocate start' keyword' separator' target' trailer' hadjacent' =>
      obtain ⟨-, -, hrest⟩ := hkeyword h
      exact (prepare_not_target hleads (hgap (target'.leadsTo hadjacent' trailer'.text) hrest).symm).elim
    | deallocatePrepare start' keyword' gap' prepare' separator' target' trailer' hadjacent' =>
      obtain ⟨rfl, rfl, hrest⟩ := hkeyword h
      obtain ⟨hunits, hprepare⟩ := Blank.unique (prepare.boundary (by decide) prepare_letters _)
        (prepare'.boundary (by decide) prepare_letters _) hrest
      obtain rfl : gap = gap' := Gap.ext (congrArg Blank.units hunits)
      obtain ⟨rfl, hseparator⟩ := Keyword.unique hprepare
      obtain ⟨rfl, htarget⟩ := Separator.unique hleads (target'.leadsTo hadjacent' trailer'.text) hseparator
      obtain ⟨rfl, rfl⟩ := Target.trailer_unique htarget
      rfl

/-! ### The decoder -/

/-- Only a delimited identifier follows without a gap. -/
private theorem Target.delimited_of_leadsTo {separator : Separator} {target : Target} {rest : Text}
    (h : separator.LeadsTo (target.text ++ rest)) (hadjacent : separator = .adjacent) : target.isDelimited := by
  subst hadjacent
  rcases target.word_or_delimited with ⟨hyes, -⟩ | ⟨-, hne, hword⟩
  · exact hyes
  · obtain ⟨c, tail, hcons⟩ := List.exists_cons_of_ne_nil hne
    have hquote : (target.text ++ rest).head? = some quote := h
    rw [hcons] at hquote hword
    obtain rfl := Option.some.inj hquote
    have hfalse := hword quote List.mem_cons_self
    cases hfalse

private theorem decode_sound {text : Text} {invalidation : StatementCacheInvalidation}
    (h : decodeStatementCacheInvalidation text = some invalidation) :
    ∃ d : Command, d.text = text ∧ d.denotes = invalidation := by
  have hsplit := leading_append text
  unfold decodeStatementCacheInvalidation at h
  dsimp only at h
  split at h
  · cases h
  split at h
  · cases h
  split at h
  · rename_i afterDiscard hdiscard
    obtain ⟨discard, hstart, -⟩ := matchKeyword_eq_some.mp hdiscard
    have hgap := leading_append afterDiscard
    split at h
    · cases h
    rename_i hlength
    split at h
    · cases h
    rename_i afterAll hall
    obtain ⟨all, hallAt, -⟩ := matchKeyword_eq_some.mp hall
    split at h
    · rename_i htrailer
      obtain rfl := Option.some.inj h
      obtain ⟨trailer, rfl⟩ := isTrailer_iff.mp htrailer
      have hne : (leading afterDiscard).units ≠ [] := by
        intro hnil
        rw [hnil, List.nil_append] at hgap
        exact hlength (congrArg List.length hgap).symm
      refine ⟨.discardAll (leading text) discard ⟨leading afterDiscard, hne⟩ all trailer, ?_, rfl⟩
      rw [Command.text, ← hallAt, ← hgap, ← hstart, ← hsplit]
    · cases h
  · split at h
    · cases h
    rename_i afterDealloc hdealloc
    obtain ⟨keyword, hstart, -⟩ := matchKeyword_eq_some.mp hdealloc
    split at h
    · cases h
    rename_i targetAt htargetAt
    obtain ⟨separator, rfl, hleads⟩ := targetStartAfterKeyword_eq_some.mp htargetAt
    unfold deallocateTarget at h
    dsimp only at h
    split at h
    · rename_i found hfound
      obtain rfl := Option.some.inj h
      simp only [Option.bind_eq_bind, Option.bind_eq_some_iff] at hfound
      obtain ⟨afterPrepare, hprepare, keywordTargetAt, hkeywordTargetAt, hcomplete⟩ := hfound
      obtain ⟨prepare, rfl, -⟩ := matchKeyword_eq_some.mp hprepare
      obtain ⟨separator', rfl, hleads'⟩ := targetStartAfterKeyword_eq_some.mp hkeywordTargetAt
      obtain ⟨target, trailer, rfl, rfl⟩ := completeTarget_eq_some.mp hcomplete
      cases separator with
      | gap gap =>
        refine ⟨.deallocatePrepare (leading text) keyword gap prepare separator' target trailer
          (Target.delimited_of_leadsTo hleads'), Eq.trans ?_ hsplit.symm, rfl⟩
        rw [hstart]
        rfl
      | adjacent =>
        obtain ⟨first, tail, hunits, hfirst, -⟩ := prepare.exists_cons (by decide) prepare_letters
        have hquote : (prepare.units ++ (separator'.text ++ (target.text ++ trailer.text))).head? = some quote := hleads
        rw [hunits] at hquote
        obtain rfl := Option.some.inj hquote
        cases hfirst
    · obtain ⟨target, trailer, rfl, rfl⟩ := completeTarget_eq_some.mp h
      refine ⟨.deallocate (leading text) keyword separator target trailer (Target.delimited_of_leadsTo hleads), ?_, rfl⟩
      rw [Command.text, ← hstart, ← hsplit]

/-- Both commands begin with a `D`. -/
private theorem Keyword.head_D {tail : Text} (keyword : Keyword (0x44 :: tail)) (rest : Text) :
    ∃ c, (keyword.units ++ rest).head? = some c ∧ ¬ (c ≠ 0x44 ∧ c ≠ 0x64) := by
  have hspells := keyword.spells
  cases hunits : keyword.units with
  | nil => rw [hunits] at hspells; cases hspells
  | cons c units =>
    rw [hunits, List.map_cons] at hspells
    have hupper : upper c = 0x44 := (List.cons.inj hspells).1
    refine ⟨c, rfl, ?_⟩
    unfold upper at hupper
    grind

/-- What the decoder does behind the leading blanks, when the first keyword is `DEALLOCATE`. -/
private theorem decode_deallocate (start : Blank) (keyword : Keyword (units "DEALLOCATE")) {separator : Separator}
    {next : Text}
    (hleads : separator.LeadsTo next) :
    decodeStatementCacheInvalidation (start.units ++ (keyword.units ++ (separator.text ++ next))) =
      deallocateTarget next := by
  have hskip := skipWs_eq start (keyword.boundary (by decide) deallocate_letters (separator.text ++ next))
  obtain ⟨c, hhead, hD⟩ := Keyword.head_D keyword (separator.text ++ next)
  have hdiscard : matchKeyword (keyword.units ++ (separator.text ++ next)) (units "DISCARD") = none := by
    rw [Option.eq_none_iff_forall_ne_some]
    intro rest hsome
    obtain ⟨discard, htext, -⟩ := matchKeyword_eq_some.mp hsome
    rcases Keyword.clash htext with hprefix | hprefix
    · revert hprefix
      decide
    · revert hprefix
      decide
  have hdeallocate := matchKeyword_eq_some.mpr ⟨keyword, rfl, Separator.boundary hleads⟩
  have htarget := targetStartAfterKeyword_eq_some.mpr ⟨separator, rfl, hleads⟩
  unfold decodeStatementCacheInvalidation
  simp only [hskip, hhead, if_neg hD, hdiscard, hdeallocate, htarget]

/-- The decoder reads every derivation. -/
private theorem decode_complete (d : Command) : decodeStatementCacheInvalidation d.text = some d.denotes := by
  cases d with
  | discardAll start discard gap all trailer =>
    have hskip := skipWs_eq start (discard.boundary (by decide) discard_letters
      (gap.units ++ (all.units ++ trailer.text)))
    obtain ⟨c, hhead, hD⟩ := Keyword.head_D discard (gap.units ++ (all.units ++ trailer.text))
    have hdiscard := matchKeyword_eq_some.mpr ⟨discard, rfl, gap.boundary (all.units ++ trailer.text)⟩
    have hgap := skipWs_eq gap.toBlank (all.boundary (by decide) all_letters trailer.text)
    have hall := matchKeyword_eq_some.mpr ⟨all, rfl, Target.ends_trailer (.all all) trailer⟩
    have hpos := List.length_pos_iff.mpr gap.nonempty
    have hlength : ¬ (all.units ++ trailer.text).length = (gap.units ++ (all.units ++ trailer.text)).length := by
      simp only [List.length_append]
      omega
    unfold decodeStatementCacheInvalidation
    simp only [Command.text, hskip, hhead, if_neg hD, hdiscard, hgap, if_neg hlength, hall,
      isTrailer_iff.mpr ⟨trailer, rfl⟩, if_true]
    rfl
  | deallocatePrepare start keyword gap prepare separator target trailer hadjacent =>
    have hleads : (Separator.gap gap).LeadsTo (prepare.units ++ (separator.text ++ (target.text ++ trailer.text))) :=
      prepare.boundary (by decide) prepare_letters _
    have hbehind := target.leadsTo hadjacent trailer.text
    have hprepare := matchKeyword_eq_some.mpr ⟨prepare, rfl, Separator.boundary hbehind⟩
    have htarget := targetStartAfterKeyword_eq_some.mpr ⟨separator, rfl, hbehind⟩
    have hcomplete := completeTarget_eq_some.mpr ⟨target, trailer, rfl, rfl⟩
    refine (decode_deallocate start keyword hleads).trans ?_
    unfold deallocateTarget
    simp only [hprepare, Option.bind_eq_bind, Option.bind_some, htarget, hcomplete]
    rfl
  | deallocate start keyword separator target trailer hadjacent =>
    have hdecode := decode_deallocate start keyword (target.leadsTo hadjacent trailer.text)
    have hcomplete := completeTarget_eq_some.mpr ⟨target, trailer, rfl, rfl⟩
    unfold deallocateTarget at hdecode
    dsimp only at hdecode
    rw [hcomplete] at hdecode
    -- what `PREPARE` makes of the rest would be a second derivation of the text
    have hsome : ∀ invalidation, decodeStatementCacheInvalidation (start.units ++ (keyword.units ++ (separator.text ++
        (target.text ++ trailer.text)))) = some invalidation → invalidation = target.denotes := by
      intro invalidation h
      obtain ⟨d, htext, rfl⟩ := decode_sound h
      have hsame : d.text = Command.text (.deallocate start keyword separator target trailer hadjacent) := htext
      rw [text_injective hsame]
      rfl
    rw [Command.text, hdecode] at *
    split at hsome
    · exact congrArg some (hsome _ rfl)
    · rfl

/-! ### Quoted names -/

/-- `quoteIdent` (`utils/quote-ident.ts`) -/
def quoteIdent (identifier : Text) : Text :=
  quote :: ((identifier.flatMap fun c => if c = quote then [quote, quote] else [c]) ++ [quote])

def Piece.of (c : CodeUnit) : Piece := if h : c = quote then .doubled else .unit c h

private theorem Piece.of_spec (c : CodeUnit) :
    (Piece.of c).text = (if c = quote then [quote, quote] else [c]) ∧ (Piece.of c).denotes = c := by
  unfold Piece.of
  by_cases h : c = quote
  · rw [dif_pos h, if_pos h]
    exact ⟨rfl, h.symm⟩
  · rw [dif_neg h, if_neg h]
    exact ⟨rfl, rfl⟩

/-- A quoted name is a delimited identifier that denotes it. -/
private theorem quoteIdent_target {name : Text} (hne : name ≠ []) :
    ∃ target : Target, target.isDelimited ∧ target.text = quoteIdent name ∧ target.denotes = .name name := by
  have hpieces : name.map Piece.of ≠ [] := by simpa using hne
  refine ⟨.delimited (name.map Piece.of) hpieces, trivial, ?_, ?_⟩
  · have htext : ∀ c, (Piece.of c).text = if c = quote then [quote, quote] else [c] := fun c => (Piece.of_spec c).1
    simp only [Target.text, quoteIdent, List.flatMap_map, htext]
  · have hdenotes : ∀ c, (Piece.of c).denotes = c := fun c => (Piece.of_spec c).2
    simp [Target.denotes, Function.comp_def, hdenotes]

/-- A keyword as a regular identifier. -/
private theorem Keyword.fold_units {word : Text} (hword : ∀ k ∈ word, 0x41 ≤ k ∧ k ≤ 0x5a) (keyword : Keyword word) :
    keyword.units.map fold = word.map (· + 0x20) := by
  have hmap : word.map (· + 0x20) = keyword.units.map fun c => upper c + 0x20 := by
    conv_lhs => rw [← keyword.spells, List.map_map]
    rfl
  rw [hmap]
  refine List.map_congr_left fun c hc => ?_
  have hletter : 0x41 ≤ upper c ∧ upper c ≤ 0x5a := hword _ (keyword.spells ▸ List.mem_map_of_mem hc)
  exact (fold_eq_iff hletter).mpr rfl

/-- The decoder accepts the texts that have a derivation, which is unique, and gives what it denotes; quoted names come
back as they are, and a bare `PREPARE` is a name. -/
theorem decoder_exact :
    (∀ text invalidation, decodeStatementCacheInvalidation text = some invalidation ↔
      ∃ d : Command, d.text = text ∧ d.denotes = invalidation) ∧
    (∀ d d' : Command, d.text = d'.text → d = d') ∧
    (∀ (start : Blank) (deallocate : Keyword (units "DEALLOCATE")) (separator : Separator) (name : Text)
      (trailer : Trailer), name ≠ [] → decodeStatementCacheInvalidation
        (start.units ++ (deallocate.units ++ (separator.text ++ (quoteIdent name ++ trailer.text)))) =
          some (.name name)) ∧
    (∀ (start : Blank) (deallocate : Keyword (units "DEALLOCATE")) (gap : Gap) (prepare : Keyword (units "PREPARE"))
      (separator : Separator) (name : Text) (trailer : Trailer), name ≠ [] → decodeStatementCacheInvalidation
        (start.units ++ (deallocate.units ++ (gap.units ++ (prepare.units ++ (separator.text ++
          (quoteIdent name ++ trailer.text)))))) = some (.name name)) ∧
    ∀ (start : Blank) (deallocate : Keyword (units "DEALLOCATE")) (gap : Gap) (prepare : Keyword (units "PREPARE"))
      (trailer : Trailer), decodeStatementCacheInvalidation
        (start.units ++ (deallocate.units ++ (gap.units ++ (prepare.units ++ trailer.text)))) =
          some (.name (units "prepare")) := by
  refine ⟨fun text invalidation => ⟨decode_sound, ?_⟩, fun d d' => text_injective, ?_, ?_, ?_⟩
  · rintro ⟨d, rfl, rfl⟩
    exact decode_complete d
  · intro start deallocate separator name trailer hne
    obtain ⟨target, hdelimited, htext, hdenotes⟩ := quoteIdent_target hne
    have hdecode := decode_complete (.deallocate start deallocate separator target trailer fun _ => hdelimited)
    rwa [Command.text, Command.denotes, htext, hdenotes] at hdecode
  · intro start deallocate gap prepare separator name trailer hne
    obtain ⟨target, hdelimited, htext, hdenotes⟩ := quoteIdent_target hne
    have hdecode := decode_complete
      (.deallocatePrepare start deallocate gap prepare separator target trailer fun _ => hdelimited)
    rwa [Command.text, Command.denotes, htext, hdenotes] at hdecode
  · intro start deallocate gap prepare trailer
    obtain ⟨first, rest, hunits, hfirst, hrest⟩ := prepare.exists_cons (by decide) prepare_letters
    have hfold := prepare.fold_units prepare_letters
    rw [hunits] at hfold ⊢
    have hall : (first :: rest).map fold ≠ units "all" := by
      rw [hfold]
      decide
    have hdecode := decode_complete (.deallocate start deallocate (.gap gap)
      (.regular first rest hfirst (fun c hc => identCont_of_identStart (hrest c hc)) hall) trailer (by simp))
    rw [Command.text, Command.denotes, Target.denotes, hfold] at hdecode
    exact hdecode

end PgliteBridge.Deallocate
