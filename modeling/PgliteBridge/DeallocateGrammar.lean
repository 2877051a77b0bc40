import PgliteBridge.Deallocate

/-!
# The grammar of `DEALLOCATE` and `DISCARD ALL`

The grammar of the module comment of `pool/deallocate.ts`, as derivations with the text they derive (`Command.text`) and
the invalidation they denote (`Command.denotes`), and what each scanner reads of a text in its terms.
-/

namespace PgliteBridge.Deallocate

open Lexing

/-! ### Derivations -/

/-- `ws*` -/
@[ext] structure Blank where
  units : Text
  blank : ∀ c ∈ units, isWs c = true

/-- `ws+` -/
@[ext] structure Gap extends Blank where
  nonempty : units ≠ []

/-- A keyword in any ASCII case. -/
@[ext] structure Keyword (word : Text) where
  units : Text
  spells : units.map upper = word

/-- `quoted_sep` -/
inductive Separator
  | gap (gap : Gap)
  | adjacent

inductive Trailer
  | blank (blank : Blank)
  | semicolon (before behind : Blank)

/-- What a delimited identifier is made of. -/
inductive Piece
  | unit (c : CodeUnit) (h : c ≠ quote)
  | doubled

/-- An unquoted `ALL` is no regular identifier. -/
inductive Target
  | all (keyword : Keyword (units "ALL"))
  | regular (start : CodeUnit) (rest : Text) (hstart : isIdentStart start = true)
    (hrest : ∀ c ∈ rest, isIdentCont c = true) (hall : (start :: rest).map fold ≠ units "all")
  | delimited (pieces : List Piece) (hne : pieces ≠ [])

def Target.isDelimited : Target → Prop
  | .delimited _ _ => True
  | _ => False

/-- An empty separator stands only before a quote; `PREPARE` has a gap before it. -/
inductive Command
  | discardAll (start : Blank) (discard : Keyword (units "DISCARD")) (gap : Gap) (all : Keyword (units "ALL"))
    (trailer : Trailer)
  | deallocate (start : Blank) (deallocate : Keyword (units "DEALLOCATE")) (separator : Separator) (target : Target)
    (trailer : Trailer) (hadjacent : separator = .adjacent → target.isDelimited)
  | deallocatePrepare (start : Blank) (deallocate : Keyword (units "DEALLOCATE")) (gap : Gap)
    (prepare : Keyword (units "PREPARE")) (separator : Separator) (target : Target) (trailer : Trailer)
    (hadjacent : separator = .adjacent → target.isDelimited)

/-! ### What they derive and denote -/

def Separator.text : Separator → Text
  | .gap ws => ws.units
  | .adjacent => []

def Trailer.text : Trailer → Text
  | .blank ws => ws.units
  | .semicolon before behind => before.units ++ Deallocate.semicolon :: behind.units

def Piece.text : Piece → Text
  | .unit c _ => [c]
  | .doubled => [quote, quote]

def Piece.denotes : Piece → CodeUnit
  | .unit c _ => c
  | .doubled => quote

namespace Target

def text : Target → Text
  | .all keyword => keyword.units
  | .regular start rest _ _ _ => start :: rest
  | .delimited pieces _ => quote :: (pieces.flatMap Piece.text ++ [quote])

def denotes : Target → StatementCacheInvalidation
  | .all _ => .all
  | .regular start rest _ _ _ => .name ((start :: rest).map fold)
  | .delimited pieces _ => .name (pieces.map Piece.denotes)

end Target

namespace Command

def text : Command → Text
  | .discardAll start discard gap all trailer =>
    start.units ++ (discard.units ++ (gap.units ++ (all.units ++ trailer.text)))
  | .deallocate start keyword separator target trailer _ =>
    start.units ++ (keyword.units ++ (separator.text ++ (target.text ++ trailer.text)))
  | .deallocatePrepare start keyword gap prepare separator target trailer _ =>
    start.units ++ (keyword.units ++
      (gap.units ++ (prepare.units ++ (separator.text ++ (target.text ++ trailer.text)))))

def denotes : Command → StatementCacheInvalidation
  | .discardAll _ _ _ _ _ => .all
  | .deallocate _ _ _ target _ _ => target.denotes
  | .deallocatePrepare _ _ _ _ _ target _ _ => target.denotes

end Command

/-! ### Classes of code units -/

section Units

variable {c : CodeUnit}

theorem identCont_of_identStart (h : isIdentStart c = true) : isIdentCont c = true := by simp [isIdentCont, h]

theorem not_identCont_of_ws (h : isWs c = true) : isIdentCont c = false := by
  simp only [isWs, Bool.or_eq_true, beq_iff_eq] at h
  rcases h with ((((rfl | rfl) | rfl) | rfl) | rfl) | rfl <;> decide

theorem not_ws_of_identCont (h : isIdentCont c = true) : isWs c = false := by
  cases hws : isWs c with
  | false => rfl
  | true => rw [not_identCont_of_ws hws] at h; cases h

/-- A letter of a keyword. -/
private theorem identStart_of_upper (h : 0x41 ≤ upper c ∧ upper c ≤ 0x5a) : isIdentStart c = true := by
  unfold upper at h
  unfold isIdentStart
  grind

theorem fold_eq_iff {k : CodeUnit} (h : 0x41 ≤ k ∧ k ≤ 0x5a) : fold c = k + 0x20 ↔ upper c = k := by
  unfold fold upper
  grind

end Units

/-! ### Scanners -/

private theorem isWs_quote : isWs quote = false := by decide

/-- What follows begins with no unit of the class. -/
def Boundary (p : CodeUnit → Bool) (next : Text) : Prop := ∀ c ∈ next.head?, p c = false

theorem Blank.run (blank : Blank) {next : Text} (h : Boundary isWs next) : Run isWs blank.units next := ⟨blank.blank, h⟩

theorem skipWs_eq (blank : Blank) {next : Text} (h : Boundary isWs next) : skipWs (blank.units ++ next) = next :=
  (blank.run h).dropWhile

/-- The blanks that `skipWs` skips. -/
def leading (text : Text) : Blank := ⟨text.takeWhile isWs, (run_takeWhile isWs text).word⟩

theorem leading_append (text : Text) : text = (leading text).units ++ skipWs text :=
  List.takeWhile_append_dropWhile.symm

private theorem boundary_skipWs (text : Text) : Boundary isWs (skipWs text) := (run_takeWhile isWs text).boundary

theorem Keyword.length {word : Text} (keyword : Keyword word) : keyword.units.length = word.length := by
  have hlength := congrArg List.length keyword.spells
  rwa [List.length_map] at hlength

theorem matchKeyword_eq_some {text word next : Text} : matchKeyword text word = some next ↔
    ∃ keyword : Keyword word, text = keyword.units ++ next ∧ Boundary isIdentCont next := by
  unfold matchKeyword
  constructor
  · intro h
    split at h
    · cases h
    split at h
    · cases h
    rename_i hspells
    dsimp only at h
    split at h
    · cases h
    rename_i hboundary
    obtain rfl := Option.some.inj h
    refine ⟨⟨text.take word.length, not_not.mp hspells⟩, (List.take_append_drop _ _).symm, fun c hc => ?_⟩
    rw [Option.mem_def] at hc
    simpa [hc] using hboundary
  · rintro ⟨keyword, rfl, hboundary⟩
    have hlength := keyword.length
    have htake : (keyword.units ++ next).take word.length = keyword.units := by rw [← hlength, List.take_left']; rfl
    have hdrop : (keyword.units ++ next).drop word.length = next := by rw [← hlength, List.drop_left']; rfl
    rw [htake, hdrop, if_neg (by rw [List.length_append]; omega), if_neg (not_not.mpr keyword.spells)]
    have hnext : next.head?.any isIdentCont = false := by
      cases next with
      | nil => rfl
      | cons c rest => exact hboundary c rfl
    simp only [hnext, Bool.false_eq_true, if_false]

/-- The separator leads to the text: a gap is complete, and nothing is left out but before a quote. -/
def Separator.LeadsTo (separator : Separator) (text : Text) : Prop :=
  match separator with
  | .gap _ => Boundary isWs text
  | .adjacent => text.head? = some quote

theorem targetStartAfterKeyword_eq_some {text start : Text} : targetStartAfterKeyword text = some start ↔
    ∃ separator : Separator, text = separator.text ++ start ∧ separator.LeadsTo start := by
  unfold targetStartAfterKeyword
  constructor
  · intro h
    have hsplit := leading_append text
    dsimp only at h
    split at h
    · rename_i hshorter
      obtain rfl := Option.some.inj h
      refine ⟨.gap ⟨leading text, fun hnil => ?_⟩, hsplit, boundary_skipWs text⟩
      have hlength := congrArg List.length hsplit
      rw [List.length_append, hnil, List.length_nil] at hlength
      omega
    · split at h
      · rename_i hquote
        obtain rfl := Option.some.inj h
        exact ⟨.adjacent, rfl, hquote⟩
      · cases h
  · rintro ⟨separator, rfl, hleads⟩
    cases separator with
    | gap ws =>
      have hskip : skipWs (Separator.text (.gap ws) ++ start) = start := skipWs_eq ws.toBlank hleads
      have hpos := List.length_pos_iff.mpr ws.nonempty
      have hlength : start.length < (Separator.text (.gap ws) ++ start).length := by
        rw [List.length_append, Separator.text]
        omega
      rw [hskip, if_pos hlength]
    | adjacent =>
      have hhead : start.head? = some quote := hleads
      have hskip : skipWs start = start := by
        cases start with
        | nil => rfl
        | cons c rest =>
          obtain rfl := Option.some.inj hhead
          simp [skipWs, isWs_quote]
      simp [Separator.text, hskip, hhead]

theorem isTrailer_iff {text : Text} : isTrailer text = true ↔ ∃ trailer : Trailer, trailer.text = text := by
  have hsplit := leading_append text
  unfold isTrailer
  constructor
  · intro h
    split at h
    · rename_i hnil
      rw [hnil, List.append_nil] at hsplit
      exact ⟨.blank (leading text), hsplit.symm⟩
    · rename_i c rest hcons
      simp only [Bool.and_eq_true, beq_iff_eq, List.isEmpty_iff] at h
      obtain ⟨rfl, hrest⟩ := h
      have hbehind := leading_append rest
      rw [hrest, List.append_nil] at hbehind
      refine ⟨.semicolon (leading text) (leading rest), ?_⟩
      rw [Trailer.text, ← hbehind, ← hcons]
      exact hsplit.symm
  · rintro ⟨trailer, rfl⟩
    cases trailer with
    | blank ws =>
      have hskip : skipWs ws.units = [] := by
        have hskip := skipWs_eq ws (by simp [Boundary] : Boundary isWs [])
        rwa [List.append_nil] at hskip
      rw [Trailer.text, hskip]
    | semicolon before behind =>
      have hskip : skipWs (before.units ++ Deallocate.semicolon :: behind.units) =
          Deallocate.semicolon :: behind.units :=
        skipWs_eq before (by intro c hc; obtain rfl := Option.some.inj hc; decide)
      have hbehind : skipWs behind.units = [] := by
        have hskip := skipWs_eq behind (by simp [Boundary] : Boundary isWs [])
        rwa [List.append_nil] at hskip
      rw [Trailer.text, hskip]
      simp [hbehind]

private theorem scanRegularIdentifier_eq_some {text name next : Text} : scanRegularIdentifier text = some (name, next) ↔
    ∃ start rest, text = start :: rest ++ next ∧ isIdentStart start = true ∧ (∀ c ∈ rest, isIdentCont c = true) ∧
      Boundary isIdentCont next ∧ name = (start :: rest).map fold := by
  constructor
  · intro h
    cases text with
    | nil => cases h
    | cons c text =>
      rw [scanRegularIdentifier] at h
      split at h
      · cases h
      · rename_i hstart
        obtain ⟨rfl, rfl⟩ := Prod.mk.inj (Option.some.inj h)
        have hrun := run_takeWhile isIdentCont text
        refine ⟨c, text.takeWhile isIdentCont, ?_, by simpa using hstart, hrun.word, hrun.boundary, rfl⟩
        rw [List.cons_append, List.takeWhile_append_dropWhile]
  · rintro ⟨start, rest, rfl, hstart, hrest, hboundary, rfl⟩
    have hrun : Run isIdentCont rest next := ⟨hrest, hboundary⟩
    rw [List.cons_append, scanRegularIdentifier, hrun.takeWhile, hrun.dropWhile, hstart]
    rfl

private theorem scanDelimitedLoop_sound {text name result next : Text}
    (h : scanDelimitedLoop name text = some (result, next)) :
    ∃ pieces : List Piece, text = pieces.flatMap Piece.text ++ quote :: next ∧ next.head? ≠ some quote ∧
      result = name ++ pieces.map Piece.denotes ∧ result ≠ [] := by
  fun_induction scanDelimitedLoop name text with
  | case1 name => cases h
  | case2 name hempty => cases h
  | case3 name hne =>
    obtain ⟨rfl, rfl⟩ := Prod.mk.inj (Option.some.inj h)
    exact ⟨[], rfl, by simp, by simp, by simpa using hne⟩
  | case4 name c hquote => cases h
  | case5 name rest ih =>
    obtain ⟨pieces, rfl, hnext, rfl, hne⟩ := ih h
    exact ⟨.doubled :: pieces, rfl, hnext, by simp [Piece.denotes], hne⟩
  | case6 name c' rest hquote hempty => cases h
  | case7 name c' rest hquote hne =>
    obtain ⟨rfl, rfl⟩ := Prod.mk.inj (Option.some.inj h)
    exact ⟨[], rfl, by simpa using hquote, by simp, by simpa using hne⟩
  | case8 name c c' rest hquote ih =>
    obtain ⟨pieces, htext, hnext, rfl, hne⟩ := ih h
    refine ⟨.unit c hquote :: pieces, ?_, hnext, by simp [Piece.denotes], hne⟩
    rw [htext]
    rfl

private theorem scanDelimitedLoop_complete (pieces : List Piece) {name next : Text} (hnext : next.head? ≠ some quote)
    (hne : name ++ pieces.map Piece.denotes ≠ []) :
    scanDelimitedLoop name (pieces.flatMap Piece.text ++ quote :: next) =
      some (name ++ pieces.map Piece.denotes, next) := by
  induction pieces generalizing name with
  | nil =>
    rw [List.map_nil, List.append_nil] at hne ⊢
    have hname : name.isEmpty = false := by simpa using hne
    cases next with
    | nil => simp [scanDelimitedLoop, hname]
    | cons c rest =>
      have hc : c ≠ quote := fun he => hnext (by rw [he]; rfl)
      simp [scanDelimitedLoop, hname, hc]
  | cons piece pieces ih =>
    cases piece with
    | doubled =>
      have hrest : scanDelimitedLoop (name ++ [quote]) _ = _ := ih (by simp)
      rw [List.append_assoc] at hrest
      change scanDelimitedLoop name (quote :: quote :: (pieces.flatMap Piece.text ++ quote :: next)) = _
      rw [scanDelimitedLoop, if_pos rfl, if_pos rfl, hrest]
      rfl
    | unit c hc =>
      have hrest : scanDelimitedLoop (name ++ [c]) _ = _ := ih (by simp)
      rw [List.append_assoc] at hrest
      change scanDelimitedLoop name (c :: (pieces.flatMap Piece.text ++ quote :: next)) = _
      obtain ⟨c', rest, hcons⟩ : ∃ c' rest, pieces.flatMap Piece.text ++ quote :: next = c' :: rest :=
        List.exists_cons_of_ne_nil (by simp)
      rw [hcons] at hrest ⊢
      rw [scanDelimitedLoop, if_neg hc, hrest]
      rfl

/-! ### Targets -/

namespace Target

/-- What may follow a target. -/
def Ends (target : Target) (next : Text) : Prop :=
  match target with
  | .delimited _ _ => next.head? ≠ some quote
  | _ => Boundary isIdentCont next

end Target

/-- An identifier folds to `all` when it spells the keyword. -/
theorem fold_eq_all {word : Text} : word.map fold = units "all" ↔ word.map upper = units "ALL" := by
  have ha : ∀ c, fold c = 0x61 ↔ upper c = 0x41 := fun c => fold_eq_iff (k := 0x41) (by decide)
  have hl : ∀ c, fold c = 0x6c ↔ upper c = 0x4c := fun c => fold_eq_iff (k := 0x4c) (by decide)
  have hlower : units "all" = [0x61, 0x6c, 0x6c] := by decide
  have hupper : units "ALL" = [0x41, 0x4c, 0x4c] := by decide
  rw [hlower, hupper]
  rcases word with _ | ⟨a, _ | ⟨b, _ | ⟨c, _ | ⟨d, word⟩⟩⟩⟩
  · simp
  · simp
  · simp
  · simp [ha, hl]
  · simp

/-- A keyword of letters is a word. -/
theorem Keyword.identStart {word : Text} (hword : ∀ k ∈ word, 0x41 ≤ k ∧ k ≤ 0x5a) (keyword : Keyword word) :
    ∀ c ∈ keyword.units, isIdentStart c = true := by
  intro c hc
  refine identStart_of_upper (hword _ ?_)
  rw [← keyword.spells]
  exact List.mem_map_of_mem hc

private theorem scanTarget_sound {text next : Text} {invalidation : StatementCacheInvalidation}
    (h : scanTarget text = some (invalidation, next)) :
    ∃ target : Target, text = target.text ++ next ∧ target.Ends next ∧ invalidation = target.denotes := by
  unfold scanTarget at h
  split at h
  · rename_i hquote
    obtain ⟨⟨name, after⟩, hscan, he⟩ := Option.map_eq_some_iff.mp h
    obtain ⟨rfl, rfl⟩ := Prod.mk.inj he
    obtain ⟨pieces, htail, hnext, rfl, hne⟩ := scanDelimitedLoop_sound hscan
    have hpieces : pieces ≠ [] := by
      rintro rfl
      exact hne rfl
    refine ⟨.delimited pieces hpieces, ?_, hnext, by simp [Target.denotes]⟩
    obtain ⟨rest, rfl⟩ := List.head?_eq_some_iff.mp hquote
    simp only [List.tail_cons] at htail
    simp [Target.text, htail]
  · obtain ⟨⟨name, after⟩, hscan, he⟩ := Option.map_eq_some_iff.mp h
    obtain ⟨rfl, rfl⟩ := Prod.mk.inj he
    obtain ⟨start, rest, rfl, hstart, hrest, hboundary, rfl⟩ := scanRegularIdentifier_eq_some.mp hscan
    by_cases hall : (start :: rest).map fold = units "all"
    · exact ⟨.all ⟨start :: rest, fold_eq_all.mp hall⟩, rfl, hboundary, by rw [if_pos hall]; rfl⟩
    · exact ⟨.regular start rest hstart hrest hall, rfl, hboundary, by rw [if_neg hall]; rfl⟩

/-- A word that is a target. -/
private theorem scanTarget_word {start : CodeUnit} {rest next : Text} (hstart : isIdentStart start = true)
    (hrest : ∀ c ∈ rest, isIdentCont c = true) (h : Boundary isIdentCont next) :
    scanTarget (start :: rest ++ next) = some (if (start :: rest).map fold = units "all" then .all
      else .name ((start :: rest).map fold), next) := by
  have hscan := scanRegularIdentifier_eq_some.mpr ⟨start, rest, rfl, hstart, hrest, h, rfl⟩
  have hquote : start ≠ quote := by
    rintro rfl
    cases hstart
  unfold scanTarget
  rw [if_neg (by simpa using hquote), hscan]
  rfl

theorem Keyword.exists_cons {word : Text} (hne : word ≠ []) (hword : ∀ k ∈ word, 0x41 ≤ k ∧ k ≤ 0x5a)
    (keyword : Keyword word) : ∃ start rest, keyword.units = start :: rest ∧ isIdentStart start = true ∧
      ∀ c ∈ rest, isIdentStart c = true := by
  have hstart := keyword.identStart hword
  cases hunits : keyword.units with
  | nil =>
    have hspells := keyword.spells
    rw [hunits] at hspells
    exact (hne hspells.symm).elim
  | cons start rest =>
    rw [hunits] at hstart
    exact ⟨start, rest, rfl, hstart start List.mem_cons_self, fun c hc => hstart c (List.mem_cons_of_mem _ hc)⟩

theorem letters_of_all {word : Text} (h : word.all (fun k => 0x41 ≤ k && k ≤ 0x5a) = true) :
    ∀ k ∈ word, 0x41 ≤ k ∧ k ≤ 0x5a := by
  intro k hk
  simpa using List.all_eq_true.mp h k hk

theorem all_letters : ∀ k ∈ units "ALL", 0x41 ≤ k ∧ k ≤ 0x5a := letters_of_all (by decide)

theorem prepare_letters : ∀ k ∈ units "PREPARE", 0x41 ≤ k ∧ k ≤ 0x5a := letters_of_all (by decide)

theorem scanTarget_complete (target : Target) {next : Text} (h : target.Ends next) :
    scanTarget (target.text ++ next) = some (target.denotes, next) := by
  cases target with
  | delimited pieces hne =>
    have hpieces : ([] : Text) ++ pieces.map Piece.denotes ≠ [] := by simpa using hne
    have hscan := scanDelimitedLoop_complete pieces h hpieces
    have htext : Target.text (.delimited pieces hne) ++ next =
        quote :: (pieces.flatMap Piece.text ++ quote :: next) := by
      simp [Target.text]
    rw [htext, scanTarget, List.head?_cons, if_pos rfl, scanDelimitedIdentifier, List.tail_cons, hscan]
    rfl
  | all keyword =>
    obtain ⟨start, rest, hunits, hstart, hrest⟩ := keyword.exists_cons (by decide) all_letters
    have hall : (start :: rest).map fold = units "all" := fold_eq_all.mpr (hunits ▸ keyword.spells)
    have hscan := scanTarget_word hstart (fun c hc => identCont_of_identStart (hrest c hc)) h
    rw [Target.text, hunits, hscan, if_pos hall]
    rfl
  | regular start rest hstart hrest hall =>
    have hscan := scanTarget_word hstart hrest h
    rw [Target.text, hscan, if_neg hall]
    rfl

private theorem Trailer.head {trailer : Trailer} :
    ∀ c ∈ trailer.text.head?, isWs c = true ∨ c = Deallocate.semicolon := by
  cases trailer with
  | blank ws => exact fun c hc => Or.inl (ws.blank c (List.mem_of_mem_head? hc))
  | semicolon before behind =>
    intro c hc
    cases hbefore : before.units with
    | nil =>
      rw [Trailer.text, hbefore] at hc
      exact Or.inr (Option.some.inj hc).symm
    | cons first rest =>
      rw [Trailer.text, hbefore] at hc
      obtain rfl := Option.some.inj hc
      exact Or.inl (before.blank first (by rw [hbefore]; exact List.mem_cons_self))

theorem Target.ends_trailer (target : Target) (trailer : Trailer) : target.Ends trailer.text := by
  have hboundary : Boundary isIdentCont trailer.text := by
    intro c hc
    rcases Trailer.head c hc with hws | rfl
    · exact not_identCont_of_ws hws
    · decide
  cases target with
  | delimited pieces hne =>
    intro hquote
    rcases Trailer.head quote hquote with hws | hsemicolon
    · cases hws
    · cases hsemicolon
  | all keyword => exact hboundary
  | regular start rest hstart hrest hall => exact hboundary

theorem completeTarget_eq_some {text : Text} {invalidation : StatementCacheInvalidation} :
    completeTarget text = some invalidation ↔
      ∃ (target : Target) (trailer : Trailer), text = target.text ++ trailer.text ∧ invalidation = target.denotes := by
  unfold completeTarget
  constructor
  · intro h
    rw [Option.bind_eq_bind, Option.bind_eq_some_iff] at h
    obtain ⟨⟨found, next⟩, hscan, hif⟩ := h
    dsimp only at hif
    split at hif
    · rename_i htrailer
      obtain rfl := Option.some.inj hif
      obtain ⟨target, rfl, -, rfl⟩ := scanTarget_sound hscan
      obtain ⟨trailer, rfl⟩ := isTrailer_iff.mp htrailer
      exact ⟨target, trailer, rfl, rfl⟩
    · cases hif
  · rintro ⟨target, trailer, rfl, rfl⟩
    rw [scanTarget_complete target (target.ends_trailer trailer)]
    simp [isTrailer_iff.mpr ⟨trailer, rfl⟩]

end PgliteBridge.Deallocate
