import PgliteBridge.StatementKind

/-!
# Transaction statements as PostgreSQL lexes them

Whitespace, line comments and nested block comments are trivia in front of any token.  `deriveKind` reads comments that
do not nest and lines that only a line feed ends, and takes `START TRANSACTION` and `ROLLBACK TO` with one space:
`deriveKind_eq_iff` says of every statement whether its kind comes out.
-/

namespace PgliteBridge.QueryTrail

open Deallocate

/-! ### Derivations -/

def carriageReturn : CodeUnit := 0x0d

/-- What stands behind the opening of a block comment, with so many comments open. -/
inductive Nested : Nat → Text → Prop
  | last : Nested 1 [star, slash]
  | close {depth : Nat} {text : Text} (h : Nested depth text) : Nested (depth + 1) (star :: slash :: text)
  | opening {depth : Nat} {text : Text} (h : Nested (depth + 1) text) : Nested depth (slash :: star :: text)
  | unit {depth : Nat} {c : CodeUnit} {text : Text} (hopen : ¬ (c = slash ∧ text.head? = some star))
    (hclose : ¬ (c = star ∧ text.head? = some slash)) (h : Nested depth text) : Nested depth (c :: text)

inductive Trivia
  | space (c : CodeUnit) (h : isWs c = true)
  | line (body : Text) (h : ∀ c ∈ body, c ≠ lineFeed ∧ c ≠ carriageReturn) (stop : CodeUnit)
    (hstop : stop = lineFeed ∨ stop = carriageReturn)
  | block (body : Text) (h : Nested 1 body)

def Trivia.text : Trivia → Text
  | .space c _ => [c]
  | .line body _ stop _ => dash :: dash :: (body ++ [stop])
  | .block body _ => slash :: star :: body

/-- What separates two words. -/
structure Gap where
  pieces : List Trivia
  nonempty : pieces ≠ []

def Gap.text (gap : Gap) : Text := gap.pieces.flatMap Trivia.text

inductive NoiseWord
  | work (keyword : Keyword (units "WORK"))
  | transaction (keyword : Keyword (units "TRANSACTION"))

def NoiseWord.text : NoiseWord → Text
  | .work keyword => keyword.units
  | .transaction keyword => keyword.units

/-- What may follow a plain `ROLLBACK`. -/
inductive RollbackWord
  | noise (word : NoiseWord)
  | and (keyword : Keyword (units "AND"))
  | no (keyword : Keyword (units "NO"))
  | chain (keyword : Keyword (units "CHAIN"))

def RollbackWord.text : RollbackWord → Text
  | .noise word => word.text
  | .and keyword => keyword.units
  | .no keyword => keyword.units
  | .chain keyword => keyword.units

inductive Head
  | begin (keyword : Keyword (units "BEGIN"))
  | startTransaction (start : Keyword (units "START")) (gap : Gap) (transaction : Keyword (units "TRANSACTION"))
  | commit (keyword : Keyword (units "COMMIT"))
  | commitEnd (keyword : Keyword (units "END"))
  | rollback (keyword : Keyword (units "ROLLBACK")) (words : List (Gap × RollbackWord))
  | rollbackTo (keyword : Keyword (units "ROLLBACK")) (noise : Option (Gap × NoiseWord)) (gap : Gap)
    (target : Keyword (units "TO"))
  | savepoint (keyword : Keyword (units "SAVEPOINT"))
  | release (keyword : Keyword (units "RELEASE"))

/-- The end of a statement: of the text, a semicolon, or a line comment that the text ends in. -/
inductive Finish : Text → Prop
  | text (pieces : List Trivia) : Finish (pieces.flatMap Trivia.text)
  | semicolon (pieces : List Trivia) (more : Text) : Finish (pieces.flatMap Trivia.text ++ semicolon :: more)
  | line (pieces : List Trivia) (body : Text) : Finish (pieces.flatMap Trivia.text ++ dash :: dash :: body)

namespace Head

def text : Head → Text
  | .begin keyword => keyword.units
  | .startTransaction start gap transaction => start.units ++ (gap.text ++ transaction.units)
  | .commit keyword => keyword.units
  | .commitEnd keyword => keyword.units
  | .rollback keyword words => keyword.units ++ words.flatMap fun word => word.1.text ++ word.2.text
  | .rollbackTo keyword noise gap target =>
    keyword.units ++ (noise.elim [] (fun word => word.1.text ++ word.2.text) ++ (gap.text ++ target.units))
  | .savepoint keyword => keyword.units
  | .release keyword => keyword.units

def kind : Head → QueryTrailKind
  | .begin _ => .begin
  | .startTransaction _ _ _ => .begin
  | .commit _ => .commit
  | .commitEnd _ => .commit
  | .rollback _ _ => .rollback
  | .rollbackTo _ _ _ _ => .rollbackTo
  | .savepoint _ => .savepoint
  | .release _ => .release

/-- A plain `ROLLBACK` ends its statement; behind another head stands no part of its last word. -/
def Ends : Head → Text → Prop
  | .rollback _ _, rest => Finish rest
  | _, rest => Boundary isIdentCont rest

/-- The words that are tested together stand together, with one space between. -/
def Plain : Head → Prop
  | .startTransaction _ gap _ => gap.text = units " "
  | .rollbackTo _ noise gap _ => noise = none ∧ gap.text = units " "
  | _ => True

end Head

structure Statement where
  lead : List Trivia
  head : Head
  rest : Text
  ends : head.Ends rest

namespace Statement

def text (s : Statement) : Text := s.lead.flatMap Trivia.text ++ (s.head.text ++ s.rest)

def kind (s : Statement) : QueryTrailKind := s.head.kind

/-- What leads is noise also where comments do not nest and lines end only with a line feed. -/
def Flat (s : Statement) : Prop := ∃ noise : List Noise, noise.flatMap Noise.text = s.lead.flatMap Trivia.text

/-- Read so, the noise ends at another place, and what stands there has the tests of the same kind. -/
def Coincides (s : Statement) : Prop :=
  ∃ (noise : List Noise) (elsewhere : Text), s.text = noise.flatMap Noise.text ++ elsewhere ∧ Bare elsewhere ∧
    elsewhere ≠ s.head.text ++ s.rest ∧ kindOfHead (toUpperCase elsewhere) = s.kind

end Statement

/-! ### Words in upper case -/

private theorem upperUnits_of_ascii {c : CodeUnit} (h : c < 0x80) : upperUnits c = [upper c] := by
  have hall : ∀ n < 128, upperUnits (UInt16.ofNat n) = [upper (UInt16.ofNat n)] := by decide
  have hc := hall c.toNat h
  rwa [UInt16.ofNat_toNat] at hc

/-- A letter of a keyword is ASCII, and not a unit that noise begins with. -/
private theorem letter_ascii {c : CodeUnit} (h : 0x41 ≤ upper c ∧ upper c ≤ 0x5a) :
    c < 0x80 ∧ isJsSpace c = false ∧ c ≠ dash ∧ c ≠ slash := by
  have hsmall : c < 0x80 := by
    unfold upper at h
    grind
  have hall : ∀ n < 128, 0x41 ≤ upper (UInt16.ofNat n) ∧ upper (UInt16.ofNat n) ≤ 0x5a →
      isJsSpace (UInt16.ofNat n) = false ∧ UInt16.ofNat n ≠ dash ∧ UInt16.ofNat n ≠ slash := by decide
  have hc := hall c.toNat hsmall
  rw [UInt16.ofNat_toNat] at hc
  exact ⟨hsmall, hc h⟩

private theorem toUpperCase_append (text next : Text) :
    toUpperCase (text ++ next) = toUpperCase text ++ toUpperCase next :=
  List.flatMap_append

private theorem toUpperCase_letters {word : Text} (h : ∀ c ∈ word, 0x41 ≤ upper c ∧ upper c ≤ 0x5a) :
    toUpperCase word = word.map upper := by
  induction word with
  | nil => rfl
  | cons c word ih =>
    have hc := upperUnits_of_ascii (letter_ascii (h c List.mem_cons_self)).1
    have hrest := ih fun d hd => h d (List.mem_cons_of_mem _ hd)
    rw [toUpperCase, List.flatMap_cons, hc, List.map_cons, ← hrest]
    rfl

/-- A word is a keyword of letters. -/
def Letters (word : Text) : Prop := ∀ k ∈ word, 0x41 ≤ k ∧ k ≤ 0x5a

private theorem keyword_letters {word : Text} (keyword : Keyword word) (h : Letters word) :
    ∀ c ∈ keyword.units, 0x41 ≤ upper c ∧ upper c ≤ 0x5a := by
  intro c hc
  exact h (upper c) (keyword.spells ▸ List.mem_map_of_mem hc)

private theorem toUpperCase_keyword {word : Text} (keyword : Keyword word) (h : Letters word) (next : Text) :
    toUpperCase (keyword.units ++ next) = word ++ toUpperCase next := by
  rw [toUpperCase_append, toUpperCase_letters (keyword_letters keyword h), keyword.spells]

private theorem bare_cons {c : CodeUnit} {rest : Text} (h : isJsSpace c = false ∧ c ≠ dash ∧ c ≠ slash) :
    Bare (c :: rest) := by
  obtain ⟨hspace, hdash, hslash⟩ := h
  have hfirst : ∀ {d e : CodeUnit}, c ≠ d → ¬ (c :: rest).take 2 = [d, e] := by
    intro d e hne htake
    rw [List.take_succ_cons] at htake
    exact hne (List.cons.inj htake).1
  unfold Bare matchNoise
  rw [if_neg (by rw [List.head?_cons, Option.any_some, hspace]; decide), if_neg (hfirst hdash), if_neg (hfirst hslash)]

private theorem keyword_cons {word : Text} (keyword : Keyword word) (h : Letters word) (hne : word ≠ []) :
    ∃ c more, keyword.units = c :: more ∧ 0x41 ≤ upper c ∧ upper c ≤ 0x5a := by
  have hletters := keyword_letters keyword h
  have hlength := keyword.length
  cases hunits : keyword.units with
  | nil =>
    rw [hunits] at hlength
    exact absurd (List.length_eq_zero_iff.mp hlength.symm) hne
  | cons c more =>
    rw [hunits] at hletters
    exact ⟨c, more, rfl, hletters c List.mem_cons_self⟩

/-! ### Gaps in upper case -/

/-- A unit that trivia begins with. -/
def TriviaUnit (c : CodeUnit) : Prop := isWs c = true ∨ c = dash ∨ c = slash

private theorem TriviaUnit.upper {c : CodeUnit} (h : TriviaUnit c) : upperUnits c = [c] ∧ ¬ (0x41 ≤ c ∧ c ≤ 0x5a) := by
  rcases h with h | rfl | rfl
  · simp only [isWs, Bool.or_eq_true, beq_iff_eq] at h
    rcases h with ((((rfl | rfl) | rfl) | rfl) | rfl) | rfl <;> decide
  · decide
  · decide

private theorem Trivia.text_cons (trivia : Trivia) : ∃ c rest, trivia.text = c :: rest ∧ TriviaUnit c ∧
    (c = 0x20 → rest = []) := by
  cases trivia with
  | space c h => exact ⟨c, [], rfl, .inl h, fun _ => rfl⟩
  | line body h stop hstop => exact ⟨dash, _, rfl, .inr (.inl rfl), fun he => absurd he (by decide)⟩
  | block body h => exact ⟨slash, _, rfl, .inr (.inr rfl), fun he => absurd he (by decide)⟩

private theorem toUpperCase_trivia (pieces : List Trivia) (next : Text) (trivia : Trivia) :
    ∃ c rest, toUpperCase ((trivia :: pieces).flatMap Trivia.text ++ next) =
        c :: toUpperCase (rest ++ pieces.flatMap Trivia.text ++ next) ∧
      (trivia :: pieces).flatMap Trivia.text = c :: (rest ++ pieces.flatMap Trivia.text) ∧
      ¬ (0x41 ≤ c ∧ c ≤ 0x5a) ∧ (c = 0x20 → rest = []) := by
  obtain ⟨c, rest, htext, hunit, hspace⟩ := trivia.text_cons
  obtain ⟨hupper, hletter⟩ := hunit.upper
  refine ⟨c, rest, ?_, ?_, hletter, hspace⟩
  · rw [List.flatMap_cons, htext]
    show upperUnits c ++ _ = _
    rw [hupper]
    rfl
  · rw [List.flatMap_cons, htext]
    rfl

private theorem startsWith_cons {c d : CodeUnit} {text word : Text} :
    startsWith (c :: text) (d :: word) = true ↔ c = d ∧ startsWith text word = true := by
  unfold startsWith
  rw [List.isPrefixOf_cons_cons, Bool.and_eq_true, beq_iff_eq, eq_comm]

/-- Behind trivia, one space and a letter are read only if the trivia are one space. -/
private theorem startsWith_space {pieces : List Trivia} {next : Text} {l : CodeUnit} {word : Text}
    (hl : 0x41 ≤ l ∧ l ≤ 0x5a) :
    startsWith (toUpperCase (pieces.flatMap Trivia.text ++ next)) (0x20 :: l :: word) = true ↔
      (pieces.flatMap Trivia.text = units " " ∧ startsWith (toUpperCase next) (l :: word) = true) ∨
        (pieces = [] ∧ startsWith (toUpperCase next) (0x20 :: l :: word) = true) := by
  have hunits : units " " = [0x20] := by decide
  rw [hunits]
  cases pieces with
  | nil => simp
  | cons first pieces =>
    obtain ⟨c, rest, hupper, htext, -, hspace⟩ := toUpperCase_trivia pieces next first
    rw [hupper, htext, startsWith_cons]
    by_cases hc : c = 0x20
    · obtain rfl := hspace hc
      rw [List.nil_append]
      cases pieces with
      | nil => simp [hc]
      | cons second pieces =>
        -- a letter does not begin trivia
        obtain ⟨d, more, hupper', htext', hletter, -⟩ := toUpperCase_trivia pieces next second
        rw [hupper', htext', startsWith_cons]
        have hne : ¬ d = l := fun he => hletter (he ▸ hl)
        simp [hne]
    · simp [hc]

/-! ### The tests of the heads -/

private theorem kindOfHead_begin (next : Text) : kindOfHead (units "BEGIN" ++ next) = .begin := rfl

private theorem kindOfHead_commit (next : Text) : kindOfHead (units "COMMIT" ++ next) = .commit := rfl

private theorem kindOfHead_end (next : Text) : kindOfHead (units "END" ++ next) = .commit := rfl

private theorem kindOfHead_savepoint (next : Text) : kindOfHead (units "SAVEPOINT" ++ next) = .savepoint := rfl

private theorem kindOfHead_release (next : Text) : kindOfHead (units "RELEASE" ++ next) = .release := rfl

private theorem kindOfHead_start (next : Text) : kindOfHead (units "START" ++ next) =
    if startsWith next (units " TRANSACTION") then .begin else .query := rfl

private theorem kindOfHead_rollback (next : Text) : kindOfHead (units "ROLLBACK" ++ next) =
    if startsWith next (units " TO") then .rollbackTo else .rollback := rfl

private theorem startsWith_append (word next : Text) : startsWith (word ++ next) word = true :=
  List.isPrefixOf_iff_prefix.mpr (List.prefix_append word next)

private theorem NoiseWord.not_to (word : NoiseWord) (next : Text) :
    startsWith (toUpperCase (word.text ++ next)) (units "TO") = false := by
  cases word with
  | work keyword =>
    rw [NoiseWord.text, toUpperCase_keyword keyword (letters_of_all (by decide))]
    rfl
  | transaction keyword =>
    rw [NoiseWord.text, toUpperCase_keyword keyword (letters_of_all (by decide))]
    rfl

private theorem RollbackWord.not_to (word : RollbackWord) (next : Text) :
    startsWith (toUpperCase (word.text ++ next)) (units "TO") = false := by
  cases word with
  | noise word => exact word.not_to next
  | and keyword =>
    rw [RollbackWord.text, toUpperCase_keyword keyword (letters_of_all (by decide))]
    rfl
  | no keyword =>
    rw [RollbackWord.text, toUpperCase_keyword keyword (letters_of_all (by decide))]
    rfl
  | chain keyword =>
    rw [RollbackWord.text, toUpperCase_keyword keyword (letters_of_all (by decide))]
    rfl

/-- Behind a gap ` TO` is read only if the gap is one space. -/
private theorem startsWith_gap (gap : Gap) (next : Text) {l : CodeUnit} {word : Text} (hl : 0x41 ≤ l ∧ l ≤ 0x5a) :
    startsWith (toUpperCase (gap.text ++ next)) (0x20 :: l :: word) = true ↔
      gap.text = units " " ∧ startsWith (toUpperCase next) (l :: word) = true := by
  rw [Gap.text, startsWith_space hl]
  constructor
  · rintro (h | ⟨hempty, -⟩)
    · exact h
    · exact absurd hempty gap.nonempty
  · exact .inl

private theorem letter_T : (0x41 : CodeUnit) ≤ 0x54 ∧ (0x54 : CodeUnit) ≤ 0x5a := by decide

private theorem Finish.not_to {rest : Text} (h : Finish rest) :
    ¬ startsWith (toUpperCase rest) (units " TO") = true := by
  -- what ends a statement begins neither with a space nor with a letter
  have hend : ∀ (pieces : List Trivia) (finish : Text), (∀ c ∈ finish.head?, c = Deallocate.semicolon ∨ c = dash) →
      ¬ startsWith (toUpperCase (pieces.flatMap Trivia.text ++ finish)) (units " TO") = true := by
    intro pieces finish hfirst
    have hnone : ∀ {l : CodeUnit} {word : Text}, l ≠ Deallocate.semicolon → l ≠ dash →
        ¬ startsWith (toUpperCase finish) (l :: word) = true := by
      intro l word hsemicolon hdash
      cases finish with
      | nil => exact Bool.false_ne_true
      | cons c more =>
        rcases hfirst c rfl with rfl | rfl
        · exact fun he => hsemicolon (startsWith_cons.mp he).1.symm
        · exact fun he => hdash (startsWith_cons.mp he).1.symm
    rw [show units " TO" = [0x20, 0x54, 0x4f] from rfl, startsWith_space letter_T]
    rintro (⟨-, hword⟩ | ⟨-, hspace⟩)
    · exact hnone (by decide) (by decide) hword
    · exact hnone (by decide) (by decide) hspace
  cases h with
  | text pieces =>
    rw [← List.append_nil (pieces.flatMap Trivia.text)]
    exact hend pieces [] nofun
  | semicolon pieces more => exact hend pieces _ fun c hc => .inl (Option.some.inj hc).symm
  | line pieces body => exact hend pieces _ fun c hc => .inr (Option.some.inj hc).symm

/-- The tests tell the kind of a head just when it is plain. -/
private theorem Head.kind_iff (head : Head) {rest : Text} (h : head.Ends rest) :
    kindOfHead (toUpperCase (head.text ++ rest)) = head.kind ↔ head.Plain := by
  cases head with
  | begin keyword =>
    rw [Head.text, toUpperCase_keyword keyword (letters_of_all (by decide)), kindOfHead_begin]
    exact ⟨fun _ => trivial, fun _ => rfl⟩
  | commit keyword =>
    rw [Head.text, toUpperCase_keyword keyword (letters_of_all (by decide)), kindOfHead_commit]
    exact ⟨fun _ => trivial, fun _ => rfl⟩
  | commitEnd keyword =>
    rw [Head.text, toUpperCase_keyword keyword (letters_of_all (by decide)), kindOfHead_end]
    exact ⟨fun _ => trivial, fun _ => rfl⟩
  | savepoint keyword =>
    rw [Head.text, toUpperCase_keyword keyword (letters_of_all (by decide)), kindOfHead_savepoint]
    exact ⟨fun _ => trivial, fun _ => rfl⟩
  | release keyword =>
    rw [Head.text, toUpperCase_keyword keyword (letters_of_all (by decide)), kindOfHead_release]
    exact ⟨fun _ => trivial, fun _ => rfl⟩
  | startTransaction start gap transaction =>
    have hword : startsWith (toUpperCase (transaction.units ++ rest)) (units "TRANSACTION") = true := by
      rw [toUpperCase_keyword transaction (letters_of_all (by decide))]
      exact startsWith_append _ _
    have hspaced : startsWith (toUpperCase (gap.text ++ (transaction.units ++ rest))) (units " TRANSACTION") = true ↔
        gap.text = units " " := by
      rw [show units " TRANSACTION" = 0x20 :: 0x54 :: (units "TRANSACTION").tail from rfl,
        startsWith_gap gap _ letter_T]
      exact ⟨fun h => h.1, fun h => ⟨h, hword⟩⟩
    rw [Head.text, List.append_assoc, List.append_assoc, toUpperCase_keyword start (letters_of_all (by decide)),
      kindOfHead_start]
    by_cases hgap : gap.text = units " "
    · rw [if_pos (hspaced.mpr hgap)]
      exact ⟨fun _ => hgap, fun _ => rfl⟩
    · rw [if_neg (mt hspaced.mp hgap)]
      exact ⟨fun he => (by cases he), fun he => absurd he hgap⟩
  | rollback keyword words =>
    have hnot : ¬ startsWith (toUpperCase ((words.flatMap fun word => word.1.text ++ word.2.text) ++ rest))
        (units " TO") = true := by
      cases words with
      | nil => exact h.not_to
      | cons first words =>
        rw [List.flatMap_cons, List.append_assoc, List.append_assoc,
          show units " TO" = [0x20, 0x54, 0x4f] from rfl, startsWith_gap first.1 _ letter_T]
        rintro ⟨-, hword⟩
        rw [show ([0x54, 0x4f] : Text) = units "TO" from rfl, first.2.not_to] at hword
        cases hword
    rw [Head.text, List.append_assoc, toUpperCase_keyword keyword (letters_of_all (by decide)), kindOfHead_rollback,
      if_neg hnot]
    exact ⟨fun _ => trivial, fun _ => rfl⟩
  | rollbackTo keyword noise gap target =>
    have hword : startsWith (toUpperCase (target.units ++ rest)) (units "TO") = true := by
      rw [toUpperCase_keyword target (letters_of_all (by decide))]
      exact startsWith_append _ _
    have hspaced : startsWith (toUpperCase ((noise.elim [] fun word => word.1.text ++ word.2.text) ++
        (gap.text ++ (target.units ++ rest)))) (units " TO") = true ↔ noise = none ∧ gap.text = units " " := by
      rw [show units " TO" = [0x20, 0x54, 0x4f] from rfl]
      cases noise with
      | none =>
        rw [Option.elim_none, List.nil_append, startsWith_gap gap _ letter_T]
        exact ⟨fun h => ⟨rfl, h.1⟩, fun h => ⟨h.2, hword⟩⟩
      | some word =>
        rw [Option.elim_some, List.append_assoc, startsWith_gap word.1 _ letter_T]
        refine ⟨fun ⟨_, hnoise⟩ => ?_, fun h => (by cases h.1)⟩
        rw [show ([0x54, 0x4f] : Text) = units "TO" from rfl, word.2.not_to] at hnoise
        cases hnoise
    rw [Head.text, List.append_assoc, List.append_assoc, List.append_assoc,
      toUpperCase_keyword keyword (letters_of_all (by decide)), kindOfHead_rollback]
    by_cases hplain : noise = none ∧ gap.text = units " "
    · rw [if_pos (hspaced.mpr hplain)]
      exact ⟨fun _ => hplain, fun _ => rfl⟩
    · rw [if_neg (mt hspaced.mp hplain)]
      exact ⟨fun he => (by cases he), fun he => absurd he hplain⟩

/-! ### Statements -/

private theorem Head.cons (head : Head) : ∃ c more, head.text = c :: more ∧ 0x41 ≤ upper c ∧ upper c ≤ 0x5a := by
  have hword : ∀ {word : Text} (keyword : Keyword word), Letters word → word ≠ [] → ∀ next : Text,
      ∃ c more, keyword.units ++ next = c :: more ∧ 0x41 ≤ upper c ∧ upper c ≤ 0x5a := by
    intro word keyword hletters hne next
    obtain ⟨c, more, hunits, hc⟩ := keyword_cons keyword hletters hne
    exact ⟨c, more ++ next, by rw [hunits, List.cons_append], hc⟩
  cases head with
  | begin keyword => exact keyword_cons keyword (letters_of_all (by decide)) (by decide)
  | startTransaction start gap transaction => exact hword start (letters_of_all (by decide)) (by decide) _
  | commit keyword => exact keyword_cons keyword (letters_of_all (by decide)) (by decide)
  | commitEnd keyword => exact keyword_cons keyword (letters_of_all (by decide)) (by decide)
  | rollback keyword words => exact hword keyword (letters_of_all (by decide)) (by decide) _
  | rollbackTo keyword noise gap target => exact hword keyword (letters_of_all (by decide)) (by decide) _
  | savepoint keyword => exact keyword_cons keyword (letters_of_all (by decide)) (by decide)
  | release keyword => exact keyword_cons keyword (letters_of_all (by decide)) (by decide)

private theorem Head.kind_ne_query (head : Head) : head.kind ≠ .query := by
  cases head <;> exact fun he => by cases he

/-- The noise in front of a head ends where the head begins just when the lead is flat. -/
private theorem Statement.flat_iff (s : Statement) : s.Flat ↔ stripLeadingNoise s.text = s.head.text ++ s.rest := by
  obtain ⟨c, more, hhead, hc⟩ := s.head.cons
  constructor
  · rintro ⟨noise, hnoise⟩
    rw [Statement.text, ← hnoise, strip_append, hhead]
    exact strip_bare (bare_cons (letter_ascii hc).2)
  · intro hstrip
    have hne : stripLeadingNoise s.text ≠ [] := by
      rw [hstrip, hhead]
      exact List.cons_ne_nil _ _
    obtain ⟨noise, hnoise⟩ := strip_sound hne
    rw [hstrip] at hnoise
    exact ⟨noise, (List.append_cancel_right hnoise).symm⟩

/-- The kind comes out just when what leads is flat and the head is plain, but for a coincidence. -/
theorem deriveKind_eq_iff (s : Statement) :
    deriveKind s.text = s.kind ↔ s.Flat ∧ s.head.Plain ∨ ¬ s.Flat ∧ s.Coincides := by
  unfold deriveKind
  by_cases hflat : s.Flat
  · rw [s.flat_iff.mp hflat, Statement.kind, s.head.kind_iff s.ends]
    exact ⟨fun h => .inl ⟨hflat, h⟩, fun h => h.elim And.right fun h => absurd hflat h.1⟩
  · have helsewhere : stripLeadingNoise s.text ≠ s.head.text ++ s.rest := mt s.flat_iff.mpr hflat
    constructor
    · intro hkind
      have hne : stripLeadingNoise s.text ≠ [] := by
        intro hnil
        rw [hnil] at hkind
        exact s.head.kind_ne_query hkind.symm
      obtain ⟨noise, hnoise⟩ := strip_sound hne
      exact .inr ⟨hflat, noise, _, hnoise, strip_is_bare _, helsewhere, hkind⟩
    · rintro (h | ⟨-, noise, elsewhere, htext, hbare, -, hkind⟩)
      · exact absurd h.1 hflat
      · rw [htext, strip_append, strip_bare hbare]
        exact hkind

/-- Two spaces make a rollback of a `ROLLBACK TO`. -/
theorem deriveKind_misses : ¬ ∀ s : Statement, deriveKind s.text = s.kind := by
  intro hclaim
  have hspace : isWs 0x20 = true := by decide
  let spaced : Statement :=
    { lead := []
      head := .rollbackTo ⟨units "ROLLBACK", by decide⟩ none ⟨[.space 0x20 hspace, .space 0x20 hspace], by simp⟩
        ⟨units "TO", by decide⟩
      rest := units " sp1"
      ends := by
        intro c hc
        obtain rfl := Option.some.inj hc
        decide }
  have hkind := hclaim spaced
  have hflat : spaced.Flat := ⟨[], rfl⟩
  rw [deriveKind, spaced.flat_iff.mp hflat, Statement.kind, spaced.head.kind_iff spaced.ends] at hkind
  exact absurd hkind.2 (show ¬ ([0x20, 0x20] : Text) = units " " by decide)

end PgliteBridge.QueryTrail
