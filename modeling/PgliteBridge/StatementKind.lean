import PgliteBridge.DeallocateGrammar

/-!
# The kind of a statement

`deriveKind` (`pool/query-trail.ts`) strips whitespace and comments from the front of a text and looks at what the rest
begins with, in upper case.  What it strips is stated apart from how it reads it (`Noise`), and `strip_sound` and
`strip_append` join the two.
-/

namespace PgliteBridge.QueryTrail

open Lexing Deallocate

inductive QueryTrailKind
  | query
  | begin
  | commit
  | rollback
  | rollbackTo
  | savepoint
  | release
deriving DecidableEq, Repr

def lineFeed : CodeUnit := 0x0a
def dash : CodeUnit := 0x2d
def slash : CodeUnit := 0x2f
def star : CodeUnit := 0x2a

/-- `\s` of a regular expression. -/
def isJsSpace (c : CodeUnit) : Bool :=
  (0x09 ≤ c && c ≤ 0x0d) || c == 0x20 || c == 0xa0 || c == 0x1680 || (0x2000 ≤ c && c ≤ 0x200a) || c == 0x2028 ||
    c == 0x2029 || c == 0x202f || c == 0x205f || c == 0x3000 || c == 0xfeff

/-- Behind `--`: `[^\n]*(?:\n|$)`. -/
def afterLine (text : Text) : Text := (text.dropWhile (· != lineFeed)).tail

/-- Behind the opening of a block comment: up to the first closing, or to the end. -/
def afterBlock : Text → Text
  | [] => []
  | c :: rest => if c = star ∧ rest.head? = some slash then rest.tail else afterBlock rest

/-- One alternative of `LEADING_NOISE`. -/
def matchNoise (text : Text) : Option Text :=
  if text.head?.any isJsSpace then some (text.dropWhile isJsSpace)
  else if text.take 2 = [dash, dash] then some (afterLine (text.drop 2))
  else if text.take 2 = [slash, star] then some (afterBlock (text.drop 2))
  else none

private theorem length_afterLine (text : Text) : (afterLine text).length ≤ text.length := by
  unfold afterLine
  rw [List.length_tail]
  have hdrop := (List.dropWhile_sublist (· != lineFeed) (l := text)).length_le
  omega

private theorem length_afterBlock (text : Text) : (afterBlock text).length ≤ text.length := by
  induction text with
  | nil => exact Nat.le_refl _
  | cons c rest ih =>
    unfold afterBlock
    split
    · rw [List.length_tail, List.length_cons]
      omega
    · exact Nat.le_succ_of_le ih

private theorem matchNoise_shorter {text rest : Text} (h : matchNoise text = some rest) :
    rest.length < text.length := by
  unfold matchNoise at h
  split at h
  · rename_i hspace
    obtain rfl := Option.some.inj h
    cases text with
    | nil => cases hspace
    | cons c more =>
      have hc : isJsSpace c = true := hspace
      rw [List.dropWhile_cons_of_pos hc]
      exact Nat.lt_succ_of_le (List.dropWhile_sublist isJsSpace).length_le
  · split at h
    · rename_i htake
      obtain rfl := Option.some.inj h
      have hlength := congrArg List.length htake
      have hafter := length_afterLine (text.drop 2)
      simp only [List.length_take, List.length_cons, List.length_nil, List.length_drop] at hlength hafter
      omega
    · split at h
      · rename_i htake
        obtain rfl := Option.some.inj h
        have hlength := congrArg List.length htake
        have hafter := length_afterBlock (text.drop 2)
        simp only [List.length_take, List.length_cons, List.length_nil, List.length_drop] at hlength hafter
        omega
      · cases h

/-- `sql.replace(LEADING_NOISE, '')`. -/
def stripLeadingNoise (text : Text) : Text :=
  match _h : matchNoise text with
  | some rest => stripLeadingNoise rest
  | none => text
termination_by text.length
decreasing_by exact matchNoise_shorter _h

/-- The upper case of a code unit.  Only ASCII letters matter to the tests: another unit is one of those whose upper
case has an ASCII letter, or is left. -/
def upperUnits (c : CodeUnit) : Text :=
  if c = 0xdf then units "SS"
  else if c = 0x131 then units "I"
  else if c = 0x149 then 0x2bc :: units "N"
  else if c = 0x17f then units "S"
  else if c = 0x1f0 then units "J" ++ [0x30c]
  else if c = 0x1e96 then units "H" ++ [0x331]
  else if c = 0x1e97 then units "T" ++ [0x308]
  else if c = 0x1e98 then units "W" ++ [0x30a]
  else if c = 0x1e99 then units "Y" ++ [0x30a]
  else if c = 0x1e9a then units "A" ++ [0x2be]
  else if c = 0xfb00 then units "FF"
  else if c = 0xfb01 then units "FI"
  else if c = 0xfb02 then units "FL"
  else if c = 0xfb03 then units "FFI"
  else if c = 0xfb04 then units "FFL"
  else if c = 0xfb05 then units "ST"
  else if c = 0xfb06 then units "ST"
  else [upper c]

def toUpperCase (text : Text) : Text := text.flatMap upperUnits

def startsWith (head word : Text) : Bool := word.isPrefixOf head

/-- The tests of `deriveKind`. -/
def kindOfHead (head : Text) : QueryTrailKind :=
  if startsWith head (units "BEGIN") || startsWith head (units "START TRANSACTION") then .begin
  else if startsWith head (units "COMMIT") || startsWith head (units "END") then .commit
  else if startsWith head (units "ROLLBACK TO") then .rollbackTo
  else if startsWith head (units "ROLLBACK") then .rollback
  else if startsWith head (units "SAVEPOINT") then .savepoint
  else if startsWith head (units "RELEASE") then .release
  else .query

def deriveKind (sql : Text) : QueryTrailKind := kindOfHead (toUpperCase (stripLeadingNoise sql))

/-! ### Noise -/

/-- What the expression reads as noise in front of something. -/
inductive Noise
  | space (c : CodeUnit) (h : isJsSpace c = true)
  | line (body : Text) (h : ∀ c ∈ body, c ≠ lineFeed)
  | block (body : Text) (h : ¬ [star, slash] <:+: body)

def Noise.text : Noise → Text
  | .space c _ => [c]
  | .line body _ => dash :: dash :: (body ++ [lineFeed])
  | .block body _ => slash :: star :: (body ++ [star, slash])

/-- Nothing in front of the text is noise. -/
def Bare (text : Text) : Prop := matchNoise text = none

theorem strip_bare {text : Text} (h : Bare text) : stripLeadingNoise text = text := by
  rw [stripLeadingNoise]
  split
  · rename_i hsome
    rw [h] at hsome
    cases hsome
  · rfl

private theorem strip_step {text rest : Text} (h : matchNoise text = some rest) :
    stripLeadingNoise text = stripLeadingNoise rest := by
  rw [stripLeadingNoise]
  split
  · rename_i hsome
    rw [h] at hsome
    rw [Option.some.inj hsome]
  · rename_i hnone
    rw [h] at hnone
    cases hnone

private theorem strip_dropWhile (text : Text) :
    stripLeadingNoise (text.dropWhile isJsSpace) = stripLeadingNoise text := by
  cases hspace : text.head?.any isJsSpace with
  | true => exact (strip_step (if_pos hspace)).symm
  | false =>
    cases text with
    | nil => rfl
    | cons c rest =>
      have hc : ¬ isJsSpace c = true := by simpa using hspace
      rw [List.dropWhile_cons_of_neg hc]

private theorem afterLine_append {body next : Text} (h : ∀ c ∈ body, c ≠ lineFeed) :
    afterLine (body ++ lineFeed :: next) = next := by
  unfold afterLine
  rw [List.dropWhile_append_of_pos fun c hc => by simpa using h c hc]
  rfl

private theorem afterBlock_append {body next : Text} (h : ¬ [star, slash] <:+: body) :
    afterBlock (body ++ star :: slash :: next) = next := by
  induction body with
  | nil => rfl
  | cons c body ih =>
    have hopen : ¬ (c = star ∧ (body ++ star :: slash :: next).head? = some slash) := by
      rintro ⟨rfl, hhead⟩
      cases body with
      | nil => cases hhead
      | cons d rest =>
        obtain rfl : d = slash := Option.some.inj hhead
        exact h ⟨[], rest, rfl⟩
    rw [List.cons_append, afterBlock, if_neg hopen]
    exact ih fun hinside => h (hinside.trans (List.suffix_cons c body).isInfix)

private theorem matchNoise_line (text : Text) : matchNoise (dash :: dash :: text) = some (afterLine text) := rfl

private theorem matchNoise_block (text : Text) : matchNoise (slash :: star :: text) = some (afterBlock text) := rfl

private theorem strip_noise_append (noise : Noise) (next : Text) :
    stripLeadingNoise (noise.text ++ next) = stripLeadingNoise next := by
  cases noise with
  | space c h =>
    have hmatch : matchNoise ([c] ++ next) = some (next.dropWhile isJsSpace) := by
      unfold matchNoise
      rw [if_pos (by exact h), List.singleton_append, List.dropWhile_cons_of_pos h]
    exact (strip_step hmatch).trans (strip_dropWhile next)
  | line body h =>
    have hmatch : matchNoise (dash :: dash :: (body ++ [lineFeed] ++ next)) = some next := by
      rw [matchNoise_line, List.append_assoc]
      exact congrArg some (afterLine_append h)
    exact strip_step hmatch
  | block body h =>
    have hmatch : matchNoise (slash :: star :: (body ++ [star, slash] ++ next)) = some next := by
      rw [matchNoise_block, List.append_assoc]
      exact congrArg some (afterBlock_append h)
    exact strip_step hmatch

theorem strip_append (noise : List Noise) (next : Text) :
    stripLeadingNoise (noise.flatMap Noise.text ++ next) = stripLeadingNoise next := by
  induction noise with
  | nil => rfl
  | cons first noise ih => rw [List.flatMap_cons, List.append_assoc, strip_noise_append, ih]

private theorem afterLine_sound {text : Text} (h : afterLine text ≠ []) :
    ∃ body, (∀ c ∈ body, c ≠ lineFeed) ∧ text = body ++ lineFeed :: afterLine text := by
  have hrun := run_takeWhile (· != lineFeed) text
  have hsplit := List.takeWhile_append_dropWhile (p := (· != lineFeed)) (l := text)
  unfold afterLine at h ⊢
  generalize text.dropWhile (· != lineFeed) = rest at hrun hsplit h ⊢
  cases rest with
  | nil => exact absurd rfl h
  | cons c rest =>
    obtain rfl : c = lineFeed := by simpa using hrun.boundary c rfl
    exact ⟨_, fun c hc => by simpa using hrun.word c hc, hsplit.symm⟩

private theorem afterBlock_sound {text : Text} (h : afterBlock text ≠ []) :
    ∃ body, ¬ [star, slash] <:+: body ∧ text = body ++ star :: slash :: afterBlock text := by
  induction text with
  | nil => exact absurd rfl h
  | cons c rest ih =>
    unfold afterBlock at h ⊢
    by_cases hclose : c = star ∧ rest.head? = some slash
    · rw [if_pos hclose] at h ⊢
      obtain ⟨rfl, hhead⟩ := hclose
      obtain ⟨tail, rfl⟩ := List.head?_eq_some_iff.mp hhead
      exact ⟨[], by simp, rfl⟩
    · rw [if_neg hclose] at h ⊢
      obtain ⟨body, hbody, hrest⟩ := ih h
      refine ⟨c :: body, ?_, congrArg (c :: ·) hrest⟩
      rintro ⟨front, back, hinside⟩
      cases front with
      | nil =>
        -- the closing would stand at the beginning
        obtain ⟨rfl, htail⟩ := List.cons.inj hinside
        refine hclose ⟨rfl, ?_⟩
        rw [hrest, ← htail]
        rfl
      | cons d front =>
        obtain ⟨-, htail⟩ := List.cons.inj hinside
        exact hbody ⟨front, back, htail⟩

private theorem matchNoise_sound {text rest : Text} (h : matchNoise text = some rest) (hne : rest ≠ []) :
    ∃ noise : List Noise, text = noise.flatMap Noise.text ++ rest := by
  unfold matchNoise at h
  split at h
  · obtain rfl := Option.some.inj h
    have hword := (run_takeWhile isJsSpace text).word
    have hspaces : ∀ word : Text, (∀ c ∈ word, isJsSpace c = true) →
        ∃ noise : List Noise, word = noise.flatMap Noise.text := by
      intro word hall
      induction word with
      | nil => exact ⟨[], rfl⟩
      | cons c word ih =>
        obtain ⟨noise, hnoise⟩ := ih fun d hd => hall d (List.mem_cons_of_mem _ hd)
        exact ⟨.space c (hall c List.mem_cons_self) :: noise, congrArg (c :: ·) hnoise⟩
    obtain ⟨noise, hnoise⟩ := hspaces _ hword
    exact ⟨noise, by rw [← hnoise, List.takeWhile_append_dropWhile]⟩
  · split at h
    · rename_i htake
      obtain rfl := Option.some.inj h
      obtain ⟨body, hbody, htext⟩ := afterLine_sound hne
      refine ⟨[.line body hbody], ?_⟩
      calc text = text.take 2 ++ text.drop 2 := (List.take_append_drop 2 text).symm
        _ = [dash, dash] ++ (body ++ lineFeed :: afterLine (text.drop 2)) := by rw [htake, ← htext]
        _ = _ := by simp [Noise.text]
    · split at h
      · rename_i htake
        obtain rfl := Option.some.inj h
        obtain ⟨body, hbody, htext⟩ := afterBlock_sound hne
        refine ⟨[.block body hbody], ?_⟩
        calc text = text.take 2 ++ text.drop 2 := (List.take_append_drop 2 text).symm
          _ = [slash, star] ++ (body ++ star :: slash :: afterBlock (text.drop 2)) := by rw [htake, ← htext]
          _ = _ := by simp [Noise.text]
      · cases h

theorem strip_is_bare (text : Text) : Bare (stripLeadingNoise text) := by
  induction text using stripLeadingNoise.induct with
  | case1 text rest h ih =>
    rw [strip_step h]
    exact ih
  | case2 text h =>
    rw [strip_bare h]
    exact h

theorem strip_sound {text : Text} (h : stripLeadingNoise text ≠ []) :
    ∃ noise : List Noise, text = noise.flatMap Noise.text ++ stripLeadingNoise text := by
  induction text using stripLeadingNoise.induct with
  | case1 text rest hmatch ih =>
    rw [strip_step hmatch] at h ⊢
    have hne : rest ≠ [] := by
      rintro rfl
      exact h (strip_bare rfl)
    obtain ⟨first, hfirst⟩ := matchNoise_sound hmatch hne
    obtain ⟨noise, hnoise⟩ := ih h
    refine ⟨first ++ noise, ?_⟩
    rw [List.flatMap_append, List.append_assoc, ← hnoise]
    exact hfirst
  | case2 text hmatch =>
    rw [strip_bare hmatch]
    exact ⟨[], rfl⟩

end PgliteBridge.QueryTrail
