import PgliteBridge.CopyIn

/-!
# Composed texts

The token grammar of the classifier's property suite (`duplex/__tests__/copy-in-arbitraries.ts`): a text is a list of
statements joined by `;`, a statement a list of tokens with whitespace and comments in between.  A piece is checked with
the characters around it (`Piece.Fits`), so that no two pieces run into one another.
-/

namespace PgliteBridge.CopyIn

/-! ### Characters -/

def isWordHead (ch : Char) : Bool := isAsciiLetter ch || ch == '_' || (isHighBit ch && !isJsSpace ch)

def isWordChar (ch : Char) : Bool := isWordHead ch || isAsciiDigit ch || ch == '$'

def isPunctuation (ch : Char) : Bool :=
  !isHighBit ch && !isWordChar ch && !isJsSpace ch && ch != '\'' && ch != '"' && ch != ';'

/-! ### Pieces -/

/-- What stands in the body of `E'…'`. -/
inductive EscapeUnit
  | plain (ch : Char)
  | escaped (ch : Char)
  | doubled
deriving DecidableEq

inductive Token
  | word (text : List Char)
  | number (text : List Char)
  | punctuation (ch : Char)
  | quotedIdentifier (body : List Char)
  | standardString (body : List Char)
  | escapeString (mark : Char) (body : List EscapeUnit)
  | dollarQuote (tag body : List Char)
deriving DecidableEq

inductive Trivia
  | space (ch : Char)
  | lineComment (body : List Char)
  | blockComment (body : List Char)
deriving DecidableEq

inductive Piece
  | token (t : Token)
  | trivia (t : Trivia)
deriving DecidableEq

abbrev Statement := List Piece

/-! ### Text -/

def EscapeUnit.text : EscapeUnit → List Char
  | plain ch => [ch]
  | escaped ch => ['\\', ch]
  | doubled => ['\'', '\'']

/-- `body.replaceAll(quote, quote + quote)`. -/
def doubleQuotes (quote : Char) (body : List Char) : List Char :=
  body.flatMap fun ch => if ch = quote then [quote, quote] else [ch]

def delimiter (tag : List Char) : List Char := '$' :: (tag ++ ['$'])

def Token.text : Token → List Char
  | word text => text
  | number text => text
  | punctuation ch => [ch]
  | quotedIdentifier body => '"' :: (doubleQuotes '"' body ++ ['"'])
  | standardString body => '\'' :: (doubleQuotes '\'' body ++ ['\''])
  | escapeString mark body => mark :: '\'' :: (body.flatMap EscapeUnit.text ++ ['\''])
  | dollarQuote tag body => delimiter tag ++ body ++ delimiter tag

def Trivia.text : Trivia → List Char
  | space ch => [ch]
  | lineComment body => '-' :: '-' :: (body ++ ['\n'])
  | blockComment body => '/' :: '*' :: (body ++ ['*', '/'])

def Piece.text : Piece → List Char
  | token t => t.text
  | trivia t => t.text

def Statement.text (s : Statement) : List Char := s.flatMap Piece.text

def composedText (ss : List Statement) : List Char := [';'].intercalate (ss.map Statement.text)

/-! ### Well-formedness -/

/-- The body of a block comment, with whole comments in it. -/
inductive BlockBody : List Char → Prop
  | nil : BlockBody []
  | char {ch : Char} {body : List Char} (hbody : BlockBody body)
      (hopens : ch = '/' → (body ++ ['*', '/']).head? ≠ some '*')
      (hcloses : ch = '*' → (body ++ ['*', '/']).head? ≠ some '/') : BlockBody (ch :: body)
  | nested {inner body : List Char} (hinner : BlockBody inner) (hbody : BlockBody body) :
      BlockBody ('/' :: '*' :: (inner ++ '*' :: '/' :: body))

def EscapeUnit.Fits : EscapeUnit → Prop
  | plain ch => ch ≠ '\\' ∧ ch ≠ '\''
  | escaped _ => True
  | doubled => True

/-- The first delimiter behind the opening one is the closing one. -/
def Closes (tag body : List Char) : Prop :=
  ∀ n, n < body.length → ¬delimiter tag <+: (body ++ delimiter tag).drop n

def IsTag (tag : List Char) : Prop := (∀ ch ∈ tag, isTagChar ch) ∧ ∀ ch ∈ tag.head?, isAsciiDigit ch = false

/-- What a token has to be, between the character before it and the one behind it. -/
def Token.Fits (prev next : Option Char) : Token → Prop
  | word text =>
    (∃ head tail, text = head :: tail ∧ isWordHead head = true ∧ ∀ ch ∈ tail, isWordChar ch = true) ∧
      (∀ ch ∈ next, isWordChar ch = false) ∧ (next = some '\'' → text ≠ ['e'] ∧ text ≠ ['E'])
  | number text => text ≠ [] ∧ (∀ ch ∈ text, isAsciiDigit ch = true) ∧ ∀ ch ∈ next, isWordChar ch = false
  | punctuation ch => isPunctuation ch = true ∧ (ch = '-' → next ≠ some '-') ∧ (ch = '/' → next ≠ some '*')
  | quotedIdentifier _ => next ≠ some '"'
  | standardString _ => next ≠ some '\''
  | escapeString mark body =>
    (mark = 'e' ∨ mark = 'E') ∧ (∀ unit ∈ body, unit.Fits) ∧ isIdentifierGlue prev = false ∧ next ≠ some '\''
  | dollarQuote tag body => IsTag tag ∧ Closes tag body ∧ isIdentifierGlue prev = false

def Trivia.Fits : Trivia → Prop
  | space ch => isJsSpace ch = true ∧ isHighBit ch = false
  | lineComment body => '\n' ∉ body
  | blockComment body => BlockBody body

def Piece.Fits (prev next : Option Char) : Piece → Prop
  | token t => t.Fits prev next
  | trivia t => t.Fits

def Statement.Fits : Option Char → Statement → Prop
  | _, [] => True
  | prev, p :: s => p.Fits prev (Statement.text s).head? ∧ Statement.Fits p.text.getLast? s

/-- Every statement is made of pieces that fit. -/
def Composed (ss : List Statement) : Prop := ∀ s ∈ ss, Statement.Fits none s

/-! ### Words and verdicts -/

/-- The words that are seen in a token. -/
def Token.words : Token → List (List Char)
  | word text => tokenize text
  | _ => []

def Piece.words : Piece → List (List Char)
  | token t => t.words
  | trivia _ => []

def Statement.words (s : Statement) : List (List Char) := s.flatMap Piece.words

def Piece.token? : Piece → Option Token
  | token t => some t
  | trivia _ => none

def Statement.tokens (s : Statement) : List Token := s.filterMap Piece.token?

/-- The keyword, in any case. -/
def Token.is (keyword : String) : Token → Bool
  | word text => text.map Char.toLower == keyword.toList
  | _ => false

def fromStdin : List Token → Bool
  | a :: b :: tokens => (a.is "from" && b.is "stdin") || fromStdin (b :: tokens)
  | _ => false

/-- `COPY … FROM STDIN`, by its tokens. -/
def isCopyFromStdin : List Token → Bool
  | first :: tokens => first.is "copy" && fromStdin tokens
  | [] => false

/-- `COPY … FROM STDIN`, by its words. -/
def readsCopyIn : List (List Char) → Bool
  | first :: words => first == "copy".toList && hasPair "from".toList "stdin".toList words
  | [] => false

/-- `expectedVerdict`: empty statements do not count. -/
def expectedVerdict (isCopyIn : Statement → Bool) (ss : List Statement) : CopyInVerdict :=
  let statements := ss.filter fun s => !s.tokens.isEmpty
  if !statements.any isCopyIn then .notCopyIn
  else if statements.length = 1 then .capture
  else .rejectMulti

end PgliteBridge.CopyIn
