import PgliteBridge.Wire

/-!
# Copy-in classification

`sniffCopyIn` (`duplex/copy-in.ts`) decides whether the text of a simple query is a `COPY … FROM STDIN`.  Literals and
comments are stripped, the rest is split at `;` and cut into words.  A text is a list of characters; each scanning
function returns what is left of the text behind the region it skips.
-/

namespace PgliteBridge

/-! ### Characters -/

def isAsciiLetter (ch : Char) : Bool := ('a' ≤ ch && ch ≤ 'z') || ('A' ≤ ch && ch ≤ 'Z')

def isAsciiDigit (ch : Char) : Bool := '0' ≤ ch && ch ≤ '9'

def isHighBit (ch : Char) : Bool := decide (0x80 ≤ ch.toNat)

/-- `/[A-Za-z0-9_$]/.test(ch) || ch.charCodeAt(0) >= 0x80`; no character at the start of the text. -/
def isIdentifierGlue : Option Char → Bool
  | none => false
  | some ch => isAsciiLetter ch || isAsciiDigit ch || ch == '_' || ch == '$' || isHighBit ch

/-! ### Skipped regions -/

/-- `while (text[i] !== '\n') i++`. -/
def skipLineComment (text : List Char) : List Char := text.dropWhile (· != '\n')

/-- The rest of a block comment that is `depth` levels deep. -/
def skipBlockComment : Nat → List Char → List Char
  | 0, text => text
  | _ + 1, [] => []
  | depth + 1, '/' :: '*' :: text => skipBlockComment (depth + 2) text
  | depth + 1, '*' :: '/' :: text => skipBlockComment depth text
  | depth + 1, _ :: text => skipBlockComment (depth + 1) text

/-- The rest of a literal; `escaping` in `E'…'`. -/
def skipLiteral (escaping : Bool) : List Char → List Char
  | [] => []
  | '\'' :: '\'' :: text => skipLiteral escaping text
  | '\'' :: text => text
  | ['\\'] => []
  | '\\' :: ch :: text => if escaping then skipLiteral escaping text else skipLiteral escaping (ch :: text)
  | _ :: text => skipLiteral escaping text

/-- The rest of a quoted identifier. -/
def skipQuotedIdentifier : List Char → List Char
  | [] => []
  | '"' :: '"' :: text => skipQuotedIdentifier text
  | '"' :: text => text
  | _ :: text => skipQuotedIdentifier text

def isTagChar (ch : Char) : Bool := isAsciiLetter ch || isAsciiDigit ch || ch == '_'

/-- The tag of `/^\$(?:[A-Za-z_][A-Za-z0-9_]*)?\$/`, behind its first `$`. -/
def dollarTag (text : List Char) : Option (List Char) :=
  let tag := text.takeWhile isTagChar
  if (text.drop tag.length).head? = some '$' ∧ !(tag.head?.any isAsciiDigit) then some tag else none

/-- What is behind the first occurrence of `closer`. -/
def afterIndexOf (closer : List Char) : List Char → List Char
  | [] => []
  | ch :: text => if closer.isPrefixOf (ch :: text) then (ch :: text).drop closer.length else afterIndexOf closer text

/-! ### `stripQuotedAndComments` -/

/-- What the scanner pushes for the region that starts with `ch`, and the text behind the region; `prev` is the
character before `ch`. -/
def stripRegion (prev : Option Char) (ch : Char) (text : List Char) : Char × List Char :=
  if ch = '-' ∧ text.head? = some '-' then (' ', skipLineComment text)
  else if ch = '/' ∧ text.head? = some '*' then (' ', skipBlockComment 1 (text.drop 1))
  else if ch = '\'' then ('?', skipLiteral false text)
  else if (ch = 'e' ∨ ch = 'E') ∧ text.head? = some '\'' ∧ !isIdentifierGlue prev then
    ('?', skipLiteral true (text.drop 1))
  else if ch = '"' then ('?', skipQuotedIdentifier text)
  else if ch = '$' ∧ !isIdentifierGlue prev then
    match dollarTag text with
    | some tag => ('?', afterIndexOf ('$' :: tag ++ ['$']) (text.drop (tag.length + 1)))
    | none => (ch, text)
  else (ch, text)

/-- `text.charAt(i - 1)` where `rest` starts at `i`. -/
def charBefore (text rest : List Char) : Option Char := (text.take (text.length - rest.length)).getLast?

/-- The scanner loop; every turn consumes a character, so the length of the text is fuel enough. -/
def stripFrom : Nat → Option Char → List Char → List Char
  | 0, _, _ => []
  | _ + 1, _, [] => []
  | fuel + 1, prev, ch :: text =>
    let region := stripRegion prev ch text
    region.1 :: stripFrom fuel (charBefore (ch :: text) region.2) region.2

def stripQuotedAndComments (text : List Char) : List Char := stripFrom text.length none text

/-! ### Words -/

/-- `toLowerCase`.  Besides the ASCII letters only U+212A and U+0130 have a lower case with an ASCII letter in it. -/
def toLowerCase (ch : Char) : List Char :=
  if ch.toNat = 0x212A then ['k']
  else if ch.toNat = 0x0130 then ['i', Char.ofNat 0x0307]
  else [ch.toLower]

def isWordStart (ch : Char) : Bool := ('a' ≤ ch && ch ≤ 'z') || ch == '_'

/-- The matches of `/[a-z_][a-z0-9_]*/g`, where `current` has been read of the present one. -/
def wordsFrom (current : List Char) : List Char → List (List Char)
  | [] => if current.isEmpty then [] else [current]
  | ch :: text =>
    if isWordStart ch || (!current.isEmpty && isAsciiDigit ch) then wordsFrom (current ++ [ch]) text
    else if current.isEmpty then wordsFrom [] text
    else current :: wordsFrom [] text

def tokenize (statement : List Char) : List (List Char) := wordsFrom [] (statement.flatMap toLowerCase)

/-- Two words in a row. -/
def hasPair (first second : List Char) : List (List Char) → Bool
  | a :: b :: words => (a == first && b == second) || hasPair first second (b :: words)
  | _ => false

/-- First word `copy`, and `from stdin` among the others. -/
def isCopyInStatement (statement : List Char) : Bool :=
  match tokenize statement with
  | first :: words => first == "copy".toList && hasPair "from".toList "stdin".toList words
  | [] => false

/-! ### The verdict -/

/-- What `trim` removes. -/
def isJsSpace (ch : Char) : Bool :=
  ch.toNat ∈ [0x09, 0x0A, 0x0B, 0x0C, 0x0D, 0x20, 0xA0, 0x1680, 0x2028, 0x2029, 0x202F, 0x205F, 0x3000, 0xFEFF] ||
    decide (0x2000 ≤ ch.toNat ∧ ch.toNat ≤ 0x200A)

inductive CopyInVerdict
  | capture
  | rejectMulti
  | notCopyIn
deriving DecidableEq, Repr

/-- The statements of a stripped text that are not blank. -/
def statements (stripped : List Char) : List (List Char) :=
  (stripped.splitOn ';').filter fun statement => !statement.all isJsSpace

def sniffCopyIn (text : List Char) : CopyInVerdict :=
  let statements := statements (stripQuotedAndComments text)
  if !statements.any isCopyInStatement then .notCopyIn
  else if statements.length = 1 then .capture
  else .rejectMulti

example : sniffCopyIn "COPY t FROM stdin WITH (DELIMITER ';')".toList = .capture := by decide
example : sniffCopyIn "E'x'; COPY t FROM STDIN".toList = .rejectMulti := by decide

end PgliteBridge
