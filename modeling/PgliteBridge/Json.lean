import Mathlib.Data.Nat.Digits.Defs
import PgliteBridge.Lexing

/-!
# JSON over UTF-16

Values, the text `JSON.stringify` writes for them, and the reader `JSON.parse`.  A text is the list of its UTF-16 code
units.  A number is the text of its numeral: what it means is left to whoever reads it.
-/

namespace Json

abbrev Text := List UInt16

/-! ### Code units -/

def isHighSurrogate (c : UInt16) : Bool := 0xd800 ≤ c && c ≤ 0xdbff

def isLowSurrogate (c : UInt16) : Bool := 0xdc00 ≤ c && c ≤ 0xdfff

def isDigit (c : UInt16) : Bool := 0x30 ≤ c && c ≤ 0x39

def isWs (c : UInt16) : Bool := c == 0x20 || c == 0x09 || c == 0x0a || c == 0x0d

/-- No unit of a pair of surrogates stands alone. -/
def wellFormed : Text → Bool
  | [] => true
  | [c] => !isHighSurrogate c && !isLowSurrogate c
  | c :: d :: rest =>
    if isHighSurrogate c then isLowSurrogate d && wellFormed rest else !isLowSurrogate c && wellFormed (d :: rest)

/-! ### Numerals -/

/-- What follows one digit or more. -/
def someDigits (text : Text) : Option Text := if text.head?.any isDigit then some (text.dropWhile isDigit) else none

/-- What follows the minus sign, if there is one. -/
def afterMinus (text : Text) : Text := if text.head? = some 0x2d then text.tail else text

/-- What follows the integer part, which has no leading zero. -/
def afterInteger (text : Text) : Option Text := if text.head? = some 0x30 then some text.tail else someDigits text

def afterFraction (text : Text) : Option Text := if text.head? = some 0x2e then someDigits text.tail else some text

def afterSign (text : Text) : Text := if text.head? = some 0x2b ∨ text.head? = some 0x2d then text.tail else text

def afterExponent (text : Text) : Option Text :=
  if text.head? = some 0x65 ∨ text.head? = some 0x45 then someDigits (afterSign text.tail) else some text

def isNumeral (text : Text) : Bool :=
  (afterInteger (afterMinus text) >>= afterFraction >>= afterExponent) = some []

/-- A number as JSON writes it. -/
structure Numeral where
  text : Text
  valid : isNumeral text = true
deriving DecidableEq

/-- The units that occur in numerals. -/
def isNumeralUnit (c : UInt16) : Bool :=
  isDigit c || c == 0x2d || c == 0x2b || c == 0x2e || c == 0x65 || c == 0x45

/-! ### Values -/

inductive Value
  | null
  | bool (b : Bool)
  | number (n : Numeral)
  | string (s : Text)
  | array (items : List Value)
  | object (members : List (Text × Value))

/-! ### Writing -/

def hexDigit (n : Nat) : UInt16 := if n < 10 then .ofNat (0x30 + n) else .ofNat (0x57 + n)

def unicodeEscape (c : UInt16) : Text :=
  [0x5c, 0x75, hexDigit (c.toNat / 4096), hexDigit (c.toNat / 256 % 16), hexDigit (c.toNat / 16 % 16),
    hexDigit (c.toNat % 16)]

/-- The letter that stands for a unit behind a backslash. -/
def shortEscape (c : UInt16) : Option UInt16 :=
  if c = 0x08 then some 0x62
  else if c = 0x09 then some 0x74
  else if c = 0x0a then some 0x6e
  else if c = 0x0c then some 0x66
  else if c = 0x0d then some 0x72
  else if c = 0x22 then some 0x22
  else if c = 0x5c then some 0x5c
  else none

/-- A unit that is not half of a pair. -/
def writeUnit (c : UInt16) : Text :=
  match shortEscape c with
  | some letter => [0x5c, letter]
  | none => if c < 0x20 || isHighSurrogate c || isLowSurrogate c then unicodeEscape c else [c]

def writeUnits : Text → Text
  | [] => []
  | [c] => writeUnit c
  | c :: d :: rest =>
    if isHighSurrogate c && isLowSurrogate d then c :: d :: writeUnits rest else writeUnit c ++ writeUnits (d :: rest)

/-- `QuoteJSONString`. -/
def writeString (s : Text) : Text := 0x22 :: (writeUnits s ++ [0x22])

def nullText : Text := [0x6e, 0x75, 0x6c, 0x6c]
def trueText : Text := [0x74, 0x72, 0x75, 0x65]
def falseText : Text := [0x66, 0x61, 0x6c, 0x73, 0x65]

mutual

def stringify : Value → Text
  | .null => nullText
  | .bool b => if b then trueText else falseText
  | .number n => n.text
  | .string s => writeString s
  | .array [] => [0x5b, 0x5d]
  | .array (item :: items) => 0x5b :: (stringify item ++ stringifyItems items)
  | .object [] => [0x7b, 0x7d]
  | .object ((key, value) :: members) =>
    0x7b :: (writeString key ++ 0x3a :: (stringify value ++ stringifyMembers members))

/-- The items behind the first one, and the closing bracket. -/
def stringifyItems : List Value → Text
  | [] => [0x5d]
  | item :: items => 0x2c :: (stringify item ++ stringifyItems items)

/-- The members behind the first one, and the closing brace. -/
def stringifyMembers : List (Text × Value) → Text
  | [] => [0x7d]
  | (key, value) :: members => 0x2c :: (writeString key ++ 0x3a :: (stringify value ++ stringifyMembers members))

end

/-! ### Reading -/

def skipWs (text : Text) : Text := text.dropWhile isWs

/-- What follows the unit `c`, blanks before it left out. -/
def expect (c : UInt16) (text : Text) : Option Text :=
  match skipWs text with
  | d :: rest => if d = c then some rest else none
  | [] => none

def hexValue (c : UInt16) : Option Nat :=
  if isDigit c then some (c.toNat - 0x30)
  else if 0x61 ≤ c && c ≤ 0x66 then some (c.toNat - 0x57)
  else if 0x41 ≤ c && c ≤ 0x46 then some (c.toNat - 0x37)
  else none

def unicodeUnit (a b c d : UInt16) : Option UInt16 := do
  let a ← hexValue a
  let b ← hexValue b
  let c ← hexValue c
  let d ← hexValue d
  some (.ofNat (a * 4096 + b * 256 + c * 16 + d))

/-- The unit that a letter behind a backslash stands for. -/
def unescape (letter : UInt16) : Option UInt16 :=
  if letter = 0x62 then some 0x08
  else if letter = 0x74 then some 0x09
  else if letter = 0x6e then some 0x0a
  else if letter = 0x66 then some 0x0c
  else if letter = 0x72 then some 0x0d
  else if letter = 0x22 ∨ letter = 0x5c ∨ letter = 0x2f then some letter
  else none

/-- The string behind an opening quote, and what follows the closing one. -/
def parseString : Text → Option (Text × Text)
  | [] => none
  | c :: rest =>
    if c = 0x22 then some ([], rest)
    else if c < 0x20 then none
    else if c = 0x5c then
      match rest with
      | 0x75 :: h₁ :: h₂ :: h₃ :: h₄ :: rest => do
        let unit ← unicodeUnit h₁ h₂ h₃ h₄
        let (s, rest) ← parseString rest
        some (unit :: s, rest)
      | letter :: rest => do
        let unit ← unescape letter
        let (s, rest) ← parseString rest
        some (unit :: s, rest)
      | [] => none
    else do
      let (s, rest) ← parseString rest
      some (c :: s, rest)

/-- A word and the value it stands for. -/
def parseWord (word : Text) (value : Value) (text : Text) : Option (Value × Text) :=
  if word.isPrefixOf text then some (value, text.drop word.length) else none

def parseNumber (text : Text) : Option (Value × Text) :=
  if h : isNumeral (text.takeWhile isNumeralUnit) then
    some (.number ⟨text.takeWhile isNumeralUnit, h⟩, text.dropWhile isNumeralUnit)
  else none

mutual

def parseValue : Nat → Text → Option (Value × Text)
  | 0, _ => none
  | fuel + 1, text =>
    match skipWs text with
    | [] => none
    | c :: rest =>
      if c = 0x22 then (parseString rest).map fun (s, rest) => (.string s, rest)
      else if c = 0x5b then
        match expect 0x5d rest with
        | some rest => some (.array [], rest)
        | none => do
          let (item, rest) ← parseValue fuel rest
          let (items, rest) ← parseItems fuel rest
          some (.array (item :: items), rest)
      else if c = 0x7b then
        match expect 0x7d rest with
        | some rest => some (.object [], rest)
        | none => do
          let (member, rest) ← parseMember fuel rest
          let (members, rest) ← parseMembers fuel rest
          some (.object (member :: members), rest)
      else if c = 0x6e then parseWord nullText .null (c :: rest)
      else if c = 0x74 then parseWord trueText (.bool true) (c :: rest)
      else if c = 0x66 then parseWord falseText (.bool false) (c :: rest)
      else parseNumber (c :: rest)

def parseItems : Nat → Text → Option (List Value × Text)
  | 0, _ => none
  | fuel + 1, text =>
    match expect 0x5d text with
    | some rest => some ([], rest)
    | none => do
      let rest ← expect 0x2c text
      let (item, rest) ← parseValue fuel rest
      let (items, rest) ← parseItems fuel rest
      some (item :: items, rest)

def parseMember : Nat → Text → Option ((Text × Value) × Text)
  | 0, _ => none
  | fuel + 1, text => do
    let rest ← expect 0x22 text
    let (key, rest) ← parseString rest
    let rest ← expect 0x3a rest
    let (value, rest) ← parseValue fuel rest
    some ((key, value), rest)

def parseMembers : Nat → Text → Option (List (Text × Value) × Text)
  | 0, _ => none
  | fuel + 1, text =>
    match expect 0x7d text with
    | some rest => some ([], rest)
    | none => do
      let rest ← expect 0x2c text
      let (member, rest) ← parseMember fuel rest
      let (members, rest) ← parseMembers fuel rest
      some (member :: members, rest)

end

/-- `JSON.parse`.  Each call of the reader takes a unit of the text, so the fuel lasts. -/
def parse (text : Text) : Option Value :=
  match parseValue (text.length + 1) text with
  | some (value, rest) => if (skipWs rest).isEmpty then some value else none
  | none => none

/-! ### Whole numbers and records -/

def digitUnit (d : Nat) : UInt16 := .ofNat (0x30 + d)

def decimal (n : Nat) : Text := if n = 0 then [0x30] else (Nat.digits 10 n).reverse.map digitUnit

def readDecimal (text : Text) : Option Nat :=
  if text ≠ [] ∧ text.all isDigit then some (text.foldl (fun n c => (c.toNat - 0x30) + 10 * n) 0) else none

def integerText (i : Int) : Text := if i < 0 then 0x2d :: decimal i.natAbs else decimal i.natAbs

def readInteger (text : Text) : Option Int :=
  if text.head? = some 0x2d then (readDecimal text.tail).map fun n : Nat => -(n : Int)
  else (readDecimal text).map Int.ofNat

namespace Value

/-- An object with these properties, of which the undefined ones are not written. -/
def record (properties : List (Text × Option Value)) : Value :=
  .object (properties.filterMap fun (key, value) => value.map fun value => (key, value))

/-- A property of an object; of two with one key, the last. -/
def property (key : Text) : Value → Option Value
  | .object members => members.reverse.lookup key
  | _ => none

end Value

end Json
