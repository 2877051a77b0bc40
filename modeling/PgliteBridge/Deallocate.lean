import PgliteBridge.Lexing

/-!
# Decoding `DEALLOCATE` and `DISCARD ALL`

`pool/deallocate.ts`.  A text is the list of its UTF-16 code units; a position in it is the list of the units that
follow.
-/

namespace PgliteBridge.Deallocate

open Lexing

abbrev CodeUnit := UInt16

abbrev Text := List CodeUnit

/-- An ASCII text. -/
def units (text : String) : Text := text.toList.map fun ch => UInt16.ofNat ch.toNat

inductive StatementCacheInvalidation
  | all
  | name (name : Text)
deriving DecidableEq, Repr

/-! ### Code units -/

def isWs (c : CodeUnit) : Bool := c == 0x20 || c == 0x09 || c == 0x0a || c == 0x0d || c == 0x0c || c == 0x0b

def isIdentStart (c : CodeUnit) : Bool := (0x41 ≤ c && c ≤ 0x5a) || (0x61 ≤ c && c ≤ 0x7a) || c == 0x5f || 0x80 ≤ c

def isIdentCont (c : CodeUnit) : Bool := isIdentStart c || (0x30 ≤ c && c ≤ 0x39) || c == 0x24

/-- `"` -/
def quote : CodeUnit := 0x22

/-- `;` -/
def semicolon : CodeUnit := 0x3b

/-- A lower-case ASCII letter as an upper-case one. -/
def upper (c : CodeUnit) : CodeUnit := if 0x61 ≤ c && c ≤ 0x7a then c - 0x20 else c

/-- An upper-case ASCII letter as a lower-case one. -/
def fold (c : CodeUnit) : CodeUnit := if 0x41 ≤ c && c ≤ 0x5a then c + 0x20 else c

/-! ### Scanners -/

def skipWs (text : Text) : Text := text.dropWhile isWs

/-- Where the target begins after a command word. -/
def targetStartAfterKeyword (text : Text) : Option Text :=
  let afterWs := skipWs text
  if afterWs.length < text.length then some afterWs
  else if text.head? = some quote then some text
  else none

/-- What follows the keyword, which ends on a token boundary. -/
def matchKeyword (text keyword : Text) : Option Text :=
  if text.length < keyword.length then none
  else if (text.take keyword.length).map upper ≠ keyword then none
  else
    let next := text.drop keyword.length
    if next.head?.any isIdentCont then none else some next

def isTrailer (text : Text) : Bool :=
  match skipWs text with
  | [] => true
  | c :: rest => c == semicolon && (skipWs rest).isEmpty

def scanRegularIdentifier : Text → Option (Text × Text)
  | [] => none
  | c :: rest =>
    if !isIdentStart c then none
    else some ((c :: rest.takeWhile isIdentCont).map fold, rest.dropWhile isIdentCont)

/-- The loop of `scanDelimitedIdentifier`, behind the opening quote. -/
def scanDelimitedLoop (name : Text) : Text → Option (Text × Text)
  | [] => none
  | [c] => if c = quote then (if name.isEmpty then none else some (name, [])) else none
  | c :: c' :: rest =>
    if c = quote then
      if c' = quote then scanDelimitedLoop (name ++ [quote]) rest
      else if name.isEmpty then none else some (name, c' :: rest)
    else scanDelimitedLoop (name ++ [c]) (c' :: rest)

def scanDelimitedIdentifier (text : Text) : Option (Text × Text) := scanDelimitedLoop [] text.tail

def scanTarget (text : Text) : Option (StatementCacheInvalidation × Text) :=
  if text.head? = some quote then (scanDelimitedIdentifier text).map fun (name, next) => (.name name, next)
  else (scanRegularIdentifier text).map fun (name, next) => (if name = units "all" then .all else .name name, next)

/-- The target, when only a trailer follows it. -/
def completeTarget (text : Text) : Option StatementCacheInvalidation := do
  let (invalidation, next) ← scanTarget text
  if isTrailer next then some invalidation else none

/-- What follows `DEALLOCATE`: `PREPARE` is a keyword when a complete target follows it, and else the target. -/
def deallocateTarget (targetAt : Text) : Option StatementCacheInvalidation :=
  let withPrepare := do
    let afterPrepare ← matchKeyword targetAt (units "PREPARE")
    let keywordTargetAt ← targetStartAfterKeyword afterPrepare
    completeTarget keywordTargetAt
  match withPrepare with
  | some invalidation => some invalidation
  | none => completeTarget targetAt

def decodeStatementCacheInvalidation (text : Text) : Option StatementCacheInvalidation :=
  let start := skipWs text
  match start.head? with
  | none => none
  | some first =>
    if first ≠ 0x44 ∧ first ≠ 0x64 then none
    else
      match matchKeyword start (units "DISCARD") with
      | some afterDiscard =>
        let allAt := skipWs afterDiscard
        if allAt.length = afterDiscard.length then none
        else
          match matchKeyword allAt (units "ALL") with
          | none => none
          | some afterAll => if isTrailer afterAll then some .all else none
      | none =>
        match matchKeyword start (units "DEALLOCATE") with
        | none => none
        | some afterDealloc =>
          match targetStartAfterKeyword afterDealloc with
          | none => none
          | some targetAt => deallocateTarget targetAt

example : decodeStatementCacheInvalidation (units " deallocate prepare \"a\"\"b\" ; ") =
    some (.name (units "a\"b")) := by
  decide

end PgliteBridge.Deallocate
