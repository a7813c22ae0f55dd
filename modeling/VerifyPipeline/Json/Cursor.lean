import VerifyPipeline.Json.Failure

/-!
# Reading characters

A reader takes what is left of a text to a value and what is left after it.  This module holds the
steps that all readers are made of: looking at the next character, passing it, failing at it, and
the loops over the items of an array and the members of an object.
-/

namespace VerifyPipeline.Json

/-- A step that reads from what is left of a text. -/
abbrev Reader := StateT (List Char) (Except Failure)

namespace Reader

/-- What is left of the text. -/
def remaining : Reader (List Char) := fun rest => .ok (rest, rest)

/-- Fail at the present place. -/
def failHere (cause : Cause) : Reader α := fun rest => .error (.malformed cause rest 0)

/-- Fail some bytes after the present place. -/
def failAhead (cause : Cause) (bytes : Nat) : Reader α :=
  fun rest => .error (.malformed cause rest bytes)

/-- Fail at the character that comes next, which counts as read. -/
def failAtNext (cause : Cause) : Reader α := failAhead cause 1

/-- Fail because the text ended. -/
def failAtEnd (cause : Cause) : Reader α := fun _ => .error (.malformed cause [] 0)

/-- Fail because the value is not of the wanted shape. -/
def mismatch (why : Mismatch) : Reader α := fun _ => .error (.mismatch why)

/-- Take over the verdict on a value. -/
def ofVerdict : Except Mismatch α → Reader α
  | .ok a => pure a
  | .error why => mismatch why

/-- The next character. -/
def peek? : Reader (Option Char) := fun rest => .ok (rest.head?, rest)

/-- Pass the next character. -/
def advance : Reader Unit := fun rest => .ok ((), rest.tail)

/-- Whether a character is white space between tokens. -/
def isGap (c : Char) : Bool := c = ' ' || c = '\n' || c = '\t' || c = '\r'

/-- Pass white space. -/
def skipGaps : Reader Unit := fun rest => .ok ((), rest.dropWhile isGap)

/-- The next character after white space. -/
def peekToken? : Reader (Option Char) := do
  skipGaps
  peek?

/-- Whether a character is a decimal digit. -/
def isDigit (c : Char) : Bool := '0' ≤ c && c ≤ '9'

/-- Pass digits. -/
def skipDigits : Reader Unit := fun rest => .ok ((), rest.dropWhile isDigit)

/-- Read the rest of a literal such as `true`. -/
def literal : List Char → Reader Unit
  | [] => pure ()
  | c :: others => do
    match ← peek? with
    | none => failHere .unfinishedValue
    | some d =>
      if d = c then
        advance
        literal others
      else failAtNext .expectedLiteral

/-- The number of rounds that suffice for a loop in which every round passes a character. -/
def rounds : Reader Nat := fun rest => .ok (rest.length + 1, rest)

/-- Go to the next item of an array, if there is one; the closing bracket is left. -/
def hasItem (first : Bool) : Reader Bool := do
  match ← peekToken? with
  | none => failHere .unfinishedList
  | some c =>
    if c = ']' then return false
    else if first then return true
    else if c = ',' then
      advance
      match ← peekToken? with
      | none => failHere .unfinishedValue
      | some d => if d = ']' then failAtNext .trailingComma else return true
    else failAtNext .expectedCommaOrBracket

/-- Read the items of an array from behind its bracket up to the closing bracket, which is left.
`item` reads one item into what was gathered before. -/
def itemLoop (item : σ → Reader σ) : Nat → Bool → σ → Reader σ
  | 0, _, _ => failHere .unfinishedList
  | fuel + 1, first, state => do
    if ← hasItem first then itemLoop item fuel false (← item state) else return state

/-- Read the items of an array, the closing bracket included. -/
def items (item : σ → Reader σ) (start : σ) : Reader σ := do
  let state ← itemLoop item (← rounds) true start
  advance
  return state

/-- Close an array from which all wanted items have been read. -/
def closeArray : Reader Unit := do
  match ← peekToken? with
  | none => failHere .unfinishedList
  | some c =>
    if c = ']' then advance
    else if c = ',' then
      advance
      match ← peekToken? with
      | some d => if d = ']' then failAtNext .trailingComma else failAtNext .trailingCharacters
      | none => failHere .trailingCharacters
    else failAtNext .trailingCharacters

/-- Pass the quote before a key. -/
def openKey : Reader Unit := do
  match ← peek? with
  | none => failHere .unfinishedValue
  | some c =>
    if c = '"' then advance
    else if c = '\x7d' then failAtNext .trailingComma
    else failAtNext .keyNotString

/-- Go behind the quote of the next member's key, if there is one; the closing brace is left. -/
def hasMember (first : Bool) : Reader Bool := do
  match ← peekToken? with
  | none => failHere .unfinishedObject
  | some c =>
    if c = '\x7d' then return false
    else if first then
      openKey
      return true
    else if c = ',' then
      advance
      skipGaps
      openKey
      return true
    else failAtNext .expectedCommaOrBrace

/-- Read the members of an object from behind its brace up to the closing brace, which is left.
`member` reads one member, from behind the quote before its key, into what was gathered before. -/
def memberLoop (member : σ → Reader σ) : Nat → Bool → σ → Reader σ
  | 0, _, _ => failHere .unfinishedObject
  | fuel + 1, first, state => do
    if ← hasMember first then memberLoop member fuel false (← member state) else return state

/-- Read the members of an object, the closing brace included. -/
def members (member : σ → Reader σ) (start : σ) : Reader σ := do
  let state ← memberLoop member (← rounds) true start
  advance
  return state

/-- Pass the colon between a key and its value. -/
def colon : Reader Unit := do
  match ← peekToken? with
  | none => failHere .unfinishedObject
  | some c => if c = ':' then advance else failAtNext .expectedColon

/-- Pass an opening bracket if it is not nested too deep.  `levels` is how many more may be
opened. -/
def openBracket (levels : Nat) : Reader Unit :=
  if levels = 0 then failAtNext .nestedTooDeep else advance

end Reader

end VerifyPipeline.Json
