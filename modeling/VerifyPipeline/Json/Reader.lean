import VerifyPipeline.Binary64.Basic
import VerifyPipeline.Json.Cursor
import VerifyPipeline.Text.Numeral

/-!
# Reading JSON values

Strings, numbers and literals, values of any kind, and values that are passed without being kept.
A value that is passed is checked less: its numbers have no range, its escapes need not form
characters, and it may be nested to any depth.
-/

namespace VerifyPipeline.Json

namespace Reader

/-! ## Strings -/

/-- The number that four hexadecimal digits spell. -/
def hexNumber? : List Char → Option Nat
  | [a, b, c, d] => do
    let a ← Text.hexValue? a
    let b ← Text.hexValue? b
    let c ← Text.hexValue? c
    let d ← Text.hexValue? d
    return ((a * 16 + b) * 16 + c) * 16 + d
  | _ => none

/-- Read the four digits of an escape. -/
def hexEscape : Reader Nat := do
  let rest ← remaining
  if byteLength rest < 4 then failAtEnd .unfinishedString
  else
    match hexNumber? (rest.take 4) with
    | none => failAhead .invalidEscape 4
    | some n =>
      advance; advance; advance; advance
      return n

/-- Pass a character of the second half of a surrogate pair. -/
def pairMark (mark : Char) : Reader Unit := do
  match ← peek? with
  | none => failHere .unfinishedString
  | some c => if c = mark then advance else failAtNext .unpairedSurrogate

/-- Read a character given by its number, from behind `\u`.  A number of the first surrogate range
must be followed by one of the second. -/
def numberedChar : Reader Char := do
  let n ← hexEscape
  if 0xDC00 ≤ n && n ≤ 0xDFFF then failHere .loneSurrogate
  else if n < 0xD800 || 0xDBFF < n then return Char.ofNat n
  else
    pairMark '\\'
    pairMark 'u'
    let low ← hexEscape
    if low < 0xDC00 || 0xDFFF < low then failHere .loneSurrogate
    else return Char.ofNat ((n - 0xD800) * 0x400 + (low - 0xDC00) + 0x10000)

/-- The character that a letter stands for behind a backslash. -/
def namedEscape? (c : Char) : Option Char :=
  match c with
  | '"' => some '"'
  | '\\' => some '\\'
  | '/' => some '/'
  | 'b' => some '\x08'
  | 'f' => some '\x0c'
  | 'n' => some '\n'
  | 'r' => some '\r'
  | 't' => some '\t'
  | _ => none

/-- Read an escape from behind its backslash. -/
def escape : Reader Char := do
  match ← peek? with
  | none => failHere .unfinishedString
  | some c =>
    match namedEscape? c with
    | some named => advance; return named
    | none =>
      if c = 'u' then
        advance
        numberedChar
      else failAtNext .invalidEscape

/-- Read the characters of a string from behind its opening quote, the closing quote included. -/
def stringLoop : Nat → Reader (List Char)
  | 0 => failHere .unfinishedString
  | fuel + 1 => do
    match ← peek? with
    | none => failHere .unfinishedString
    | some c =>
      if c = '"' then
        advance
        return []
      else if c = '\\' then
        advance
        let named ← escape
        return named :: (← stringLoop fuel)
      else if c.toNat < 0x20 then failAtNext .controlCharacter
      else
        advance
        return c :: (← stringLoop fuel)

/-- Read a string from behind its opening quote. -/
def string : Reader String := do
  return String.ofList (← stringLoop (← rounds))

/-! ## Numbers -/

/-- The greatest significand that is kept exactly. -/
def significandLimit : Nat := UInt64.size - 1

/-- The greatest exponent that is read. -/
def exponentLimit : Nat := Nat.pow 2 31 - 1

/-- The number with a significand and a decimal exponent. -/
def floating (negative : Bool) (significand : Nat) (exponent : Int) : Reader Json := do
  match Magnitude.ofDecimal? significand exponent with
  | some magnitude => return .floating ⟨negative, magnitude⟩
  | none => failHere .numberTooLarge

/-- Read the digits of an exponent; `none` as soon as they pass the limit. -/
def exponentDigits : Nat → Nat → Reader (Option Nat)
  | 0, value => return some value
  | fuel + 1, value => do
    match (← peek?).bind Text.digitValue? with
    | none => return some value
    | some digit =>
      advance
      if exponentLimit < value * 10 + digit then return none
      else exponentDigits fuel (value * 10 + digit)

/-- Read an exponent from its letter on, after a significand with a decimal exponent of its own. -/
def exponentPart (negative : Bool) (significand : Nat) (exponent : Int) : Reader Json := do
  advance
  let sign ← peek?
  if sign = some '+' || sign = some '-' then advance
  match ← peek? with
  | none => failHere .unfinishedValue
  | some c =>
    match Text.digitValue? c with
    | none => failAtNext .invalidNumber
    | some first =>
      advance
      match ← exponentDigits (← rounds) first with
      | some size =>
        floating negative significand (if sign = some '-' then exponent - size else exponent + size)
      | none =>
        if significand ≠ 0 && sign ≠ some '-' then failHere .numberTooLarge
        else
          skipDigits
          return .floating ⟨negative, .zero⟩

/-- Read an exponent if there is one. -/
def exponentOrEnd (negative : Bool) (significand : Nat) (exponent : Int) : Reader Json := do
  match ← peek? with
  | some 'e' | some 'E' => exponentPart negative significand exponent
  | _ => floating negative significand exponent

/-- Read digits into a significand for as long as it stays exact; the digits read, and whether
they all fitted. -/
def significandDigits : Nat → Nat → Nat → Reader (Nat × Nat × Bool)
  | 0, read, significand => return (read, significand, true)
  | fuel + 1, read, significand => do
    match (← peek?).bind Text.digitValue? with
    | none => return (read, significand, true)
    | some digit =>
      if significandLimit < significand * 10 + digit then return (read, significand, false)
      else
        advance
        significandDigits fuel (read + 1) (significand * 10 + digit)

/-- Read a fraction from its point on.  Digits that no longer fit are passed. -/
def fractionPart (negative : Bool) (significand : Nat) (exponent : Int) : Reader Json := do
  advance
  let (read, significand, fits) ← significandDigits (← rounds) 0 significand
  if fits && read = 0 then
    match ← peek? with
    | some _ => failAtNext .invalidNumber
    | none => failHere .unfinishedValue
  else
    if !fits then skipDigits
    exponentOrEnd negative significand (exponent - read)

/-- Read what follows the digits before the point. -/
def afterWhole (negative : Bool) (significand : Nat) : Reader Json := do
  match ← peek? with
  | some '.' => fractionPart negative significand 0
  | some 'e' | some 'E' => exponentPart negative significand 0
  | _ =>
    if negative then
      if 1 ≤ significand && significand ≤ Nat.pow 2 63 then return .whole (-significand)
      else
        match Magnitude.ofNat? significand with
        | some magnitude => return .floating ⟨true, magnitude⟩
        | none => failHere .numberTooLarge
    else return .whole significand

/-- Read what follows digits before the point that did not all fit; the others only raise the
exponent. -/
def afterLongWhole (negative : Bool) (significand : Nat) : Reader Json := do
  let before := (← remaining).length
  skipDigits
  let passed := before - (← remaining).length
  match ← peek? with
  | some '.' => fractionPart negative significand passed
  | some 'e' | some 'E' => exponentPart negative significand passed
  | _ => floating negative significand passed

/-- Read a number from its first digit on. -/
def unsignedNumber (negative : Bool) : Reader Json := do
  match ← peek? with
  | none => failHere .unfinishedValue
  | some c =>
    if c = '0' then
      advance
      match ← peek? with
      | some d => if isDigit d then failAtNext .invalidNumber else afterWhole negative 0
      | none => afterWhole negative 0
    else if isDigit c then
      let (_, significand, fits) ← significandDigits (← rounds) 0 0
      if fits then afterWhole negative significand else afterLongWhole negative significand
    else failAtNext .invalidNumber

/-! ## Values -/

/-- Read a value that is no array or object; of those the kind alone is told, as an empty one, and
nothing is read. -/
def scalar : Reader Json := do
  match ← peekToken? with
  | none => failHere .unfinishedValue
  | some c =>
    match c with
    | 'n' => advance; literal ['u', 'l', 'l']; return .null
    | 't' => advance; literal ['r', 'u', 'e']; return .bool true
    | 'f' => advance; literal ['a', 'l', 's', 'e']; return .bool false
    | '"' => advance; return .string (← string)
    | '-' => advance; unsignedNumber true
    | '[' => return .array []
    | '\x7b' => return .object []
    | c => if isDigit c then unsignedNumber false else failAtNext .expectedValue

/-- Read a value that nests at most so many levels. -/
def any : Nat → Reader Json
  | 0 => failAtNext .nestedTooDeep
  | levels + 1 => do
    match ← scalar with
    | .array _ =>
      openBracket levels
      let found ← items (fun found => return (← any levels) :: found) []
      return .array found.reverse
    | .object _ =>
      openBracket levels
      let found ← members (fun found => do
        let key ← string
        colon
        return (key, ← any levels) :: found) []
      return .object found.reverse
    | value => return value

/-! ## Values that are not kept -/

/-- Pass the characters of a string from behind its opening quote, the closing quote included. -/
def skipStringLoop : Nat → Reader Unit
  | 0 => failHere .unfinishedString
  | fuel + 1 => do
    match ← peek? with
    | none => failHere .unfinishedString
    | some c =>
      if c = '"' then advance
      else if c = '\\' then
        advance
        match ← peek? with
        | none => failHere .unfinishedString
        | some e =>
          if e = 'u' then
            advance
            let _ ← hexEscape
            skipStringLoop fuel
          else if (namedEscape? e).isSome then
            advance
            skipStringLoop fuel
          else failAtNext .invalidEscape
      else if c.toNat < 0x20 then failHere .controlCharacter
      else
        advance
        skipStringLoop fuel

/-- Pass a string from behind its opening quote. -/
def skipString : Reader Unit := do skipStringLoop (← rounds)

/-- Pass an exponent from its letter on. -/
def skipExponent : Reader Unit := do
  advance
  let sign ← peek?
  if sign = some '+' || sign = some '-' then advance
  match ← peek? with
  | none => failHere .invalidNumber
  | some c => if isDigit c then skipDigits else failAtNext .invalidNumber

/-- Pass an exponent if there is one. -/
def skipExponentOrEnd : Reader Unit := do
  match ← peek? with
  | some 'e' | some 'E' => skipExponent
  | _ => return ()

/-- Pass what follows the digits before the point. -/
def skipAfterWhole : Reader Unit := do
  match ← peek? with
  | some '.' =>
    advance
    match ← peek? with
    | none => failHere .invalidNumber
    | some c =>
      if isDigit c then
        skipDigits
        skipExponentOrEnd
      else failAtNext .invalidNumber
  | _ => skipExponentOrEnd

/-- Pass a number from its first digit on. -/
def skipNumber : Reader Unit := do
  match ← peek? with
  | none => failHere .invalidNumber
  | some c =>
    if c = '0' then
      advance
      match ← peek? with
      | some d => if isDigit d then failAtNext .invalidNumber else skipAfterWhole
      | none => skipAfterWhole
    else if isDigit c then
      skipDigits
      skipAfterWhole
    else failAtNext .invalidNumber

/-- The brackets of the arrays and objects around a place. -/
inductive Bracket where
  | square
  | curly
  deriving Repr, DecidableEq

/-- The closing bracket. -/
def Bracket.closing : Bracket → Char
  | .square => ']'
  | .curly => '\x7d'

/-- What is wrong when the text ends inside brackets. -/
def Bracket.unfinished : Bracket → Cause
  | .square => .unfinishedList
  | .curly => .unfinishedObject

/-- What is wrong when neither a comma nor the closing bracket follows an item. -/
def Bracket.expectedComma : Bracket → Cause
  | .square => .expectedCommaOrBracket
  | .curly => .expectedCommaOrBrace

/-- Pass a key and its colon, if the brackets around are those of an object. -/
def skipKey : Bracket → Reader Unit
  | .square => return ()
  | .curly => do
    match ← peekToken? with
    | none => failHere .unfinishedObject
    | some c =>
      if c = '"' then
        advance
        skipString
        colon
      else failAtNext .keyNotString

/-- Pass closing brackets and the comma after them up to the next value inside the brackets that
stay open, which are the result; none if all are closed.  `opened` tells that the innermost bracket
has just been opened. -/
def skipClosing : List Bracket → Bool → Reader (List Bracket)
  | [], _ => return []
  | inner :: outer, opened => do
    match ← peekToken? with
    | none => failHere inner.unfinished
    | some c =>
      if c = ',' && !opened then
        advance
        skipKey inner
        return inner :: outer
      else if c = inner.closing then
        advance
        skipClosing outer false
      else if opened then
        skipKey inner
        return inner :: outer
      else failAtNext inner.expectedComma

/-- Pass a value that is no array or object, or the opening bracket of one; the brackets that are
open then, and whether the innermost has just been opened. -/
def skipOpening (brackets : List Bracket) : Reader (List Bracket × Bool) := do
  match ← peekToken? with
  | none => failHere .unfinishedValue
  | some c =>
    match c with
    | 'n' => advance; literal ['u', 'l', 'l']; return (brackets, false)
    | 't' => advance; literal ['r', 'u', 'e']; return (brackets, false)
    | 'f' => advance; literal ['a', 'l', 's', 'e']; return (brackets, false)
    | '"' => advance; skipString; return (brackets, false)
    | '-' => advance; skipNumber; return (brackets, false)
    | '[' => advance; return (.square :: brackets, true)
    | '\x7b' => advance; return (.curly :: brackets, true)
    | c =>
      if isDigit c then
        skipNumber
        return (brackets, false)
      else failAtNext .expectedValue

/-- Pass values until all open brackets are closed. -/
def skipLoop : Nat → List Bracket → Reader Unit
  | 0, _ => failHere .unfinishedValue
  | fuel + 1, brackets => do
    let (around, opened) ← skipOpening brackets
    match ← skipClosing around opened with
    | [] => return ()
    | inner :: outer => skipLoop fuel (inner :: outer)

/-- Pass a value of any kind. -/
def skip : Reader Unit := do skipLoop (← rounds) []

/-! ## Whole texts -/

/-- The number of brackets that may be open at once, and one more. -/
def levelLimit : Nat := 128

/-- Read a whole text as one value with white space around it. -/
def wholeText (value : Reader α) (text : List Char) : Except Failure α := do
  let (a, _) ← (do
    let a ← value
    match ← peekToken? with
    | none => return a
    | some _ => failAtNext .trailingCharacters : Reader α) text
  return a

end Reader

/-- The value that a text spells. -/
def ofText (text : List Char) : Except Failure Json :=
  Reader.wholeText (Reader.any Reader.levelLimit) text

end VerifyPipeline.Json
