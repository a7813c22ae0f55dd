import VerifyPipeline.Binary64.Shortest
import VerifyPipeline.Json.Basic
import VerifyPipeline.Text.Quoted

/-!
# Why a text or a value could not be read

A text that is no JSON is malformed at one place of it.  A value that is JSON but not of the wanted
shape is a mismatch, and a mismatch has no place.
-/

namespace VerifyPipeline.Json

/-- What is wrong with a malformed text. -/
inductive Cause where
  | unfinishedValue
  | unfinishedList
  | unfinishedObject
  | unfinishedString
  | expectedColon
  | expectedCommaOrBracket
  | expectedCommaOrBrace
  | expectedLiteral
  | expectedValue
  | invalidEscape
  | invalidNumber
  | numberTooLarge
  | loneSurrogate
  | unpairedSurrogate
  | controlCharacter
  | keyNotString
  | trailingComma
  | trailingCharacters
  | nestedTooDeep
  deriving Repr, DecidableEq

/-- The words for a cause. -/
def Cause.text : Cause → String
  | .unfinishedValue => "EOF while parsing a value"
  | .unfinishedList => "EOF while parsing a list"
  | .unfinishedObject => "EOF while parsing an object"
  | .unfinishedString => "EOF while parsing a string"
  | .expectedColon => "expected `:`"
  | .expectedCommaOrBracket => "expected `,` or `]`"
  | .expectedCommaOrBrace => "expected `,` or `\x7d`"
  | .expectedLiteral => "expected ident"
  | .expectedValue => "expected value"
  | .invalidEscape => "invalid escape"
  | .invalidNumber => "invalid number"
  | .numberTooLarge => "number out of range"
  | .loneSurrogate => "lone leading surrogate in hex escape"
  | .unpairedSurrogate => "unexpected end of hex escape"
  | .controlCharacter => "control character (\\u0000-\\u001F) found while parsing a string"
  | .keyNotString => "key must be a string"
  | .trailingComma => "trailing comma"
  | .trailingCharacters => "trailing characters"
  | .nestedTooDeep => "recursion limit exceeded"

/-- Whether the text ended where more of it was needed. -/
def Cause.isUnfinished : Cause → Bool
  | .unfinishedValue | .unfinishedList | .unfinishedObject | .unfinishedString => true
  | _ => false

/-- How a value of an unwanted kind is named. -/
def kindText : Json → String
  | .null => "null"
  | .bool true => "boolean `true`"
  | .bool false => "boolean `false`"
  | .whole n => "integer `" ++ toString n ++ "`"
  | .floating x => "floating point `" ++ x.text ++ "`"
  | .string text => "string " ++ Text.quoted text
  | .array _ => "sequence"
  | .object _ => "map"

/-- How a value differs from the wanted shape. -/
inductive Mismatch where
  /-- A value of another kind, and the wanted one. -/
  | kind (found : Json) (wanted : String)
  /-- A value of the right kind that is not admitted, and what would be. -/
  | value (found : Json) (wanted : String)
  /-- An object that names a choice has not exactly one member. -/
  | notOneMember
  /-- An array of the wrong length, and what was wanted. -/
  | length (found : Nat) (wanted : String)
  | missing (field : String)
  | repeated (field : String)
  | unknownChoice (found : String) (choices : List String)
  deriving Repr

/-- The names of the admitted choices, in words. -/
def choicesText (choices : List String) : String :=
  let marked := choices.map fun name => "`" ++ name ++ "`"
  match marked with
  | [] => "there are no variants"
  | [one] => "expected " ++ one
  | [one, two] => "expected " ++ one ++ " or " ++ two
  | many => "expected one of " ++ String.intercalate ", " many

/-- The words for a mismatch. -/
def Mismatch.text : Mismatch → String
  | .kind found wanted => "invalid type: " ++ kindText found ++ ", expected " ++ wanted
  | .value found wanted => "invalid value: " ++ kindText found ++ ", expected " ++ wanted
  | .notOneMember => "invalid value: map, expected map with a single key"
  | .length found wanted => "invalid length " ++ toString found ++ ", expected " ++ wanted
  | .missing field => "missing field `" ++ field ++ "`"
  | .repeated field => "duplicate field `" ++ field ++ "`"
  | .unknownChoice found choices =>
    "unknown variant `" ++ found ++ "`, " ++ choicesText choices

/-- Why reading failed.  A malformed text is at fault some bytes into what was left of it. -/
inductive Failure where
  | malformed (cause : Cause) (rest : List Char) (ahead : Nat)
  | mismatch (why : Mismatch)
  deriving Repr

/-- A place in a text: its line, counted from one, and the bytes of that line before it. -/
structure Place where
  line : Nat
  column : Nat
  deriving Repr, DecidableEq

/-- The number of bytes of a text. -/
def byteLength (text : List Char) : Nat := text.foldr (fun c length => c.utf8Size + length) 0

/-- The place some bytes after a given one. -/
def Place.advance : Place → List Char → Nat → Place
  | place, [], _ => place
  | place, _, 0 => place
  | place, c :: rest, bytes =>
    if bytes < c.utf8Size then ⟨place.line, place.column + bytes⟩
    else if c = '\n' then Place.advance ⟨place.line + 1, 0⟩ rest (bytes - c.utf8Size)
    else Place.advance ⟨place.line, place.column + c.utf8Size⟩ rest (bytes - c.utf8Size)

/-- The place of a fault in a text of which `rest` was left; never beyond its end. -/
def Place.ofFault
    (text rest : List Char)
    (ahead : Nat) :
    Place :=
  Place.advance ⟨1, 0⟩ text (byteLength text - byteLength rest + ahead)

inductive Category where
  | malformed
  | unfinished
  | mismatch
  deriving Repr, DecidableEq

def Failure.category : Failure → Category
  | .malformed cause _ _ => if cause.isUnfinished then .unfinished else .malformed
  | .mismatch _ => .mismatch

/-- The message for a failure to read a text. -/
def Failure.message (text : List Char) : Failure → String
  | .malformed cause rest ahead =>
    let place := Place.ofFault text rest ahead
    cause.text ++ " at line " ++ toString place.line ++ " column " ++ toString place.column
  | .mismatch why => why.text

end VerifyPipeline.Json
