import VerifyPipeline.Binary64.Shortest
import VerifyPipeline.Json.Basic
import VerifyPipeline.Text.Numeral

/-!
# The text of a JSON value

A value is written either on one line without any blank, or with every item and member on a line of
its own, two blanks further in than the brackets around it.  Empty arrays and objects are written
as two brackets in both layouts.
-/

namespace VerifyPipeline.Json

/-- How much room a text takes. -/
inductive Layout where
  | compact
  | indented
  deriving Repr, DecidableEq

/-- What stands between a bracket or comma and the next item at a nesting level. -/
def Layout.lineBreak : Layout → Nat → List Char
  | .compact, _ => []
  | .indented, level => '\n' :: List.replicate (2 * level) ' '

/-- What stands between a key and its value. -/
def Layout.colon : Layout → List Char
  | .compact => [':']
  | .indented => [':', ' ']

/-- A character as it stands inside a string. -/
def escaped (c : Char) : List Char :=
  match c with
  | '"' => ['\\', '"']
  | '\\' => ['\\', '\\']
  | '\x08' => ['\\', 'b']
  | '\x0c' => ['\\', 'f']
  | '\n' => ['\\', 'n']
  | '\r' => ['\\', 'r']
  | '\t' => ['\\', 't']
  | c =>
    if c.toNat < 0x20 then
      ['\\', 'u', '0', '0', Text.hexDigit (c.toNat / 16), Text.hexDigit (c.toNat % 16)]
    else [c]

/-- A string between its quotes. -/
def stringText (text : String) : List Char :=
  '"' :: text.toList.flatMap escaped ++ ['"']

/-- The numeral of a whole number. -/
def wholeText (n : Int) : List Char :=
  if n < 0 then '-' :: Nat.toDigits 10 n.natAbs else Nat.toDigits 10 n.natAbs

mutual

/-- The text of a value whose brackets stand at a nesting level. -/
def write (layout : Layout) (level : Nat) : Json → List Char
  | .null => ['n', 'u', 'l', 'l']
  | .bool true => ['t', 'r', 'u', 'e']
  | .bool false => ['f', 'a', 'l', 's', 'e']
  | .whole n => wholeText n
  | .floating x => x.text.toList
  | .string text => stringText text
  | .array [] => ['[', ']']
  | .array (item :: rest) =>
    '[' :: layout.lineBreak (level + 1) ++ write layout (level + 1) item
      ++ writeItems layout level rest
  | .object [] => ['\x7b', '\x7d']
  | .object ((key, value) :: rest) =>
    '\x7b' :: layout.lineBreak (level + 1) ++ stringText key ++ layout.colon
      ++ write layout (level + 1) value ++ writeMembers layout level rest

/-- The items after the first, and the closing bracket. -/
def writeItems (layout : Layout) (level : Nat) : List Json → List Char
  | [] => layout.lineBreak level ++ [']']
  | item :: rest =>
    ',' :: layout.lineBreak (level + 1) ++ write layout (level + 1) item
      ++ writeItems layout level rest

/-- The members after the first, and the closing bracket. -/
def writeMembers (layout : Layout) (level : Nat) : List (String × Json) → List Char
  | [] => layout.lineBreak level ++ ['\x7d']
  | (key, value) :: rest =>
    ',' :: layout.lineBreak (level + 1) ++ stringText key ++ layout.colon
      ++ write layout (level + 1) value ++ writeMembers layout level rest

end

/-- The text of a value on one line. -/
def compact (value : Json) : String := String.ofList (value.write .compact 0)

/-- The text of a value with a line for every item. -/
def indented (value : Json) : String := String.ofList (value.write .indented 0)

end VerifyPipeline.Json
