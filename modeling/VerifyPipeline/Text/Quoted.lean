import VerifyPipeline.Text.Invisible
import VerifyPipeline.Text.Numeral

/-!
# Quoted text

How a message shows a text whose extent must be clear: between double quotes, with quotes,
backslashes and line controls escaped and every invisible character given by its number.
-/

namespace VerifyPipeline.Text

/-- A character as it stands between quotes. -/
def quotedChar (c : Char) : List Char :=
  match c with
  | '\x00' => ['\\', '0']
  | '\t' => ['\\', 't']
  | '\n' => ['\\', 'n']
  | '\r' => ['\\', 'r']
  | '"' => ['\\', '"']
  | '\\' => ['\\', '\\']
  | c =>
    if isInvisible c then
      ['\\', 'u', '\x7b'] ++ Nat.toDigits 16 c.toNat ++ ['\x7d']
    else [c]

/-- A text between double quotes. -/
def quoted (text : String) : String :=
  String.ofList ('"' :: text.toList.flatMap quotedChar ++ ['"'])

end VerifyPipeline.Text
