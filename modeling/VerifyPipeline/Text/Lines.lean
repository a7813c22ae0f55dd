/-!
# Physical lines

A line ends at a line feed, and a carriage return right before the line feed belongs to the line's
end.  A last line without an end counts if it has any character.
-/

namespace VerifyPipeline.Text

/-- The lines of a text, without their ends. -/
def lines : List Char → List (List Char)
  | [] => []
  | '\r' :: '\n' :: rest => [] :: lines rest
  | '\n' :: rest => [] :: lines rest
  | c :: rest =>
    match lines rest with
    | [] => [[c]]
    | line :: others => (c :: line) :: others

/-- The text of lines, each with a line feed at its end. -/
def ofLines (lines : List String) : String := String.join (lines.map (· ++ "\n"))

example : lines "a\r\nb\rc\n\nd".toList =
    ["a".toList, "b\rc".toList, [], "d".toList] := rfl

end VerifyPipeline.Text
