/-!
# Searching and dividing a text

Occurrence of one text in another, and division of a text at every occurrence of a separator,
taken from left to right without overlap.
-/

namespace VerifyPipeline.Text

/-- Whether `pattern` occurs somewhere in a text. -/
def occursIn (pattern : List Char) : List Char → Bool
  | [] => pattern.isEmpty
  | c :: rest => pattern.isPrefixOf (c :: rest) || occursIn pattern rest

/-- Put a character in front of the first piece. -/
def consHead (c : Char) : List (List Char) → List (List Char)
  | [] => [[c]]
  | piece :: others => (c :: piece) :: others

/-- The pieces of a text between single-character separators. -/
def splitAt (separator : Char) : List Char → List (List Char)
  | [] => [[]]
  | c :: rest =>
    if c = separator then [] :: splitAt separator rest
    else consHead c (splitAt separator rest)

/-- The pieces of a text between double colons. -/
def splitAtDoubleColon : List Char → List (List Char)
  | [] => [[]]
  | ':' :: ':' :: rest => [] :: splitAtDoubleColon rest
  | c :: rest => consHead c (splitAtDoubleColon rest)

example : splitAtDoubleColon "a:::b::".toList = ["a".toList, ":b".toList, []] := rfl

end VerifyPipeline.Text
