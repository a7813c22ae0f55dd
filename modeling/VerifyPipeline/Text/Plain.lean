/-!
# Text without terminal control

What is quoted in a message must not control a terminal.  Escape sequences are left out, and so are
control characters other than white space.
-/

namespace VerifyPipeline.Text

/-- In what kind of escape sequence a place of a text lies. -/
inductive EscapeState where
  | outside
  /-- Right after the escape character. -/
  | started
  /-- After characters that only announce the last one. -/
  | announced
  /-- In a sequence with parameters, which ends at a letter or the like. -/
  | parameters
  /-- In a string that only another escape character ends. -/
  | string
  /-- In a command that a bell ends. -/
  | command
  deriving Repr, DecidableEq

namespace EscapeState

/-- Whether a control character counts as white space. -/
def isBlank (c : Char) : Bool := c = '\t' || c = '\n' || c = '\x0c' || c = '\r'

/-- Where a text stands after a character, and whether the character is kept. -/
def step (state : EscapeState) (c : Char) : EscapeState × Bool :=
  if c = '\x1b' then (.started, false)
  else if c = '\x18' || c = '\x1a' then (.outside, false)
  else
    match state with
    | .outside => (.outside, if c < ' ' then isBlank c else c ≠ '\x7f')
    | .string => (.string, false)
    | .command => (if c = '\x07' then .outside else .command, false)
    | _ =>
      if c < ' ' then if isBlank c then (.outside, true) else (state, false)
      else if '\x7f' ≤ c then (state, false)
      else if state = .parameters then (if '@' ≤ c then .outside else .parameters, false)
      else if c < '0' then (.announced, false)
      else if state = .announced then (.outside, false)
      else if c = '[' then (.parameters, false)
      else if c = ']' then (.command, false)
      else if c = 'P' || c = 'X' || c = '^' || c = '_' then (.string, false)
      else (.outside, false)

end EscapeState

/-- What is kept of characters. -/
def plainFrom (state : EscapeState) : List Char → List Char
  | [] => []
  | c :: rest =>
    let (next, kept) := state.step c
    if kept then c :: plainFrom next rest else plainFrom next rest

/-- A text without what would control a terminal. -/
def plain (text : String) : String := String.ofList (plainFrom .outside text.toList)

example : plain "a\x1b[1;31mb\x07\tc\x1b]0;d\x07e" = "ab\tce" := by decide

end VerifyPipeline.Text
