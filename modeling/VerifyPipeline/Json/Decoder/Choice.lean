import VerifyPipeline.Json.Decoder.Basic

/-!
# Choices

One of several named values, written as a string with its name or as an object with one member
whose key is the name and whose value is `null`.
-/

namespace VerifyPipeline.Json

/-- The value with a name. -/
def choose (choices : List (String × α)) (name : String) : Except Mismatch α :=
  match choices.find? fun choice => choice.1 = name with
  | some choice => .ok choice.2
  | none => .error (.unknownChoice name (choices.map Prod.fst))

/-- The value that a string names. -/
def chosen (choices : List (String × α)) : Json → Except Mismatch α
  | .string name => choose choices name
  | other => .error (.kind other "variant identifier")

/-- Nothing but `null`. -/
def nothing : Json → Except Mismatch Unit
  | .null => .ok ()
  | other => .error (.kind other "unit")

namespace Reader

/-- Read a choice as an object, from behind its brace. -/
def choiceMember (choices : List (String × α)) : Reader α := do
  let a ← judged (chosen choices)
  colon
  judged nothing
  match ← peekToken? with
  | none => failHere .unfinishedObject
  | some c =>
    if c = '\x7d' then
      advance
      return a
    else failHere .expectedValue

/-- Read a choice. -/
def choice (choices : List (String × α)) (levels : Nat) : Reader α := do
  match ← peekToken? with
  | none => failHere .unfinishedValue
  | some c =>
    if c = '"' then
      advance
      ofVerdict (choose choices (← string))
    else if c = '\x7b' then inside levels fun _ => choiceMember choices
    else failAtNext .expectedValue

end Reader

/-- Values given by their names. -/
def Decoder.choice (choices : List (String × α)) : Decoder α where
  text := Reader.choice choices
  tree
    | .string name => choose choices name
    | .object [(name, content)] => do
      let a ← choose choices name
      nothing content
      return a
    | .object _ => .error .notOneMember
    | other => .error (.kind other "string or map")

end VerifyPipeline.Json
