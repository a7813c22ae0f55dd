import VerifyPipeline.Json.Reader

/-!
# Decoding typed values

A decoder takes values of a type from a text and from a JSON value.  From a text it reads exactly
as far as it has to, so that of two faults the earlier is reported; from a value it reports how the
value differs from the wanted shape.
-/

namespace VerifyPipeline.Json

/-- A way to take values of a type from texts and from JSON values. -/
structure Decoder (α : Type) where
  /-- Read a value that nests at most so many levels. -/
  text : Nat → Reader α
  /-- Take a value whose objects hold each key once. -/
  tree : Json → Except Mismatch α
  /-- What stands for a member that is missing. -/
  absent? : Option α := none

namespace Reader

/-- Pass an opening bracket and go on with one level less. -/
def inside (levels : Nat) (body : Nat → Reader α) : Reader α :=
  match levels with
  | 0 => failAtNext .nestedTooDeep
  | levels + 1 => do
    openBracket levels
    body levels

/-- Read a value that is no array or object and judge it; those are judged by their kind alone. -/
def judged (judge : Json → Except Mismatch α) : Reader α := do
  ofVerdict (judge (← scalar))

end Reader

namespace Decoder

/-- Decode a whole text. -/
def ofText (decoder : Decoder α) (text : List Char) : Except Failure α :=
  Reader.wholeText (decoder.text Reader.levelLimit) text

/-- Decode a value, after bringing it into canonical form. -/
def ofValue (decoder : Decoder α) (value : Json) : Except Failure α :=
  match decoder.tree value.canonical with
  | .ok a => .ok a
  | .error why => .error (.mismatch why)

/-- Decode values that are no arrays and no objects. -/
def simple (judge : Json → Except Mismatch α) : Decoder α where
  text _ := Reader.judged judge
  tree := judge

/-- Any value, in canonical form. -/
def any : Decoder Json where
  text levels := do return (← Reader.any levels).canonical
  tree value := .ok value

/-- The truth values. -/
def bool : Decoder Bool :=
  simple fun
    | .bool b => .ok b
    | other => .error (.kind other "a boolean")

/-- Strings, under a name for what they stand for. -/
def stringNamed (wanted : String) : Decoder String :=
  simple fun
    | .string text => .ok text
    | other => .error (.kind other wanted)

/-- Strings. -/
def string : Decoder String := stringNamed "a string"

/-- Whole numbers from zero up to below a limit. -/
def natBelow (limit : Nat) (wanted : String) : Decoder Nat :=
  simple fun
    | .whole n =>
      if 0 ≤ n ∧ n < limit then .ok n.toNat
      else .error (.value (.whole n) wanted)
    | other => .error (.kind other wanted)

/-- The number of values of a 64-bit word. -/
def wordLimit : Nat := UInt64.size

/-- Counts and positions. -/
def size : Decoder Nat := natBelow wordLimit "usize"

/-- Durations and other wide numbers. -/
def wide : Decoder Nat := natBelow wordLimit "u64"

/-- Exit codes and signals. -/
def int32 : Decoder Int32 :=
  simple fun
    | .whole n =>
      if -Int.pow 2 31 ≤ n ∧ n < Int.pow 2 31 then .ok (Int32.ofInt n)
      else .error (.value (.whole n) "i32")
    | other => .error (.kind other "i32")

/-- A value or `null`; a missing member counts as `null`. -/
def optional (decoder : Decoder α) : Decoder (Option α) where
  text levels := do
    match ← Reader.peekToken? with
    | some 'n' =>
      Reader.advance
      Reader.literal ['u', 'l', 'l']
      return none
    | _ => return some (← decoder.text levels)
  tree
    | .null => .ok none
    | value => do return some (← decoder.tree value)
  absent? := some none

/-- Arrays. -/
def list (decoder : Decoder α) : Decoder (List α) where
  text levels := do
    match ← Reader.scalar with
    | .array _ =>
      Reader.inside levels fun levels => do
        let found ← Reader.items (fun found => return (← decoder.text levels) :: found) []
        return found.reverse
    | other => Reader.mismatch (.kind other "a sequence")
  tree
    | .array items => items.mapM decoder.tree
    | other => .error (.kind other "a sequence")

/-- Apply a function to what is decoded. -/
def map (f : α → β) (decoder : Decoder α) : Decoder β where
  text levels := do return f (← decoder.text levels)
  tree value := do return f (← decoder.tree value)
  absent? := decoder.absent?.map f

end Decoder

end VerifyPipeline.Json
