import VerifyPipeline.Json.Decoder.Choice

/-!
# Variants told beside their content

A value of one of several variants, written as an object with one member that names the variant and
one that holds its content, or as an array of the two.
-/

namespace VerifyPipeline.Json

/-- A variant that holds either nothing, under its full name, or what a decoder takes. -/
inductive Holding (α : Type) where
  | nothing (name : String) (value : α)
  | content (decoder : Decoder α)

namespace Holding

/-- The variant with a content. -/
def ofContent : Holding α → Json → Except Mismatch α
  | .nothing _ a, .null => .ok a
  | .nothing name _, other => .error (.kind other ("unit variant " ++ name))
  | .content decoder, value => decoder.tree value

/-- Read the content of a variant. -/
def readContent (levels : Nat) : Holding α → Reader α
  | .nothing name a => Reader.judged (ofContent (.nothing name a))
  | .content decoder => decoder.text levels

/-- The variant without a content, of which `key` is the member's name. -/
def withoutContent (key : String) : Holding α → Except Mismatch α
  | .nothing _ a => .ok a
  | .content _ => .error (.missing key)

end Holding

/-- The names of a type whose variants are told beside their content, and of the two members. -/
structure AdjacentNames where
  type : String
  tag : String
  content : String
  deriving Repr, DecidableEq

/-- What has been found of a value: at first nothing, then one of the two members or both. -/
inductive Found (α : Type) where
  | neither
  | variant (holding : Holding α)
  | content (value : Json)
  | both (value : α)

namespace Found

/-- The value, once all members have been read. -/
def finish (names : AdjacentNames) : Found α → Except Mismatch α
  | .neither | .content _ => .error (.missing names.tag)
  | .variant holding => holding.withoutContent names.content
  | .both a => .ok a

/-- Take one member into what has been found. -/
def takeMember
    (names : AdjacentNames)
    (variants : List (String × Holding α))
    (found : Found α)
    (member : String × Json) :
    Except Mismatch (Found α) := do
  if member.1 = names.tag then
    match found with
    | .neither => return .variant (← (Decoder.choice variants).tree member.2)
    | .content value =>
      let holding ← (Decoder.choice variants).tree member.2
      return .both (← holding.ofContent value)
    | .variant _ | .both _ => .error (.repeated names.tag)
  else if member.1 = names.content then
    match found with
    | .neither => return .content member.2
    | .variant holding => return .both (← holding.ofContent member.2)
    | .content _ | .both _ => .error (.repeated names.content)
  else return found

/-- Read one member, from behind the quote before its key, into what has been found. -/
def readMember
    (names : AdjacentNames)
    (variants : List (String × Holding α))
    (levels : Nat)
    (found : Found α) :
    Reader (Found α) := do
  let key ← Reader.string
  if key = names.tag then
    match found with
    | .neither =>
      Reader.colon
      return .variant (← Reader.choice variants levels)
    | .content value =>
      Reader.colon
      let holding ← Reader.choice variants levels
      return .both (← Reader.ofVerdict (holding.ofContent value))
    | .variant _ | .both _ => Reader.mismatch (.repeated names.tag)
  else if key = names.content then
    match found with
    | .neither =>
      Reader.colon
      return .content (← Reader.any levels)
    | .variant holding =>
      Reader.colon
      return .both (← holding.readContent levels)
    | .content _ | .both _ => Reader.mismatch (.repeated names.content)
  else
    Reader.colon
    Reader.skip
    return found

end Found

/-- Values whose variant is told beside their content. -/
def Decoder.adjacent
    (names : AdjacentNames)
    (variants : List (String × Holding α)) :
    Decoder α where
  text levels := do
    let wanted := "adjacently tagged enum " ++ names.type
    match ← Reader.scalar with
    | .object _ =>
      Reader.inside levels fun levels => do
        let found ← Reader.members (Found.readMember names variants levels) .neither
        Reader.ofVerdict (found.finish names)
    | .array _ =>
      Reader.inside levels fun levels => do
        if ← Reader.hasItem true then
          let holding ← Reader.choice variants levels
          if ← Reader.hasItem false then
            let a ← holding.readContent levels
            Reader.closeArray
            return a
          else Reader.mismatch (.length 1 wanted)
        else Reader.mismatch (.length 0 wanted)
    | other => Reader.mismatch (.kind other wanted)
  tree value :=
    let wanted := "adjacently tagged enum " ++ names.type
    match value with
    | .object members => do
      (← members.foldlM (Found.takeMember names variants) .neither).finish names
    | .array [] => .error (.length 0 wanted)
    | .array [kind] => do
      let _ ← (Decoder.choice variants).tree kind
      .error (.length 1 wanted)
    | .array (kind :: content :: others) => do
      let holding ← (Decoder.choice variants).tree kind
      let a ← holding.ofContent content
      if others.isEmpty then return a
      else .error (.length (others.length + 2) "fewer elements in array")
    | other => .error (.kind other wanted)

end VerifyPipeline.Json
