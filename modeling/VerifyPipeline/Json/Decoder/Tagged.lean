import VerifyPipeline.Json.Decoder.Choice
import VerifyPipeline.Json.Decoder.Record

/-!
# Variants told by a tag

A value of one of several variants, written as an object in which one member, the tag, names the
variant and the others are its fields, or as an array of the tag and the fields in their order.
The fields are looked at only after the whole object or array has been read, so they are decoded
from values and not from the text.
-/

namespace VerifyPipeline.Json

/-- How the fields of a variant are taken from the members, or from the items, beside its tag. -/
structure Variant (α : Type) where
  ofMembers : List (String × Json) → Except Mismatch α
  ofItems : List Json → Except Mismatch α

namespace Variant

/-- A variant without fields; other members are ignored. -/
def unit (a : α) : Variant α where
  ofMembers _ := .ok a
  ofItems items :=
    if items.isEmpty then .ok a
    else .error (.length items.length (elementsText 0 ++ " in sequence"))

/-- A variant with fields, under its full name. -/
def record
    (name : String)
    (fields : Fields β)
    (make : β → α) :
    Variant α where
  ofMembers members := do return make (← fields.ofMembers members)
  ofItems items := do
    let (b, left) ←
      fields.ofItems ("struct variant " ++ name ++ " with " ++ elementsText fields.size) 0 items
    if left.isEmpty then return make b
    else .error (.length items.length (elementsText fields.size ++ " in sequence"))

/-- A variant with fields, under its full name, whose other members together make one more value.
It has no array form. -/
def recordWith
    (name : String)
    (fields : Fields β)
    (ofOthers : List (String × Json) → Except Mismatch γ)
    (make : β → γ → α) :
    Variant α where
  ofMembers members := do
    let b ← fields.ofMembers members
    return make b (← ofOthers (members.filter fun member => !fields.names.contains member.1))
  ofItems items := .error (.kind (.array items) ("struct variant " ++ name))

end Variant

/-- The variants by their names. -/
abbrev Variants (α : Type) := List (String × Variant α)

/-- The variant that a string names or whose position, counted from zero, a number gives. -/
def chosenOrCounted (variants : Variants α) : Json → Except Mismatch (Variant α)
  | .whole n =>
    if n < 0 then .error (.kind (.whole n) "variant identifier")
    else
      match variants[n.toNat]? with
      | some variant => .ok variant.2
      | none =>
        .error (.value (.whole n) ("variant index 0 <= i < " ++ toString variants.length))
  | other => chosen variants other

/-- Take a tagged value from members; `identify` judges the tag.  The tag counts as soon as it is
met, the other members are gathered in their order. -/
def ofTaggedMembers
    (tag : String)
    (identify : Json → Except Mismatch (Variant α))
    (members : List (String × Json)) :
    Except Mismatch α := do
  let found ← members.foldlM
    (fun (found : Option (Variant α)) member =>
      if member.1 = tag then
        if found.isSome then .error (.repeated tag)
        else do return some (← identify member.2)
      else return found)
    none
  match found with
  | none => .error (.missing tag)
  | some variant => variant.ofMembers (members.filter fun member => member.1 ≠ tag)

namespace Reader

/-- Read one member of a tagged object into the variant, if known, and the other members, the last
one first. -/
def taggedMember
    (tag : String)
    (variants : Variants α)
    (levels : Nat)
    (state : Option (Variant α) × List (String × Json)) :
    Reader (Option (Variant α) × List (String × Json)) := do
  let key ← string
  if key = tag then
    if state.1.isSome then mismatch (.repeated tag)
    else
      colon
      return (some (← judged (chosen variants)), state.2)
  else
    colon
    return (state.1, (key, ← any levels) :: state.2)

/-- Read a tagged object from behind its brace. -/
def taggedObject
    (tag : String)
    (variants : Variants α)
    (levels : Nat) :
    Reader α := do
  let (found, others) ← members (taggedMember tag variants levels) (none, [])
  match found with
  | none => mismatch (.missing tag)
  | some variant => ofVerdict (variant.ofMembers others.reverse)

/-- Read a tagged array from behind its bracket. -/
def taggedArray
    (tag : String)
    (variants : Variants α)
    (levels : Nat) :
    Reader α := do
  if ← hasItem true then
    let variant ← judged (chosen variants)
    let others ← itemLoop (fun found => return (← any levels) :: found) (← rounds) false []
    advance
    ofVerdict (variant.ofItems others.reverse)
  else mismatch (.missing tag)

end Reader

/-- Tagged values under the name of their type. -/
def Decoder.tagged
    (name tag : String)
    (variants : Variants α) :
    Decoder α where
  text levels := do
    match ← Reader.scalar with
    | .object _ => Reader.inside levels (Reader.taggedObject tag variants)
    | .array _ => Reader.inside levels (Reader.taggedArray tag variants)
    | other => Reader.mismatch (.kind other ("internally tagged enum " ++ name))
  tree
    | .object members => ofTaggedMembers tag (chosen variants) members
    | .array [] => .error (.missing tag)
    | .array (first :: others) => do
      let variant ← chosen variants first
      variant.ofItems others
    | other => .error (.kind other ("internally tagged enum " ++ name))

end VerifyPipeline.Json
