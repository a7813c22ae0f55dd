import VerifyPipeline.Json.Decoder.Basic

/-!
# Records

A record has named fields in a fixed order.  It is written as an object, in which fields may stand
in any order among other members, or as an array of all fields in their order.
-/

namespace VerifyPipeline.Json

/-- The fields of a record whose values together form the type. -/
inductive Fields : Type → Type 1 where
  | done : Fields Unit
  | field {β γ : Type} (name : String) (decoder : Decoder β) (rest : Fields γ) : Fields (β × γ)

/-- So many elements, in words. -/
def elementsText (n : Nat) : String :=
  toString n ++ if n = 1 then " element" else " elements"

namespace Fields

/-- The number of fields. -/
def size : Fields α → Nat
  | .done => 0
  | .field _ _ rest => rest.size + 1

/-- The names of the fields. -/
def names : Fields α → List String
  | .done => []
  | .field name _ rest => name :: rest.names

/-- The values found so far. -/
def Slots : Fields α → Type
  | .done => Unit
  | @field β _ _ _ rest => Option β × rest.Slots

/-- Nothing found yet. -/
def start : (fields : Fields α) → fields.Slots
  | .done => ()
  | .field _ _ rest => (none, rest.start)

/-- All values, with the stand-ins for those not found. -/
def finish : (fields : Fields α) → fields.Slots → Except Mismatch α
  | .done, _ => .ok ()
  | @field β _ name decoder rest, found => do
    let (slot, slots) : Option β × rest.Slots := found
    match slot <|> decoder.absent? with
    | some b => return (b, ← rest.finish slots)
    | none => .error (.missing name)

/-- Read the value of a member from behind its key; one that belongs to no field is passed. -/
def readValue
    (key : String)
    (levels : Nat) :
    (fields : Fields α) → fields.Slots → Reader fields.Slots
  | .done, slots => do
    Reader.colon
    Reader.skip
    return slots
  | @field β _ name decoder rest, found => do
    let (slot, slots) : Option β × rest.Slots := found
    if name = key then
      if slot.isSome then Reader.mismatch (.repeated name)
      else
        Reader.colon
        return (some (← decoder.text levels), slots)
    else return (slot, ← rest.readValue key levels slots)

/-- Take the value of a member; one that belongs to no field is ignored. -/
def takeValue
    (key : String)
    (value : Json) :
    (fields : Fields α) → fields.Slots → Except Mismatch fields.Slots
  | .done, slots => .ok slots
  | @field β _ name decoder rest, found => do
    let (slot, slots) : Option β × rest.Slots := found
    if name = key then
      if slot.isSome then .error (.repeated name)
      else return (some (← decoder.tree value), slots)
    else return (slot, ← rest.takeValue key value slots)

/-- Read the fields of an object from behind its brace. -/
def readMembers (fields : Fields α) (levels : Nat) : Reader α := do
  let member (slots : fields.Slots) : Reader fields.Slots := do
    fields.readValue (← Reader.string) levels slots
  Reader.ofVerdict (fields.finish (← Reader.members member fields.start))

/-- Take the fields from members. -/
def ofMembers (fields : Fields α) (members : List (String × Json)) : Except Mismatch α := do
  fields.finish
    (← members.foldlM (fun slots member => fields.takeValue member.1 member.2 slots) fields.start)

/-- Read the fields of an array of which some have been read; the closing bracket is left. -/
def readItems
    (wanted : String)
    (levels : Nat) :
    Nat → Fields α → Reader α
  | _, .done => return ()
  | index, .field _ decoder rest => do
    if ← Reader.hasItem (index = 0) then
      let b ← decoder.text levels
      return (b, ← rest.readItems wanted levels (index + 1))
    else Reader.mismatch (.length index wanted)

/-- Take the fields from items of which some have been taken; the items left over remain. -/
def ofItems
    (wanted : String) :
    Nat → Fields α → List Json → Except Mismatch (α × List Json)
  | _, .done, items => .ok ((), items)
  | index, .field _ _ _, [] => .error (.length index wanted)
  | index, .field _ decoder rest, item :: items => do
    let b ← decoder.tree item
    let (c, left) ← rest.ofItems wanted (index + 1) items
    return ((b, c), left)

end Fields

/-- Records under a name. -/
def Decoder.record
    (name : String)
    (fields : Fields β)
    (make : β → α) :
    Decoder α where
  text levels := do
    match ← Reader.scalar with
    | .object _ =>
      return make (← Reader.inside levels fields.readMembers)
    | .array _ =>
      Reader.inside levels fun levels => do
        let b ← fields.readItems ("struct " ++ name ++ " with " ++ elementsText fields.size) levels 0
        Reader.closeArray
        return make b
    | other => Reader.mismatch (.kind other ("struct " ++ name))
  tree
    | .object members => do return make (← fields.ofMembers members)
    | .array items => do
      let (b, left) ←
        fields.ofItems ("struct " ++ name ++ " with " ++ elementsText fields.size) 0 items
      if left.isEmpty then return make b
      else .error (.length items.length "fewer elements in array")
    | other => .error (.kind other ("struct " ++ name))

end VerifyPipeline.Json
