import VerifyPipeline.Binary64.Basic

/-!
# JSON values

A value keeps the members of an object in the order in which they were written, repeated keys
included.  Its canonical form has every object's members in increasing order of the keys, one for
each key, and where a key was repeated the last member counts.
-/

namespace VerifyPipeline

/-- A JSON value.  Numbers without fraction and exponent are whole, all others are floating. -/
inductive Json where
  | null
  | bool (value : Bool)
  | whole (value : Int)
  | floating (value : Binary64)
  | string (value : String)
  | array (items : List Json)
  | object (members : List (String × Json))
  deriving Repr

namespace Json

/-- A whole number that counts something. -/
def count (n : Nat) : Json := .whole n

/-- `null` for an absent value. -/
def optional (encode : α → Json) : Option α → Json
  | none => .null
  | some a => encode a

/-- An array of strings. -/
def strings (texts : List String) : Json := .array (texts.map .string)

/-- The member that counts for a key: the last one written. -/
def lookup? (key : String) : List (String × Json) → Option Json
  | [] => none
  | (name, value) :: rest =>
    match lookup? key rest with
    | some found => some found
    | none => if name = key then some value else none

/-- The member of an object that counts for a key. -/
def get? (key : String) : Json → Option Json
  | .object members => lookup? key members
  | _ => none

/-- The text of a string. -/
def text? : Json → Option String
  | .string text => some text
  | _ => none

/-- Put a member in front of the first one with a greater key. -/
def insertMember (key : String) (value : Json) : List (String × Json) → List (String × Json)
  | [] => [(key, value)]
  | (name, other) :: rest =>
    if key < name then (key, value) :: (name, other) :: rest
    else (name, other) :: insertMember key value rest

mutual

/-- The canonical form of a value. -/
def canonical : Json → Json
  | .array items => .array (canonicalItems items)
  | .object members => .object (canonicalMembers members)
  | value => value

/-- The canonical forms of the items of an array. -/
def canonicalItems : List Json → List Json
  | [] => []
  | item :: rest => canonical item :: canonicalItems rest

/-- The members of an object in increasing order of the keys.  A member whose key occurs again
later is dropped. -/
def canonicalMembers : List (String × Json) → List (String × Json)
  | [] => []
  | (key, value) :: rest =>
    let later := canonicalMembers rest
    if later.any (fun entry => entry.1 = key) then later
    else insertMember key (canonical value) later

end

mutual

/-- The greatest number of arrays and objects around one place of a value, the value itself
included. -/
def depth : Json → Nat
  | .array items => depthItems items + 1
  | .object members => depthMembers members + 1
  | _ => 0

/-- The greatest depth of an item. -/
def depthItems : List Json → Nat
  | [] => 0
  | item :: rest => max (depth item) (depthItems rest)

/-- The greatest depth of a member. -/
def depthMembers : List (String × Json) → Nat
  | [] => 0
  | (_, value) :: rest => max (depth value) (depthMembers rest)

end

end Json

end VerifyPipeline
