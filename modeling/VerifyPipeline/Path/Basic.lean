import VerifyPipeline.Text.Search

/-!
# Paths as texts

A path is a text whose segments are separated by slashes.  Empty segments and segments `.` say
nothing, except that a slash at the beginning makes the path absolute.  The rules of this module
need no file tree: what the last name of a path is, what lies before it, what its extension is, and
how two paths are joined.
-/

namespace VerifyPipeline.Path

/-- The segments between slashes. -/
def segments (path : String) : List String :=
  (Text.splitAt '/' path.toList).map String.ofList

/-- The path of segments. -/
def ofSegments (names : List String) : String := String.intercalate "/" names

/-- Whether a path starts at the root. -/
def isAbsolute (path : String) : Bool := path.toList.head? = some '/'

/-- Drop segments that say nothing, from the end on; the first segment stays.  The list has the last
segment first. -/
def dropSilent : List String → List String
  | [] => []
  | [first] => [first]
  | last :: before :: rest =>
    if last = "" || last = "." then dropSilent (before :: rest) else last :: before :: rest

/-- The path of segments that are listed with the last one first; a lone empty segment is the root
if the path began with a slash. -/
def ofReversed (absolute : Bool) (names : List String) : String :=
  match names with
  | [""] => if absolute then "/" else ""
  | names => ofSegments names.reverse

/-- What lies before the last segment of a path; the root and the empty path have nothing before
them. -/
def parent? (path : String) : Option String :=
  match dropSilent (segments path).reverse with
  | [] => none
  | [only] => if only = "" then none else some ""
  | _ :: before => some (ofReversed (isAbsolute path) (dropSilent before))

/-- The last segment of a path, if it is a name, and the segments before it, the last one first. -/
def lastName? (path : String) : Option (List String × String) :=
  match dropSilent (segments path).reverse with
  | [] => none
  | last :: before =>
    if last = "" || last = "." || last = ".." then none else some (before, last)

/-- A name divided at its last point; a point at the beginning divides nothing. -/
def divideName (name : String) : String × Option String :=
  let behind := name.toList.reverse.takeWhile (· ≠ '.')
  match name.toList.reverse.drop behind.length with
  | [] => (name, none)
  | [_] => (name, none)
  | _ :: before => (String.ofList before.reverse, some (String.ofList behind.reverse))

/-- What follows the last point of the last name. -/
def extension? (path : String) : Option String := (lastName? path).bind fun (_, name) =>
  (divideName name).2

/-- The path without its extension, for which as many characters are taken from the end. -/
def withoutExtension (path : String) : String :=
  match extension? path with
  | none => path
  | some extension => String.ofList (path.toList.take (path.length - extension.length))

/-- The path with another extension of its last name.  A path without a last name stays; `..`, to
which the name `..md` comes down without its extension, is no name. -/
def withExtension (path extension : String) : String :=
  let kept := withoutExtension path
  match lastName? kept with
  | none => kept
  | some (before, name) =>
    ofSegments (((divideName name).1 ++ "." ++ extension) :: before).reverse

/-- The path of `path` seen from `base`. -/
def join (base path : String) : String :=
  if isAbsolute path then path
  else if base = "" || base.toList.getLast? = some '/' then base ++ path
  else base ++ "/" ++ path

/-- The path beside a report at which its JSON rendering is written. -/
def jsonSibling (path : String) : String :=
  if extension? path = some "json" then path ++ ".json" else withExtension path "json"

end VerifyPipeline.Path
