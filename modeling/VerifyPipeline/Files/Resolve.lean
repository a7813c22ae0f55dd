import VerifyPipeline.Files.Tree

/-!
# Where a path leads

A path is followed name by name from the root or from the current directory, through symbolic links
and upwards at `..`.  A directory that has been removed while it was in use still has a way up, but
holds no names.
-/

namespace VerifyPipeline

/-- Where a path leads: a location, or a directory that has been removed, given by the nearest
location that is left above it and the names below that. -/
structure Spot where
  live : Location
  removed : List String
  deriving Repr, DecidableEq

namespace Spot

/-- The root. -/
def root : Spot := ⟨[], []⟩

/-- A location of the tree. -/
def ofLocation (location : Location) : Spot := ⟨location, []⟩

/-- One step up. -/
def up (spot : Spot) : Spot :=
  match spot.removed with
  | [] => ⟨spot.live.dropLast, []⟩
  | names => ⟨spot.live, names.dropLast⟩

/-- The spot after something was removed from the tree at a location. -/
def afterRemoval (location : Location) (spot : Spot) : Spot :=
  if location.isPrefixOf spot.live && !location.isEmpty then
    ⟨location.dropLast, spot.live.drop (location.length - 1) ++ spot.removed⟩
  else spot

end Spot

namespace FileTree

/-- The number of bytes that a name may have. -/
def nameLimit : Nat := 255

/-- The number of bytes that a path must stay below. -/
def pathLimit : Nat := 4096

/-- The number of symbolic links that one path may lead through. -/
def linkLimit : Nat := 40

/-- Whether there is a directory. -/
def isDirectoryAt (tree : FileTree) (spot : Spot) : Bool :=
  !spot.removed.isEmpty || tree.get? spot.live = some .directory

/-- The location of a name in a directory, whether or not there is anything. -/
def place (spot : Spot) (name : String) : Except OsError Location :=
  if !spot.removed.isEmpty then .error .notFound
  else if nameLimit < name.utf8ByteSize then .error .nameTooLong
  else .ok (spot.live ++ [name])

/-- Follow names as far as the first symbolic link, which `follow` takes on from the directory that
holds it. -/
def walkNames
    (tree : FileTree)
    (follow : Spot → List String → Except OsError Spot) :
    Spot → List String → Except OsError Spot
  | spot, [] => .ok spot
  | spot, name :: rest =>
    if !tree.isDirectoryAt spot then .error .notADirectory
    else if name = "" || name = "." then walkNames tree follow spot rest
    else if name = ".." then walkNames tree follow spot.up rest
    else
      match place spot name with
      | .error why => .error why
      | .ok location =>
        match tree.get? location with
        | none => .error .notFound
        | some (.link target) => follow spot (target :: rest)
        | some _ => walkNames tree follow (.ofLocation location) rest

/-- Where a path starts. -/
def startOf (here : Spot) (path : String) : Spot := if Path.isAbsolute path then .root else here

/-- Follow names through at most so many links.  A link stands for the names of its target. -/
def walk (tree : FileTree) : Nat → Spot → List String → Except OsError Spot
  | 0 => walkNames tree fun _ _ => .error .tooManyLinks
  | links + 1 =>
    walkNames tree fun spot names =>
      match names with
      | [] => .ok spot
      | target :: rest =>
        walk tree links (startOf spot target) (Path.segments target ++ rest)

/-- Refuse what is no path at all. -/
def checkPath (path : String) : Except OsError Unit :=
  if path.toList.contains '\x00' then .error .zeroInPath
  else if path = "" then .error .notFound
  else if pathLimit ≤ path.utf8ByteSize then .error .nameTooLong
  else .ok ()

/-- Where a path leads that is seen from a directory. -/
def resolve
    (tree : FileTree)
    (here : Spot)
    (path : String) :
    Except OsError Spot := do
  checkPath path
  tree.walk linkLimit (startOf here path) (Path.segments path)

/-- The location that a path leads to.  A path that is not absolute leads nowhere from a directory
that has been removed, and no path leads to where only links reach because the way from the root is
too long. -/
def canonicalize
    (tree : FileTree)
    (here : Spot)
    (path : String) :
    Except OsError Location := do
  checkPath path
  if !Path.isAbsolute path && !here.removed.isEmpty then .error .notFound
  else
    let spot ← tree.resolve here path
    if spot.removed.isEmpty then
      checkPath spot.live.text
      return spot.live
    else .error .notFound

/-- Whether a path leads to a directory. -/
def isDirectory (tree : FileTree) (here : Spot) (path : String) : Bool :=
  match tree.resolve here path with
  | .ok spot => tree.isDirectoryAt spot
  | .error _ => false

/-- The end of a path: the name of something in a directory, a step within directories, or a name
followed by a slash. -/
inductive PathEnd where
  | name (name : String)
  | directoryName (name : String)
  | step
  deriving Repr, DecidableEq

/-- Divide the names of a path, the last one first, into its end and the names before it, which come
in their order. -/
def dividePath : List String → List String × PathEnd
  | [] => ([], .step)
  | last :: before =>
    if last = "." || last = ".." then (before.reverse, .step)
    else if last ≠ "" then (before.reverse, .name last)
    else
      match before.dropWhile (· = "") with
      | [] => ([], .step)
      | name :: earlier =>
        if name = "." || name = ".." then (earlier.reverse, .step)
        else (earlier.reverse, .directoryName name)

/-- Where a path leads but for its end; that must be a directory. -/
def walkBefore
    (tree : FileTree)
    (links : Nat)
    (start : Spot)
    (names : List String) :
    Except OsError Spot := do
  let spot ← tree.walk links start names
  if tree.isDirectoryAt spot then return spot else .error .notADirectory

end FileTree

end VerifyPipeline
