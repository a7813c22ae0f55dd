import VerifyPipeline.Files.Resolve

/-!
# Operations on files

Making directories, opening files for writing, reading, writing and removing.  Each operation takes
the tree and the directory that paths are seen from.
-/

namespace VerifyPipeline.FileTree

/-- Make one directory. -/
def makeDirectory
    (tree : FileTree)
    (here : Spot)
    (path : String) :
    Except OsError FileTree := do
  checkPath path
  let (before, last) := dividePath (Path.segments path).reverse
  let spot ← tree.walkBefore linkLimit (startOf here path) before
  match last with
  | .step => .error .alreadyExists
  | .name name | .directoryName name =>
    let location ← place spot name
    match tree.get? location with
    | some _ => .error .alreadyExists
    | none => return tree.put location .directory

/-- Make a directory and the ones above it that are missing, as long as `steps` allows.  What has
been made before an error stays. -/
def makeDirectoriesWithin (here : Spot) : Nat → FileTree → String → Option OsError × FileTree
  | 0, tree, _ => (some .notFound, tree)
  | steps + 1, tree, path =>
    if path = "" then (none, tree)
    else
      match tree.makeDirectory here path with
      | .ok made => (none, made)
      | .error .notFound =>
        match Path.parent? path with
        | none => (some .notFound, tree)
        | some parent =>
          match makeDirectoriesWithin here steps tree parent with
          | (some why, extended) => (some why, extended)
          | (none, extended) =>
            match extended.makeDirectory here path with
            | .ok made => (none, made)
            | .error why =>
              if extended.isDirectory here path then (none, extended) else (some why, extended)
      | .error why => if tree.isDirectory here path then (none, tree) else (some why, tree)

/-- Make a directory and the ones above it that are missing. -/
def makeDirectories
    (tree : FileTree)
    (here : Spot)
    (path : String) :
    Option OsError × FileTree :=
  makeDirectoriesWithin here ((Path.segments path).length + 1) tree path

/-- Make the directories before the last name of a path. -/
def makeParents
    (tree : FileTree)
    (here : Spot)
    (path : String) :
    Option OsError × FileTree :=
  match Path.parent? path with
  | none => (none, tree)
  | some parent => if parent = "" then (none, tree) else tree.makeDirectories here parent

/-- The location of the file that is opened for writing under names, through at most so many links
at the end.  The file need not be there, but the directory must be. -/
def fileLocation (tree : FileTree) : Nat → Spot → List String → Except OsError Location
  | 0, _, _ => .error .tooManyLinks
  | links + 1, start, names => do
    let (before, last) := dividePath names.reverse
    let spot ← tree.walkBefore linkLimit start before
    match last with
    | .step | .directoryName _ => .error .isADirectory
    | .name name =>
      let location ← place spot name
      match tree.get? location with
      | some .directory => .error .isADirectory
      | some (.link target) => tree.fileLocation links (startOf spot target) (Path.segments target)
      | _ => return location

/-- Open a file for writing: it is there afterwards and empty.  The result is the tree and the
location of the file. -/
def openForWriting
    (tree : FileTree)
    (here : Spot)
    (path : String) :
    Except OsError (FileTree × Location) := do
  checkPath path
  let location ← tree.fileLocation (linkLimit + 1) (startOf here path) (Path.segments path)
  match tree.get? location with
  | some (.device _) => return (tree, location)
  | _ => return (tree.write location "", location)

/-- Whether the file at a location takes no text. -/
def isFull (tree : FileTree) (location : Location) : Bool :=
  tree.get? location = some (.device true)

/-- Give the open file at a location a text. -/
def fill (tree : FileTree) (location : Location) (content : String) : FileTree :=
  match tree.get? location with
  | some (.device _) => tree
  | _ => tree.write location content

/-- The tree when a text has been written bit by bit to an open file, which was empty when it was
opened.  If others have written to it meanwhile, its bytes are not known. -/
def writeOpen (tree : FileTree) (number : Nat) (emptied : File) (content : String) : FileTree :=
  let file := tree.file number
  tree.setFile number (file.rewritten (if file = emptied then some content else none))

/-- Write a text to a file. -/
def writeText
    (tree : FileTree)
    (here : Spot)
    (path content : String) :
    Except OsError FileTree := do
  let (opened, location) ← tree.openForWriting here path
  if opened.isFull location && content ≠ "" then .error .noSpace
  else return opened.fill location content

/-- Write a text to a file, and make the directories before it that are missing. -/
def saveText
    (tree : FileTree)
    (here : Spot)
    (path content : String) :
    Option OsError × FileTree :=
  match tree.makeParents here path with
  | (some why, extended) => (some why, extended)
  | (none, extended) =>
    match extended.writeText here path content with
    | .ok written => (none, written)
    | .error why => (some why, extended)

/-- The text of a file. -/
def readText
    (tree : FileTree)
    (here : Spot)
    (path : String) :
    Except OsError String := do
  let spot ← tree.resolve here path
  if !spot.removed.isEmpty then .error .isADirectory
  else
    match tree.get? spot.live with
    | some (.file (some content)) => return content
    | some (.file none) => .error .notText
    | some (.device _) => return ""
    | some .directory => .error .isADirectory
    | some (.link _) | none => .error .notFound

/-- The location of a directory, or of a link, that is to be removed with all that is below. -/
def removalLocation
    (tree : FileTree)
    (here : Spot)
    (path : String) :
    Except OsError Location := do
  checkPath path
  let (before, last) := dividePath (Path.segments path).reverse
  match last with
  | .name name =>
    let location ← place (← tree.walkBefore linkLimit (startOf here path) before) name
    match tree.get? location with
    | none => .error .notFound
    | some .directory | some (.link _) => return location
    | some _ => .error .notADirectory
  | _ =>
    let spot ← tree.resolve here path
    if !tree.isDirectoryAt spot then .error .notADirectory
    else if !spot.removed.isEmpty then .error .notFound
    else return spot.live

end VerifyPipeline.FileTree
