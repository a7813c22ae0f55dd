import VerifyPipeline.Calendar
import VerifyPipeline.Files.Operations

/-!
# The host of a run

What a run finds around it and may change: the files, the current directory, the workspace that is
held, and the clock.  Holding a workspace is left to the module of the workspace slot; this one has
the operations on the current directory.
-/

namespace VerifyPipeline

/-- The workspace that is held. -/
structure HeldWorkspace where
  name : String
  directory : Location
  /-- The directory that was current before. -/
  previous : Location
  /-- How often the workspace has been entered and not yet left. -/
  depth : Nat
  deriving Repr, DecidableEq

/-- What a program finds: the files, and the directory in which it is started. -/
structure Scene where
  tree : FileTree
  here : Spot
  deriving Repr, DecidableEq

/-- What a run finds around it and may change. -/
structure Host where
  tree : FileTree
  /-- The current directory. -/
  here : Spot
  /-- The one workspace that is held, if any. -/
  held? : Option HeldWorkspace := none
  clock : Instant := 0
  deriving Repr, DecidableEq

namespace Host

/-- What a program finds that is started now. -/
def scene (host : Host) : Scene := ⟨host.tree, host.here⟩

/-- The location of the current directory; one that has been removed has none. -/
def currentDirectory (host : Host) : Except OsError Location :=
  if host.here.removed.isEmpty then .ok host.here.live else .error .notFound

/-- Make another directory the current one. -/
def changeDirectory (host : Host) (path : String) : Except OsError Host := do
  let spot ← host.tree.resolve host.here path
  if host.tree.isDirectoryAt spot then return { host with here := spot }
  else .error .notADirectory

/-- Make a directory and the ones above it that are missing.  What has been made before an error
stays. -/
def makeDirectories (host : Host) (path : String) : Option OsError × Host :=
  let (error?, tree) := host.tree.makeDirectories host.here path
  (error?, { host with tree := tree })

/-- Remove a directory, given by a path seen from `base`, with all that is below. -/
def removeAll
    (host : Host)
    (base : Location)
    (path : String) :
    Except OsError Host := do
  let location ← host.tree.removalLocation (.ofLocation base) path
  return { host with
    tree := host.tree.remove location
    here := host.here.afterRemoval location }

/-- The host when some nanoseconds have passed. -/
def later (host : Host) (nanoseconds : Nat) : Host :=
  { host with clock := host.clock + nanoseconds }

end Host

end VerifyPipeline
