import VerifyPipeline.Host.Basic
import VerifyPipeline.Workspace.Basic

/-!
# Entering workspaces

A workspace is entered by making its directory the current one.  Only one workspace is held at a
time: it may be entered again, under any name, and whoever has entered it leaves it again.  When it
has been left as often as it was entered, the directory that was current before is current again.
-/

namespace VerifyPipeline

/-- Why a project root cannot be used. -/
structure RootError where
  path : String
  why : OsError
  deriving Repr, DecidableEq

def RootError.text (error : RootError) : String :=
  "project root " ++ error.path ++ " is not usable: " ++ error.why.text

/-- Why a workspace could not be entered. -/
inductive WorkspaceError where
  | missing (workspace path : String) (why : OsError)
  | notADirectory (workspace : String) (location : Location)
  | notEnterable (workspace : String) (location : Location) (why : OsError)
  /-- Another workspace is held. -/
  | conflict (requested held : String)
  deriving Repr, DecidableEq

def WorkspaceError.text : WorkspaceError → String
  | .missing workspace path why =>
    "workspace '" ++ workspace ++ "' directory " ++ path ++ " does not exist: " ++ why.text
  | .notADirectory workspace location =>
    "workspace '" ++ workspace ++ "' path " ++ location.text ++ " is not a directory"
  | .notEnterable workspace location why =>
    "cannot enter workspace '" ++ workspace ++ "' at " ++ location.text ++ ": " ++ why.text
  | .conflict requested held =>
    "cannot enter workspace '" ++ requested ++ "' while workspace '" ++ held ++ "' is active"

/-- A directory could not be made current again when its workspace was left. -/
structure RestoreFailure where
  workspace : String
  directory : Location
  why : OsError
  deriving Repr, DecidableEq

/-- The warning for the failure. -/
def RestoreFailure.text (failure : RestoreFailure) : String :=
  "warning: failed to restore working directory " ++ failure.directory.text
    ++ " after workspace '" ++ failure.workspace ++ "': " ++ failure.why.text

/-- The root of a project, from which the paths of its workspaces are seen. -/
structure Project where
  root : Location
  deriving Repr, DecidableEq

namespace Project

/-- The project at a path. -/
def locate (host : Host) (path : String) : Except RootError Project :=
  match host.tree.canonicalize host.here path with
  | .ok root => .ok ⟨root⟩
  | .error why => .error ⟨path, why⟩

/-- The path of a workspace. -/
def pathOf (project : Project) (workspace : Workspace) : String :=
  Path.join project.root.text workspace.path

/-- The directory of a workspace. -/
def directoryOf
    (project : Project)
    (workspace : Workspace)
    (host : Host) :
    Except WorkspaceError Location :=
  let path := project.pathOf workspace
  match host.tree.canonicalize host.here path with
  | .error why => .error (.missing workspace.name path why)
  | .ok location =>
    if host.tree.get? location = some .directory then .ok location
    else .error (.notADirectory workspace.name location)

end Project

namespace Host

/-- Hold a workspace at a directory, or hold it once more. -/
def hold
    (host : Host)
    (name : String)
    (directory : Location) :
    Except WorkspaceError Host :=
  match host.held? with
  | some held =>
    if held.directory = directory then
      .ok { host with held? := some { held with depth := held.depth + 1 } }
    else .error (.conflict name held.name)
  | none =>
    match host.currentDirectory with
    | .error why => .error (.notEnterable name directory why)
    | .ok previous =>
      .ok { host with
        here := .ofLocation directory
        held? := some { name, directory, previous, depth := 1 } }

/-- Enter a workspace of a project. -/
def enter
    (host : Host)
    (project : Project)
    (workspace : Workspace) :
    Except WorkspaceError Host := do
  host.hold workspace.name (← project.directoryOf workspace host)

/-- Give the workspace up and make the directory current that was so before. -/
def restore (host : Host) (held : HeldWorkspace) : Host × Option RestoreFailure :=
  let freed := { host with held? := none }
  match freed.changeDirectory held.previous.text with
  | .ok restored => (restored, none)
  | .error why => (freed, some ⟨held.name, held.previous, why⟩)

/-- Leave the workspace once. -/
def leave (host : Host) : Host × Option RestoreFailure :=
  match host.held? with
  | none => (host, none)
  | some held =>
    if 1 < held.depth then
      ({ host with held? := some { held with depth := held.depth - 1 } }, none)
    else host.restore held

/-- Do something inside a workspace. -/
def within
    (host : Host)
    (project : Project)
    (workspace : Workspace)
    (action : Host → α × Host) :
    Except WorkspaceError (α × Host × Option RestoreFailure) := do
  let entered ← host.enter project workspace
  let (a, after) := action entered
  return (a, after.leave)

end Host

end VerifyPipeline
