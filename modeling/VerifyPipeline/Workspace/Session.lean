import VerifyPipeline.Workspace.Slot

/-!
# Sessions

Who enters a workspace gets a guard and leaves the workspace when the guard is dropped.  A session
is what code does with guards: it enters, drops guards that are alive, in any order, and in between
changes files and directories as it likes.
-/

namespace VerifyPipeline

namespace Host

/-- An act that only looks at the host. -/
def look (view : Host → Except WorkspaceError α) : EStateM WorkspaceError Host α := fun host =>
  match view host with
  | .ok seen => .ok seen host
  | .error why => .error why host

/-- An act of the system, which either changes the host or fails. -/
def attempt (act : Host → Except WorkspaceError Host) : EStateM WorkspaceError Host Unit :=
  fun host =>
    match act host with
    | .ok changed => .ok () changed
    | .error why => .error why host

/-- Enter a workspace act by act.  An error leaves the host as the acts before it have made it. -/
def enterByActs
    (project : Project)
    (workspace : Workspace) :
    EStateM WorkspaceError Host Unit := do
  let directory ← look (project.directoryOf workspace)
  match ← look fun host => .ok host.held? with
  | some held =>
    if held.directory = directory then
      modify fun host => { host with held? := some { held with depth := held.depth + 1 } }
    else throw (.conflict workspace.name held.name)
  | none =>
    let refused := WorkspaceError.notEnterable workspace.name directory
    let previous ← look fun host => host.currentDirectory.mapError refused
    attempt fun host => (host.changeDirectory directory.text).mapError refused
    modify fun host =>
      { host with held? := some { name := workspace.name, directory, previous, depth := 1 } }

end Host

/-- The act of entering while no guard was alive, and the host just before it. -/
structure Taking where
  project : Project
  workspace : Workspace
  host : Host

/-- Guards and the host that they hold a workspace of. -/
structure Session where
  host : Host
  /-- The guards that are alive, the last one first. -/
  guards : List Nat := []
  /-- The number of guards that have been handed out. -/
  handed : Nat := 0
  /-- The last successful act of entering while no guard was alive. -/
  taking? : Option Taking := none

namespace Session

/-- What code can do to the host, as far as workspaces are concerned. -/
inductive Move where
  | enter (project : Project) (workspace : Workspace)
  /-- Drop a guard that is alive. -/
  | drop (guard : Nat)
  /-- Change files, change the current directory, and let time pass. -/
  | act (tree : FileTree) (here : Spot) (clock : Instant)

/-- The session with a guard of the workspace that has been entered. -/
def guarded
    (session : Session)
    (project : Project)
    (workspace : Workspace)
    (entered : Host) :
    Session where
  host := entered
  guards := session.handed :: session.guards
  handed := session.handed + 1
  taking? :=
    if session.guards.isEmpty then some ⟨project, workspace, session.host⟩
    else session.taking?

/-- The session after an attempt to enter a workspace has come to a result. -/
def settled
    (session : Session)
    (project : Project)
    (workspace : Workspace) :
    EStateM.Result WorkspaceError Host Unit → Session
  | .ok _ entered => session.guarded project workspace entered
  | .error _ left => { session with host := left }

/-- The session after an attempt to enter a workspace. -/
def enter (session : Session) (project : Project) (workspace : Workspace) : Session :=
  session.settled project workspace ((Host.enterByActs project workspace).run session.host)

/-- The session after a guard that is alive was dropped. -/
def drop (session : Session) (guard : Nat) : Session :=
  { session with
    host := session.host.leave.1
    guards := session.guards.erase guard }

/-- The session after other code has run. -/
def act (session : Session) (tree : FileTree) (here : Spot) (clock : Instant) : Session :=
  { session with host := { session.host with tree, here, clock } }

/-- The session after a move; none if the guard to be dropped is not alive. -/
def step (session : Session) : Move → Option Session
  | .enter project workspace => some (session.enter project workspace)
  | .drop guard => if guard ∈ session.guards then some (session.drop guard) else none
  | .act tree here clock => some (session.act tree here clock)

/-- The session after moves. -/
def play (session : Session) : List Move → Option Session
  | [] => some session
  | move :: rest => (session.step move).bind fun next => next.play rest

end Session

end VerifyPipeline
