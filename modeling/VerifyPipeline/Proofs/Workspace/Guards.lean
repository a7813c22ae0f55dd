import VerifyPipeline.Proofs.Workspace.Entering
import VerifyPipeline.Workspace.Session

namespace VerifyPipeline

/-!
# Guards and the slot

Entering act by act comes to the same as entering at once, and whatever error there is comes before
the first act that changes anything.  So a session that found the slot free holds a workspace
exactly while a guard is alive, the depth counts the guards, and the slot remembers who took it.
-/

/-- The directory of a workspace can be entered by its path. -/
theorem Project.enterable_of_directoryOf
    {host : Host}
    {workspace : Workspace}
    {directory : Location}
    (project : Project)
    (found : project.directoryOf workspace host = .ok directory) :
    host.tree.Enterable directory := by
  unfold directoryOf at found
  simp only at found
  split at found
  · contradiction
  · rename_i location located
    split at found
    · rename_i isDirectory
      obtain rfl := Except.ok.inj found
      exact FileTree.enterable_of_canonicalize (project.isAbsolute_pathOf workspace) located
        isDirectory
    · contradiction

namespace Host

section Acts

variable
  {host after : Host}
  {first : EStateM WorkspaceError Host α}
  {a : α}
  {why : WorkspaceError}

/-- After an act that succeeds, the next one goes on. -/
theorem run_bind_of_ok
    (ran : first.run host = .ok a after)
    (next : α → EStateM WorkspaceError Host β) :
    (first >>= next).run host = (next a).run after := by
  change EStateM.bind first next host = next a after
  have ran' : first host = .ok a after := ran
  simp only [EStateM.bind, ran']

/-- An act that fails is the last one. -/
theorem run_bind_of_error
    (ran : first.run host = .error why after)
    (next : α → EStateM WorkspaceError Host β) :
    (first >>= next).run host = .error why after := by
  change EStateM.bind first next host = .error why after
  have ran' : first host = .error why after := ran
  simp only [EStateM.bind, ran']

theorem run_look_of_ok
    {view : Host → Except WorkspaceError α}
    (seen : view host = .ok a) :
    (look view).run host = .ok a host := by
  simp [look, EStateM.run, seen]

theorem run_look_of_error
    {view : Host → Except WorkspaceError α}
    (unseen : view host = .error why) :
    (look view).run host = .error why host := by
  simp [look, EStateM.run, unseen]

end Acts

/-- A directory that can be entered becomes the current one under its path. -/
theorem changeDirectory_of_enterable
    {host : Host}
    {location : Location}
    (enterable : host.tree.Enterable location) :
    host.changeDirectory location.text = .ok { host with here := .ofLocation location } := by
  have directory := enterable.stands location (List.prefix_refl location)
  simp [changeDirectory, enterable.resolve_eq, directory, bind, Except.bind, pure, Except.pure]

/-- While a workspace is held, entering succeeds exactly in the directory that is held. -/
theorem enter_of_held
    {host : Host}
    {held : HeldWorkspace}
    {project : Project}
    {workspace : Workspace}
    {directory : Location}
    (holder : host.held? = some held)
    (found : project.directoryOf workspace host = .ok directory) :
    host.enter project workspace =
      if held.directory = directory then
        .ok { host with held? := some { held with depth := held.depth + 1 } }
      else .error (.conflict workspace.name held.name) := by
  simp [enter, found, hold, holder, bind, Except.bind]

/-- Entering act by act comes to the same as entering at once, and has changed nothing if it fails.
A directory that was just found can be entered. -/
theorem run_enterByActs
    (host : Host)
    (project : Project)
    (workspace : Workspace) :
    (enterByActs project workspace).run host =
      match host.enter project workspace with
      | .ok entered => .ok () entered
      | .error why => .error why host := by
  cases found : project.directoryOf workspace host with
  | error why =>
      rw [enterByActs, run_bind_of_error (run_look_of_error found)]
      simp [enter, found, bind, Except.bind]
  | ok directory =>
      have held? : (look fun host => .ok host.held?).run host = .ok host.held? host := rfl
      rw [enterByActs, run_bind_of_ok (run_look_of_ok found), run_bind_of_ok held?]
      cases holder : host.held? with
      | some held =>
          have entering := enter_of_held holder found
          rw [entering]
          by_cases same : held.directory = directory
          · simp only [same, ↓reduceIte]
            rfl
          · simp only [same, ↓reduceIte]
            rfl
      | none =>
          simp only
          let refused := WorkspaceError.notEnterable workspace.name directory
          cases current : host.currentDirectory with
          | error why =>
              have entering : host.enter project workspace = .error (refused why) := by
                simp [enter, found, hold, holder, current, bind, Except.bind, refused]
              have unseen :
                  (look fun host => host.currentDirectory.mapError refused).run host =
                    .error (refused why) host :=
                run_look_of_error (by rw [current]; rfl)
              rw [entering, run_bind_of_error unseen]
          | ok previous =>
              have entering :
                  host.enter project workspace =
                    .ok { host with
                      here := .ofLocation directory
                      held? := some
                        { name := workspace.name, directory, previous, depth := 1 } } := by
                simp [enter, found, hold, holder, current, bind, Except.bind]
              have seen :
                  (look fun host => host.currentDirectory.mapError refused).run host =
                    .ok previous host :=
                run_look_of_ok (by rw [current]; rfl)
              have enterable := project.enterable_of_directoryOf found
              have moved :
                  (attempt fun host => (host.changeDirectory directory.text).mapError refused).run
                      host =
                    .ok () { host with here := .ofLocation directory } := by
                simp only [attempt, EStateM.run, changeDirectory_of_enterable enterable]
                rfl
              rw [entering, run_bind_of_ok seen, run_bind_of_ok moved]
              rfl

/-- Entering act by act succeeds exactly if entering at once does. -/
theorem run_enterByActs_eq_ok_iff
    {host entered : Host}
    {project : Project}
    {workspace : Workspace} :
    (enterByActs project workspace).run host = .ok () entered ↔
      host.enter project workspace = .ok entered := by
  rw [run_enterByActs]
  cases host.enter project workspace <;> simp

/-- Whoever fails to enter leaves everything as it was. -/
theorem run_enterByActs_eq_error_iff
    {host left : Host}
    {project : Project}
    {workspace : Workspace}
    {why : WorkspaceError} :
    (enterByActs project workspace).run host = .error why left ↔
      host.enter project workspace = .error why ∧ left = host := by
  rw [run_enterByActs]
  cases host.enter project workspace <;> simp [eq_comm]

/-- A current directory that has a location is there. -/
theorem here_of_currentDirectory
    {host : Host}
    {location : Location}
    (current : host.currentDirectory = .ok location) :
    host.here = .ofLocation location := by
  obtain ⟨tree, ⟨live, removed⟩, held?, clock⟩ := host
  unfold currentDirectory at current
  split at current
  · rename_i present
    obtain rfl := Except.ok.inj current
    obtain rfl : removed = [] := by simpa using present
    rfl
  · contradiction

/-- A workspace is found where its path leads to a directory. -/
theorem directoryOf_of_canonicalize
    {host : Host}
    {project : Project}
    {workspace : Workspace}
    {directory : Location}
    (located :
      host.tree.canonicalize host.here (project.pathOf workspace) = .ok directory)
    (isDirectory : host.tree.get? directory = some .directory) :
    project.directoryOf workspace host = .ok directory := by
  simp [Project.directoryOf, located, isDirectory]

/-- Whoever leaves a workspace that is held more than once changes nothing but the depth. -/
theorem leave_of_nested
    {host : Host}
    {held : HeldWorkspace}
    (holder : host.held? = some held)
    (nested : 1 < held.depth) :
    host.leave.1 = { host with held? := some { held with depth := held.depth - 1 } } := by
  simp [leave, holder, nested]

/-- Giving a workspace up succeeds if the directory before it can be entered. -/
theorem restore_of_enterable
    {host : Host}
    {held : HeldWorkspace}
    (enterable : host.tree.Enterable held.previous) :
    host.restore held =
      ({ host with held? := none, here := .ofLocation held.previous }, none) := by
  have moved :
      { host with held? := none }.changeDirectory held.previous.text =
        .ok { host with held? := none, here := .ofLocation held.previous } :=
    changeDirectory_of_enterable enterable
  simp only [restore, moved]

/-- Leaving a workspace that is held once goes back to the directory before. -/
theorem leave_of_once
    {host : Host}
    {held : HeldWorkspace}
    (holder : host.held? = some held)
    (once : held.depth = 1) :
    host.leave = host.restore held := by
  simp [leave, holder, once]

end Host

namespace Session

/-- A session of a host in which no guard has been handed out. -/
def start (host : Host) : Session where
  host := host

theorem enter_of_ok
    (session : Session)
    {project : Project}
    {workspace : Workspace}
    {entered : Host}
    (accepted : session.host.enter project workspace = .ok entered) :
    session.enter project workspace = session.guarded project workspace entered := by
  rw [enter, Host.run_enterByActs_eq_ok_iff.mpr accepted]
  rfl

theorem enter_of_error
    (session : Session)
    {project : Project}
    {workspace : Workspace}
    {why : WorkspaceError}
    (refused : session.host.enter project workspace = .error why) :
    session.enter project workspace = session := by
  rw [enter, Host.run_enterByActs_eq_error_iff.mpr ⟨refused, rfl⟩]
  rfl

/-- All that a move can lead to. -/
inductive Leads (session : Session) : Move → Session → Prop where
  | entered
      {project : Project}
      {workspace : Workspace}
      {host : Host} :
      session.host.enter project workspace = .ok host →
      Leads session (.enter project workspace) (session.guarded project workspace host)
  | refused
      {project : Project}
      {workspace : Workspace}
      {why : WorkspaceError} :
      session.host.enter project workspace = .error why →
      Leads session (.enter project workspace) session
  | dropped
      {guard : Nat} :
      guard ∈ session.guards →
      Leads session (.drop guard) (session.drop guard)
  | acted
      {tree : FileTree}
      {here : Spot}
      {clock : Instant} :
      Leads session (.act tree here clock) (session.act tree here clock)

/-- A step of a session leads to what its move says. -/
theorem leads_of_step
    {session next : Session}
    {move : Move}
    (stepped : session.step move = some next) :
    session.Leads move next := by
  cases move with
  | enter project workspace =>
      obtain rfl := Option.some.inj stepped
      cases entering : session.host.enter project workspace with
      | ok host =>
          rw [session.enter_of_ok entering]
          exact .entered entering
      | error why =>
          rw [session.enter_of_error entering]
          exact .refused entering
  | drop guard =>
      simp only [step] at stepped
      split at stepped
      · rename_i alive
        obtain rfl := Option.some.inj stepped
        exact .dropped alive
      · contradiction
  | act tree here clock =>
      obtain rfl := Option.some.inj stepped
      exact .acted

/-- What every move preserves is preserved by all moves together. -/
theorem play_induction
    {session last : Session}
    {moves : List Move}
    {invariant : Session → Prop}
    (kept : ∀ {session next move}, invariant session → session.Leads move next → invariant next)
    (atStart : invariant session)
    (played : session.play moves = some last) :
    invariant last := by
  induction moves generalizing session with
  | nil =>
      obtain rfl := Option.some.inj played
      exact atStart
  | cons move rest inductionHypothesis =>
      obtain ⟨next, stepped, later⟩ := Option.bind_eq_some_iff.mp played
      exact inductionHypothesis (kept atStart (leads_of_step stepped)) later

/-- The slot is held for the guards that are alive, by who took it. -/
structure Holds (session : Session) (held : HeldWorkspace) : Prop where
  slot : session.host.held? = some held
  depth : held.depth = session.guards.length
  alive : session.guards ≠ []
  taken :
    ∃ taking,
      session.taking? = some taking ∧
        held.name = taking.workspace.name ∧
        taking.project.directoryOf taking.workspace taking.host = .ok held.directory ∧
        taking.host.here = .ofLocation held.previous

/-- The slot is free and no guard is alive, or the slot is held for the guards that are. -/
def Balanced (session : Session) : Prop :=
  session.host.held? = none ∧ session.guards = [] ∨ ∃ held, session.Holds held

/-- Every move keeps the guards and the slot in balance.  The depth counts the guards, so it is one
exactly for the last of them. -/
theorem Balanced.leads
    {session next : Session}
    {move : Move}
    (balanced : session.Balanced)
    (leads : session.Leads move next) :
    next.Balanced := by
  cases leads with
  | @entered project workspace host accepted =>
      obtain ⟨directory, found, shape⟩ := Host.enter_cases accepted
      right
      rcases balanced with ⟨free, unguarded⟩ | ⟨held, holds⟩
      · rcases shape with ⟨_, holder, _⟩ | ⟨_, previous, current, rfl⟩
        · rw [free] at holder
          contradiction
        · have here := Host.here_of_currentDirectory current
          exact ⟨_, {
            slot := rfl
            depth := by simp [guarded, unguarded]
            alive := by simp [guarded]
            taken :=
              ⟨⟨project, workspace, session.host⟩, by simp [guarded, unguarded], rfl, found, here⟩
          }⟩
      · rcases shape with ⟨other, holder, _, rfl⟩ | ⟨free, _⟩
        · obtain rfl : held = other := Option.some.inj (holds.slot.symm.trans holder)
          obtain ⟨taking, isTaking, same⟩ := holds.taken
          exact ⟨_, {
            slot := rfl
            depth := by simp [guarded, holds.depth]
            alive := by simp [guarded]
            taken := ⟨taking, by simp [guarded, holds.alive, isTaking], same⟩
          }⟩
        · rw [holds.slot] at free
          contradiction
  | refused _ =>
      exact balanced
  | @dropped guard alive =>
      have count : (session.drop guard).guards.length = session.guards.length - 1 :=
        List.length_erase_of_mem alive
      rcases balanced with ⟨_, unguarded⟩ | ⟨held, holds⟩
      · simp [unguarded] at alive
      · have depth := holds.depth
        by_cases nested : 1 < held.depth
        · right
          exact ⟨_, {
            slot := congrArg Host.held? (Host.leave_of_nested holds.slot nested)
            depth := by
              rw [count, ← depth]
            alive := List.ne_nil_of_length_pos (by omega)
            taken := holds.taken
          }⟩
        · left
          have positive := List.length_pos_of_mem alive
          have once : held.depth = 1 := by omega
          exact ⟨Host.leave_of_held_once holds.slot once,
            List.eq_nil_of_length_eq_zero (by omega)⟩
  | acted =>
      rcases balanced with ⟨free, unguarded⟩ | ⟨held, holds⟩
      · exact .inl ⟨free, unguarded⟩
      · exact .inr ⟨held, holds.slot, holds.depth, holds.alive, holds.taken⟩

/-- Guards are different, and have been handed out. -/
def Numbered (session : Session) : Prop :=
  session.guards.Nodup ∧ ∀ guard ∈ session.guards, guard < session.handed

/-- Every move keeps the guards numbered in the order in which they were taken. -/
theorem Numbered.leads
    {session next : Session}
    {move : Move}
    (numbered : session.Numbered)
    (leads : session.Leads move next) :
    next.Numbered := by
  obtain ⟨distinct, handed⟩ := numbered
  cases leads with
  | entered _ =>
      have fresh : session.handed ∉ session.guards :=
        fun member => Nat.lt_irrefl _ (handed _ member)
      refine ⟨List.nodup_cons.mpr ⟨fresh, distinct⟩, ?_⟩
      intro guard member
      rcases List.mem_cons.mp member with rfl | earlier
      · exact Nat.lt_succ_self _
      · exact Nat.lt_succ_of_lt (handed guard earlier)
  | refused _ =>
      exact ⟨distinct, handed⟩
  | dropped _ =>
      exact ⟨distinct.erase _, fun guard member => handed guard (List.mem_of_mem_erase member)⟩
  | acted =>
      exact ⟨distinct, handed⟩

/-- A session that begins with a free slot is balanced. -/
theorem balanced_of_play
    {host : Host}
    {moves : List Move}
    {session : Session}
    (free : host.held? = none)
    (played : (start host).play moves = some session) :
    session.Balanced :=
  play_induction Balanced.leads (.inl ⟨free, rfl⟩) played

/-- The guards of a session are numbered. -/
theorem numbered_of_play
    {host : Host}
    {moves : List Move}
    {session : Session}
    (played : (start host).play moves = some session) :
    session.Numbered :=
  play_induction Numbered.leads ⟨List.nodup_nil, by simp [start]⟩ played

/-- The guard that is alive holds the slot. -/
theorem Balanced.holds
    {session : Session}
    {held : HeldWorkspace}
    (balanced : session.Balanced)
    (holder : session.host.held? = some held) :
    session.Holds held := by
  rcases balanced with ⟨free, _⟩ | ⟨other, holds⟩
  · rw [free] at holder
    contradiction
  · obtain rfl : other = held := Option.some.inj (holds.slot.symm.trans holder)
    exact holds

/-- While a guard is alive, its workspace is held. -/
theorem Balanced.exists_holds
    {session : Session}
    (balanced : session.Balanced)
    (alive : session.guards ≠ []) :
    ∃ held, session.Holds held := by
  rcases balanced with ⟨_, unguarded⟩ | holds
  · exact absurd unguarded alive
  · exact holds

/-- How the slot and the guards of a session account for one another. -/
structure Accounted (session : Session) : Prop where
  distinct : session.guards.Nodup
  occupied_iff : session.host.held?.isSome = true ↔ session.guards ≠ []
  depth :
    ∀ held, session.host.held? = some held → held.depth = session.guards.length
  /-- A guard that is dropped finds something to count down. -/
  countable :
    ∀ guard ∈ session.guards, ∃ held, session.host.held? = some held ∧ 0 < held.depth
  /-- The slot has the name and the directory of who took it. -/
  taken :
    ∀ held, session.host.held? = some held →
      ∃ taking,
        session.taking? = some taking ∧
          held.name = taking.workspace.name ∧
          taking.project.directoryOf taking.workspace taking.host = .ok held.directory
  /-- What is held can be entered again, under any name, and nothing else can. -/
  exclusive :
    ∀ held project workspace directory,
      session.host.held? = some held →
        session.host.tree.canonicalize session.host.here (project.pathOf workspace) =
            .ok directory →
          session.host.tree.get? directory = some .directory →
            ((∃ entered,
                (Host.enterByActs project workspace).run session.host = .ok () entered) ↔
              directory = held.directory) ∧
            (directory ≠ held.directory →
              (Host.enterByActs project workspace).run session.host =
                .error (.conflict workspace.name held.name) session.host)
  /-- An error leaves the slot, the current directory and all else as they were. -/
  unchanged :
    ∀ project workspace why left,
      (Host.enterByActs project workspace).run session.host = .error why left →
        left = session.host

/--
In every session that found the slot free, the slot is occupied exactly while a
guard is alive, its depth counts the guards, and it has the name and directory
of who took it.  Meanwhile only that directory can be entered, and an error
changes nothing.
-/
theorem play_accounts
    (host : Host)
    (moves : List Move)
    (session : Session)
    (free : host.held? = none)
    (played : (start host).play moves = some session) :
    session.Accounted := by
  have balanced := balanced_of_play free played
  refine {
    distinct := (numbered_of_play played).1
    occupied_iff := ?_
    depth := fun held holder => (balanced.holds holder).depth
    countable := ?_
    taken := ?_
    exclusive := ?_
    unchanged := ?_
  }
  · constructor
    · intro occupied
      obtain ⟨held, holder⟩ := Option.isSome_iff_exists.mp occupied
      exact (balanced.holds holder).alive
    · intro alive
      obtain ⟨held, holds⟩ := balanced.exists_holds alive
      simp [holds.slot]
  · intro guard alive
    obtain ⟨held, holds⟩ := balanced.exists_holds (List.ne_nil_of_mem alive)
    refine ⟨held, holds.slot, ?_⟩
    rw [holds.depth]
    exact List.length_pos_of_mem alive
  · intro held holder
    obtain ⟨taking, isTaking, name, directory, _⟩ := (balanced.holds holder).taken
    exact ⟨taking, isTaking, name, directory⟩
  · intro held project workspace directory holder located isDirectory
    have entering :=
      Host.enter_of_held holder (Host.directoryOf_of_canonicalize located isDirectory)
    simp only [Host.run_enterByActs_eq_ok_iff, Host.run_enterByActs_eq_error_iff, entering]
    by_cases same : held.directory = directory
    · simp [same]
    · simp [same, Ne.symm same]
  · intro project workspace why left failed
    exact (Host.run_enterByActs_eq_error_iff.mp failed).2

/-- The theorem at a session in which the guard that took the slot is dropped first. -/
theorem play_accounts_first_dropped :
    let tree : FileTree :=
      { entries := [(["a"], .directory), (["b"], .directory), (["c"], .link "/a")] }
    let host : Host := { tree, here := .root }
    let workspace (path : String) : Workspace := ⟨"w" ++ path, path, .empty⟩
    let moves : List Move := [
      .enter ⟨[]⟩ (workspace "a"), .enter ⟨[]⟩ (workspace "c"), .enter ⟨[]⟩ (workspace "b"),
      .act tree (.ofLocation ["b"]) 7, .drop 0]
    host.held? = none ∧
      ∃ session,
        (start host).play moves = some session ∧
          session.Accounted ∧
          session.guards = [1] ∧
          session.host.held? = some ⟨"wa", ["a"], [], 1⟩ := by
  intro tree host workspace moves
  have guards : ((start host).play moves).map Session.guards = some [1] := by decide +kernel
  have slot :
      ((start host).play moves).map (fun session => session.host.held?) =
        some (some ⟨"wa", ["a"], [], 1⟩) := by
    decide +kernel
  obtain ⟨session, played, alive⟩ := Option.map_eq_some_iff.mp guards
  rw [played] at slot
  exact ⟨rfl, session, played, play_accounts host moves session rfl played, alive,
    Option.some.inj slot⟩

end Session

end VerifyPipeline
