import VerifyPipeline.Proofs.Files.Enterable
import VerifyPipeline.Workspace.Slot

namespace VerifyPipeline

/-!
# What entering and leaving change

Entering a workspace either holds the one that is held once more, or takes the free slot and makes
the workspace's directory current.  Neither entering nor leaving touches the files or the clock.
The directory of a workspace is found from the project's root, so it does not depend on the
directory that is current.
-/

namespace Path

theorem isAbsolute_join
    {base : String}
    (absolute : isAbsolute base = true)
    (path : String) :
    isAbsolute (join base path) = true := by
  unfold join
  split
  · assumption
  · have start : base.toList.head? = some '/' := by
      simpa [isAbsolute] using absolute
    split <;> simp [isAbsolute, start]

end Path

/-- Where an absolute path leads does not depend on the current directory. -/
theorem FileTree.canonicalize_of_isAbsolute
    {path : String}
    (absolute : Path.isAbsolute path = true)
    (tree : FileTree)
    (here there : Spot) :
    tree.canonicalize here path = tree.canonicalize there path := by
  simp [FileTree.canonicalize, FileTree.resolve, FileTree.startOf, absolute]

namespace Project

/-- The path of a workspace is absolute. -/
theorem isAbsolute_pathOf
    (project : Project)
    (workspace : Workspace) :
    Path.isAbsolute (project.pathOf workspace) = true :=
  Path.isAbsolute_join project.root.isAbsolute_text workspace.path

/-- The directory of a workspace depends on the files only. -/
theorem directoryOf_congr
    {first second : Host}
    (sameTree : first.tree = second.tree)
    (project : Project)
    (workspace : Workspace) :
    project.directoryOf workspace first = project.directoryOf workspace second := by
  have sameLocation :
      second.tree.canonicalize first.here (project.pathOf workspace) =
        second.tree.canonicalize second.here (project.pathOf workspace) :=
    FileTree.canonicalize_of_isAbsolute
      (project.isAbsolute_pathOf workspace) second.tree first.here second.here
  unfold directoryOf
  dsimp only
  rw [sameTree, sameLocation]

end Project

namespace Host

/--
All that entering can do: hold the workspace that is held once more, or take
the free slot.
-/
theorem enter_cases
    {host entered : Host}
    {project : Project}
    {workspace : Workspace}
    (accepted : host.enter project workspace = .ok entered) :
    ∃ directory,
      project.directoryOf workspace host = .ok directory ∧
        ((∃ held,
            host.held? = some held ∧
              held.directory = directory ∧
              entered =
                { host with held? := some { held with depth := held.depth + 1 } }) ∨
          (host.held? = none ∧
            ∃ previous,
              host.currentDirectory = .ok previous ∧
                entered =
                  { host with
                    here := .ofLocation directory
                    held? := some
                      { name := workspace.name, directory, previous, depth := 1 } })) := by
  unfold enter at accepted
  cases found : project.directoryOf workspace host with
  | error why =>
      simp [found, bind, Except.bind] at accepted
  | ok directory =>
      simp only [found, bind, Except.bind] at accepted
      refine ⟨directory, rfl, ?_⟩
      unfold hold at accepted
      cases holder : host.held? with
      | some held =>
          left
          simp only [holder] at accepted
          split at accepted
          · rename_i same
            exact ⟨held, rfl, same, (Except.ok.inj accepted).symm⟩
          · contradiction
      | none =>
          right
          simp only [holder] at accepted
          cases current : host.currentDirectory with
          | error why =>
              simp [current] at accepted
          | ok previous =>
              simp only [current] at accepted
              exact ⟨rfl, previous, rfl, (Except.ok.inj accepted).symm⟩

/-- A workspace without a directory cannot be entered. -/
theorem enter_of_lost
    {host : Host}
    {project : Project}
    {workspace : Workspace}
    {why : WorkspaceError}
    (lost : project.directoryOf workspace host = .error why) :
    host.enter project workspace = .error why := by
  simp [enter, lost, bind, Except.bind]

/-- Entering changes neither the files nor the clock. -/
theorem enter_frame
    {host entered : Host}
    {project : Project}
    {workspace : Workspace}
    (accepted : host.enter project workspace = .ok entered) :
    entered.tree = host.tree ∧ entered.clock = host.clock := by
  obtain ⟨directory, _, shape⟩ := enter_cases accepted
  rcases shape with ⟨held, _, _, rfl⟩ | ⟨_, previous, _, rfl⟩ <;> exact ⟨rfl, rfl⟩

/-- Who enters while nothing is held is in the workspace's directory then and holds it once. -/
theorem enter_of_free
    {host entered : Host}
    {project : Project}
    {workspace : Workspace}
    (free : host.held? = none)
    (accepted : host.enter project workspace = .ok entered) :
    ∃ directory previous,
      project.directoryOf workspace host = .ok directory ∧
        entered.here = .ofLocation directory ∧
        entered.held? =
          some { name := workspace.name, directory, previous, depth := 1 } := by
  obtain ⟨directory, found, shape⟩ := enter_cases accepted
  rcases shape with ⟨held, holder, _, _⟩ | ⟨_, previous, _, rfl⟩
  · rw [free] at holder
    contradiction
  · exact ⟨directory, previous, found, rfl, rfl⟩

/-- All that making another directory current can do. -/
theorem exists_spot_of_changeDirectory
    {host moved : Host}
    {path : String}
    (accepted : host.changeDirectory path = .ok moved) :
    ∃ spot, host.tree.resolve host.here path = .ok spot ∧ moved = { host with here := spot } := by
  obtain ⟨spot, led, accepted⟩ := Json.Reader.bind_eq_ok.mp accepted
  split at accepted
  · exact ⟨spot, led, (Except.ok.inj accepted).symm⟩
  · contradiction

/-- Going to another directory changes neither the tree nor the clock, and leaves the slot alone. -/
theorem changeDirectory_frame
    {host moved : Host}
    {path : String}
    (accepted : host.changeDirectory path = .ok moved) :
    moved.tree = host.tree ∧ moved.clock = host.clock ∧ moved.held? = host.held? := by
  obtain ⟨_, _, rfl⟩ := exists_spot_of_changeDirectory accepted
  exact ⟨rfl, rfl, rfl⟩

/-- Giving a workspace up touches neither the files nor the clock, and frees the slot. -/
theorem restore_frame
    (host : Host)
    (held : HeldWorkspace) :
    (host.restore held).1.tree = host.tree ∧
      (host.restore held).1.clock = host.clock ∧
      (host.restore held).1.held? = none := by
  unfold restore
  simp only
  split
  · rename_i restored accepted
    exact changeDirectory_frame accepted
  · exact ⟨rfl, rfl, rfl⟩

/-- Leaving changes neither the tree nor the clock. -/
theorem leave_frame
    (host : Host) :
    host.leave.1.tree = host.tree ∧ host.leave.1.clock = host.clock := by
  unfold leave
  split
  · exact ⟨rfl, rfl⟩
  · rename_i held holder
    split
    · exact ⟨rfl, rfl⟩
    · exact ⟨(host.restore_frame held).1, (host.restore_frame held).2.1⟩

/-- Who leaves a workspace that is held once frees the slot. -/
theorem leave_of_held_once
    {host : Host}
    {held : HeldWorkspace}
    (holder : host.held? = some held)
    (once : held.depth = 1) :
    host.leave.1.held? = none := by
  unfold leave
  simp only [holder, once, Nat.lt_irrefl, ↓reduceIte]
  exact (host.restore_frame held).2.2

/-- Nothing is done inside a workspace that cannot be entered. -/
theorem within_of_enter_error
    {host : Host}
    {project : Project}
    {workspace : Workspace}
    {why : WorkspaceError}
    (refused : host.enter project workspace = .error why)
    (action : Host → α × Host) :
    host.within project workspace action = .error why := by
  simp [within, refused, bind, Except.bind]

/-- What is done inside a workspace is done between entering and leaving it. -/
theorem within_of_enter_ok
    {host entered after : Host}
    {project : Project}
    {workspace : Workspace}
    {action : Host → α × Host}
    {a : α}
    (accepted : host.enter project workspace = .ok entered)
    (done : action entered = (a, after)) :
    host.within project workspace action = .ok (a, after.leave) := by
  simp [within, accepted, done, bind, Except.bind, pure, Except.pure]

end Host

end VerifyPipeline
