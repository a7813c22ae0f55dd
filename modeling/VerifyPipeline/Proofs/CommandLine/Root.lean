import VerifyPipeline.Proofs.CommandLine.Report
import VerifyPipeline.Proofs.Run.Counts

namespace VerifyPipeline

/-!
# Roots that are no directories

Before its run the command only canonicalizes the root of the project.  A root that leads nowhere is
found out then.  A file or a device is found out when the first workspace, which lies at the root,
is entered: no program is started either, but the run counts as one that has failed.
-/

/-! ## Paths below a location -/

namespace Location

variable {location : Location}

theorem text_concat
    (below : location ≠ [])
    (name : String) :
    Location.text (location ++ [name]) = location.text ++ "/" ++ name := by
  change
    "/" ++ Path.ofSegments (location ++ [name]) = "/" ++ Path.ofSegments location ++ "/" ++ name
  rw [Path.ofSegments_concat below]
  simp only [String.append_assoc]

/-- The path of a location ends like its last name. -/
theorem getLast?_text_ne
    (below : location ≠ [])
    (named : ∀ name ∈ location, IsName name) :
    location.text.toList.getLast? ≠ some '/' := by
  obtain ⟨before, name, rfl⟩ : ∃ before name, location = before ++ [name] :=
    ⟨_, _, (List.dropLast_concat_getLast below).symm⟩
  have isName := named name (by simp)
  have nonempty : name.toList ≠ [] := by simpa using isName.notEmpty
  have ends :
      Location.text (before ++ [name]) = "/" ++ (Path.ofSegments (before ++ [""]) ++ name) := by
    rw [Path.ofSegments_append, String.empty_append]
    rfl
  rw [ends, ← String.append_assoc, String.toList_append, List.getLast?_append_of_ne_nil _ nonempty]
  intro isSlash
  exact isName.noSlash (List.mem_of_getLast? isSlash)

/-- A name below a location is joined to its path. -/
theorem join_text
    {name : String}
    (below : location ≠ [])
    (named : ∀ name ∈ location, IsName name)
    (relative : Path.isAbsolute name = false) :
    Path.join location.text name = Location.text (location ++ [name]) := by
  have notEmpty : location.text ≠ "" := by simp [Location.text]
  have noSlash := getLast?_text_ne below named
  rw [text_concat below, Path.join]
  simp [relative, notEmpty, noSlash]

end Location

namespace FileTree

/-- At a location there is a file or a device. -/
def Leaf (tree : FileTree) (location : Location) : Prop :=
  (∃ content, tree.get? location = some (.file content)) ∨
    ∃ full, tree.get? location = some (.device full)

variable
  {tree later : FileTree}
  {location : Location}

theorem Leaf.ne_directory
    (leaf : tree.Leaf location) :
    tree.get? location ≠ some .directory := by
  rcases leaf with ⟨content, found⟩ | ⟨full, found⟩ <;> simp [found]

theorem Leaf.occupied
    (leaf : tree.Leaf location)
    (reached : tree.Reached location) :
    tree.Occupied location := by
  rcases leaf with ⟨content, found⟩ | ⟨full, found⟩ <;> exact reached.occupied found nofun

theorem Grows.leaf
    {written : Location → Prop}
    (grows : tree.Grows written later)
    (leaf : tree.Leaf location) :
    later.Leaf location := by
  rcases leaf with ⟨content, found⟩ | ⟨full, found⟩
  · exact .inl (grows.exists_file found)
  · exact .inr ⟨full, grows.device_iff.mpr found⟩

/-- What is found and is no directory is a file or a device. -/
theorem leaf_of_canonicalize
    {here : Spot}
    {path : String}
    (occupied : tree.Occupied here.live)
    (noDirectory : tree.isDirectory here path = false)
    (found : tree.canonicalize here path = .ok location) :
    tree.Leaf location := by
  obtain ⟨node, isNode, noLink⟩ := (occupied_of_canonicalize occupied found).found
  cases node with
  | directory =>
      have led := (resolve_of_canonicalize found).2.1
      have isDirectory := (tree.isDirectoryAt_ofLocation location).mpr isNode
      simp [FileTree.isDirectory, led, isDirectory] at noDirectory
  | file content =>
      exact .inl ⟨content, isNode⟩
  | link target =>
      exact absurd rfl (noLink target)
  | device full =>
      exact .inr ⟨full, isNode⟩

end FileTree

namespace Project

variable
  {project : Project}
  {workspace : Workspace}
  {host : Host}

/-- A workspace at the root is out of reach if the root is a file or a device.  The empty name in
front of the workspace says nothing at the root. -/
theorem directoryOf_of_leaf
    (atRoot : workspace.path = ".")
    (reached : host.tree.Reached project.root)
    (leaf : host.tree.Leaf project.root) :
    ∃ why, project.directoryOf workspace host = .error why := by
  cases led : host.tree.canonicalize host.here (project.pathOf workspace) with
  | error why =>
      exact ⟨.missing workspace.name (project.pathOf workspace) why, by simp [directoryOf, led]⟩
  | ok location =>
      have noDirectory := leaf.ne_directory
      have below : project.root ≠ [] := fun isRoot => noDirectory (isRoot ▸ rfl)
      have path : project.pathOf workspace = Location.text (project.root ++ ["."]) := by
        rw [pathOf, atRoot]
        exact Location.join_text below reached.named rfl
      have clean : ∀ name ∈ project.root ++ ["."], '/' ∉ name.toList := by
        rw [List.forall_mem_append]
        exact ⟨fun name member => (reached.named name member).noSlash, by simp⟩
      have walked := FileTree.walk_of_resolve (FileTree.resolve_of_canonicalize led).2.1
      rw [FileTree.startOf, if_pos (project.isAbsolute_pathOf workspace), path,
        Path.segments_text (by simp) clean] at walked
      change
        host.tree.walk FileTree.linkLimit .root (project.root ++ ["."]) =
          .ok (.ofLocation location) at walked
      rw [(leaf.occupied reached).walk_append] at walked
      obtain ⟨directory, _⟩ := FileTree.walkNames_cons_eq_ok_iff.mp walked
      exact absurd ((host.tree.isDirectoryAt_ofLocation project.root).mp directory) noDirectory

end Project

/-- A run whose first workspace is out of reach fails, and executes nothing. -/
theorem Pipeline.execute_of_lost
    (pipeline : Pipeline σ)
    {plan : Plan}
    {step : Step}
    {rest : List Step}
    {host : Host}
    {why : WorkspaceError}
    (first : plan.steps = step :: rest)
    (lost : pipeline.project.directoryOf step.workspace host = .error why)
    (state : σ) :
    (pipeline.execute plan state host).result.exitCode = 1 ∧
      (pipeline.execute plan state host).state = state := by
  cases holder : host.held? with
  | some held =>
      rw [execute_of_held holder]
      exact ⟨RunResult.exitCode_of_aborted rfl, rfl⟩
  | none =>
      rw [execute_of_free holder, executeFree, first,
        pipeline.runSteps_of_enter_error (Host.enter_of_lost lost)]
      exact ⟨RunResult.exitCode_of_aborted rfl, rfl⟩

/-! ## Commands without a directory -/

namespace Surroundings

variable
  {around : Surroundings}
  {options : Options}
  {project : Project}
  {log : CommandLog}
  {emitter : Emitter}
  {host : Host}

/-- Opening a log lets the tree grow. -/
theorem Begins.exists_grows
    (begins : around.Begins options project log emitter host) :
    ∃ written, around.host.tree.Grows written host.tree := by
  obtain ⟨_, opened, _⟩ := begins
  unfold CommandLog.start at opened
  split at opened
  · obtain rfl := (Prod.mk.inj opened).2
    exact ⟨fun _ => False, .refl _ _⟩
  · split at opened
    · simp at opened
    · rename_i created
      obtain rfl := (Prod.mk.inj opened).2
      exact LogFile.grows_of_create created

/-- Nothing is executed in a project whose root is a file or a device. -/
theorem Begins.execution_of_leaf
    (begins : around.Begins options project log emitter host)
    (reached : around.host.tree.Reached project.root)
    (leaf : around.host.tree.Leaf project.root) :
    (around.execution options project host).result.exitCode = 1 ∧
      (around.execution options project host).state = {} := by
  obtain ⟨_, grows⟩ := begins.exists_grows
  obtain ⟨step, rest, first, atRoot⟩ :
      ∃ step rest, around.plan.steps = step :: rest ∧ step.workspace.path = "." :=
    ⟨_, _, rfl, rfl⟩
  obtain ⟨why, lost⟩ :=
    Project.directoryOf_of_leaf atRoot (grows.reached reached) (grows.leaf leaf)
  exact (around.pipeline options project).execute_of_lost first lost {}

/-- What has come of a command whose root is no directory. -/
structure RefusesRoot
    (around : Surroundings)
    (options : Options)
    (result : CommandResult) : Prop where
  idle : result.processes.attempts = []
  failed : result.exitCode ≠ 0
  /-- A root that leads nowhere is found out before the run. -/
  lost :
    ∀ why,
      around.host.tree.canonicalize around.host.here options.root = .error why →
        result.exitCode = 2
  /-- A root that leads somewhere is a file or a device, and fails the run. -/
  found :
    ∀ location,
      around.host.tree.canonicalize around.host.here options.root = .ok location →
        around.host.tree.Leaf location ∧
          (result.exitCode = 2 ↔ around.Hindered options) ∧
          (¬ around.Hindered options → result.exitCode = 1)

/-- The command refuses a root that is no directory. -/
theorem perform_refuses_root
    (here : around.host.tree.Occupied around.host.here.live)
    (noDirectory : around.host.tree.isDirectory around.host.here options.root = false) :
    around.RefusesRoot options (around.perform options) := by
  have leaf :
      ∀ location,
        around.host.tree.canonicalize around.host.here options.root = .ok location →
          around.host.tree.Leaf location :=
    fun _ => FileTree.leaf_of_canonicalize here noDirectory
  rcases around.begins_or_refuses options with
    ⟨project, log, emitter, host, begins⟩ | ⟨prevented, _⟩
  · obtain ⟨exitCode, state⟩ :=
      begins.execution_of_leaf (FileTree.occupied_of_canonicalize here begins.root).toReached
        (leaf _ begins.root)
    rw [perform_of_begins begins]
    have one (unhindered : ¬ around.Hindered options) :
        (around.carryOut options project log emitter host).exitCode = 1 :=
      (begins.exitCode_of_unhindered unhindered).trans exitCode
    have two := begins.exitCodeTells.hinderedIff
    exact {
      idle := by rw [carryOut, processes_finish, executed, state]
      failed := by
        by_cases hindered : around.Hindered options
        · rw [two.mpr hindered]
          decide
        · rw [one hindered]
          decide
      lost := by
        intro why lost
        rw [begins.root] at lost
        contradiction
      found := fun location found => ⟨leaf location found, two, one⟩
    }
  · obtain ⟨exitCode, processes⟩ := perform_of_prevented prevented
    have hindered : around.Hindered options := .before prevented
    exact {
      idle := by rw [processes]
      failed := by
        rw [exitCode]
        decide
      lost := fun _ _ => exitCode
      found := fun location found =>
        ⟨leaf location found, iff_of_true exitCode hindered, absurd hindered⟩
    }

/--
A command that is called in a directory, and whose root is no directory, starts
nothing and does not succeed.  It exits with 2 if the root leads nowhere.  A
root that leads somewhere is a file or a device, and then it exits with 1
unless something else hinders it.  A command that is called in a wrong way
exits with 2 as well.
-/
theorem run_refuses_root
    (around : Surroundings)
    (arguments : List String)
    (reached : around.host.tree.Reached around.host.here.live)
    (directory : around.host.tree.get? around.host.here.live = some .directory) :
    (∀ why,
        Request.ofArguments arguments = .error why →
          (around.run arguments).exitCode = 2 ∧ (around.run arguments).processes.attempts = []) ∧
      ∀ options,
        Request.ofArguments arguments = .ok (.run options) →
          options.dryRun = false →
            around.host.tree.isDirectory around.host.here options.root = false →
              around.RefusesRoot options (around.run arguments) := by
  constructor
  · intro why misused
    simp [run, misused, failureCode]
  · intro options parsed wet noDirectory
    have performed : around.run arguments = around.perform options := by
      simp only [run, parsed, wet, Bool.false_eq_true, ↓reduceIte]
    have here : around.host.tree.Occupied around.host.here.live :=
      reached.occupied directory (by simp)
    rw [performed]
    exact perform_refuses_root here noDirectory

/-- The theorem at a root that is a file, and at one that is below a file. -/
theorem run_refuses_root_file :
    let around : Surroundings :=
      { host := { tree := { entries := [(["f"], .file 0)] }, here := .root }
        environment := fun _ => some "1"
        installed := ["cargo"]
        children := fun _ => {} }
    around.RefusesRoot { root := "f" } (around.run ["--root", "f"]) ∧
      (around.run ["--root", "f"]).exitCode = 1 ∧
      around.RefusesRoot { root := "f/g" } (around.run ["--root", "f/g"]) ∧
      (around.run ["--root", "f/g"]).exitCode = 2 := by
  intro around
  have refuses (arguments : List String) := run_refuses_root around arguments (.root _) rfl
  exact ⟨(refuses ["--root", "f"]).2 { root := "f" } (by decide +kernel) rfl (by decide +kernel),
    by decide +kernel,
    (refuses ["--root", "f/g"]).2 { root := "f/g" } (by decide +kernel) rfl (by decide +kernel),
    by decide +kernel⟩

end Surroundings

end VerifyPipeline
