import Std.Time.DateTime.Timestamp
import VerifyPipeline.CommandLine.Run

/-!
# The command

The outer layer of the command.  It starts no programs: what became of them is read from the
standard input, one status word a line, in the order in which they are started.  A program about
which nothing is said counts as not found.  Directories, and a program that is given by a path, are
looked up in the file system, and the files that the run writes are written there.
-/

namespace VerifyPipeline

/-- The status word of a shell that has not found a program. -/
def notFoundStatus : Int32 := 127 * 256

/-- The children that have ended with the given status words. -/
def endedChildren (statuses : Array Int32) (n : Nat) : Child :=
  { ending := statuses.getD n notFoundStatus }

/-- The environment variables that the command looks at. -/
def variableNames : List String := [
  "SKIP_VALGRIND", "SKIP_MIRI", "SKIP_FEATURES", "SKIP_CHECK", "SKIP_DOCS",
  "VALGRIND_EXHAUSTIVE", "MIRI_EXHAUSTIVE", "RUSTFLAGS", "RUSTDOCFLAGS"]

/-- The paths at which the command looks for directories. -/
def directoryPaths (options : Options) : List String :=
  options.root :: WorkspaceSet.lexical.all.map fun workspace =>
    Path.join options.root workspace.path

/-- The paths at which the command looks for its program. -/
def programPaths (options : Options) : List String :=
  if options.cargo.toList.contains '/' then
    (directoryPaths options).map fun directory => Path.join directory options.cargo
  else []

/-- The files of a tree that are text. -/
def textFiles (tree : FileTree) : List (Location × String) :=
  tree.entries.filterMap fun (location, entry) =>
    match tree.node entry with
    | .file (some text) => some (location, text)
    | _ => none

/-- The host with a program at a path, about whose bytes nothing is said. -/
def Host.withProgram (host : Host) (path : String) : Host :=
  match (host.tree.makeParents host.here path).2.openForWriting host.here path with
  | .error _ => host
  | .ok (opened, location) =>
    match opened.number? location with
    | none => host
    | some number =>
      let program : File := { content := none, executable := true }
      { host with tree := opened.setFile number program }

namespace Console

/-- Read status words until a line holds none, which is the case at the end of the input. -/
partial def readStatuses (input : IO.FS.Stream) (statuses : Array Int32) : IO (Array Int32) := do
  match (← input.getLine).trimAscii.toInt? with
  | some status => readStatuses input (statuses.push (Int32.ofInt status))
  | none => return statuses

/-- The values of the variables that are set. -/
def readVariables : IO (List (String × String)) := do
  let read ← variableNames.mapM fun name => return (name, ← IO.getEnv name)
  return read.filterMap fun (name, value?) => value?.map fun value => (name, value)

/-- The host with those of some directories and programs that exist. -/
def readHost (options : Options) : IO Host := do
  let here ← IO.currentDir
  let now ← Std.Time.Timestamp.now
  let directories ← (directoryPaths options).filterM fun (path : String) => (here / path).isDir
  let programs ← (programPaths options).filterM fun (path : String) => do
    return (← (here / path).pathExists) && !(← (here / path).isDir)
  let location := (Path.segments here.toString).filter fun name => name ≠ ""
  let start : Host :=
    { tree := (FileTree.empty.makeDirectories .root here.toString).2
      here := .ofLocation location
      clock := now.toNanosecondsSinceUnixEpoch.val }
  let housed := directories.foldl (fun host path => (host.makeDirectories path).2) start
  return programs.foldl Host.withProgram housed

/-- Write the files of a tree. -/
def writeFiles (tree : FileTree) : IO Unit :=
  (textFiles tree).forM fun (location, text) => do
    IO.FS.createDirAll (Location.text location.dropLast)
    IO.FS.writeFile location.text text

/-- Run the command, and print what it prints. -/
def run (arguments : List String) : IO UInt32 := do
  let values ← readVariables
  let options := match Request.ofArguments arguments with
    | .ok (.run options) => options
    | _ => { dryRun := true }
  let statuses ← if options.dryRun then pure #[] else readStatuses (← IO.getStdin) #[]
  let around : Surroundings :=
    { host := ← readHost options
      environment := fun name => values.lookup name
      installed := [options.cargo]
      children := endedChildren statuses }
  let result := around.run arguments
  writeFiles result.host.tree
  (← IO.getStdout).putStr (Text.ofLines result.output)
  (← IO.getStderr).putStr (Text.ofLines result.messages)
  return result.exitCode.toUInt32

end Console

end VerifyPipeline

/-- The command. -/
def main (arguments : List String) : IO UInt32 := VerifyPipeline.Console.run arguments
