import VerifyPipeline.Files.Operations
import VerifyPipeline.Log.Emitter

/-!
# Logs in files

A log file is emptied when it is opened.  Its lines are gathered by a writer and laid into the file
that has been opened, whether or not it still has a name; a device keeps none, and a full one takes
none.
-/

namespace VerifyPipeline

/-- An open log file. -/
structure LogFile where
  /-- The number of the file, and the file as it has been opened; a device has none. -/
  opened? : Option (Nat × File)
  deriving Repr, DecidableEq

namespace LogFile

/-- Open a log file; the directories before it are made.  The result is the file with a writer for
its lines, and the tree. -/
def create
    (tree : FileTree)
    (here : Spot)
    (path : String) :
    Except OsError (LogFile × LogWriter) × FileTree :=
  match tree.makeParents here path with
  | (some why, extended) => (.error why, extended)
  | (none, extended) =>
    match extended.openForWriting here path with
    | .error why => (.error why, extended)
    | .ok (opened, location) =>
      let limit? := if opened.isFull location then some (0, OsError.noSpace) else none
      let file : LogFile :=
        ⟨(opened.number? location).map fun number => (number, opened.file number)⟩
      (.ok (file, .keep #[] limit? none), opened)

/-- The tree when the file holds the lines of a writer. -/
def store (file : LogFile) (writer : LogWriter) (tree : FileTree) : FileTree :=
  match file.opened? with
  | none => tree
  | some (number, emptied) => tree.writeOpen number emptied writer.text

end LogFile

end VerifyPipeline
