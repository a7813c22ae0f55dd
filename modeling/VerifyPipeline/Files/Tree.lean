import VerifyPipeline.Files.OsError
import VerifyPipeline.Path.Basic

/-!
# File trees

A file tree tells for every location what is there: nothing, a directory, a file, a symbolic link
or a device.  A location is given by the names on the way from the root, so two locations are the
same exactly if they are equal.  A file has a number, and there may be any number of entries for it:
what is written under one of its names is read under all of them.
-/

namespace VerifyPipeline

/-- What can be at a location. -/
inductive Node where
  | directory
  /-- A file with its text; none if its bytes are no text, or are not known. -/
  | file (content : Option String)
  /-- A symbolic link to a path, which is seen from the directory that holds the link. -/
  | link (target : String)
  /-- A device that reads as empty and takes any text, unless it is full. -/
  | device (full : Bool)
  deriving Repr, DecidableEq

/-- What a directory has under a name.  A file is given by its number. -/
inductive Entry where
  | directory
  | file (number : Nat)
  | link (target : String)
  | device (full : Bool)
  deriving Repr, DecidableEq

/-- A file. -/
structure File where
  /-- The text; none if the bytes are no text, or are not known. -/
  content : Option String := some ""
  /-- Whether the file may be executed. -/
  executable : Bool := false
  /-- How often the file has been written to. -/
  writes : Nat := 0
  deriving Repr, DecidableEq

/-- The file when another text has been written to it. -/
def File.rewritten (file : File) (content : Option String) : File :=
  { file with
    content := content
    writes := file.writes + 1 }

/-- The names on the way from the root. -/
abbrev Location := List String

namespace Location

/-- The absolute path of a location. -/
def text (location : Location) : String := "/" ++ String.intercalate "/" location

end Location

/-- The number of the file that an entry is a name of. -/
def Entry.number? : Entry → Option Nat
  | .file number => some number
  | _ => none

/-- The entries at every location but the root, which is a directory, and the files by their
numbers. -/
structure FileTree where
  entries : List (Location × Entry)
  files : List (Nat × File) := []
  deriving Repr, DecidableEq

namespace FileTree

/-- A tree with nothing but the root. -/
def empty : FileTree := { entries := [] }

/-- The entry at a location. -/
def entryAt? (tree : FileTree) : Location → Option Entry
  | [] => some .directory
  | location => tree.entries.lookup location

/-- The file with a number; one of which nothing is said is empty. -/
def file (tree : FileTree) (number : Nat) : File := (tree.files.lookup number).getD {}

/-- What an entry stands for. -/
def node (tree : FileTree) : Entry → Node
  | .directory => .directory
  | .file number => .file (tree.file number).content
  | .link target => .link target
  | .device full => .device full

/-- What is at a location. -/
def get? (tree : FileTree) (location : Location) : Option Node :=
  (tree.entryAt? location).map tree.node

/-- The number of the file at a location, if there is a file. -/
def number? (tree : FileTree) (location : Location) : Option Nat :=
  (tree.entryAt? location).bind Entry.number?

/-- The tree with another entry at a location. -/
def setEntry (tree : FileTree) (location : Location) (entry : Entry) : FileTree :=
  { tree with
    entries := (location, entry) :: tree.entries.filter fun other => other.1 ≠ location }

/-- The tree in which the file with a number is another one. -/
def setFile (tree : FileTree) (number : Nat) (file : File) : FileTree :=
  { tree with files := (number, file) :: tree.files.filter fun other => other.1 ≠ number }

/-- A number that no file has. -/
def freshNumber (tree : FileTree) : Nat :=
  (tree.entries.filterMap (fun entry => entry.2.number?) ++ tree.files.map Prod.fst).foldr max 0 + 1

/-- The tree with something new at a location, in place of what was there. -/
def put (tree : FileTree) (location : Location) : Node → FileTree
  | .directory => tree.setEntry location .directory
  | .file content =>
    (tree.setEntry location (.file tree.freshNumber)).setFile tree.freshNumber { content }
  | .link target => tree.setEntry location (.link target)
  | .device full => tree.setEntry location (.device full)

/-- The tree when a text has been written to the file at a location, which is made if it is not
there. -/
def write (tree : FileTree) (location : Location) (content : String) : FileTree :=
  match tree.number? location with
  | some number => tree.setFile number ((tree.file number).rewritten (some content))
  | none => tree.put location (.file (some content))

/-- The tree without what is at and below a location. -/
def remove (tree : FileTree) (location : Location) : FileTree :=
  { tree with entries := tree.entries.filter fun entry => !location.isPrefixOf entry.1 }

/-- The names in a directory. -/
def children (tree : FileTree) (location : Location) : List String :=
  tree.entries.filterMap fun entry =>
    if location.isPrefixOf entry.1 && entry.1.length = location.length + 1 then entry.1.getLast?
    else none

/-- Two locations are names of one file. -/
def Linked (tree : FileTree) (one other : Location) : Prop :=
  ∃ number, tree.number? one = some number ∧ tree.number? other = some number

instance (tree : FileTree) (one other : Location) : Decidable (tree.Linked one other) :=
  decidable_of_iff
    (tree.number? one ≠ none ∧ tree.number? one = tree.number? other)
    (by
      unfold Linked
      cases tree.number? one <;> simp [eq_comm])

/-! ## Looking up what has been written -/

/-- Pairs with another key do not matter to a look-up. -/
theorem lookup_filter_of_ne
    {κ υ : Type}
    [DecidableEq κ]
    [BEq κ]
    [LawfulBEq κ]
    {key other : κ}
    (different : other ≠ key)
    (pairs : List (κ × υ)) :
    (pairs.filter fun pair => pair.1 ≠ key).lookup other = pairs.lookup other := by
  induction pairs with
  | nil =>
      rfl
  | cons pair rest inductionHypothesis =>
      obtain ⟨found, value⟩ := pair
      by_cases same : found = key
      · subst same
        have skipped : (other == found) = false := by simpa using different
        simpa [List.lookup_cons, skipped] using inductionHypothesis
      · simp only [ne_eq, same, not_false_eq_true, decide_true, List.filter_cons_of_pos,
          List.lookup_cons]
        split
        · rfl
        · exact inductionHypothesis

section LookingUp

variable
  {tree : FileTree}
  {location other : Location}
  {entry : Entry}
  {number : Nat}

/-- An entry at another location is as it was. -/
theorem entryAt?_setEntry_of_ne
    (different : other ≠ location) :
    (tree.setEntry location entry).entryAt? other = tree.entryAt? other := by
  cases other with
  | nil =>
      rfl
  | cons name rest =>
      have skipped : (name :: rest == location) = false := by simpa using different
      simpa [entryAt?, setEntry, List.lookup_cons, skipped] using
        lookup_filter_of_ne different tree.entries

/-- The entry that has been made is there. -/
theorem entryAt?_setEntry_self
    (notRoot : location ≠ []) :
    (tree.setEntry location entry).entryAt? location = some entry := by
  cases location with
  | nil =>
      exact absurd rfl notRoot
  | cons name rest =>
      simp [entryAt?, setEntry]

@[simp]
theorem file_setFile_self
    (tree : FileTree)
    (number : Nat)
    (file : File) :
    (tree.setFile number file).file number = file := by
  simp [FileTree.file, setFile]

theorem lookup_setFile_of_ne
    {file : File}
    {another : Nat}
    (different : another ≠ number) :
    (tree.setFile number file).files.lookup another = tree.files.lookup another := by
  have skipped : (another == number) = false := by simpa using different
  simp only [setFile, List.lookup_cons, skipped]
  exact lookup_filter_of_ne different tree.files

/-- A file with another number is as it was. -/
theorem file_setFile_of_ne
    {file : File}
    {another : Nat}
    (different : another ≠ number) :
    (tree.setFile number file).file another = tree.file another :=
  congrArg (Option.getD · _) (lookup_setFile_of_ne different)

/-- The number of a file at a location comes from its entry. -/
theorem number?_eq_some_iff :
    tree.number? location = some number ↔ tree.entryAt? location = some (.file number) := by
  unfold number?
  cases tree.entryAt? location with
  | none =>
      simp
  | some entry =>
      cases entry <;> simp [Entry.number?]

/-- What is at a location of which the entry and its file are as they were. -/
theorem get?_congr
    {later : FileTree}
    (sameEntry : later.entryAt? location = tree.entryAt? location)
    (sameFile :
      ∀ number, tree.number? location = some number → later.file number = tree.file number) :
    later.get? location = tree.get? location := by
  unfold get?
  rw [sameEntry]
  cases isEntry : tree.entryAt? location with
  | none =>
      rfl
  | some entry =>
      cases entry with
      | file number =>
          simp [node, sameFile number (number?_eq_some_iff.mpr isEntry)]
      | directory | link _ | device _ =>
          rfl

/-- The fresh number is above every number that is in use. -/
theorem lt_freshNumber_of_mem
    (used :
      number ∈
        tree.entries.filterMap (fun entry => entry.2.number?) ++ tree.files.map Prod.fst) :
    number < tree.freshNumber := by
  unfold freshNumber
  generalize tree.entries.filterMap (fun entry => entry.2.number?) ++ tree.files.map Prod.fst
    = numbers at used
  refine Nat.lt_succ_of_le ?_
  induction numbers with
  | nil =>
      contradiction
  | cons first rest inductionHypothesis =>
      rcases List.mem_cons.mp used with rfl | later
      · exact Nat.le_max_left _ _
      · exact Nat.le_trans (inductionHypothesis later) (Nat.le_max_right _ _)

/-- A file that has an entry has a number below the fresh one. -/
theorem lt_freshNumber
    (numbered : tree.number? location = some number) :
    number < tree.freshNumber := by
  refine lt_freshNumber_of_mem (List.mem_append_left _ ?_)
  rw [number?_eq_some_iff] at numbered
  cases location with
  | nil =>
      simp [entryAt?] at numbered
  | cons name rest =>
      obtain ⟨before, after, shape, _⟩ := List.lookup_eq_some_iff.mp numbered
      exact List.mem_filterMap.mpr ⟨(name :: rest, .file number), by simp [shape], rfl⟩

/-- What is put elsewhere does not change what is at a location. -/
theorem entryAt?_put_of_ne
    {node : Node}
    (different : other ≠ location) :
    (tree.put location node).entryAt? other = tree.entryAt? other := by
  cases node <;> exact entryAt?_setEntry_of_ne different

/-- What is put at a location does not change a file that an entry elsewhere refers to. -/
theorem file_put_of_numbered
    {node : Node}
    (numbered : tree.number? other = some number) :
    (tree.put location node).file number = tree.file number := by
  cases node with
  | file content =>
      exact file_setFile_of_ne (Nat.ne_of_lt (lt_freshNumber numbered))
  | directory | link _ | device _ =>
      rfl

theorem get?_put_of_ne
    {node : Node}
    (different : other ≠ location) :
    (tree.put location node).get? other = tree.get? other :=
  get?_congr (entryAt?_put_of_ne different) fun _ => file_put_of_numbered

/-- What is put at a location is there. -/
theorem get?_put_self
    {node : Node}
    (notRoot : location ≠ []) :
    (tree.put location node).get? location = some node := by
  cases node with
  | file content =>
      have isEntry :
          (tree.put location (.file content)).entryAt? location = some (.file tree.freshNumber) :=
        entryAt?_setEntry_self notRoot
      have isFile : (tree.put location (.file content)).file tree.freshNumber = { content } :=
        file_setFile_self _ _ _
      rw [get?, isEntry, Option.map_some, FileTree.node, isFile]
  | directory | link _ | device _ =>
      simp [get?, put, entryAt?_setEntry_self notRoot, FileTree.node]

end LookingUp

end FileTree

end VerifyPipeline
