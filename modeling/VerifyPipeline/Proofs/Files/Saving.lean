import VerifyPipeline.Log.File
import VerifyPipeline.Proofs.Files.Growth

namespace VerifyPipeline

/-!
# Saving texts

The last name of a path stands for a location in the directory that the names before it lead to.
Unless there is a link or a device, this is where a text is written that is saved under the path,
and from where it is read back.
-/

open Json.Reader (bind_eq_ok)

namespace FileTree

/-- The location that the last name of a path stands for, whatever is there. -/
def entryLocation
    (tree : FileTree)
    (here : Spot)
    (path : String) :
    Except OsError Location := do
  checkPath path
  match dividePath (Path.segments path).reverse with
  | (before, .name name) => place (← tree.walkBefore linkLimit (startOf here path) before) name
  | _ => .error .isADirectory

/-- The names of a path that ends in the name of an entry.  A name with a slash behind it is not the
name of an entry. -/
theorem dividePath_eq_name
    {names before : List String}
    {name : String}
    (divided : dividePath names = (before, .name name)) :
    names = name :: before.reverse ∧ name ≠ "" ∧ name ≠ "." ∧ name ≠ ".." := by
  cases names with
  | nil =>
      simp [dividePath] at divided
  | cons last rest =>
      simp only [dividePath, Bool.or_eq_true, decide_eq_true_iff] at divided
      split at divided
      · simp at divided
      · rename_i proper
        split at divided
        · rename_i notEmpty
          obtain ⟨rfl, same⟩ := Prod.mk.inj divided
          obtain rfl := PathEnd.name.inj same
          exact ⟨by simp, notEmpty, not_or.mp proper⟩
        · split at divided
          · simp at divided
          · split at divided <;> simp at divided

theorem dividePath_of_name
    {before : List String}
    {name : String}
    (isName : IsName name) :
    dividePath (name :: before.reverse) = (before, .name name) := by
  simp [dividePath, isName.notEmpty, isName.notHere, isName.notUp]

variable
  {tree later : FileTree}
  {here : Spot}
  {path : String}
  {location : Location}

/-- An entry stands for a name in a directory that the names before it lead to. -/
theorem entryLocation_eq_ok_iff :
    tree.entryLocation here path = .ok location ↔
      checkPath path = .ok () ∧
        ∃ before name origin,
          Path.segments path = before ++ [name] ∧
            IsName name ∧
            tree.walk linkLimit (startOf here path) before = .ok (.ofLocation origin) ∧
            tree.get? origin = some .directory ∧
            location = origin ++ [name] := by
  constructor
  · intro isEntry
    obtain ⟨_, isPath, isEntry⟩ := bind_eq_ok.mp isEntry
    split at isEntry
    · rename_i before name divided
      obtain ⟨spot, before?, placed⟩ := bind_eq_ok.mp isEntry
      obtain ⟨origin, walked, arrived⟩ := bind_eq_ok.mp before?
      split at arrived
      · rename_i isDirectory
        obtain rfl := Except.ok.inj arrived
        obtain ⟨live, removed⟩ := origin
        obtain ⟨rfl, short, rfl⟩ := place_eq_ok placed
        obtain ⟨names, notEmpty, notHere, notUp⟩ := dividePath_eq_name divided
        have segments : Path.segments path = before ++ [name] := by
          rw [← List.reverse_reverse (Path.segments path), names]
          simp
        have member : name ∈ Path.segments path := by simp [segments]
        have noSlash := Path.not_mem_of_mem_segments member
        exact ⟨isPath, before, name, live, segments, ⟨notEmpty, notHere, notUp, noSlash, short⟩,
          walked, (tree.isDirectoryAt_ofLocation live).mp isDirectory, rfl⟩
      · contradiction
    · contradiction
  · rintro ⟨isPath, before, name, origin, segments, isName, walked, directory, rfl⟩
    have isDirectory := (tree.isDirectoryAt_ofLocation origin).mpr directory
    have divided : dividePath (Path.segments path).reverse = (before, .name name) := by
      rw [segments, List.reverse_append]
      exact dividePath_of_name isName
    have arrived :
        tree.walkBefore linkLimit (startOf here path) before = .ok (.ofLocation origin) := by
      refine bind_eq_ok.mpr ⟨_, walked, ?_⟩
      rw [if_pos isDirectory]
      rfl
    refine bind_eq_ok.mpr ⟨(), isPath, ?_⟩
    rw [divided]
    refine bind_eq_ok.mpr ⟨_, arrived, ?_⟩
    simp [place, Spot.ofLocation, Nat.not_lt.mpr isName.short]

/-- An entry stays where it is. -/
theorem Grows.entryLocation
    {written : Location → Prop}
    (grows : tree.Grows written later)
    (isEntry : tree.entryLocation here path = .ok location) :
    later.entryLocation here path = .ok location := by
  rw [entryLocation_eq_ok_iff] at isEntry ⊢
  obtain ⟨isPath, before, name, origin, segments, isName, walked, directory, same⟩ := isEntry
  exact ⟨isPath, before, name, origin, segments, isName, grows.walk walked,
    grows.directory directory, same⟩

/-- A path leads to its entry, if there is a file. -/
theorem resolve_of_entry
    {content? : Option String}
    (isEntry : tree.entryLocation here path = .ok location)
    (found : tree.get? location = some (.file content?)) :
    tree.resolve here path = .ok (.ofLocation location) := by
  rw [entryLocation_eq_ok_iff] at isEntry
  obtain ⟨isPath, before, name, origin, segments, isName, walked, directory, rfl⟩ := isEntry
  have placed : place (.ofLocation origin) name = .ok (origin ++ [name]) := by
    simp [place, Spot.ofLocation, Nat.not_lt.mpr isName.short]
  have onward (follow : Spot → List String → Except OsError Spot) :
      tree.walkNames follow (.ofLocation origin) [name] = .ok (.ofLocation (origin ++ [name])) := by
    refine walkNames_cons_eq_ok_iff.mpr ⟨(tree.isDirectoryAt_ofLocation origin).mpr directory, ?_⟩
    have noLink : ∀ target, Node.file content? ≠ .link target := by simp
    exact .node (not_or.mpr ⟨isName.notEmpty, isName.notHere⟩) isName.notUp placed found noLink rfl
  have ended (links : Nat) :
      tree.walk links (.ofLocation origin) [name] = .ok (.ofLocation (origin ++ [name])) := by
    cases links <;> exact onward _
  refine bind_eq_ok.mpr ⟨(), isPath, ?_⟩
  rw [segments]
  exact (Grows.refl tree fun _ => False).walk_append ended walked

/-- What is read under a path is the text of the file that it leads to. -/
theorem readText_of_resolve
    {content : String}
    (resolved : tree.resolve here path = .ok (.ofLocation location))
    (found : tree.get? location = some (.file (some content))) :
    tree.readText here path = .ok content := by
  simp only [readText, resolved, bind, Except.bind, Spot.ofLocation, List.isEmpty_nil,
    Bool.not_true, Bool.false_eq_true, ↓reduceIte, found]
  rfl

/-- What is read at a path is the text of the file at its entry. -/
theorem readText_of_entry
    {content : String}
    (isEntry : tree.entryLocation here path = .ok location)
    (found : tree.get? location = some (.file (some content))) :
    tree.readText here path = .ok content :=
  readText_of_resolve (resolve_of_entry isEntry found) found

/-- Where two paths lead to the same entry, the same is read. -/
theorem readText_congr
    {there : Spot}
    {other : String}
    {beside : Location}
    (resolved : tree.resolve here path = .ok (.ofLocation location))
    (resolvedToo : tree.resolve there other = .ok (.ofLocation beside))
    (same : tree.entryAt? location = tree.entryAt? beside) :
    tree.readText here path = tree.readText there other := by
  have sameNode : tree.get? location = tree.get? beside := congrArg (Option.map tree.node) same
  simp only [readText, resolved, resolvedToo, bind, Except.bind, Spot.ofLocation, sameNode]

/-- A path leads to the file with a number. -/
def LeadsTo
    (tree : FileTree)
    (here : Spot)
    (path : String)
    (number : Nat) : Prop :=
  ∃ location,
    tree.resolve here path = .ok (.ofLocation location) ∧ tree.number? location = some number

/-- A path leads to the file at its entry. -/
theorem leadsTo_of_entry
    {number : Nat}
    (isEntry : tree.entryLocation here path = .ok location)
    (isName : tree.number? location = some number) :
    tree.LeadsTo here path number :=
  ⟨location, resolve_of_entry isEntry (get?_eq_file_iff.mpr ⟨number, isName, rfl⟩), isName⟩

/-- A path leads to at most one file. -/
theorem LeadsTo.unique
    {number another : Nat}
    (leads : tree.LeadsTo here path number)
    (leadsToo : tree.LeadsTo here path another) :
    number = another := by
  obtain ⟨location, resolved, isName⟩ := leads
  obtain ⟨beside, resolvedToo, isNameToo⟩ := leadsToo
  obtain rfl : location = beside := by
    simpa [Spot.ofLocation] using resolved.symm.trans resolvedToo
  exact Option.some.inj (isName.symm.trans isNameToo)

/-- What is read under a path is the text of the file with the number that it leads to. -/
theorem LeadsTo.readText
    {number : Nat}
    {content : String}
    (leads : tree.LeadsTo here path number)
    (found : (tree.file number).content = some content) :
    tree.readText here path = .ok content := by
  obtain ⟨_, resolved, isName⟩ := leads
  exact readText_of_resolve resolved (get?_eq_file_iff.mpr ⟨number, isName, found⟩)

/-- Where two paths lead to the same file, the same is read. -/
theorem LeadsTo.readText_eq
    {there : Spot}
    {other : String}
    {number : Nat}
    (leads : tree.LeadsTo here path number)
    (leadsToo : tree.LeadsTo there other number) :
    tree.readText here path = tree.readText there other := by
  obtain ⟨_, resolved, isName⟩ := leads
  obtain ⟨_, resolvedToo, isNameToo⟩ := leadsToo
  rw [number?_eq_some_iff] at isName isNameToo
  exact readText_congr resolved resolvedToo (isName.trans isNameToo.symm)

/-- A report and its JSON rendering do not share an entry. -/
theorem entryLocation_jsonSibling_ne
    {there : Spot}
    {sibling : Location}
    (isEntry : tree.entryLocation here path = .ok location)
    (isSibling : later.entryLocation there (Path.jsonSibling path) = .ok sibling) :
    sibling ≠ location := by
  rw [entryLocation_eq_ok_iff] at isEntry isSibling
  obtain ⟨_, before, name, origin, segments, isName, _, _, rfl⟩ := isEntry
  obtain ⟨_, others, other, elsewhere, siblingSegments, _, _, _, rfl⟩ := isSibling
  obtain ⟨last, segmentsToo, beside⟩ :=
    Path.exists_segments_jsonSibling segments isName.notEmpty isName.notHere isName.notUp
  rw [segmentsToo] at siblingSegments
  obtain rfl : last = other := by simpa using (List.append_inj' siblingSegments rfl).2
  intro same
  exact beside.different (by simpa using (List.append_inj' same rfl).2)

/-! ## Opening and filling -/

/-- A file is opened at the entry of its path, unless there is a link. -/
theorem exists_entry_of_openForWriting
    {opened : FileTree}
    (isOpen : tree.openForWriting here path = .ok (opened, location)) :
    ∃ entry,
      tree.entryLocation here path = .ok entry ∧
        ((∀ target, tree.get? entry ≠ some (.link target)) → location = entry) := by
  obtain ⟨_, isPath, isOpen⟩ := bind_eq_ok.mp isOpen
  obtain ⟨file, located, isOpen⟩ := bind_eq_ok.mp isOpen
  have same : file = location := by
    split at isOpen <;> exact (Prod.mk.inj (Except.ok.inj isOpen)).2
  subst same
  rcases divided : dividePath (Path.segments path).reverse with ⟨before, last⟩
  rw [fileLocation, divided] at located
  obtain ⟨spot, walked, located⟩ := bind_eq_ok.mp located
  cases last with
  | step =>
      contradiction
  | directoryName _ =>
      contradiction
  | name name =>
      obtain ⟨entry, placed, located⟩ := bind_eq_ok.mp located
      refine ⟨entry, ?_, fun noLink => ?_⟩
      · refine bind_eq_ok.mpr ⟨(), isPath, ?_⟩
        rw [divided]
        exact bind_eq_ok.mpr ⟨spot, walked, placed⟩
      · split at located
        · contradiction
        · rename_i target found
          exact absurd found (noLink target)
        · exact (Except.ok.inj located).symm

/-- An open file is empty, or it is a device. -/
theorem grows_openForWriting
    {opened : FileTree}
    (isOpen : tree.openForWriting here path = .ok (opened, location)) :
    tree.Grows (tree.SameFile location) opened ∧
      (opened.get? location = some (.file (some "")) ∨
        ∃ full, opened.get? location = some (.device full)) := by
  obtain ⟨_, isPath, isOpen⟩ := bind_eq_ok.mp isOpen
  obtain ⟨file, located, isOpen⟩ := bind_eq_ok.mp isOpen
  have openable := openable_of_fileLocation located
  split at isOpen
  · rename_i full found
    obtain ⟨rfl, rfl⟩ := Prod.mk.inj (Except.ok.inj isOpen)
    exact ⟨.refl _ _, .inr ⟨full, found⟩⟩
  · rename_i noDevice
    obtain ⟨rfl, rfl⟩ := Prod.mk.inj (Except.ok.inj isOpen)
    rcases openable with writable | ⟨full, found⟩
    · exact ⟨grows_write writable _, .inl (get?_write writable _)⟩
    · exact absurd found (noDevice full)

/-- Filling an open file changes nothing but its text. -/
theorem grows_fill
    (takes :
      tree.Writable location ∨ ∃ full, tree.get? location = some (.device full))
    (content : String) :
    tree.Grows (tree.SameFile location) (tree.fill location content) := by
  unfold fill
  split
  · exact .refl _ _
  · rename_i noDevice
    rcases takes with writable | ⟨full, found⟩
    · exact grows_write writable _
    · exact absurd found (noDevice full)

/-- An open file holds the text that it has been filled with. -/
theorem get?_fill_of_writable
    (writable : tree.Writable location)
    (content : String) :
    (tree.fill location content).get? location = some (.file (some content)) := by
  unfold fill
  split
  · rename_i full found
    rcases writable with absent | ⟨old, isFile⟩
    · rw [absent] at found
      contradiction
    · rw [isFile] at found
      exact absurd (Option.some.inj found) nofun
  · exact get?_write writable content

/-! ## Saving -/

/-- A file has been opened under a path, with the directories before it: at the entry of the path,
if there is nothing else but a file. -/
structure Opens
    (tree : FileTree)
    (here : Spot)
    (path : String)
    (opened : FileTree)
    (entry location : Location) : Prop where
  grows : tree.Grows (tree.SameFile location) opened
  isEntry : opened.entryLocation here path = .ok entry
  takes : opened.Writable location ∨ ∃ full, opened.get? location = some (.device full)
  empty :
    opened.Ordinary entry →
      location = entry ∧ opened.get? entry = some (.file (some ""))

/-- A file that is opened when the directories before it have been made, is at the entry of its path
unless there is a link. -/
theorem exists_opens
    {extended opened : FileTree}
    (made : tree.makeParents here path = (none, extended))
    (isOpen : extended.openForWriting here path = .ok (opened, location)) :
    ∃ entry, tree.Opens here path opened entry location := by
  have parents := tree.grows_makeParents here path (tree.SameFile location)
  rw [made] at parents
  obtain ⟨opens, blank⟩ := grows_openForWriting isOpen
  obtain ⟨entry, isEntry, same⟩ := exists_entry_of_openForWriting isOpen
  refine ⟨entry, ?_⟩
  exact {
    grows := parents.trans (opens.mono fun _ => parents.sameFile_iff.mp)
    isEntry := opens.entryLocation isEntry
    takes := blank.imp_left fun empty => .inr ⟨_, empty⟩
    empty := by
      intro ordinary
      obtain rfl := same (opens.ordinary_iff.mp ordinary).noLink
      rcases blank with empty | ⟨full, device⟩
      · exact ⟨rfl, empty⟩
      · exact absurd device (ordinary.noDevice full)
  }

/-- A text has been saved under a path: at the entry of the path, if there is nothing else but a
file. -/
structure Saves
    (tree : FileTree)
    (here : Spot)
    (path content : String)
    (later : FileTree)
    (entry location : Location) : Prop where
  grows : tree.Grows (tree.SameFile location) later
  isEntry : later.entryLocation here path = .ok entry
  filled :
    later.Ordinary entry →
      location = entry ∧ later.get? entry = some (.file (some content))

/-- To fill an open file saves the text. -/
theorem Opens.saves
    {opened : FileTree}
    {entry : Location}
    (opens : tree.Opens here path opened entry location)
    (content : String) :
    tree.Saves here path content (opened.fill location content) entry location := by
  have fills := grows_fill opens.takes content
  exact {
    grows := opens.grows.trans (fills.mono fun _ => opens.grows.sameFile_iff.mp)
    isEntry := fills.entryLocation opens.isEntry
    filled := by
      intro ordinary
      obtain ⟨rfl, empty⟩ := opens.empty (fills.ordinary_iff.mp ordinary)
      exact ⟨rfl, get?_fill_of_writable (.inr ⟨_, empty⟩) content⟩
  }

/-- A text that has been saved is at the entry of its path unless there is a link or a device. -/
theorem exists_saves_of_saveText
    {content : String}
    (saved : tree.saveText here path content = (none, later)) :
    ∃ entry location, tree.Saves here path content later entry location := by
  unfold saveText at saved
  split at saved
  · simp at saved
  · rename_i extended made
    split at saved
    · rename_i written wrote
      obtain rfl : written = later := by simpa using saved
      obtain ⟨⟨opened, location⟩, isOpen, filled⟩ := bind_eq_ok.mp wrote
      obtain ⟨entry, opens⟩ := exists_opens made isOpen
      refine ⟨entry, location, ?_⟩
      simp only at filled
      split at filled
      · contradiction
      · obtain rfl := Except.ok.inj filled
        exact opens.saves content
    · simp at saved

/-- Where a path leads, there is neither a link nor a device. -/
def Plain (tree : FileTree) (here : Spot) (path : String) : Prop :=
  ∀ location, tree.entryLocation here path = .ok location → tree.Ordinary location

/-- Two paths do not lead to different names of one file. -/
def Unlinked
    (tree : FileTree)
    (here : Spot)
    (path other : String) : Prop :=
  ∀ location beside,
    tree.entryLocation here path = .ok location →
      tree.entryLocation here other = .ok beside →
        beside ≠ location → ¬ tree.Linked location beside

/-- Where there is a file, there is neither a link nor a device. -/
theorem plain_of_number
    {number : Nat}
    (isEntry : tree.entryLocation here path = .ok location)
    (isName : tree.number? location = some number) :
    tree.Plain here path := by
  intro other isOther
  obtain rfl := Except.ok.inj (isEntry.symm.trans isOther)
  have found := get?_eq_file_iff.mpr ⟨number, isName, rfl⟩
  exact ⟨fun _ => by simp [found], fun _ => by simp [found]⟩

/-- Files with different numbers are different. -/
theorem unlinked_of_number
    {other : String}
    {beside : Location}
    {number another : Nat}
    (isEntry : tree.entryLocation here path = .ok location)
    (isOther : tree.entryLocation here other = .ok beside)
    (isName : tree.number? location = some number)
    (isNameToo : tree.number? beside = some another)
    (different : another ≠ number) :
    tree.Unlinked here path other := by
  rintro _ _ found foundToo _ ⟨shared, isShared, isSharedToo⟩
  obtain rfl := Except.ok.inj (isEntry.symm.trans found)
  obtain rfl := Except.ok.inj (isOther.symm.trans foundToo)
  rw [isName] at isShared
  rw [isNameToo, ← isShared] at isSharedToo
  exact different (Option.some.inj isSharedToo)

/-- Two texts have been saved, the second one under the path beside that of the first one. -/
structure SavesBoth
    (tree : FileTree)
    (here : Spot)
    (path first second : String)
    (later : FileTree)
    (entry sibling : Location) : Prop where
  grows :
    tree.Grows (fun location => tree.SameFile entry location ∨ tree.SameFile sibling location) later
  isEntry : later.entryLocation here path = .ok entry
  isSibling : later.entryLocation here (Path.jsonSibling path) = .ok sibling
  first : later.get? entry = some (.file (some first))
  second : later.get? sibling = some (.file (some second))

/-- Texts that have been saved under a path and beside it are both there, if these are two files and
nothing else. -/
theorem exists_savesBoth
    {between : FileTree}
    {first second : String}
    (saved : tree.saveText here path first = (none, between))
    (savedToo : between.saveText here (Path.jsonSibling path) second = (none, later))
    (plain : later.Plain here path)
    (plainToo : later.Plain here (Path.jsonSibling path))
    (unlinked : later.Unlinked here path (Path.jsonSibling path)) :
    ∃ entry sibling, tree.SavesBoth here path first second later entry sibling := by
  obtain ⟨_, entry, saves⟩ := exists_saves_of_saveText saved
  obtain ⟨_, sibling, savesToo⟩ := exists_saves_of_saveText savedToo
  have isEntry := savesToo.grows.entryLocation saves.isEntry
  obtain ⟨rfl, found⟩ := saves.filled (savesToo.grows.ordinary_iff.mp (plain _ isEntry))
  obtain ⟨rfl, foundToo⟩ := savesToo.filled (plainToo _ savesToo.isEntry)
  have different := entryLocation_jsonSibling_ne saves.isEntry savesToo.isEntry
  have apart : ¬ later.SameFile sibling entry := by
    rintro (same | linked)
    · exact different same.symm
    · exact unlinked _ _ isEntry savesToo.isEntry different linked.symm
  refine ⟨entry, sibling, ?_⟩
  exact {
    grows := by
      refine (saves.grows.mono fun _ => .inl).trans (savesToo.grows.mono fun _ => ?_)
      exact fun same => .inr (saves.grows.sameFile_iff.mp same)
    isEntry := isEntry
    isSibling := savesToo.isEntry
    first := savesToo.grows.kept (fun same => apart (savesToo.grows.sameFile_iff.mpr same)) found
    second := foundToo
  }

end FileTree

/-! ## Log files -/

namespace LogFile

variable
  {tree later : FileTree}
  {here : Spot}
  {path : String}
  {file : LogFile}
  {writer : LogWriter}
  {number : Nat}
  {emptied : File}

/-- The tree grows when a log is opened. -/
theorem grows_of_create
    (created : create tree here path = (.ok (file, writer), later)) :
    ∃ written, tree.Grows written later := by
  unfold create at created
  split at created
  · simp at created
  · rename_i extended made
    split at created
    · simp at created
    · rename_i opened location isOpen
      obtain ⟨_, rfl⟩ := Prod.mk.inj created
      obtain ⟨_, opens⟩ := FileTree.exists_opens made isOpen
      exact ⟨_, opens.grows⟩

/-- A file that has been opened for a log takes every line. -/
theorem memory_of_create
    (created : create tree here path = (.ok (file, writer), later))
    (isFile : file.opened? = some (number, emptied)) :
    writer = .memory ∧ later.file number = emptied := by
  unfold create at created
  split at created
  · simp at created
  · split at created
    · simp at created
    · rename_i opened location isOpen
      simp only [Prod.mk.injEq, Except.ok.injEq] at created
      obtain ⟨⟨rfl, rfl⟩, rfl⟩ := created
      simp only [Option.map_eq_some_iff, Prod.mk.injEq] at isFile
      obtain ⟨_, isName, rfl, rfl⟩ := isFile
      have unlimited : opened.isFull location = false := by
        simp [FileTree.isFull, FileTree.get?_eq_file_iff.mpr ⟨_, isName, rfl⟩]
      simp [unlimited, LogWriter.memory]

/-- The file of a log to which nobody else has written holds the lines of its writer. -/
theorem content_store
    (isFile : file.opened? = some (number, emptied))
    (untouched : tree.file number = emptied)
    (writer : LogWriter) :
    ((file.store writer tree).file number).content = some writer.text := by
  simp [store, isFile, FileTree.writeOpen, File.rewritten, untouched]

end LogFile

end VerifyPipeline
