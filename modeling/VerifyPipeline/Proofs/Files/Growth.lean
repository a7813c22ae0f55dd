import VerifyPipeline.Files.Operations
import VerifyPipeline.Proofs.Files.Enterable
import VerifyPipeline.Proofs.Json.Tokens

namespace VerifyPipeline.FileTree

/-!
# Growing trees

Making directories and writing files changes little about a tree: directories come to be where there
was nothing, and files where there was nothing or a file.  So a path that led somewhere leads there
still, and a link or a device is where it was.
-/

open Json.Reader (bind_eq_ok)

/-- What is at a location later, where there was something before; only where it is allowed have
files been written. -/
inductive Becomes (allowed : Prop) : Option Node → Option Node → Prop where
  | same
      (node? : Option Node) :
      Becomes allowed node? node?
  | directory : Becomes allowed none (some .directory)
  | created
      (isAllowed : allowed)
      (content : Option String) :
      Becomes allowed none (some (.file content))
  | rewritten
      (isAllowed : allowed)
      (old new : Option String) :
      Becomes allowed (some (.file old)) (some (.file new))

/-- What has come of something later is what may have come of it at once. -/
theorem Becomes.trans
    {allowed : Prop}
    {first second third : Option Node}
    (before : Becomes allowed first second)
    (after : Becomes allowed second third) :
    Becomes allowed first third := by
  cases before with
  | same _ =>
      exact after
  | directory =>
      cases after with
      | same _ =>
          exact .directory
  | created isAllowed _ =>
      cases after with
      | same _ =>
          exact .created isAllowed _
      | rewritten _ _ _ =>
          exact .created isAllowed _
  | rewritten isAllowed old _ =>
      cases after with
      | same _ =>
          exact .rewritten isAllowed old _
      | rewritten _ _ _ =>
          exact .rewritten isAllowed old _

theorem Becomes.mono
    {allowed more : Prop}
    {before after : Option Node}
    (becomes : Becomes allowed before after)
    (included : allowed → more) :
    Becomes more before after := by
  cases becomes with
  | same _ =>
      exact .same _
  | directory =>
      exact .directory
  | created isAllowed content =>
      exact .created (included isAllowed) content
  | rewritten isAllowed old new =>
      exact .rewritten (included isAllowed) old new

/-- Two locations are the same one, or names of one file. -/
def SameFile (tree : FileTree) (location other : Location) : Prop :=
  other = location ∨ tree.Linked location other

theorem Linked.symm
    {tree : FileTree}
    {location other : Location}
    (linked : tree.Linked location other) :
    tree.Linked other location := by
  obtain ⟨number, found, foundToo⟩ := linked
  exact ⟨number, foundToo, found⟩

/-- The same file has the same number. -/
theorem SameFile.number?_eq
    {tree : FileTree}
    {location other : Location}
    {number : Nat}
    (same : tree.SameFile location other)
    (isName : tree.number? other = some number) :
    tree.number? location = some number := by
  rcases same with rfl | ⟨another, found, foundToo⟩
  · exact isName
  · rw [found, ← foundToo, isName]

/-- A tree grows to a later one if files have been written at most at the given locations.  Names of
a file stay names of it, and a file that is new has one name. -/
structure Grows (tree : FileTree) (written : Location → Prop) (later : FileTree) : Prop where
  becomes :
    ∀ location, Becomes (written location) (tree.get? location) (later.get? location)
  numbered :
    ∀ location number,
      tree.number? location = some number → later.number? location = some number
  fresh :
    ∀ location number,
      later.number? location = some number →
        tree.number? location = some number ∨
          ∀ other, later.number? other = some number → other = location
  spared :
    ∀ number,
      (∀ location, written location → later.number? location ≠ some number) →
        later.file number = tree.file number

/-- There is neither a link nor a device at a location. -/
structure Ordinary (tree : FileTree) (location : Location) : Prop where
  noLink : ∀ target, tree.get? location ≠ some (.link target)
  noDevice : ∀ full, tree.get? location ≠ some (.device full)

/-- Where no entry is a link, there is no link. -/
theorem noLink_of_entries
    {tree : FileTree}
    (linkless : ∀ entry ∈ tree.entries, ∀ target, entry.2 ≠ .link target)
    (location : Location)
    (target : String) :
    tree.get? location ≠ some (.link target) := by
  intro found
  obtain ⟨entry, isEntry, same⟩ := Option.map_eq_some_iff.mp found
  cases location with
  | nil =>
      obtain rfl := Option.some.inj isEntry
      contradiction
  | cons name rest =>
      obtain ⟨before, after, shape, _⟩ := List.lookup_eq_some_iff.mp isEntry
      have noLink := linkless (name :: rest, entry) (by simp [shape])
      cases entry with
      | link target =>
          exact noLink target rfl
      | directory | file _ | device _ =>
          simp [node] at same

namespace Grows

variable
  {tree between later : FileTree}
  {written : Location → Prop}
  {location : Location}

theorem refl
    (tree : FileTree)
    (written : Location → Prop) :
    tree.Grows written tree where
  becomes _ := .same _
  numbered _ _ found := found
  fresh _ _ found := .inl found
  spared _ _ := rfl

theorem trans
    (first : tree.Grows written between)
    (second : between.Grows written later) :
    tree.Grows written later where
  becomes location := (first.becomes location).trans (second.becomes location)
  numbered location number found :=
    second.numbered location number (first.numbered location number found)
  fresh location number found := by
    rcases second.fresh location number found with between | alone
    · refine (first.fresh location number between).imp_right fun alone other foundToo => ?_
      rcases second.fresh other number foundToo with betweenToo | aloneToo
      · exact alone other betweenToo
      · exact (aloneToo location found).symm
    · exact .inr alone
  spared number untouched :=
    have before (location : Location) (isWritten : written location) :
        between.number? location ≠ some number :=
      fun found => untouched location isWritten (second.numbered location number found)
    (second.spared number untouched).trans (first.spared number before)

/-- A tree has also grown with more locations that may be written. -/
theorem mono
    {more : Location → Prop}
    (grows : tree.Grows written later)
    (included : ∀ location, written location → more location) :
    tree.Grows more later where
  becomes location := (grows.becomes location).mono (included location)
  numbered := grows.numbered
  fresh := grows.fresh
  spared number untouched :=
    grows.spared number fun location isWritten => untouched location (included location isWritten)

/-- Nothing is lost where nothing has been written. -/
theorem kept
    {node : Node}
    (grows : tree.Grows written later)
    (untouched : ¬ written location)
    (found : tree.get? location = some node) :
    later.get? location = some node := by
  have becomes := grows.becomes location
  rw [found] at becomes
  generalize later.get? location = after at becomes
  cases becomes with
  | same _ =>
      rfl
  | rewritten isAllowed _ _ =>
      exact absurd isAllowed untouched

/-- A directory stays one. -/
theorem directory
    (grows : tree.Grows written later)
    (found : tree.get? location = some .directory) :
    later.get? location = some .directory := by
  have becomes := grows.becomes location
  rw [found] at becomes
  generalize later.get? location = after at becomes
  cases becomes with
  | same _ =>
      rfl

/-- Links are where they were, and no others. -/
theorem link_iff
    {target : String}
    (grows : tree.Grows written later) :
    later.get? location = some (.link target) ↔ tree.get? location = some (.link target) := by
  have becomes := grows.becomes location
  generalize tree.get? location = before at becomes
  generalize later.get? location = after at becomes
  cases becomes <;> simp

/-- A tree that has grown has the same devices. -/
theorem device_iff
    {full : Bool}
    (grows : tree.Grows written later) :
    later.get? location = some (.device full) ↔ tree.get? location = some (.device full) := by
  have becomes := grows.becomes location
  generalize tree.get? location = before at becomes
  generalize later.get? location = after at becomes
  cases becomes <;> simp

/-- Where there is neither a link nor a device, there was none before. -/
theorem ordinary_iff
    (grows : tree.Grows written later) :
    later.Ordinary location ↔ tree.Ordinary location := by
  constructor
  · intro ordinary
    exact ⟨fun target found => ordinary.noLink target (grows.link_iff.mpr found),
      fun full found => ordinary.noDevice full (grows.device_iff.mpr found)⟩
  · intro ordinary
    exact ⟨fun target found => ordinary.noLink target (grows.link_iff.mp found),
      fun full found => ordinary.noDevice full (grows.device_iff.mp found)⟩

/-- Locations become names of one file only if they were before. -/
theorem linked_iff
    {other : Location}
    (grows : tree.Grows written later)
    (different : other ≠ location) :
    later.Linked location other ↔ tree.Linked location other := by
  constructor
  · rintro ⟨number, found, foundToo⟩
    refine ⟨number, ?_, ?_⟩
    · exact (grows.fresh _ _ found).resolve_right fun alone => different (alone other foundToo)
    · exact (grows.fresh _ _ foundToo).resolve_right fun alone =>
        different (alone location found).symm
  · rintro ⟨number, found, foundToo⟩
    exact ⟨number, grows.numbered _ _ found, grows.numbered _ _ foundToo⟩

/-- The same names belong to the same files. -/
theorem sameFile_iff
    {other : Location}
    (grows : tree.Grows written later) :
    later.SameFile location other ↔ tree.SameFile location other := by
  by_cases same : other = location
  · exact iff_of_true (.inl same) (.inl same)
  · exact or_congr_right (grows.linked_iff same)

/-- What is no link stays something that is no link. -/
theorem exists_node
    {node : Node}
    (grows : tree.Grows written later)
    (found : tree.get? location = some node)
    (noLink : ∀ target, node ≠ .link target) :
    ∃ node, later.get? location = some node ∧ ∀ target, node ≠ .link target := by
  have becomes := grows.becomes location
  rw [found] at becomes
  generalize later.get? location = after at becomes
  cases becomes with
  | same _ =>
      exact ⟨node, rfl, noLink⟩
  | rewritten _ _ new =>
      exact ⟨.file new, rfl, nofun⟩

/-- A file stays a file. -/
theorem exists_file
    {content : Option String}
    (grows : tree.Grows written later)
    (found : tree.get? location = some (.file content)) :
    ∃ content, later.get? location = some (.file content) := by
  have becomes := grows.becomes location
  rw [found] at becomes
  generalize later.get? location = after at becomes
  cases becomes with
  | same _ =>
      exact ⟨content, rfl⟩
  | rewritten _ _ new =>
      exact ⟨new, rfl⟩

theorem reached
    (grows : tree.Grows written later)
    (reached : tree.Reached location) :
    later.Reached location where
  above above isAbove below := grows.directory (reached.above above isAbove below)
  named := reached.named

/-- A directory stays one. -/
theorem isDirectoryAt
    {spot : Spot}
    (grows : tree.Grows written later)
    (directory : tree.isDirectoryAt spot = true) :
    later.isDirectoryAt spot = true := by
  simp only [FileTree.isDirectoryAt, Bool.or_eq_true, decide_eq_true_iff] at directory ⊢
  exact directory.imp_right grows.directory

/-- Names that led to a spot lead there still, and from there on along more names. -/
theorem walkNames_append
    {follow onward : Spot → List String → Except OsError Spot}
    {start spot final : Spot}
    {names more : List String}
    (grows : tree.Grows written later)
    (followed :
      ∀ origin target rest,
        follow origin (target :: rest) = .ok spot →
          onward origin (target :: (rest ++ more)) = .ok final)
    (ended : later.walkNames onward spot more = .ok final)
    (walked : tree.walkNames follow start names = .ok spot) :
    later.walkNames onward start (names ++ more) = .ok final := by
  induction names generalizing start with
  | nil =>
      obtain rfl := Except.ok.inj walked
      exact ended
  | cons name rest inductionHypothesis =>
      obtain ⟨directory, advances⟩ := walkNames_cons_eq_ok_iff.mp walked
      refine walkNames_cons_eq_ok_iff.mpr ⟨grows.isDirectoryAt directory, ?_⟩
      cases advances with
      | silent isSilent walked =>
          exact .silent isSilent (inductionHypothesis walked)
      | up isUp walked =>
          exact .up isUp (inductionHypothesis walked)
      | link notSilent notUp placed found onwards =>
          exact .link notSilent notUp placed (grows.link_iff.mpr found) (followed _ _ _ onwards)
      | node notSilent notUp placed found noLink walked =>
          obtain ⟨node, still, stillNoLink⟩ := grows.exists_node found noLink
          exact .node notSilent notUp placed still stillNoLink (inductionHypothesis walked)

/-- A way that led to a spot leads there still, through as many links, and from there on. -/
theorem walk_append
    {links : Nat}
    {start spot final : Spot}
    {names more : List String}
    (grows : tree.Grows written later)
    (ended : ∀ links, later.walk links spot more = .ok final)
    (walked : tree.walk links start names = .ok spot) :
    later.walk links start (names ++ more) = .ok final := by
  induction links generalizing start names with
  | zero =>
      refine grows.walkNames_append ?_ (ended 0) walked
      intro _ _ _ onward
      contradiction
  | succ links inductionHypothesis =>
      refine grows.walkNames_append ?_ (ended (links + 1)) walked
      intro origin target rest onward
      have through := inductionHypothesis onward
      rw [List.append_assoc] at through
      exact through

/-- A way that led to a spot leads there still. -/
theorem walk
    {links : Nat}
    {start spot : Spot}
    {names : List String}
    (grows : tree.Grows written later)
    (walked : tree.walk links start names = .ok spot) :
    later.walk links start names = .ok spot := by
  have ended : ∀ links, later.walk links spot [] = .ok spot := by
    intro links
    cases links <;> rfl
  rw [← List.append_nil names]
  exact grows.walk_append ended walked

/-- A path leads to the same spot in a tree that has grown. -/
theorem resolve
    {here spot : Spot}
    {path : String}
    (grows : tree.Grows written later)
    (resolved : tree.resolve here path = .ok spot) :
    later.resolve here path = .ok spot := by
  obtain ⟨_, isPath, walked⟩ := bind_eq_ok.mp resolved
  exact bind_eq_ok.mpr ⟨(), isPath, grows.walk walked⟩

end Grows

/-! ## Operations that let a tree grow -/

section Operations

variable
  {tree later : FileTree}
  {here : Spot}
  {path : String}
  {location : Location}

/-- There is a file exactly where there is the number of one. -/
theorem get?_eq_file_iff
    {content : Option String} :
    tree.get? location = some (.file content) ↔
      ∃ number, tree.number? location = some number ∧ (tree.file number).content = content := by
  simp only [number?_eq_some_iff, get?, Option.map_eq_some_iff]
  constructor
  · rintro ⟨entry, found, same⟩
    cases entry with
    | file number =>
        exact ⟨number, found, by simpa [node] using same⟩
    | directory | link _ | device _ =>
        simp [node] at same
  · rintro ⟨number, found, same⟩
    exact ⟨.file number, found, by simp [node, same]⟩

/-- What is put elsewhere leaves the number of a file as it is. -/
theorem number?_put_of_ne
    {node : Node}
    {other : Location}
    (different : other ≠ location) :
    (tree.put location node).number? other = tree.number? other := by
  rw [number?, entryAt?_put_of_ne different, number?]

theorem number?_eq_none_of_absent
    (absent : tree.get? location = none) :
    tree.number? location = none := by
  rw [get?, Option.map_eq_none_iff] at absent
  rw [number?, absent, Option.bind_none]

/-- Where something is put that is there once, the names of other files stay. -/
theorem numbered_put
    {node : Node}
    {other : Location}
    {number : Nat}
    (unnumbered : tree.number? location = none)
    (found : tree.number? other = some number) :
    (tree.put location node).number? other = some number := by
  rw [number?_put_of_ne, found]
  rintro rfl
  simp [unnumbered] at found

/-- A directory is made where there is nothing. -/
theorem grows_put_directory
    (absent : tree.get? location = none)
    (written : Location → Prop) :
    tree.Grows written (tree.put location .directory) where
  becomes other := by
    by_cases same : other = location
    · rw [same, absent, get?_put_self]
      · exact .directory
      · rintro rfl
        contradiction
    · rw [get?_put_of_ne same]
      exact .same _
  numbered _ _ := numbered_put (number?_eq_none_of_absent absent)
  fresh other number found := by
    refine .inl ?_
    by_cases same : other = location
    · have notRoot : location ≠ [] := by
        rintro rfl
        contradiction
      have isDirectory : (tree.put location .directory).get? location = some .directory :=
        get?_put_self notRoot
      rw [same] at found
      rw [get?_eq_file_iff.mpr ⟨number, found, rfl⟩] at isDirectory
      simp at isDirectory
    · rwa [number?_put_of_ne same] at found
  spared _ _ := rfl

/-- At the location there is nothing, or a file. -/
def Writable (tree : FileTree) (location : Location) : Prop :=
  tree.get? location = none ∨ ∃ content, tree.get? location = some (.file content)

theorem Writable.ne_nil (writable : tree.Writable location) : location ≠ [] := by
  rintro rfl
  rcases writable with absent | ⟨content, found⟩
  · contradiction
  · exact absurd (Option.some.inj found) nofun

/-- Another text in a file changes what is at its names. -/
theorem grows_setFile
    {number : Nat}
    (isName : tree.number? location = some number)
    (file : File) :
    tree.Grows (tree.SameFile location) (tree.setFile number file) where
  becomes other := by
    by_cases isNameToo : tree.number? other = some number
    · have isNameLater : (tree.setFile number file).number? other = some number := isNameToo
      rw [get?_eq_file_iff.mpr ⟨number, isNameToo, rfl⟩,
        get?_eq_file_iff.mpr ⟨number, isNameLater, rfl⟩]
      exact .rewritten (.inr ⟨number, isName, isNameToo⟩) _ _
    · have same : (tree.setFile number file).get? other = tree.get? other := by
        refine get?_congr rfl fun another found => file_setFile_of_ne ?_
        rintro rfl
        exact isNameToo found
      rw [same]
      exact .same _
  numbered _ _ found := found
  fresh _ _ found := .inl found
  spared another untouched := by
    refine file_setFile_of_ne ?_
    rintro rfl
    exact untouched location (.inl rfl) isName

/-- A file is made where there is nothing.  Its number is that of no other one. -/
theorem grows_put_file
    (absent : tree.get? location = none)
    (content : Option String) :
    tree.Grows (· = location) (tree.put location (.file content)) where
  becomes other := by
    by_cases same : other = location
    · rw [same, absent, get?_put_self (Writable.ne_nil (.inl absent))]
      exact .created rfl content
    · rw [get?_put_of_ne same]
      exact .same _
  numbered _ _ := numbered_put (number?_eq_none_of_absent absent)
  fresh other number found := by
    by_cases same : other = location
    · subst same
      refine .inr fun another foundToo => Decidable.byContradiction fun different => ?_
      have isEntry :
          (tree.put other (.file content)).entryAt? other = some (.file tree.freshNumber) :=
        entryAt?_setEntry_self (Writable.ne_nil (.inl absent))
      rw [number?_eq_some_iff, isEntry] at found
      rw [number?_put_of_ne different] at foundToo
      have below := lt_freshNumber foundToo
      simp only [Option.some.injEq, Entry.file.injEq] at found
      omega
    · rw [number?_put_of_ne same] at found
      exact .inl found
  spared number untouched := by
    refine file_setFile_of_ne ?_
    rintro rfl
    refine untouched location rfl (number?_eq_some_iff.mpr ?_)
    exact entryAt?_setEntry_self (Writable.ne_nil (.inl absent))

/-- What is written at a location is there. -/
theorem get?_write
    (writable : tree.Writable location)
    (content : String) :
    (tree.write location content).get? location = some (.file (some content)) := by
  unfold write
  split
  · rename_i number isName
    exact get?_eq_file_iff.mpr ⟨number, isName, by rw [file_setFile_self, File.rewritten]⟩
  · exact get?_put_self writable.ne_nil

/-- What is written at a location is written to all names of its file. -/
theorem grows_write
    (writable : tree.Writable location)
    (content : String) :
    tree.Grows (tree.SameFile location) (tree.write location content) := by
  unfold write
  split
  · rename_i number isName
    exact grows_setFile isName _
  · rename_i unnumbered
    refine (grows_put_file ?_ _).mono fun _ => .inl
    refine writable.resolve_right ?_
    rintro ⟨content, found⟩
    obtain ⟨_, isName, _⟩ := get?_eq_file_iff.mp found
    rw [unnumbered] at isName
    contradiction

/-- A directory is made where there is nothing, at the end of a path. -/
structure Makes
    (tree : FileTree)
    (here : Spot)
    (path : String)
    (later : FileTree)
    (before : List String)
    (name : String)
    (spot : Spot)
    (location : Location) : Prop where
  isPath : checkPath path = .ok ()
  divided :
    dividePath (Path.segments path).reverse = (before, .name name) ∨
      dividePath (Path.segments path).reverse = (before, .directoryName name)
  reached : tree.walkBefore linkLimit (startOf here path) before = .ok spot
  placed : place spot name = .ok location
  absent : tree.get? location = none
  put : later = tree.put location .directory

/-- A directory that has been made is at the end of its path. -/
theorem exists_makes_of_makeDirectory
    (made : tree.makeDirectory here path = .ok later) :
    ∃ before name spot location, tree.Makes here path later before name spot location := by
  obtain ⟨_, isPath, made⟩ := bind_eq_ok.mp made
  rcases divided : dividePath (Path.segments path).reverse with ⟨before, last⟩
  rw [divided] at made
  obtain ⟨spot, reached, made⟩ := bind_eq_ok.mp made
  cases last with
  | step =>
      contradiction
  | name name | directoryName name =>
      obtain ⟨location, placed, made⟩ := bind_eq_ok.mp made
      refine ⟨before, name, spot, location, ?_⟩
      cases found : tree.get? location with
      | some node =>
          simp [found] at made
      | none =>
          simp only [found] at made
          exact {
            isPath := isPath
            divided := by simp [divided]
            reached := reached
            placed := placed
            absent := found
            put := (Except.ok.inj made).symm
          }

/-- Making a directory changes nothing that is there. -/
theorem grows_makeDirectory
    (made : tree.makeDirectory here path = .ok later)
    (written : Location → Prop) :
    tree.Grows written later := by
  obtain ⟨_, _, _, location, makes⟩ := exists_makes_of_makeDirectory made
  rw [makes.put]
  exact grows_put_directory makes.absent written

/-- A directory is made at a path above the given one. -/
def MakesAbove (here : Spot) (path : String) (tree made : FileTree) : Prop :=
  ∃ above, Path.Above above path ∧ tree.makeDirectory here above = .ok made

/-- By induction on the steps upwards, all of which stay above the path; directories that are made
before an error stay. -/
theorem makesAbove_makeDirectoriesWithin
    {above : String}
    (isAbove : Path.Above above path)
    (tree : FileTree)
    (here : Spot)
    (steps : Nat) :
    Relation.ReflTransGen (MakesAbove here path) tree
      (makeDirectoriesWithin here steps tree above).2 := by
  induction steps generalizing tree above with
  | zero =>
      exact .refl
  | succ steps inductionHypothesis =>
      unfold makeDirectoriesWithin
      split
      · exact .refl
      · split
        · rename_i made isMade
          exact .single ⟨above, isAbove, isMade⟩
        · split
          · exact .refl
          · rename_i parent isParent
            have higher := inductionHypothesis (isAbove.tail isParent) tree
            split
            · rename_i extended isExtended
              rw [isExtended] at higher
              exact higher
            · rename_i extended isExtended
              rw [isExtended] at higher
              split
              · rename_i made isMade
                exact higher.tail ⟨above, isAbove, isMade⟩
              · split <;> exact higher
        · split <;> exact .refl

/-- The directories before the last name of a path are made at paths above it. -/
theorem makesAbove_makeParents
    (tree : FileTree)
    (here : Spot)
    (path : String) :
    Relation.ReflTransGen (MakesAbove here path) tree (tree.makeParents here path).2 := by
  unfold makeParents
  split
  · exact .refl
  · rename_i parent isParent
    split
    · exact .refl
    · exact makesAbove_makeDirectoriesWithin (.single isParent) tree here _

/-- Making the directories above a path changes nothing that is there. -/
theorem grows_makeParents
    (tree : FileTree)
    (here : Spot)
    (path : String)
    (written : Location → Prop) :
    tree.Grows written (tree.makeParents here path).2 := by
  have made := tree.makesAbove_makeParents here path
  generalize (tree.makeParents here path).2 = later at made ⊢
  induction made with
  | refl =>
      exact .refl tree written
  | tail _ step inductionHypothesis =>
      obtain ⟨_, _, isMade⟩ := step
      exact inductionHypothesis.trans (grows_makeDirectory isMade written)

/-- A file is opened where there is nothing, a file or a device. -/
theorem openable_of_fileLocation
    {links : Nat}
    {start : Spot}
    {names : List String}
    (located : tree.fileLocation links start names = .ok location) :
    tree.Writable location ∨ ∃ full, tree.get? location = some (.device full) := by
  induction links generalizing start names with
  | zero =>
      contradiction
  | succ links inductionHypothesis =>
      obtain ⟨spot, _, located⟩ := bind_eq_ok.mp located
      split at located
      · contradiction
      · contradiction
      · obtain ⟨place, _, located⟩ := bind_eq_ok.mp located
        split at located
        · contradiction
        · exact inductionHypothesis located
        · rename_i noDirectory noLink
          obtain rfl := Except.ok.inj located
          cases found : tree.get? place with
          | none =>
              exact .inl (.inl found)
          | some node =>
              cases node with
              | directory =>
                  exact absurd found noDirectory
              | file content =>
                  exact .inl (.inr ⟨content, found⟩)
              | link target =>
                  exact absurd found (noLink target)
              | device full =>
                  exact .inr ⟨full, rfl⟩

end Operations

end VerifyPipeline.FileTree
