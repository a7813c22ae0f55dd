import VerifyPipeline.Proofs.Files.Saving

namespace VerifyPipeline

/-!
# What saving spares

Before a text is saved, the directories before it are made that are missing.  Each of them is made
where a path leads that lies above that of the text.  Apart from these and from the file of the
text, everything in the tree stays as it is.
-/

namespace FileTree

open Json.Reader (bind_eq_ok)

/-- A directory has been made where there was nothing, and a path above the given one leads to
it. -/
structure Prepared
    (tree : FileTree)
    (here : Spot)
    (path : String)
    (later : FileTree)
    (location : Location) : Prop where
  absent : tree.get? location = none
  directory : later.get? location = some .directory
  leads :
    ∃ above,
      Path.Above above path ∧ later.resolve here above = .ok (.ofLocation location)

/-- What is at a location is as it was, and so is its file. -/
structure Unchanged (tree later : FileTree) (location : Location) : Prop where
  entry : later.entryAt? location = tree.entryAt? location
  file :
    ∀ number, tree.number? location = some number → later.file number = tree.file number

/-- Apart from directories that were missing above a path, nothing has changed outside the written
locations. -/
def Spares
    (tree : FileTree)
    (here : Spot)
    (path : String)
    (written : Location → Prop)
    (later : FileTree) : Prop :=
  ∀ location,
    ¬ written location →
      tree.Unchanged later location ∨ tree.Prepared here path later location

variable
  {tree between later : FileTree}
  {here : Spot}
  {path : String}
  {location : Location}

namespace Unchanged

theorem refl
    (tree : FileTree)
    (location : Location) :
    tree.Unchanged tree location :=
  ⟨rfl, fun _ _ => rfl⟩

theorem number?_eq (unchanged : tree.Unchanged later location) :
    later.number? location = tree.number? location :=
  congrArg (Option.bind · Entry.number?) unchanged.entry

theorem get?_eq (unchanged : tree.Unchanged later location) :
    later.get? location = tree.get? location :=
  get?_congr unchanged.entry unchanged.file

/-- What is unchanged twice is unchanged. -/
theorem trans
    (first : tree.Unchanged between location)
    (second : between.Unchanged later location) :
    tree.Unchanged later location where
  entry := second.entry.trans first.entry
  file number found :=
    (second.file number (first.number?_eq.trans found)).trans (first.file number found)

end Unchanged

/-- What is put elsewhere changes nothing here. -/
theorem unchanged_put
    {node : Node}
    {other : Location}
    (different : other ≠ location) :
    tree.Unchanged (tree.put location node) other :=
  ⟨entryAt?_put_of_ne different, fun _ => file_put_of_numbered⟩

/-- What is written to a file changes nothing but what is at its names. -/
theorem unchanged_write
    {other : Location}
    (apart : ¬ tree.SameFile location other)
    (content : String) :
    tree.Unchanged (tree.write location content) other := by
  obtain ⟨different, unlinked⟩ := not_or.mp apart
  unfold write
  split
  · rename_i number isName
    refine ⟨rfl, fun another isNameToo => file_setFile_of_ne ?_⟩
    rintro rfl
    exact unlinked ⟨another, isName, isNameToo⟩
  · exact unchanged_put different

namespace Spares

variable {written : Location → Prop}

theorem refl
    (tree : FileTree)
    (here : Spot)
    (path : String)
    (written : Location → Prop) :
    tree.Spares here path written tree :=
  fun location _ => .inl (.refl tree location)

theorem mono
    {more : Location → Prop}
    (spares : tree.Spares here path written later)
    (included : ∀ location, written location → more location) :
    tree.Spares here path more later :=
  fun location outside => spares location fun inside => outside (included location inside)

/-- Directories that have been made are still there when the tree has grown. -/
theorem trans
    {anywhere : Location → Prop}
    (first : tree.Spares here path written between)
    (second : between.Spares here path written later)
    (grows : between.Grows anywhere later) :
    tree.Spares here path written later := by
  intro location outside
  rcases first location outside with same | prepared
  · rcases second location outside with unchanged | prepared
    · exact .inl (same.trans unchanged)
    · exact .inr ⟨same.get?_eq ▸ prepared.absent, prepared.directory, prepared.leads⟩
  · obtain ⟨above, isAbove, resolved⟩ := prepared.leads
    exact .inr ⟨prepared.absent, grows.directory prepared.directory, above, isAbove,
      grows.resolve resolved⟩

/-- Paths with the same parent have the same directories to be made for them. -/
theorem congr
    {beside : String}
    (same : Path.parent? beside = Path.parent? path)
    (spares : tree.Spares here beside written later) :
    tree.Spares here path written later := by
  intro location outside
  refine (spares location outside).imp_right fun prepared => ?_
  obtain ⟨above, isAbove, resolved⟩ := prepared.leads
  exact ⟨prepared.absent, prepared.directory, above, isAbove.congr same, resolved⟩

/-- No file has been touched outside the written locations. -/
theorem file_iff
    {content : Option String}
    (spares : tree.Spares here path written later)
    (outside : ¬ written location) :
    later.get? location = some (.file content) ↔ tree.get? location = some (.file content) := by
  rcases spares location outside with unchanged | prepared
  · rw [unchanged.get?_eq]
  · simp [prepared.absent, prepared.directory]

end Spares

/-! ## Making directories -/

/-- A name that only slashes follow. -/
theorem dividePath_eq_directoryName
    {names before : List String}
    {name : String}
    (divided : dividePath names = (before, .directoryName name)) :
    ∃ silent,
      names = silent ++ name :: before.reverse ∧
        (∀ other ∈ silent, other = "") ∧ name ≠ "" ∧ name ≠ "." ∧ name ≠ ".." := by
  cases names with
  | nil =>
      simp [dividePath] at divided
  | cons last rest =>
      have parts := List.takeWhile_append_dropWhile (p := (· = "")) (l := rest)
      have blank : ∀ other ∈ rest.takeWhile (· = ""), other = "" := by
        intro other member
        simpa using List.all_eq_true.mp List.all_takeWhile other member
      have spoken := List.head?_dropWhile_not (· = "") rest
      simp only [dividePath, Bool.or_eq_true, decide_eq_true_iff] at divided
      split at divided
      · simp at divided
      · split at divided
        · simp at divided
        · rename_i isEmpty
          split at divided
          · simp at divided
          · rename_i next earlier dropped
            split at divided
            · simp at divided
            · rename_i proper
              obtain ⟨rfl, same⟩ := Prod.mk.inj divided
              obtain rfl := PathEnd.directoryName.inj same
              rw [dropped] at parts spoken
              refine ⟨last :: rest.takeWhile (· = ""), ?_, ?_, ?_, not_or.mp proper⟩
              · rw [List.reverse_reverse, List.cons_append, parts]
              · exact List.forall_mem_cons.mpr ⟨Decidable.not_not.mp isEmpty, blank⟩
              · simpa using spoken

/-- Nothing but slashes follows the name at the end of a path. -/
theorem exists_segments_of_dividePath
    {before : List String}
    {name : String}
    (divided :
      dividePath (Path.segments path).reverse = (before, .name name) ∨
        dividePath (Path.segments path).reverse = (before, .directoryName name)) :
    ∃ silent,
      Path.segments path = before ++ name :: silent ∧
        (∀ other ∈ silent, other = "") ∧ name ≠ "" ∧ name ≠ "." ∧ name ≠ ".." := by
  rcases divided with divided | divided
  · obtain ⟨names, proper⟩ := dividePath_eq_name divided
    refine ⟨[], ?_, by simp, proper⟩
    rw [← List.reverse_inj, names]
    simp
  · obtain ⟨silent, names, isSilent, proper⟩ := dividePath_eq_directoryName divided
    refine ⟨silent.reverse, ?_, fun other member => isSilent other (List.mem_reverse.mp member),
      proper⟩
    rw [← List.reverse_inj, names]
    simp

/-- Slashes at the end lead on to the directory itself. -/
theorem walkNames_silent
    {follow : Spot → List String → Except OsError Spot}
    {names : List String}
    (directory : tree.get? location = some .directory)
    (silent : ∀ name ∈ names, name = "") :
    tree.walkNames follow (.ofLocation location) names = .ok (.ofLocation location) := by
  induction names with
  | nil =>
      rfl
  | cons name rest inductionHypothesis =>
      obtain ⟨isEmpty, silentRest⟩ := List.forall_mem_cons.mp silent
      exact walkNames_cons_eq_ok_iff.mpr ⟨(tree.isDirectoryAt_ofLocation location).mpr directory,
        .silent (.inl isEmpty) (inductionHypothesis silentRest)⟩

/-- The path under which a directory has been made leads to it. -/
theorem Makes.resolve
    {before : List String}
    {name : String}
    {spot : Spot}
    (makes : tree.Makes here path later before name spot location) :
    later.get? location = some .directory ∧
      later.resolve here path = .ok (.ofLocation location) := by
  obtain ⟨isPath, divided, reached, placed, absent, rfl⟩ := makes
  have found : (tree.put location .directory).get? location = some .directory :=
    get?_put_self (Writable.ne_nil (.inl absent))
  obtain ⟨silent, segments, isSilent, notEmpty, notHere, notUp⟩ :=
    exists_segments_of_dividePath divided
  obtain ⟨origin, walked, arrived⟩ := bind_eq_ok.mp reached
  split at arrived
  · rename_i isDirectory
    obtain rfl := Except.ok.inj arrived
    have grows := grows_put_directory absent fun _ => False
    have onward (follow : Spot → List String → Except OsError Spot) :
        (tree.put location .directory).walkNames follow origin (name :: silent) =
          .ok (.ofLocation location) :=
      walkNames_cons_eq_ok_iff.mpr ⟨grows.isDirectoryAt isDirectory,
        .node (not_or.mpr ⟨notEmpty, notHere⟩) notUp placed found nofun
          (walkNames_silent found isSilent)⟩
    have ended (links : Nat) :
        (tree.put location .directory).walk links origin (name :: silent) =
          .ok (.ofLocation location) := by
      cases links <;> exact onward _
    refine ⟨found, bind_eq_ok.mpr ⟨(), isPath, ?_⟩⟩
    rw [segments]
    exact grows.walk_append ended walked
  · contradiction

/-- A directory at a path above changes nothing but its own location. -/
theorem spares_makeDirectory
    {above : String}
    (isAbove : Path.Above above path)
    (made : tree.makeDirectory here above = .ok later)
    (written : Location → Prop) :
    tree.Spares here path written later := by
  obtain ⟨_, _, _, location, makes⟩ := exists_makes_of_makeDirectory made
  obtain ⟨found, resolved⟩ := makes.resolve
  intro other _
  by_cases same : other = location
  · subst same
    exact .inr ⟨makes.absent, found, above, isAbove, resolved⟩
  · rw [makes.put]
    exact .inl (unchanged_put same)

/-- Making the directories above a path changes nothing but them. -/
theorem spares_makeParents
    (tree : FileTree)
    (here : Spot)
    (path : String)
    (written : Location → Prop) :
    tree.Spares here path written (tree.makeParents here path).2 := by
  have made := tree.makesAbove_makeParents here path
  generalize (tree.makeParents here path).2 = later at made ⊢
  induction made with
  | refl =>
      exact .refl tree here path written
  | tail _ step inductionHypothesis =>
      obtain ⟨above, isAbove, isMade⟩ := step
      exact inductionHypothesis.trans (spares_makeDirectory isAbove isMade written)
        (grows_makeDirectory isMade written)

/-! ## Saving -/

/-- Opening a file changes nothing but what is at its names. -/
theorem unchanged_openForWriting
    {opened : FileTree}
    {other : Location}
    (isOpen : tree.openForWriting here path = .ok (opened, location))
    (apart : ¬ tree.SameFile location other) :
    tree.Unchanged opened other := by
  obtain ⟨_, _, isOpen⟩ := bind_eq_ok.mp isOpen
  obtain ⟨file, _, isOpen⟩ := bind_eq_ok.mp isOpen
  split at isOpen
  all_goals obtain ⟨rfl, rfl⟩ := Prod.mk.inj (Except.ok.inj isOpen)
  · exact .refl _ _
  · exact unchanged_write apart _

/-- Filling a file changes no other file. -/
theorem unchanged_fill
    {other : Location}
    (apart : ¬ tree.SameFile location other)
    (content : String) :
    tree.Unchanged (tree.fill location content) other := by
  unfold fill
  split
  · exact .refl _ _
  · exact unchanged_write apart content

/-- A text has been saved at the entry of its path, and all else has been spared; a device keeps no
text. -/
structure SavesAlone
    (tree : FileTree)
    (here : Spot)
    (path content : String)
    (later : FileTree)
    (entry : Location) : Prop where
  grows : tree.Grows (tree.SameFile entry) later
  isEntry : later.entryLocation here path = .ok entry
  filled :
    (∀ full, later.get? entry ≠ some (.device full)) →
      later.get? entry = some (.file (some content))
  spares : tree.Spares here path (tree.SameFile entry) later

theorem exists_savesAlone_of_writeText
    {content : String}
    (wrote : tree.writeText here path content = .ok later)
    (noLink : ∀ location target, tree.get? location ≠ some (.link target)) :
    ∃ entry, tree.SavesAlone here path content later entry := by
  obtain ⟨⟨opened, location⟩, isOpen, filled⟩ := bind_eq_ok.mp wrote
  simp only at filled
  split at filled
  · contradiction
  · obtain rfl := Except.ok.inj filled
    obtain ⟨entry, isEntry, same⟩ := exists_entry_of_openForWriting isOpen
    obtain rfl := same (noLink entry)
    obtain ⟨opens, blank⟩ := grows_openForWriting isOpen
    have fills := grows_fill (blank.imp_left fun empty => .inr ⟨_, empty⟩) content
    have grows := opens.trans (fills.mono fun _ => opens.sameFile_iff.mp)
    refine ⟨location, ?_⟩
    exact {
      grows := grows
      isEntry := grows.entryLocation isEntry
      filled := by
        intro noDevice
        rcases blank with empty | ⟨full, device⟩
        · exact get?_fill_of_writable (.inr ⟨_, empty⟩) content
        · exact absurd (fills.device_iff.mpr device) (noDevice full)
      spares := fun other apart =>
        have apartLater : ¬ opened.SameFile location other := fun sameFile =>
          apart (opens.sameFile_iff.mp sameFile)
        .inl ((unchanged_openForWriting isOpen apart).trans (unchanged_fill apartLater content))
    }

/-- A text that has been saved in a tree without links is at the entry of its path, and all else is
spared. -/
theorem exists_savesAlone_of_saveText
    {content : String}
    (saved : tree.saveText here path content = (none, later))
    (noLink : ∀ location target, tree.get? location ≠ some (.link target)) :
    ∃ entry, tree.SavesAlone here path content later entry := by
  unfold saveText at saved
  split at saved
  · simp at saved
  · rename_i extended made
    split at saved
    · rename_i written wrote
      obtain rfl : written = later := by simpa using saved
      have spares : tree.Spares here path (fun _ => False) extended := by
        simpa only [made] using tree.spares_makeParents here path fun _ => False
      have grows : tree.Grows (fun _ => False) extended := by
        simpa only [made] using tree.grows_makeParents here path fun _ => False
      obtain ⟨entry, saves⟩ := exists_savesAlone_of_writeText wrote
        fun location target found => noLink location target (grows.link_iff.mp found)
      have sameFile (other : Location) (same : extended.SameFile entry other) :
          tree.SameFile entry other :=
        grows.sameFile_iff.mp same
      refine ⟨entry, ?_⟩
      exact {
        grows := (grows.mono nofun).trans (saves.grows.mono sameFile)
        isEntry := saves.isEntry
        filled := saves.filled
        spares := (spares.mono nofun).trans (saves.spares.mono sameFile) saves.grows
      }
    · simp at saved

/-- When a text could not be saved, only directories have been made for it. -/
theorem tree_of_saveText
    {content : String}
    {why : OsError}
    (failed : tree.saveText here path content = (some why, later)) :
    later = (tree.makeParents here path).2 := by
  unfold saveText at failed
  split at failed
  · rename_i extended made
    obtain ⟨_, rfl⟩ := Prod.mk.inj failed
    rw [made]
  · rename_i extended made
    split at failed
    · simp at failed
    · obtain ⟨_, rfl⟩ := Prod.mk.inj failed
      rw [made]

/-- A text that could not be saved has not been written anywhere. -/
theorem spares_of_saveText
    {content : String}
    {why : OsError}
    (failed : tree.saveText here path content = (some why, later))
    (written : Location → Prop) :
    tree.Spares here path written later := by
  rw [tree_of_saveText failed]
  exact tree.spares_makeParents here path written

/-- A tree in which a text could not be saved has only got directories. -/
theorem grows_of_saveText
    {content : String}
    {why : OsError}
    (failed : tree.saveText here path content = (some why, later))
    (written : Location → Prop) :
    tree.Grows written later := by
  rw [tree_of_saveText failed]
  exact tree.grows_makeParents here path written

end FileTree

end VerifyPipeline
