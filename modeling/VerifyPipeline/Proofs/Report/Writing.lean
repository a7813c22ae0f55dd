import VerifyPipeline.Proofs.Files.Sparing
import VerifyPipeline.Report.Write

namespace VerifyPipeline

/-!
# Writing a report

The two files of a report are entries of one directory, and nothing else changes but for missing
directories.  Where no other path lies beside that of the report, its first file cannot be written
either.  A device takes the text of a report without keeping it, and if the two entries are names of
one file, it has the text that is written last.
-/

open FileTree

variable
  {tree between later : FileTree}
  {here : Spot}
  {path : String}

/-! ## The path beside a report -/

/-- The path beside that of an entry is another one, below the same path. -/
theorem Path.jsonSibling_of_entry
    {location : Location}
    (isEntry : tree.entryLocation here path = .ok location) :
    jsonSibling path ≠ path ∧ parent? (jsonSibling path) = parent? path := by
  obtain ⟨_, before, name, _, divided, isName, _⟩ := entryLocation_eq_ok_iff.mp isEntry
  obtain ⟨other, dividedToo, isBeside⟩ :=
    exists_segments_jsonSibling divided isName.notEmpty isName.notHere isName.notUp
  refine ⟨fun same => isBeside.different ?_,
    parent?_eq_of_segments divided isName.notEmpty isName.notHere dividedToo isBeside⟩
  rw [same, divided] at dividedToo
  simpa using (List.append_inj' dividedToo rfl).2.symm

/-- Two paths of a report lead to different entries of one directory. -/
structure FileTree.Pairs
    (tree : FileTree)
    (here : Spot)
    (path : String)
    (directory : Location)
    (name other : String) : Prop where
  isEntry : tree.entryLocation here path = .ok (directory ++ [name])
  isSibling : tree.entryLocation here (Path.jsonSibling path) = .ok (directory ++ [other])
  different : other ≠ name
  extension : Path.extension? (Path.jsonSibling path) = some "json"

/-- The entries of a path and of the one beside it are in one directory. -/
theorem FileTree.exists_pairs
    {location sibling : Location}
    (isEntry : tree.entryLocation here path = .ok location)
    (isSibling : tree.entryLocation here (Path.jsonSibling path) = .ok sibling) :
    ∃ directory name other,
      location = directory ++ [name] ∧
        sibling = directory ++ [other] ∧
          tree.Pairs here path directory name other := by
  obtain ⟨_, before, name, origin, divided, isName, walked, _, rfl⟩ :=
    entryLocation_eq_ok_iff.mp isEntry
  obtain ⟨_, _, other, _, siblingSegments, isOther, walkedToo, _, rfl⟩ :=
    entryLocation_eq_ok_iff.mp isSibling
  obtain ⟨last, dividedToo, isBeside⟩ :=
    Path.exists_segments_jsonSibling divided isName.notEmpty isName.notHere isName.notUp
  rw [dividedToo] at siblingSegments
  obtain ⟨rfl, sameLast⟩ := List.append_inj' siblingSegments rfl
  obtain rfl : last = other := by simpa using sameLast
  rw [startOf, Path.isAbsolute_eq_of_segments divided dividedToo] at walkedToo
  obtain ⟨rfl, _⟩ := Spot.mk.inj (Except.ok.inj (walked.symm.trans walkedToo))
  refine ⟨origin, name, last, rfl, rfl, ?_⟩
  exact {
    isEntry := isEntry
    isSibling := isSibling
    different := isBeside.different
    extension := isBeside.extension?_eq dividedToo isOther.notUp
  }

namespace RunReport

variable {report : RunReport}

/-- What is left of a report in a tree: its two texts, and all else that was there.  The first text
is missing if the two entries are names of one file, and there is none where there is a device. -/
structure Leaves
    (report : RunReport)
    (tree : FileTree)
    (here : Spot)
    (path : String)
    (later : FileTree)
    (directory : Location)
    (name other : String) : Prop extends later.Pairs here path directory name other where
  markdown :
    (∀ full, tree.get? (directory ++ [name]) ≠ some (.device full)) →
      ¬ tree.Linked (directory ++ [name]) (directory ++ [other]) →
        later.get? (directory ++ [name]) = some (.file (some report.markdown))
  json :
    (∀ full, tree.get? (directory ++ [other]) ≠ some (.device full)) →
      later.get? (directory ++ [other]) = some (.file (some report.jsonText))
  spares :
    tree.Spares here path
      (fun location =>
        tree.SameFile (directory ++ [name]) location ∨
          tree.SameFile (directory ++ [other]) location)
      later

/-- What is left when both texts have been saved. -/
theorem exists_leaves
    (saved : tree.saveText here path report.markdown = (none, between))
    (savedToo : between.saveText here (Path.jsonSibling path) report.jsonText = (none, later))
    (noLink : ∀ location target, tree.get? location ≠ some (.link target)) :
    ∃ directory name other, report.Leaves tree here path later directory name other := by
  obtain ⟨entry, first⟩ := exists_savesAlone_of_saveText saved noLink
  obtain ⟨sibling, second⟩ := exists_savesAlone_of_saveText savedToo
    fun location target found => noLink location target (first.grows.link_iff.mp found)
  have isEntry := second.grows.entryLocation first.isEntry
  obtain ⟨_, sameParent⟩ := Path.jsonSibling_of_entry isEntry
  obtain ⟨directory, name, other, rfl, rfl, pairs⟩ := exists_pairs isEntry second.isEntry
  have different : directory ++ [name] ≠ directory ++ [other] := by
    intro same
    exact pairs.different (by simpa using (List.append_inj' same rfl).2.symm)
  refine ⟨directory, name, other, ?_⟩
  exact {
    toPairs := pairs
    markdown := by
      intro noDevice unlinked
      refine second.grows.kept ?_ (first.filled fun full device => ?_)
      · rintro (same | linked)
        · exact different same
        · exact unlinked ((first.grows.linked_iff different).mp linked).symm
      · exact noDevice full (first.grows.device_iff.mp device)
    json := by
      intro noDevice
      refine second.filled fun full device => ?_
      exact noDevice full (first.grows.device_iff.mp (second.grows.device_iff.mp device))
    spares := by
      have spares := (second.spares.congr sameParent).mono fun _ same =>
        first.grows.sameFile_iff.mp same
      exact (first.spares.mono fun _ => .inl).trans (spares.mono fun _ => .inr) second.grows
  }

/-- What is left where a report could not be written: no file has been touched if the error names
the first path, and only the first file has been written if it names the other one. -/
structure Fails
    (report : RunReport)
    (tree : FileTree)
    (here : Spot)
    (path : String)
    (later : FileTree)
    (error : ReportError) : Prop where
  named : error.path = path ∨ error.path = Path.jsonSibling path
  spares : error.path = path → tree.Spares here path (fun _ => False) later
  untouched :
    error.path = path →
      ∀ location content,
        later.get? location = some (.file content) ↔ tree.get? location = some (.file content)
  second :
    error.path ≠ path →
      ∃ entry,
        later.entryLocation here path = .ok entry ∧
          ((∀ full, tree.get? entry ≠ some (.device full)) →
            later.get? entry = some (.file (some report.markdown))) ∧
          tree.Spares here path (tree.SameFile entry) later

/-- When the first text could not be saved, no file has been touched. -/
theorem fails_of_first
    {why : OsError}
    (failed : tree.saveText here path report.markdown = (some why, later)) :
    report.Fails tree here path later ⟨path, why⟩ where
  named := .inl rfl
  spares _ := spares_of_saveText failed _
  untouched _ _ _ := (spares_of_saveText failed fun _ => False).file_iff id
  second other := absurd rfl other

/-- When the second one could not be saved, only the first file has been written. -/
theorem fails_of_second
    {why : OsError}
    (saved : tree.saveText here path report.markdown = (none, between))
    (failed : between.saveText here (Path.jsonSibling path) report.jsonText = (some why, later))
    (noLink : ∀ location target, tree.get? location ≠ some (.link target)) :
    report.Fails tree here path later ⟨Path.jsonSibling path, why⟩ := by
  obtain ⟨entry, first⟩ := exists_savesAlone_of_saveText saved noLink
  obtain ⟨other, sameParent⟩ := Path.jsonSibling_of_entry first.isEntry
  have prepares := grows_of_saveText failed fun _ => False
  have kept
      (noDevice : ∀ full, tree.get? entry ≠ some (.device full)) :
      later.get? entry = some (.file (some report.markdown)) :=
    prepares.kept id (first.filled fun full device =>
      noDevice full (first.grows.device_iff.mp device))
  exact {
    named := .inr rfl
    spares := fun same => absurd same other
    untouched := fun same => absurd same other
    second := fun _ =>
      ⟨entry, prepares.entryLocation first.isEntry, kept,
        first.spares.trans ((spares_of_saveText failed _).congr sameParent) prepares⟩
  }

/--
Without links in the tree, a report that is written leaves its two texts in
different entries of one directory, and all else as it was but for missing
directories above its path.  If a report is not written, the error names one of
its paths, and no file has been touched if it names the first one.

A text is left where there is no device, and the Markdown text only if the two
entries are not names of one file.
-/
theorem leaves_of_write
    (report : RunReport)
    (tree : FileTree)
    (here : Spot)
    (path : String)
    (result : Except ReportError String)
    (later : FileTree)
    (noLink : ∀ location target, tree.get? location ≠ some (.link target))
    (wrote : report.write tree here path = (result, later)) :
    (∀ sibling,
      result = .ok sibling →
        sibling = Path.jsonSibling path ∧
          ∃ directory name other, report.Leaves tree here path later directory name other) ∧
      ∀ error, result = .error error → report.Fails tree here path later error := by
  unfold write at wrote
  split at wrote
  · rename_i why _ failed
    obtain ⟨rfl, rfl⟩ := Prod.mk.inj wrote
    refine ⟨nofun, fun error named => ?_⟩
    obtain rfl := Except.error.inj named
    exact fails_of_first failed
  · rename_i between saved
    simp only at wrote
    split at wrote
    · rename_i why _ failed
      obtain ⟨rfl, rfl⟩ := Prod.mk.inj wrote
      refine ⟨nofun, fun error named => ?_⟩
      obtain rfl := Except.error.inj named
      exact fails_of_second saved failed noLink
    · rename_i savedToo
      obtain ⟨rfl, rfl⟩ := Prod.mk.inj wrote
      refine ⟨fun sibling named => ?_, nofun⟩
      obtain rfl := Except.ok.inj named
      exact ⟨rfl, exists_leaves saved savedToo noLink⟩

/-- The theorem beside a file that is kept: below a directory that is missing, and at a path that
comes down to a step upwards without its extension. -/
theorem leaves_of_write_nested :
    let report := RunReport.ofResult ⟨"run", "", 0, [], .completed⟩ {} .abort "cargo" "t"
    let tree := FileTree.empty.put ["kept"] (.file none)
    let nested := report.write tree .root "out/r.md"
    let upwards := report.write tree .root "..md"
    nested.1 = .ok "out/r.json" ∧
      (∃ directory name other,
        report.Leaves tree .root "out/r.md" nested.2 directory name other) ∧
      upwards.1 = .error ⟨"..", .isADirectory⟩ ∧
      report.Fails tree .root "..md" upwards.2 ⟨"..", .isADirectory⟩ := by
  intro report tree nested upwards
  have noLink : ∀ location target, tree.get? location ≠ some (.link target) :=
    noLink_of_entries (by simp [tree, put, setEntry, setFile, empty])
  have written : nested.1 = .ok "out/r.json" := rfl
  have refused : upwards.1 = .error ⟨"..", .isADirectory⟩ := rfl
  obtain ⟨leaves, _⟩ := leaves_of_write report tree .root "out/r.md" nested.1 nested.2 noLink rfl
  obtain ⟨_, fails⟩ := leaves_of_write report tree .root "..md" upwards.1 upwards.2 noLink rfl
  exact ⟨written, (leaves _ written).2, refused, fails _ refused⟩

/-- There is no link, and the report is written, but its Markdown text is not there: a device keeps
nothing, and a file that both entries are names of has the JSON text. -/
theorem write_keeps_no_markdown :
    let report := RunReport.ofResult ⟨"run", "", 0, [], .completed⟩ {} .abort "cargo" "t"
    let special := FileTree.empty.put ["null"] (.device false)
    let shared : FileTree := { entries := [(["r.md"], .file 0), (["r.json"], .file 0)] }
    let given := report.write special .root "null"
    let doubled := report.write shared .root "r.md"
    (∀ location target,
      special.get? location ≠ some (.link target) ∧
        shared.get? location ≠ some (.link target)) ∧
      given.1 = .ok "null.json" ∧
      given.2.get? ["null"] ≠ some (.file (some report.markdown)) ∧
      doubled.1 = .ok "r.json" ∧
      doubled.2.get? ["r.md"] ≠ some (.file (some report.markdown)) := by
  intro report special shared given doubled
  have noLink (location : Location) (target : String) :
      special.get? location ≠ some (.link target) :=
    noLink_of_entries (by simp [special, put, setEntry, empty]) location target
  have noLinkToo (location : Location) (target : String) :
      shared.get? location ≠ some (.link target) :=
    noLink_of_entries (by simp [shared]) location target
  exact ⟨fun location target => ⟨noLink location target, noLinkToo location target⟩, rfl,
    by decide +kernel, rfl, by decide +kernel⟩

end RunReport

end VerifyPipeline
