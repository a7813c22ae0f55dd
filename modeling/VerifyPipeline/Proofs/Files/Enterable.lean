import VerifyPipeline.Proofs.Files.Walking
import VerifyPipeline.Proofs.Json.Tokens
import VerifyPipeline.Proofs.Path.Segments

namespace VerifyPipeline

/-!
# Directories that can be entered by their paths

The path of a location leads back to it as long as it and all locations above it are directories.
That is the case of every directory that a path from the root leads to: on the way from the root
only directories are passed, and links are replaced by what they lead to.
-/

theorem Location.isAbsolute_text
    (location : Location) :
    Path.isAbsolute location.text = true := by
  simp [Path.isAbsolute, Location.text]

namespace Path

/-- The segments of the path of a location are its names after an empty one. -/
theorem segments_text
    {location : Location}
    (below : location ≠ [])
    (clean : ∀ name ∈ location, '/' ∉ name.toList) :
    segments location.text = "" :: location := by
  have pieces : location.map String.toList ≠ [] := by simpa using below
  have absent : ∀ piece ∈ location.map String.toList, '/' ∉ piece := by
    intro piece member
    obtain ⟨name, isName, rfl⟩ := List.mem_map.mp member
    exact clean name isName
  have divided := Text.splitAt_intercalate pieces absent
  have start : location.text.toList = '/' :: ['/'].intercalate (location.map String.toList) := by
    simp [Location.text, String.toList_intercalate]
  rw [segments, start, Text.splitAt, if_pos rfl, divided]
  simp [List.map_map, Function.comp_def]

end Path

/-- A name that can stand in a directory: no step within directories, and not too long. -/
structure IsName (name : String) : Prop where
  notEmpty : name ≠ ""
  notHere : name ≠ "."
  notUp : name ≠ ".."
  noSlash : '/' ∉ name.toList
  short : name.utf8ByteSize ≤ FileTree.nameLimit

namespace FileTree

/-- A location whose path leads to it: it and everything above it are directories, and its path is
one. -/
structure Enterable (tree : FileTree) (location : Location) : Prop where
  stands : ∀ above, above <+: location → tree.get? above = some .directory
  named : ∀ name ∈ location, IsName name
  isPath : checkPath location.text = .ok ()

/-- A location under directories, where anything may be. -/
structure Reached (tree : FileTree) (location : Location) : Prop where
  above : ∀ above, above <+: location → above ≠ location → tree.get? above = some .directory
  named : ∀ name ∈ location, IsName name

open Json.Reader (bind_eq_ok)

variable {tree : FileTree}

/-- The root can always be entered. -/
theorem Enterable.root (tree : FileTree) : tree.Enterable [] where
  stands above isAbove := by
    rw [List.prefix_nil.mp isAbove]
    rfl
  named _ member := absurd member List.not_mem_nil
  isPath := by rfl

theorem Reached.root (tree : FileTree) : tree.Reached [] where
  above _ isAbove different := absurd (List.prefix_nil.mp isAbove) different
  named _ member := absurd member List.not_mem_nil

/-- All locations above and at a reached directory are directories. -/
theorem Reached.stands
    {location : Location}
    (reached : tree.Reached location)
    (directory : tree.get? location = some .directory) :
    ∀ above, above <+: location → tree.get? above = some .directory := by
  intro above isAbove
  by_cases same : above = location
  · rw [same]
    exact directory
  · exact reached.above above isAbove same

/-- What is above a location is reached if the location is. -/
theorem Reached.up
    {location : Location}
    (reached : tree.Reached location) :
    tree.Reached location.dropLast where
  above := by
    intro above isAbove different
    have shorter : above <+: location := isAbove.trans (List.dropLast_prefix location)
    refine reached.above above shorter ?_
    rintro rfl
    exact different (isAbove.eq_of_length (Nat.le_antisymm isAbove.length_le (by simp)))
  named name member := reached.named name (List.dropLast_subset location member)

/-- A name in a directory that is reached is reached. -/
theorem Reached.down
    {location : Location}
    {name : String}
    (reached : tree.Reached location)
    (directory : tree.get? location = some .directory)
    (isName : IsName name) :
    tree.Reached (location ++ [name]) where
  above := by
    intro above isAbove different
    rcases List.prefix_concat_iff.mp isAbove with same | inside
    · exact absurd same different
    · exact reached.stands directory above inside
  named other member := by
    rcases List.mem_append.mp member with inside | last
    · exact reached.named other inside
    · rw [List.mem_singleton.mp last]
      exact isName

/-- A location under directories where there is something, which is no link. -/
structure Occupied
    (tree : FileTree)
    (location : Location) : Prop
    extends Reached tree location where
  found : ∃ node, tree.get? location = some node ∧ ∀ target, node ≠ .link target

theorem Reached.occupied
    {location : Location}
    {node : Node}
    (reached : tree.Reached location)
    (found : tree.get? location = some node)
    (noLink : ∀ target, node ≠ .link target) :
    tree.Occupied location :=
  ⟨reached, node, found, noLink⟩

theorem Occupied.root (tree : FileTree) : tree.Occupied [] := (Reached.root tree).occupied rfl nofun

/-- The directory above an occupied location is occupied. -/
theorem Occupied.up
    {location : Location}
    (occupied : tree.Occupied location)
    (directory : tree.get? location = some .directory) :
    tree.Occupied location.dropLast := by
  have above := occupied.toReached.stands directory _ (List.dropLast_prefix location)
  exact occupied.toReached.up.occupied above nofun

/-- Names without slashes lead from an occupied location to an occupied location, provided that
links do. -/
theorem walkNames_occupied
    {follow : Spot → List String → Except OsError Spot}
    (followed :
      ∀ location target rest spot,
        tree.Occupied location →
          (∀ name ∈ rest, '/' ∉ name.toList) →
            follow (.ofLocation location) (target :: rest) = .ok spot →
              spot.removed = [] ∧ tree.Occupied spot.live)
    {location : Location}
    {names : List String}
    {spot : Spot}
    (occupied : tree.Occupied location)
    (clean : ∀ name ∈ names, '/' ∉ name.toList)
    (walked : tree.walkNames follow (.ofLocation location) names = .ok spot) :
    spot.removed = [] ∧ tree.Occupied spot.live := by
  induction names generalizing location with
  | nil =>
      cases walked
      exact ⟨rfl, occupied⟩
  | cons name rest inductionHypothesis =>
      have cleanRest : ∀ other ∈ rest, '/' ∉ other.toList :=
        fun other member => clean other (List.mem_cons_of_mem name member)
      obtain ⟨isDirectory, advances⟩ := walkNames_cons_eq_ok_iff.mp walked
      rw [isDirectoryAt_ofLocation] at isDirectory
      cases advances with
      | silent _ walked =>
          exact inductionHypothesis occupied cleanRest walked
      | up _ walked =>
          exact inductionHypothesis (occupied.up isDirectory) cleanRest walked
      | link _ _ _ _ onward =>
          exact followed location _ rest spot occupied cleanRest onward
      | node notSilent notUp placed found noLink walked =>
          obtain ⟨_, short, rfl⟩ := place_eq_ok placed
          have isName : IsName name := {
            notEmpty := fun isEmpty => notSilent (.inl isEmpty)
            notHere := fun isHere => notSilent (.inr isHere)
            notUp := notUp
            noSlash := clean name List.mem_cons_self
            short := short
          }
          have below := occupied.toReached.down isDirectory isName
          exact inductionHypothesis (below.occupied found noLink) cleanRest walked

/-- A way from an occupied location leads to one, by induction on the links that may still be
followed, and between two of them on the names. -/
theorem walk_occupied
    (links : Nat)
    {location : Location}
    {names : List String}
    {spot : Spot}
    (occupied : tree.Occupied location)
    (clean : ∀ name ∈ names, '/' ∉ name.toList)
    (walked : tree.walk links (.ofLocation location) names = .ok spot) :
    spot.removed = [] ∧ tree.Occupied spot.live := by
  induction links generalizing location names spot with
  | zero =>
      refine walkNames_occupied ?_ occupied clean walked
      intro _ _ _ _ _ _ followed
      contradiction
  | succ links inductionHypothesis =>
      refine walkNames_occupied ?_ occupied clean walked
      intro origin target rest reachedSpot fromOccupied cleanRest followed
      change
        tree.walk links (startOf (.ofLocation origin) target) (Path.segments target ++ rest) =
          .ok reachedSpot at followed
      have cleanTarget : ∀ name ∈ Path.segments target ++ rest, '/' ∉ name.toList := by
        intro name member
        rcases List.mem_append.mp member with inTarget | inRest
        · exact Path.not_mem_of_mem_segments inTarget
        · exact cleanRest name inRest
      unfold startOf at followed
      split at followed
      · exact inductionHypothesis (.root tree) cleanTarget followed
      · exact inductionHypothesis fromOccupied cleanTarget followed

theorem walk_of_resolve
    {here spot : Spot}
    {path : String}
    (resolved : tree.resolve here path = .ok spot) :
    tree.walk linkLimit (startOf here path) (Path.segments path) = .ok spot := by
  obtain ⟨_, _, walked⟩ := bind_eq_ok.mp resolved
  exact walked

/-- An absolute path leads to where there is something under directories. -/
theorem occupied_of_resolve
    {here spot : Spot}
    {path : String}
    (absolute : Path.isAbsolute path = true)
    (resolved : tree.resolve here path = .ok spot) :
    spot.removed = [] ∧ tree.Occupied spot.live := by
  have walked := walk_of_resolve resolved
  rw [startOf, if_pos absolute] at walked
  exact walk_occupied linkLimit (.root tree) (fun _ => Path.not_mem_of_mem_segments) walked

/-- Every path from a directory that is there leads to one that is there. -/
theorem occupied_of_resolve_from
    {location : Location}
    {spot : Spot}
    {path : String}
    (occupied : tree.Occupied location)
    (resolved : tree.resolve (.ofLocation location) path = .ok spot) :
    spot.removed = [] ∧ tree.Occupied spot.live := by
  have walked := walk_of_resolve resolved
  have clean : ∀ name ∈ Path.segments path, '/' ∉ name.toList :=
    fun _ => Path.not_mem_of_mem_segments
  unfold startOf at walked
  split at walked
  · exact walk_occupied linkLimit (.root tree) clean walked
  · exact walk_occupied linkLimit occupied clean walked

/-- A path that is canonicalized leads to the location, whose own path is one. -/
theorem resolve_of_canonicalize
    {here : Spot}
    {path : String}
    {location : Location}
    (found : tree.canonicalize here path = .ok location) :
    (Path.isAbsolute path = true ∨ here.removed = []) ∧
      tree.resolve here path = .ok (.ofLocation location) ∧
      checkPath location.text = .ok () := by
  obtain ⟨_, _, found⟩ := bind_eq_ok.mp found
  split at found
  · contradiction
  · rename_i starts
    obtain ⟨⟨live, removed⟩, resolved, found⟩ := bind_eq_ok.mp found
    split at found
    · rename_i present
      obtain rfl := List.isEmpty_iff.mp present
      obtain ⟨_, own, found⟩ := bind_eq_ok.mp found
      obtain rfl := Except.ok.inj found
      refine ⟨?_, resolved, own⟩
      cases absolute : Path.isAbsolute path with
      | true =>
          exact .inl rfl
      | false =>
          exact .inr (by simpa [absolute] using starts)
    · contradiction

/-- What is found from a directory that is there is something under directories. -/
theorem occupied_of_canonicalize
    {here : Spot}
    {path : String}
    {location : Location}
    (occupied : tree.Occupied here.live)
    (found : tree.canonicalize here path = .ok location) :
    tree.Occupied location := by
  obtain ⟨starts, resolved, _⟩ := resolve_of_canonicalize found
  rcases starts with absolute | present
  · exact (occupied_of_resolve absolute resolved).2
  · have isHere : here = .ofLocation here.live := by
      rw [Spot.ofLocation, ← present]
    rw [isHere] at resolved
    exact (occupied_of_resolve_from occupied resolved).2

/-- A directory that an absolute path leads to can be entered by its own path. -/
theorem enterable_of_canonicalize
    {here : Spot}
    {path : String}
    {location : Location}
    (absolute : Path.isAbsolute path = true)
    (found : tree.canonicalize here path = .ok location)
    (directory : tree.get? location = some .directory) :
    tree.Enterable location := by
  obtain ⟨_, resolved, isPath⟩ := resolve_of_canonicalize found
  have reached := (occupied_of_resolve absolute resolved).2.toReached
  exact ⟨reached.stands directory, reached.named, isPath⟩

/-- The names of an occupied location lead to it, and from there on along more names.  What a name
stands for is passed on the way, or is the location itself. -/
theorem Occupied.walkNames_append
    {follow : Spot → List String → Except OsError Spot}
    {start names : List String}
    (occupied : tree.Occupied (start ++ names))
    (more : List String) :
    tree.walkNames follow (.ofLocation start) (names ++ more) =
      tree.walkNames follow (.ofLocation (start ++ names)) more := by
  induction names generalizing start with
  | nil =>
      rw [List.append_nil, List.nil_append]
  | cons name rest inductionHypothesis =>
      have onward : start ++ name :: rest = start ++ [name] ++ rest := by simp
      have isName := occupied.named name (by simp)
      have atStart : tree.get? start = some .directory :=
        occupied.above start (List.prefix_append _ _) (by simp)
      rw [onward] at occupied ⊢
      have passed :
          ∃ node, tree.get? (start ++ [name]) = some node ∧ ∀ target, node ≠ .link target := by
        by_cases last : rest = []
        · rw [last, List.append_nil] at occupied
          exact occupied.found
        · have above := occupied.above _ (List.prefix_append _ _) (by simpa using last)
          exact ⟨.directory, above, nofun⟩
      obtain ⟨node, found, noLink⟩ := passed
      rw [← inductionHypothesis occupied]
      conv => lhs; rw [List.cons_append, walkNames]
      have directory : tree.isDirectoryAt (.ofLocation start) = true :=
        (tree.isDirectoryAt_ofLocation start).mpr atStart
      have placed : place (.ofLocation start) name = .ok (start ++ [name]) := by
        simp [place, Spot.ofLocation, Nat.not_lt.mpr isName.short]
      simp only [directory, isName.notEmpty, isName.notHere, isName.notUp, placed, found]
      cases node with
      | link target =>
          exact absurd rfl (noLink target)
      | _ =>
          rfl

/-- The names of an occupied location lead to it from the root, and from there on. -/
theorem Occupied.walk_append
    {location : Location}
    (occupied : tree.Occupied location)
    (links : Nat)
    (more : List String) :
    tree.walk links .root (location ++ more) = tree.walk links (.ofLocation location) more := by
  have fromRoot : tree.Occupied ([] ++ location) := occupied
  cases links <;> exact fromRoot.walkNames_append more

/-- A location that can be entered is occupied. -/
theorem Enterable.occupied
    {location : Location}
    (enterable : tree.Enterable location) :
    tree.Occupied location where
  above above isAbove _ := enterable.stands above isAbove
  named := enterable.named
  found := ⟨.directory, enterable.stands location List.prefix_rfl, nofun⟩

/-- The path of a directory that can be entered leads to it. -/
theorem Enterable.resolve_eq
    {location : Location}
    (enterable : tree.Enterable location)
    (here : Spot) :
    tree.resolve here location.text = .ok (.ofLocation location) := by
  have walked :
      tree.walk linkLimit (startOf here location.text) (Path.segments location.text) =
        .ok (.ofLocation location) := by
    rw [startOf, if_pos (Location.isAbsolute_text location)]
    cases location with
    | nil =>
        rfl
    | cons name below =>
        have clean : ∀ other ∈ name :: below, '/' ∉ other.toList :=
          fun other member => (enterable.named other member).noSlash
        have walked := enterable.occupied.walk_append linkLimit []
        rw [List.append_nil] at walked
        rw [Path.segments_text (by simp) clean]
        exact walked
  simp [resolve, enterable.isPath, walked, bind, Except.bind]

end FileTree

end VerifyPipeline
