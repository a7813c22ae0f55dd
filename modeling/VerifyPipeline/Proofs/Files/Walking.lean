import VerifyPipeline.Files.Resolve

namespace VerifyPipeline.FileTree

/-!
# Following names

Each name on a way is followed from a directory: it says nothing, or leads upwards, or is that of a
link or of something else in the directory.
-/

@[simp]
theorem isDirectoryAt_ofLocation
    (tree : FileTree)
    (location : Location) :
    tree.isDirectoryAt (.ofLocation location) = true ↔ tree.get? location = some .directory := by
  change (false || decide (tree.get? location = some .directory)) = true ↔ _
  rw [Bool.false_or, decide_eq_true_iff]

/-- A spot that is reached, if nothing has been removed there. -/
theorem place_eq_ok
    {spot : Spot}
    {name : String}
    {location : Location}
    (placed : place spot name = .ok location) :
    spot.removed = [] ∧ name.utf8ByteSize ≤ nameLimit ∧ location = spot.live ++ [name] := by
  unfold place at placed
  split at placed
  · contradiction
  · rename_i present
    split at placed
    · contradiction
    · rename_i short
      refine ⟨by simpa using present, by omega, (Except.ok.inj placed).symm⟩

/-- How the first of several names leads on to a spot. -/
inductive Advances
    (tree : FileTree)
    (follow : Spot → List String → Except OsError Spot)
    (start : Spot)
    (name : String)
    (rest : List String)
    (spot : Spot) : Prop where
  | silent
      (isSilent : name = "" ∨ name = ".")
      (walked : tree.walkNames follow start rest = .ok spot)
  | up
      (isUp : name = "..")
      (walked : tree.walkNames follow start.up rest = .ok spot)
  | link
      {location : Location}
      {target : String}
      (notSilent : ¬ (name = "" ∨ name = "."))
      (notUp : name ≠ "..")
      (placed : place start name = .ok location)
      (found : tree.get? location = some (.link target))
      (followed : follow start (target :: rest) = .ok spot)
  | node
      {location : Location}
      {node : Node}
      (notSilent : ¬ (name = "" ∨ name = "."))
      (notUp : name ≠ "..")
      (placed : place start name = .ok location)
      (found : tree.get? location = some node)
      (noLink : ∀ target, node ≠ .link target)
      (walked : tree.walkNames follow (.ofLocation location) rest = .ok spot)

variable
  {tree : FileTree}
  {follow : Spot → List String → Except OsError Spot}
  {start spot : Spot}
  {name : String}
  {rest : List String}

/-- Names lead to a spot exactly if the first of them leads on from a directory. -/
theorem walkNames_cons_eq_ok_iff :
    tree.walkNames follow start (name :: rest) = .ok spot ↔
      tree.isDirectoryAt start = true ∧ tree.Advances follow start name rest spot := by
  unfold walkNames
  by_cases directory : tree.isDirectoryAt start = true
  · simp only [directory, Bool.not_true, Bool.false_eq_true, ↓reduceIte, Bool.or_eq_true,
      decide_eq_true_iff, true_and]
    constructor
    · intro walked
      split at walked
      · rename_i isSilent
        exact .silent isSilent walked
      · rename_i notSilent
        split at walked
        · rename_i isUp
          exact .up isUp walked
        · rename_i notUp
          split at walked
          · contradiction
          · rename_i location placed
            split at walked
            · contradiction
            · rename_i target found
              exact .link notSilent notUp placed found walked
            · rename_i node noLink found
              exact .node notSilent notUp placed found noLink walked
    · intro advances
      cases advances with
      | silent isSilent walked =>
          rw [if_pos isSilent]
          exact walked
      | up isUp walked =>
          subst isUp
          exact walked
      | link notSilent notUp placed found followed =>
          simp only [notSilent, notUp, ↓reduceIte, placed, found]
          exact followed
      | @node _ node notSilent notUp placed found noLink walked =>
          simp only [notSilent, notUp, ↓reduceIte, placed, found]
          cases node with
          | link target =>
              exact absurd rfl (noLink target)
          | _ =>
              exact walked
  · simp [directory]

end VerifyPipeline.FileTree
