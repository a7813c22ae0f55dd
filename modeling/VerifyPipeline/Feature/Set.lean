import VerifyPipeline.Json.Decoder.Basic

/-!
# Sets of feature names

A set lists its names in strictly increasing order, so two sets with the same names are equal
whatever the order in which the names were put in.
-/

namespace VerifyPipeline

/-- A set of feature names that are exercised together. -/
structure FeatureSet where
  names : List String
  increasing : names.Pairwise (· < ·)
  deriving DecidableEq

namespace FeatureSet

/-- Put a name into a strictly increasing list. -/
def insertName (name : String) : List String → List String
  | [] => [name]
  | first :: rest =>
    if name < first then name :: first :: rest
    else if name = first then first :: rest
    else first :: insertName name rest

/-- Of two different names that are not in increasing order, the second is the smaller. -/
theorem lt_of_not_lt_of_ne
    {a b : String}
    (notLess : ¬a < b)
    (different : a ≠ b) :
    b < a := by
  apply Decidable.byContradiction
  intro notGreater
  exact different (String.le_antisymm (String.not_lt.mp notGreater) (String.not_lt.mp notLess))

/-- The names after an insertion are the old ones and the new one. -/
theorem mem_insertName
    {name other : String}
    {names : List String} :
    other ∈ insertName name names ↔ other = name ∨ other ∈ names := by
  induction names with
  | nil =>
      simp [insertName]
  | cons first rest inductionHypothesis =>
      unfold insertName
      split
      · simp
      · split
        · rename_i same
          subst same
          simp
        · simp only [List.mem_cons, inductionHypothesis]
          exact or_left_comm

/-- Insertion keeps the order. -/
theorem insertName_increasing
    (name : String)
    {names : List String}
    (increasing : names.Pairwise (· < ·)) :
    (insertName name names).Pairwise (· < ·) := by
  induction names with
  | nil =>
      simp [insertName]
  | cons first rest inductionHypothesis =>
      obtain ⟨firstLess, restIncreasing⟩ := List.pairwise_cons.mp increasing
      unfold insertName
      split
      · rename_i less
        refine List.pairwise_cons.mpr ⟨?_, increasing⟩
        intro other member
        rcases List.mem_cons.mp member with rfl | member
        · exact less
        · exact String.lt_trans less (firstLess other member)
      · split
        · exact increasing
        · rename_i notLess different
          refine List.pairwise_cons.mpr ⟨?_, inductionHypothesis restIncreasing⟩
          intro other member
          rcases mem_insertName.mp member with rfl | member
          · exact lt_of_not_lt_of_ne notLess different
          · exact firstLess other member

/-- No names. -/
def empty : FeatureSet := ⟨[], .nil⟩

/-- The set with one more name. -/
def insert (set : FeatureSet) (name : String) : FeatureSet :=
  ⟨insertName name set.names, insertName_increasing name set.increasing⟩

/-- Whether a name is missing in a strictly increasing list; the search ends at the first name that
is greater. -/
def isMissing (name : String) : List String → Bool
  | [] => true
  | first :: rest =>
    if name < first then true
    else if name = first then false
    else isMissing name rest

/-- Put a name into the set, and tell whether it was missing there. -/
def add (set : FeatureSet) (name : String) : FeatureSet × Bool :=
  (set.insert name, isMissing name set.names)

/-- The set of the names of a list. -/
def ofNames (names : List String) : FeatureSet := names.foldl insert empty

/-- Whether a name is in the set. -/
def contains (set : FeatureSet) (name : String) : Bool := set.names.contains name

/-- The number of names. -/
def size (set : FeatureSet) : Nat := set.names.length

def isEmpty (set : FeatureSet) : Bool := set.names.isEmpty

/-- The names between commas, in increasing order. -/
def render (set : FeatureSet) : String := String.intercalate "," set.names

/-- The set as it is shown to a reader. -/
def display (set : FeatureSet) : String := if set.isEmpty then "<none>" else set.render

/-- The arguments that select the features of the set; none for the empty set. -/
def args (set : FeatureSet) : List String :=
  if set.isEmpty then [] else ["--features=" ++ set.render]

/-- Compare name by name; a set that goes on after all names of the other is the greater. -/
def compareNames : List String → List String → Ordering
  | [], [] => .eq
  | [], _ :: _ => .lt
  | _ :: _, [] => .gt
  | a :: as, b :: bs =>
    if a < b then .lt
    else if a = b then compareNames as bs
    else .gt

/-- Compare two sets as the sequences of their names. -/
def compare (a b : FeatureSet) : Ordering := compareNames a.names b.names

/-- The written form: an array of the names. -/
def toJson (set : FeatureSet) : Json := .strings set.names

/-- Sets from arrays of names in any order, with repetitions. -/
def decoder : Json.Decoder FeatureSet := (Json.Decoder.list .string).map ofNames

end FeatureSet

end VerifyPipeline
