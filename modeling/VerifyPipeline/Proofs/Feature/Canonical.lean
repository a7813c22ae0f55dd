import VerifyPipeline.Feature.Set
import VerifyPipeline.Proofs.Json.Adjacent
import VerifyPipeline.Proofs.Json.Recognizing

namespace VerifyPipeline

/-!
# Sets of feature names are canonical

A set is determined by its names, in whatever order and however often they were put in.  So it is
decoded from every array that lists its names.
-/

open Json Json.Decoder

namespace FeatureSet

/-- Sets with the same names are equal. -/
theorem eq_of_mem_iff
    {first second : FeatureSet}
    (same : ∀ name, name ∈ first.names ↔ name ∈ second.names) :
    first = second := by
  have distinct (set : FeatureSet) : set.names.Nodup := set.increasing.imp String.ne_of_lt
  have rearranged : first.names.Perm second.names :=
    (List.perm_ext_iff_of_nodup (distinct first) (distinct second)).mpr same
  have equal : first.names = second.names :=
    rearranged.eq_of_pairwise (fun _ _ _ _ less greater => absurd greater (String.lt_asymm less))
      first.increasing second.increasing
  cases first
  cases second
  cases equal
  rfl

/-- A set into which names are inserted has these and those that it had. -/
theorem mem_names_foldl_insert
    {name : String}
    (names : List String)
    (set : FeatureSet) :
    name ∈ (names.foldl insert set).names ↔ name ∈ set.names ∨ name ∈ names := by
  induction names generalizing set with
  | nil =>
      simp
  | cons first rest inductionHypothesis =>
      have inserted : name ∈ (set.insert first).names ↔ name = first ∨ name ∈ set.names :=
        mem_insertName
      rw [List.foldl_cons, inductionHypothesis, inserted, List.mem_cons, or_assoc, or_left_comm]

/-- The names of a set are those that were put in. -/
theorem mem_names_ofNames
    {name : String}
    {names : List String} :
    name ∈ (ofNames names).names ↔ name ∈ names := by
  simp [ofNames, mem_names_foldl_insert, empty]

/-- A set is made again from its names in any order, each of them at least once. -/
theorem ofNames_eq
    {set : FeatureSet}
    {names : List String}
    (same : ∀ name, name ∈ names ↔ name ∈ set.names) :
    ofNames names = set :=
  eq_of_mem_iff fun name => mem_names_ofNames.trans (same name)

/-! ## One more name -/

/-- The search for a name ends early only where the name would have stood. -/
theorem isMissing_eq_true_iff
    {name : String}
    {names : List String}
    (increasing : names.Pairwise (· < ·)) :
    isMissing name names = true ↔ name ∉ names := by
  induction names with
  | nil =>
      simp [isMissing]
  | cons first rest inductionHypothesis =>
      obtain ⟨firstLess, restIncreasing⟩ := List.pairwise_cons.mp increasing
      unfold isMissing
      split
      · rename_i less
        refine iff_of_true rfl fun member => ?_
        rcases List.mem_cons.mp member with rfl | later
        · exact String.lt_irrefl _ less
        · exact String.lt_asymm less (firstLess name later)
      · split
        · rename_i same
          simp [same]
        · rename_i different
          rw [inductionHypothesis restIncreasing, List.mem_cons, not_or]
          exact (and_iff_right different).symm

theorem contains_eq_true_iff
    {set : FeatureSet}
    {name : String} :
    set.contains name = true ↔ name ∈ set.names :=
  List.contains_iff_mem

/-! ## Decoding -/

/-- A set is read from every list of its names. -/
theorem reads_strings
    {set : FeatureSet}
    {names : List String}
    (same : ∀ name, name ∈ names ↔ name ∈ set.names) :
    FeatureSet.decoder.Reads (.strings names) set := by
  have reads := (reads_list fun name (_ : name ∈ names) => reads_string name).map ofNames
  rw [ofNames_eq same] at reads
  exact reads

/-- An array of names is decoded however it is spelled. -/
theorem recognizes_strings (names : List String) :
    FeatureSet.decoder.Recognizes (.strings names) (ofNames names) := by
  have each : List.Forall₂ Decoder.string.Recognizes (names.map .string) names :=
    List.forall₂_map_left_iff.mpr (List.forall₂_same.mpr fun name _ => recognizes_string name)
  exact (recognizes_array each).map ofNames

end FeatureSet

end VerifyPipeline
