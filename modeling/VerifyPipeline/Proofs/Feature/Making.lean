import Mathlib.Data.List.Dedup
import VerifyPipeline.Plan.Step
import VerifyPipeline.Proofs.Feature.Canonical
import VerifyPipeline.Proofs.Text.Bytes

namespace VerifyPipeline.FeatureSet

/-!
# Sets of feature names, however they are made

A set can be made from a list, from a written array, or name by name, with the names in any order
and any of them repeatedly.  Whatever is made of a set afterwards tells which names went in and
nothing else.
-/

/-- A set is made of names: of none, of those of a list, of those of an array that a text spells or
that is given as a value, or of those of another set and one more. -/
inductive MadeOf : FeatureSet → List String → Prop where
  | empty :
      MadeOf empty []
  | listed (names : List String) :
      MadeOf (ofNames names) names
  | spelled
      {set : FeatureSet}
      {names : List String}
      {text : List Char} :
      Json.ofText text = .ok (.strings names) →
      decoder.ofText text = .ok set →
      MadeOf set names
  | given
      {set : FeatureSet}
      {names : List String} :
      decoder.ofValue (.strings names) = .ok set →
      MadeOf set names
  | added
      {set : FeatureSet}
      {names : List String}
      (name : String) :
      MadeOf set names →
      MadeOf (set.add name).1 (names ++ [name])

/-- A set lists names in the order of their bytes, each of them once, and answers accordingly. -/
structure Lists (set : FeatureSet) (names : List String) : Prop where
  increasing : set.names.Pairwise fun first second => first.toUTF8.toList < second.toUTF8.toList
  listed : ∀ name, name ∈ set.names ↔ name ∈ names
  size : set.size = names.dedup.length
  contains : ∀ name, set.contains name = true ↔ name ∈ names
  /-- Whoever puts in a name is told whether it was missing. -/
  told : ∀ name, (set.add name).2 = true ↔ set.contains name = false
  added : ∀ name, (set.add name).1.contains name = true
  others : ∀ name other, other ≠ name → (set.add name).1.contains other = set.contains other
  readBack : decoder.ofText set.toJson.compact.toList = .ok set
  takenBack : decoder.ofValue set.toJson = .ok set

/-- The selections that name a set. -/
def selecting : List (FeatureSet → FeatureSelection) := [.features, .noDefault]

/-- Two sets are shown in the same way wherever they are used. -/
structure Alike (first second : FeatureSet) : Prop where
  names : first.names = second.names
  render : first.render = second.render
  display : first.display = second.display
  args : first.args = second.args
  text : first.toJson.compact = second.toJson.compact
  compare : first.compare second = .eq
  compareLeft : ∀ other : FeatureSet, first.compare other = second.compare other
  compareRight : ∀ other : FeatureSet, other.compare first = other.compare second
  label : ∀ select ∈ selecting, (select first).label = (select second).label
  id :
    ∀ select ∈ selecting, ∀ tier tool workspace policy,
      Step.id ⟨tier, tool, workspace, select first, policy⟩ =
        Step.id ⟨tier, tool, workspace, select second, policy⟩

variable
  {set first second : FeatureSet}
  {names others : List String}

/-! ## The names of a set -/

/-- A set has the names that it had and the one that has been added. -/
theorem contains_add
    (set : FeatureSet)
    (name other : String) :
    (set.add name).1.contains other = true ↔ other = name ∨ set.contains other = true := by
  rw [contains_eq_true_iff, contains_eq_true_iff]
  exact mem_insertName

/-- Adding tells whether the name is new. -/
theorem add_told_iff
    (set : FeatureSet)
    (name : String) :
    (set.add name).2 = true ↔ set.contains name = false := by
  rw [Bool.eq_false_iff, ne_eq, contains_eq_true_iff]
  exact isMissing_eq_true_iff set.increasing

/-- As many names are in a set as different ones are listed. -/
theorem size_eq_length_dedup
    (listed : ∀ name, name ∈ set.names ↔ name ∈ names) :
    set.size = names.dedup.length := by
  have distinct : set.names.Nodup := set.increasing.imp String.ne_of_lt
  have rearranged : set.names.Perm names.dedup :=
    (List.perm_ext_iff_of_nodup distinct names.nodup_dedup).mpr fun name =>
      (listed name).trans List.mem_dedup.symm
  exact rearranged.length_eq

/-! ## Reading and writing -/

/-- A set is read from every list of its names. -/
theorem ofValue_strings
    (listed : ∀ name, name ∈ names ↔ name ∈ set.names) :
    decoder.ofValue (.strings names) = .ok set := by
  have ordered : (Json.strings names).canonical = .strings names := by
    simp [Json.strings, Json.canonical, Json.canonicalItems_eq_map]
  simp only [Json.Decoder.ofValue, ordered, (reads_strings listed).tree]

theorem ofValue_strings_eq_ofNames (names : List String) :
    decoder.ofValue (.strings names) = .ok (ofNames names) :=
  ofValue_strings fun _ => mem_names_ofNames.symm

/-- A text that spells a list of names gives the set of the names. -/
theorem ofText_strings
    {text : List Char}
    (spelled : Json.ofText text = .ok (.strings names)) :
    decoder.ofText text = .ok (ofNames names) :=
  (recognizes_strings names).ofText spelled

/-- A set is read back from its own text. -/
theorem ofText_compact_toJson (set : FeatureSet) :
    decoder.ofText set.toJson.compact.toList = .ok set := by
  have reads : decoder.Reads set.toJson set := reads_strings fun _ => Iff.rfl
  have shallow : set.toJson.depth < Json.Reader.levelLimit := by
    rw [toJson, Json.depth_strings]
    decide
  rw [Json.compact, String.toList_ofList]
  exact reads.ofText_write shallow .compact

/-- The names of a set that is made of names are just these. -/
theorem MadeOf.mem_iff
    (made : set.MadeOf names)
    (name : String) :
    name ∈ set.names ↔ name ∈ names := by
  induction made with
  | empty =>
      exact Iff.rfl
  | listed names =>
      exact mem_names_ofNames
  | spelled spelled decoded =>
      obtain rfl := Except.ok.inj (decoded.symm.trans (ofText_strings spelled))
      exact mem_names_ofNames
  | given decoded =>
      obtain rfl := Except.ok.inj (decoded.symm.trans (ofValue_strings_eq_ofNames _))
      exact mem_names_ofNames
  | added other _ inductionHypothesis =>
      rw [List.mem_append, List.mem_singleton, ← inductionHypothesis, or_comm]
      exact mem_insertName

/-- A set has just the names that it was made of. -/
theorem MadeOf.lists (made : set.MadeOf names) : set.Lists names where
  increasing := set.increasing.imp toList_toUTF8_lt.mpr
  listed := made.mem_iff
  size := size_eq_length_dedup made.mem_iff
  contains := fun name => contains_eq_true_iff.trans (made.mem_iff name)
  told := set.add_told_iff
  added := fun name => (set.contains_add name name).mpr (.inl rfl)
  others := by
    intro name other different
    rw [Bool.eq_iff_iff, contains_add, or_iff_right different]
  readBack := set.ofText_compact_toJson
  takenBack := ofValue_strings fun _ => Iff.rfl

/-! ## Comparing -/

theorem compareNames_self (names : List String) : compareNames names names = .eq := by
  induction names with
  | nil =>
      rfl
  | cons name rest inductionHypothesis =>
      rw [compareNames, if_neg (String.lt_irrefl name), if_pos rfl, inductionHypothesis]

theorem Alike.refl (set : FeatureSet) : set.Alike set where
  names := rfl
  render := rfl
  display := rfl
  args := rfl
  text := rfl
  compare := compareNames_self set.names
  compareLeft := fun _ => rfl
  compareRight := fun _ => rfl
  label := fun _ _ => rfl
  id := fun _ _ _ _ _ _ => rfl

/--
Sets are shown alike exactly if the same names went in, in whatever way they
were made.  Every set lists what went in by its bytes, and every array of names
is decoded.
-/
theorem alike_iff_of_madeOf
    (made : first.MadeOf names)
    (alsoMade : second.MadeOf others) :
    first.Lists names ∧
      (first.Alike second ↔ ∀ name, name ∈ names ↔ name ∈ others) ∧
      ∀ listed,
        (∃ set, decoder.ofValue (.strings listed) = .ok set) ∧
          ∀ text,
            Json.ofText text = .ok (.strings listed) →
              ∃ set, decoder.ofText text = .ok set := by
  refine ⟨made.lists, ⟨?_, ?_⟩, ?_⟩
  · intro alike name
    rw [← made.mem_iff, ← alsoMade.mem_iff, alike.names]
  · intro same
    have equal : first = second := by
      apply eq_of_mem_iff
      intro name
      rw [made.mem_iff, alsoMade.mem_iff]
      exact same name
    exact equal ▸ .refl first
  · intro listed
    refine ⟨⟨ofNames listed, ofValue_strings_eq_ofNames listed⟩, ?_⟩
    intro text spelled
    exact ⟨ofNames listed, ofText_strings spelled⟩

/-- A set from a text that escapes some of the characters, and one from a list in another order.
Units of two bytes, as the text escapes them, would order the names otherwise than bytes do. -/
theorem alike_iff_of_madeOf_respelled :
    let text := "[ \"\\ud800\\udc00\",\"\\ufffd\" , \"𐀀\"]".toList
    ∃ set,
      decoder.ofText text = .ok set ∧
        (set.add "a").1.MadeOf ["𐀀", "\ufffd", "𐀀", "a"] ∧
        (ofNames ["a", "𐀀", "\ufffd", "a"]).MadeOf ["a", "𐀀", "\ufffd", "a"] ∧
        (set.add "a").1.Lists ["𐀀", "\ufffd", "𐀀", "a"] ∧
        (set.add "a").1.Alike (ofNames ["a", "𐀀", "\ufffd", "a"]) ∧
        (ofNames ["a", "𐀀", "\ufffd", "a"]).names = ["a", "\ufffd", "𐀀"] := by
  intro text
  have spelled : Json.ofText text = .ok (.strings ["𐀀", "\ufffd", "𐀀"]) := rfl
  have decoded := ofText_strings spelled
  have made : ((ofNames ["𐀀", "\ufffd", "𐀀"]).add "a").1.MadeOf ["𐀀", "\ufffd", "𐀀", "a"] :=
    .added "a" (.spelled spelled decoded)
  have alsoMade := MadeOf.listed ["a", "𐀀", "\ufffd", "a"]
  have alike := alike_iff_of_madeOf made alsoMade
  have forth : ∀ name ∈ ["𐀀", "\ufffd", "𐀀", "a"], name ∈ ["a", "𐀀", "\ufffd", "a"] := by decide
  have back : ∀ name ∈ ["a", "𐀀", "\ufffd", "a"], name ∈ ["𐀀", "\ufffd", "𐀀", "a"] := by decide
  have same := alike.2.1.mpr fun name => ⟨forth name, back name⟩
  exact ⟨ofNames ["𐀀", "\ufffd", "𐀀"], decoded, made, alsoMade, alike.1, same, by decide +kernel⟩

end VerifyPipeline.FeatureSet
