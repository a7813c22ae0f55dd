import VerifyPipeline.Feature.Set

/-!
# The feature catalog

Not every combination of features is meaningful, so the combinations that are exercised are listed
one by one and never computed.  The version changes whenever the list does.
-/

namespace VerifyPipeline

/-- The feature combinations that are exercised, and the features of the strict documentation
build. -/
structure FeatureCatalog where
  combinations : List FeatureSet
  docs : FeatureSet
  deriving DecidableEq

namespace FeatureCatalog

/-- The version of the lexical catalog. -/
def version : Nat := 1

/-- The catalog of the lexical project. -/
def lexical : FeatureCatalog where
  combinations := [
    ["power-of-two"],
    ["radix"],
    ["format"],
    ["compact"],
    ["f16"],
    ["format", "power-of-two"],
    ["format", "radix"],
    ["compact", "format"],
    ["compact", "radix"],
    ["compact", "format", "radix"],
    ["f16", "radix"],
    ["parse-floats"],
    ["parse-integers"],
    ["write-floats"],
    ["write-integers"],
    ["format", "parse-integers"],
    ["compact", "write-floats"]].map .ofNames
  docs := .ofNames ["format", "radix"]

/-- A catalog without combinations. -/
def empty : FeatureCatalog := ⟨[], .empty⟩

/-- The number of combinations. -/
def size (catalog : FeatureCatalog) : Nat := catalog.combinations.length

def isEmpty (catalog : FeatureCatalog) : Bool := catalog.combinations.isEmpty

end FeatureCatalog

end VerifyPipeline
