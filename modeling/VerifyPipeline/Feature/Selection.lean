import VerifyPipeline.Feature.Set
import VerifyPipeline.Json.Decoder.Adjacent

/-!
# Feature selections

Which features of a package a tool is run with: the ones that are on by default, all, a set beside
the default ones, or a set alone.
-/

namespace VerifyPipeline

/-- How a step selects features. -/
inductive FeatureSelection where
  | default
  | features (set : FeatureSet)
  | allFeatures
  | noDefault (set : FeatureSet)
  deriving DecidableEq

namespace FeatureSelection

/-- The arguments that select the features. -/
def args : FeatureSelection → List String
  | .default => []
  | .features set => set.args
  | .allFeatures => ["--all-features"]
  | .noDefault set => "--no-default-features" :: set.args

/-- A short name of the selection. -/
def label : FeatureSelection → String
  | .default => "default"
  | .features set => if set.isEmpty then "default" else set.render
  | .allFeatures => "all-features"
  | .noDefault set => if set.isEmpty then "no-default" else "no-default+" ++ set.render

/-- The written form: the kind, and the set if there is one. -/
def toJson : FeatureSelection → Json
  | .default => .object [("kind", .string "default")]
  | .features set => .object [("kind", .string "features"), ("features", set.toJson)]
  | .allFeatures => .object [("kind", .string "all_features")]
  | .noDefault set => .object [("kind", .string "no_default"), ("features", set.toJson)]

def decoder : Json.Decoder FeatureSelection :=
  .adjacent ⟨"FeatureSelection", "kind", "features"⟩ [
    ("default", .nothing "FeatureSelection::Default" .default),
    ("features", .content (FeatureSet.decoder.map .features)),
    ("all_features", .nothing "FeatureSelection::AllFeatures" .allFeatures),
    ("no_default", .content (FeatureSet.decoder.map .noDefault))]

end FeatureSelection

end VerifyPipeline
