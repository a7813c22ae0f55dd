import VerifyPipeline.Feature.Set
import VerifyPipeline.Json.Decoder.Record

/-!
# Workspaces

A workspace is a directory that is built on its own.  A project has one primary workspace and any
number of others.
-/

namespace VerifyPipeline

/-- A directory that is built on its own. -/
structure Workspace where
  name : String
  /-- Where it lies, seen from the project's root. -/
  path : String
  /-- The features that its lints are run with. -/
  lintFeatures : FeatureSet
  deriving DecidableEq

/-- The primary workspace of a project, and the others. -/
structure WorkspaceSet where
  primary : Workspace
  auxiliary : List Workspace
  deriving DecidableEq

namespace Workspace

def toJson (workspace : Workspace) : Json :=
  .object [
    ("name", .string workspace.name),
    ("path", .string workspace.path),
    ("lint_features", workspace.lintFeatures.toJson)]

def decoder : Json.Decoder Workspace :=
  .record "Workspace"
    (.field "name" .string <| .field "path" (.stringNamed "path string") <|
      .field "lint_features" FeatureSet.decoder .done)
    fun (name, path, lintFeatures, ()) => ⟨name, path, lintFeatures⟩

end Workspace

namespace WorkspaceSet

/-- All workspaces, the primary one first. -/
def all (workspaces : WorkspaceSet) : List Workspace := workspaces.primary :: workspaces.auxiliary

/-- The workspaces of the lexical project. -/
def lexical : WorkspaceSet where
  primary := ⟨"lexical", ".", .ofNames ["format", "lint", "radix"]⟩
  auxiliary := [
    ⟨"lexical-asm", "lexical-asm", .empty⟩,
    ⟨"lexical-size", "lexical-size", .empty⟩,
    ⟨"lexical-benchmark", "lexical-benchmark", .ofNames ["format", "radix"]⟩]

end WorkspaceSet

end VerifyPipeline
