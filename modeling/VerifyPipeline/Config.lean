import VerifyPipeline.Json.Decoder.Record

/-!
# Configuration

Seven flags that leave out parts of a run or extend them.  Each is read from an environment
variable: a variable with any text sets its flag, an empty or missing one does not.  A flag that
leaves a tool out wins over the one that extends it.
-/

namespace VerifyPipeline

/-- Which parts of a run are left out and which are extended. -/
structure Config where
  skipValgrind : Bool := false
  skipMiri : Bool := false
  skipFeatures : Bool := false
  skipCheck : Bool := false
  skipDocs : Bool := false
  valgrindExhaustive : Bool := false
  miriExhaustive : Bool := false
  deriving Repr, DecidableEq

/-- An extending flag that is set together with the flag that leaves its tool out. -/
structure Inconsistency where
  skipFlag : String
  exhaustiveFlag : String
  deriving Repr, DecidableEq

/-- The words for an inconsistency. -/
def Inconsistency.text (issue : Inconsistency) : String :=
  issue.exhaustiveFlag ++ " is set together with " ++ issue.skipFlag ++ "; " ++ issue.skipFlag
    ++ " takes precedence and the matrix tier is omitted"

namespace Config

/-- Whether the variable of a name has any text. -/
def isSet (lookup : String → Option String) (name : String) : Bool :=
  match lookup name with
  | some text => !text.isEmpty
  | none => false

/-- Read the flags from variables. -/
def ofLookup (lookup : String → Option String) : Config where
  skipValgrind := isSet lookup "SKIP_VALGRIND"
  skipMiri := isSet lookup "SKIP_MIRI"
  skipFeatures := isSet lookup "SKIP_FEATURES"
  skipCheck := isSet lookup "SKIP_CHECK"
  skipDocs := isSet lookup "SKIP_DOCS"
  valgrindExhaustive := isSet lookup "VALGRIND_EXHAUSTIVE"
  miriExhaustive := isSet lookup "MIRI_EXHAUSTIVE"

/-- Whether valgrind is run. -/
def valgrind (config : Config) : Bool := !config.skipValgrind

/-- Whether miri is run. -/
def miri (config : Config) : Bool := !config.skipMiri

/-- Whether valgrind is run with every combination of the catalog. -/
def valgrindMatrix (config : Config) : Bool := config.valgrind && config.valgrindExhaustive

/-- Whether miri is run with every combination of the catalog. -/
def miriMatrix (config : Config) : Bool := config.miri && config.miriExhaustive

/-- Whether the tests are run with every combination of the catalog. -/
def features (config : Config) : Bool := !config.skipFeatures

/-- Whether format and lints are checked. -/
def check (config : Config) : Bool := !config.skipCheck

/-- Whether the documentation is built. -/
def docs (config : Config) : Bool := !config.skipDocs

/-- The extending flags that have no effect because their tool is left out. -/
def inconsistencies (config : Config) : List Inconsistency :=
  (if config.skipValgrind && config.valgrindExhaustive then
    [⟨"SKIP_VALGRIND", "VALGRIND_EXHAUSTIVE"⟩] else [])
  ++ (if config.skipMiri && config.miriExhaustive then
    [⟨"SKIP_MIRI", "MIRI_EXHAUSTIVE"⟩] else [])

def toJson (config : Config) : Json :=
  .object [
    ("skip_valgrind", .bool config.skipValgrind),
    ("skip_miri", .bool config.skipMiri),
    ("skip_features", .bool config.skipFeatures),
    ("skip_check", .bool config.skipCheck),
    ("skip_docs", .bool config.skipDocs),
    ("valgrind_exhaustive", .bool config.valgrindExhaustive),
    ("miri_exhaustive", .bool config.miriExhaustive)]

def decoder : Json.Decoder Config :=
  .record "VerifyConfig"
    (.field "skip_valgrind" .bool <| .field "skip_miri" .bool <|
      .field "skip_features" .bool <| .field "skip_check" .bool <|
      .field "skip_docs" .bool <| .field "valgrind_exhaustive" .bool <|
      .field "miri_exhaustive" .bool .done)
    fun (skipValgrind, skipMiri, skipFeatures, skipCheck, skipDocs, valgrindExhaustive,
        miriExhaustive, ()) =>
      ⟨skipValgrind, skipMiri, skipFeatures, skipCheck, skipDocs, valgrindExhaustive,
        miriExhaustive⟩

end Config

end VerifyPipeline
