import C2c.Library.PythonJson
import C2c.Orchestrator.RunContract

namespace C2c.Orchestrator.StepReplies

open C2c.Library.JavaText
open C2c.Library.PythonText
open C2c.Library.PythonJson
open C2c.Orchestrator.RunContract

/-- `_text`. -/
def textOf : Json → Option Text
  | .null => none
  | value => if strip (str value) = [] then none else some (strip (str value))

/-- `text or fallback`. -/
def orText (text : Option Text) (fallback : Text) : Text :=
  match text with
  | some (c :: t) => c :: t
  | _ => fallback

/-- `_first_non_empty_mapping`. -/
def firstNonEmptyMapping (value : Json) : Json :=
  if isMapping value ∧ truthy value then value else .object []

/-- `_has_non_empty_list`. -/
def hasNonEmptyList (mapping : Json) (key : String) : Bool :=
  match get mapping key with
  | .array items => !items.isEmpty
  | _ => false

/-- `str(raw_path).lstrip("/\\")`. -/
def relativePath (path : Text) : Text :=
  path.dropWhile fun c => c == '/' || c == '\\'

/-- The content a file is written with. -/
def contentText : Json → Text
  | .text value => value
  | .null => []
  | value => str value

/-- `_iter_generated_files`. -/
def iterGeneratedFiles (generatedProject : Json) : List (Text × Text) :=
  (membersOf (get generatedProject "files")).filterMap fun file =>
    let path := relativePath file.1
    if path = [] ∨ ['.', '.'] ∈ pathParts path then none else some (path, contentText file.2)

/-- The semantic IR in the reply of `generate-ir`; `none` for the attribute
error of an `irOutput` that is no mapping. -/
def irDocument (payload : Json) : Option Json :=
  let document := firstNonEmptyMapping (get payload "ir")
  if truthy document ∨ ¬ hasKey payload "irOutput" then some document
  else if isMapping (get payload "irOutput") then
    some (firstNonEmptyMapping (get (get payload "irOutput") "ir"))
  else none

/-- Whether the reply says that no semantic IR was produced. -/
def irRefused (payload document : Json) : Bool :=
  !truthy document ||
    ["failed", "error", "unsupported", "blocked"].any fun status =>
      status.toList == lower (strip ((textOf (get payload "status")).getD []))

/-- The first of `_detect_deterministic_uncertainty`'s markers. -/
def detectDeterministicUncertainty (irDocument generatedProject : Json) : Option Text :=
  if hasNonEmptyList irDocument "ambiguityMarkers" then
    some "semantic_ir_bounded_ambiguity".toList
  else if hasNonEmptyList generatedProject "unsupportedFeatures" then
    some "translation_unsupported_repairable".toList
  else if hasNonEmptyList generatedProject "openAssumptions" then
    some "baseline_open_assumptions".toList
  else if hasNonEmptyList generatedProject "lowConfidenceMarkers" then
    some "deterministic_candidate_low_confidence".toList
  else none

def callerExplicitOptIn : Text :=
  "caller_explicit_opt_in".toList

/-- `should_manual_region_block_repair`. -/
def shouldManualRegionBlockRepair (manualRegions : List Json) (assistReasonCode : Option Text) :
    Bool :=
  !manualRegions.isEmpty && assistReasonCode != some callerExplicitOptIn

section BuildTest

/-- `BUILD_TEST_SUCCESS_STATUSES`. -/
def buildTestSuccessStatuses : List Text :=
  ["ok".toList, "passed".toList, "success".toList, "complete".toList, "verified".toList]

/-- `BUILD_TEST_FAILURE_REASONS`. -/
def buildTestFailureReasons : List (Text × FailureCode) :=
  [("source_reference_failed".toList, .sourceReferenceFailed),
    ("source-reference-failed".toList, .sourceReferenceFailed),
    ("compile_failed".toList, .javaCompileFailed),
    ("compile-failed".toList, .javaCompileFailed),
    ("compile_error".toList, .javaCompileFailed),
    ("java_compile_failed".toList, .javaCompileFailed),
    ("runtime_failed".toList, .javaRuntimeFailed),
    ("runtime-failed".toList, .javaRuntimeFailed),
    ("runtime_error".toList, .javaRuntimeFailed),
    ("java_runtime_failed".toList, .javaRuntimeFailed),
    ("oracle_mismatch".toList, .oracleMismatch),
    ("oracle-mismatch".toList, .oracleMismatch),
    ("equivalence_mismatch".toList, .oracleMismatch),
    ("behaviour_mismatch".toList, .oracleMismatch)]

/-- The code of a status that says by itself what failed. -/
def statusFailure (status : Text) : Option FailureCode :=
  if status ∈ ["output-divergence".toList, "golden-master-reproduction-failed".toList] then
    some .oracleMismatch
  else if status ∈ ["run-failed".toList, "oracle-cobol-run-failed".toList,
      "oracle-unavailable".toList, "oracle-invalid".toList] then
    some .javaRuntimeFailed
  else if status ∈ ["compile-failed".toList, "missing-golden-master".toList, "skipped".toList,
      "oracle-cobol-compile-failed".toList] then
    some .javaCompileFailed
  else none

/-- `str(value or "").strip().lower()`. -/
def normalised (value : Json) : Text :=
  lower (strip (strOrEmpty value))

/-- `mapping if isinstance(mapping, Mapping) else {}`, read at a key. -/
def memberOf (payload : Json) (part key : String) : Json :=
  get (get payload part) key

/-- The code of the first sub-result that failed. -/
def resultFailure (payload : Json) : FailureCode :=
  if truthy (get payload "oracleMismatch") ∨ isText (get payload "oracleResult") "mismatch" then
    .oracleMismatch
  else if normalised (memberOf payload "comparisonResult" "status") = "failed".toList ∧
      (memberOf payload "comparison" "matched" matches .bool false) then
    .oracleMismatch
  else if isText (get payload "runtime") "failed" ∨
      isText (get payload "runtimeStatus") "failed" then
    .javaRuntimeFailed
  else if normalised (memberOf payload "executionResult" "status") = "failed".toList then
    .javaRuntimeFailed
  else .javaCompileFailed

/-- `payload.get("reason") or payload.get("failureReason")`. -/
def failureReason (payload : Json) : Json :=
  if truthy (get payload "reason") then get payload "reason" else get payload "failureReason"

/-- The failure of a status that is no success. -/
def buildTestFailure (payload : Json) : FailureCode :=
  match statusFailure (normalised (get payload "status")) with
  | some code => code
  | none =>
      let reason := normalised (failureReason payload)
      match buildTestFailureReasons.find? fun entry => entry.1 == reason with
      | some entry => entry.2
      | none => resultFailure payload

/-- `build_test_outcome`: the failure, if the build did not succeed. -/
def buildTestOutcome (payload : Json) : Option FailureCode :=
  if normalised (get payload "status") ∈ buildTestSuccessStatuses then none
  else some (buildTestFailure payload)

end BuildTest

section Evidence

/-- The statuses of a complete evidence pack. -/
def completeStatuses : List Text :=
  [[], "ok".toList, "complete".toList, "completed".toList, "passed".toList]

/-- `evidence_materialized`. -/
def evidenceMaterialized (payload : Json) : Bool :=
  decide (lower ((textOf (get payload "status")).getD []) ∈ completeStatuses) &&
    !truthy (get payload "missingArtifacts")

end Evidence

section SourceReference

/-- Whether a source/reference execution passed. -/
def sourceReferencePassed (payload : Json) : Bool :=
  strip (strOrEmpty (get payload "status")) == "passed".toList

/-- Whether its diagnostics call the program shape unsupported. -/
def sourceReferenceUnsupported (payload : Json) : Bool :=
  match get payload "diagnostics" with
  | .array entries => entries.any fun entry =>
      isMapping entry && textOf (get entry "code") == some "unsupported-program-shape".toList
  | _ => false

end SourceReference

end C2c.Orchestrator.StepReplies
