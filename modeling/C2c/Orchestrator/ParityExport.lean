import C2c.Orchestrator.StepReplies

namespace C2c.Orchestrator.ParityExport

open C2c.Library.JavaText
open C2c.Library.PythonText
open C2c.Library.PythonJson
open C2c.Orchestrator.StepReplies

/-- What an export raises: `OrchestratorError`, or the `AttributeError` of a
method called on `None`. -/
inductive ExportError
  | orchestrator (message : Text)
  | attribute
  | store (message : Text)
deriving DecidableEq

def blocked {A : Type} (message : String) : Except ExportError A :=
  .error (.orchestrator message.toList)

/-- What the store holds of a run; an absent record is read as `null`. -/
structure StoredRun where
  hasRun : Bool
  /-- `read_summary(run_id) or {}`. -/
  summary : Json
  readJson : Text → Json
  /-- The text of the stored bytes. -/
  readBytes : Text → Option Text
  /-- What a write of the export raises, if one does. -/
  writeError : Option Text := none

structure ExportRequest where
  requester : Text
  exportName : Option Text := none

section Texts

/-- `_text(value).lower()`. -/
def lowerText (value : Json) : Except ExportError Text :=
  match textOf value with
  | none => .error .attribute
  | some text => .ok (lower text)

/-- `value is True`. -/
def isTrue : Json → Bool
  | .bool value => value
  | _ => false

/-- `re.sub(r"[^a-z0-9]+", "-", text)`. -/
def hyphenated : Text → Text
  | [] => []
  | c :: t =>
      if ('a' ≤ c ∧ c ≤ 'z') ∨ ('0' ≤ c ∧ c ≤ '9') then c :: hyphenated t
      else
        match hyphenated t with
        | '-' :: rest => '-' :: rest
        | rest => '-' :: rest

/-- `_normalise_export_slug`. -/
def normaliseExportSlug (value fallback : Text) : Text :=
  let slug := ((hyphenated (lower (strip value))).dropWhile (· == '-')).rdropWhile (· == '-')
  (if slug = [] then fallback else slug).take 80

/-- `entry_class.rpartition(".")`, an empty class name being the whole text. -/
def splitEntryClass (entryClass : Text) : Text × Text :=
  let className := entryClass.rtakeWhile fun c => c != '.'
  if className.length < entryClass.length ∧ className ≠ [] then
    (entryClass.take (entryClass.length - className.length - 1), className)
  else ([], entryClass)

/-- `_normalise_export_output`. -/
def normaliseExportOutput (text : Text) : Text :=
  let rec newlines : Text → Text
    | '\r' :: '\n' :: t => '\n' :: newlines t
    | '\r' :: t => '\n' :: newlines t
    | c :: t => c :: newlines t
    | [] => []
  strip (newlines text)

end Texts

section Eligibility

/-- `trust_summary`. -/
def trustSummary (contract : Json) : Json :=
  if isMapping (get contract "trustSummary") then get contract "trustSummary" else .object []

def trustState (contract : Json) : Text :=
  (textOf (get (trustSummary contract) "trustState")).getD "parity_passed".toList

def divergence (contract : Json) : Text :=
  (textOf (get (trustSummary contract) "divergenceDisposition")).getD "none".toList

/-- `evidence_status`: a summary without evidence counts as current. -/
def evidenceStatus (contract : Json) : Option Text :=
  let evidence := get (trustSummary contract) "evidence"
  if isMapping evidence then textOf (get evidence "status") else some "current".toList

def failedTrustStates : List Text :=
  ["build_failed".toList, "runtime_failed".toList, "parity_failed".toList,
    "intentional_divergence".toList]

/-- The texts of a comparison status that stand for a match. -/
def matchedStatuses : List Text :=
  ["matched".toList, "passed".toList]

/-- `build_match`, with what a comparison adds to it. -/
def comparisonMatch (comparison : Json) (buildMatch : Bool) : Except ExportError Bool :=
  if isMapping comparison then do
    let status ← lowerText (get comparison "status")
    pure (buildMatch || isTrue (get comparison "matched") || decide (status ∈ matchedStatuses))
  else pure buildMatch

/-- `build_match` before the comparisons are looked at. -/
def statusMatch (build : Json) : Except ExportError Bool :=
  if textOf (get build "classification") = some "match".toList then pure true
  else do
    let status ← lowerText (get build "status")
    pure (decide (status = "ok".toList))

def buildMatch (build : Json) : Except ExportError Bool := do
  let matched ← statusMatch build
  let matched ← comparisonMatch (get build "comparison") matched
  comparisonMatch (get build "comparisonResult") matched

/-- `effective_trust_state`. -/
def effectiveTrustState (contract : Json) : Text :=
  if trustState contract = "blocked".toList ∧ divergence contract ∈ [[], "none".toList] ∧
      evidenceStatus contract ≠ some "incomplete".toList then "parity_passed".toList
  else trustState contract

/-- `qualification`. -/
def qualification (contract : Json) : Text :=
  if evidenceStatus contract = some "stale".toList then "stale_evidence".toList
  else if textOf (get (trustSummary contract) "repairStatus") = some "repair_verified".toList then
    "repair_verified".toList
  else
    match get (trustSummary contract) "warningCodes" with
    | .array codes =>
        if codes.any fun code => isText code "manual_edits_carried_over" then
          "manual_edits_carried_over".toList
        else "clean".toList
    | _ => "clean".toList

/-- The checks of the evidence and of the build/test result. -/
def checkEligibility (contract build : Json) : Except ExportError PUnit := do
  if evidenceStatus contract ∈ [some "incomplete".toList, some []] then
    blocked "export blocked: incomplete evidence cannot produce a regression scaffold"
  else if divergence contract = "intentional".toList then
    blocked ("export blocked: intentionally diverged evidence cannot be exported as " ++
      "parity regression coverage")
  else if trustState contract ∈ failedTrustStates then
    .error (.orchestrator (
      "export blocked: only successful parity evidence is eligible (trustState=".toList ++
        trustState contract ++ ")".toList))
  else do
    let matched ← buildMatch build
    if matched then pure ⟨⟩
    else blocked "export blocked: build-test classification is not a successful parity match"

end Eligibility

section Project

variable (run : StoredRun)

/-- The files of a manifest, in order; entries without a path are passed over. -/
def projectFiles (filePrefix missingMessage : Text) :
    List Json → Except ExportError (List (Text × Text))
  | [] => .ok []
  | entry :: entries =>
      match (if isMapping entry then textOf (get entry "path") else none) with
      | none => projectFiles filePrefix missingMessage entries
      | some path =>
          match run.readBytes (filePrefix ++ '/' :: path) with
          | none => .error (.orchestrator (missingMessage ++ ": file missing for ".toList ++ path))
          | some content => do
              let files ← projectFiles filePrefix missingMessage entries
              pure ((path, content) :: files)

/-- `_load_project_from_manifest`. -/
def loadProjectFromManifest (manifestPath filePrefix missingMessage : Text) :
    Except ExportError (Json × List (Text × Text)) :=
  let manifest := run.readJson manifestPath
  if ¬ isMapping manifest then .error (.orchestrator missingMessage)
  else
    match get manifest "files" with
    | .array entries => do
        let files ← projectFiles run filePrefix missingMessage entries
        pure (manifest, files)
    | _ => .error (.orchestrator (missingMessage ++ ": manifest is invalid".toList))

/-- The references an expected output is looked for under, in order. -/
def expectedOutputRefs (contract build : Json) : List Json :=
  [get (get build "comparison") "expectedRef",
    get (get contract "parityComparison") "sourceNormalizedRef",
    get build "expectedOutputRef"].filter isMapping

/-- `_load_export_expected_output`. -/
def loadExportExpectedOutput (contract build : Json) : Except ExportError (Text × Option Json) :=
  let stored := (expectedOutputRefs contract build).findSome? fun ref =>
    (textOf (get ref "path")).bind fun path =>
      (run.readBytes path).map fun content => (normaliseExportOutput content, some ref)
  match stored, get build "expectedOutput" with
  | some output, _ => .ok output
  | none, .text output =>
      if strip output ≠ [] then .ok (normaliseExportOutput output, none)
      else blocked "export blocked: normalized expected output is unavailable for this run"
  | none, _ => blocked "export blocked: normalized expected output is unavailable for this run"

def parityExportDir : Text :=
  "exports/java-regression".toList

/-- The root and the slug of the export that `_reserve_parity_export_root` tries
at an attempt. -/
def exportRoot (programId : Text) (exportName : Option Text) (attempt : Nat) : Text × Text :=
  let baseName := orText exportName (programId ++ "-parity-regression".toList)
  let slugBase := normaliseExportSlug baseName "parity-regression".toList
  let slug := if attempt = 1 then slugBase else slugBase ++ '-' :: natText attempt
  (parityExportDir ++ '/' :: normaliseExportSlug programId "program".toList ++ '/' :: slug, slug)

/-- `_reserve_parity_export_root`, from an attempt on. -/
def reserveFrom (programId : Text) (exportName : Option Text) (attempt : Nat) :
    Nat → Except ExportError (Text × Text)
  | 0 => blocked "export blocked: too many conflicting export slugs for this run"
  | left + 1 =>
      let root := exportRoot programId exportName attempt
      match run.readBytes (root.1 ++ "/c2c-parity-export-manifest.json".toList) with
      | none => .ok root
      | some _ => reserveFrom programId exportName (attempt + 1) left

/-- `_reserve_parity_export_root`. -/
def reserveParityExportRoot (programId : Text) (exportName : Option Text) :
    Except ExportError (Text × Text) :=
  reserveFrom run programId exportName 1 100

end Project

/-- The provenance an export is written with. -/
structure Provenance where
  trustState : Text
  divergenceDisposition : Text
  evidenceStatus : Option Text
  qualification : Text
  entryClass : Text
  entryFilePath : Text
  expectedOutputRef : Option Json

/-- What an export has created. -/
structure Scaffold where
  exportId : Text
  projectRoot : Text
  programId : Text
  scaffoldTestPath : Text
  expectedOutput : Text
  generatedFiles : List (Text × Text)
  provenance : Provenance

/-- The path of the scaffold test. -/
def scaffoldTestPath (packageName className : Text) : Text :=
  (if packageName = [] then "src/test/java".toList
    else "src/test/java/".toList ++ replaceChar '.' '/' packageName) ++
    '/' :: className ++ "ParityRegressionTest.java".toList

/-- `dict(contract_payload_raw)` of a mapping, or nothing. -/
def contractPayload (run : StoredRun) : Json :=
  let contract := run.readJson "w02-run-contract.json".toList
  if isMapping contract then contract else .object []

def buildTestResult (run : StoredRun) : Json :=
  run.readJson "build-test-result.json".toList

/-- The export of an eligible run. -/
def createExport (run : StoredRun) (request : ExportRequest) :
    Except ExportError Scaffold := do
  let contract := contractPayload run
  let (manifest, files) ← loadProjectFromManifest run "generated-project-manifest.json".toList
    "generated-project".toList "export blocked: generated project manifest is unavailable".toList
  match textOf (get manifest "entryClass"), textOf (get manifest "entryFilePath") with
  | some entryClass, some entryFilePath => do
      let (packageName, className) := splitEntryClass entryClass
      let (expectedOutput, expectedOutputRef) ←
        loadExportExpectedOutput run contract (buildTestResult run)
      let programKey := (textOf (get run.summary "programId")).getD className
      let (root, slug) ← reserveParityExportRoot run programKey request.exportName
      match run.writeError with
      | some message => .error (.store message)
      | none =>
          pure
            { exportId := slug
              projectRoot := root
              programId := programKey
              scaffoldTestPath := scaffoldTestPath packageName className
              expectedOutput := expectedOutput
              generatedFiles := files
              provenance :=
                { trustState := effectiveTrustState contract
                  divergenceDisposition := divergence contract
                  evidenceStatus := evidenceStatus contract
                  qualification := qualification contract
                  entryClass := entryClass
                  entryFilePath := entryFilePath
                  expectedOutputRef := expectedOutputRef } }
  | _, _ => blocked "export blocked: generated project manifest is missing entry metadata"

/-- `export_parity_regression_test`. -/
def exportParityRegressionTest (run : StoredRun) (request : ExportRequest) :
    Except ExportError Scaffold := do
  if ¬ run.hasRun then blocked "run not found"
  else if ¬ isMapping (buildTestResult run) then
    blocked "export blocked: build-test result is unavailable"
  else if ¬ isMapping (run.readJson "evidence-pack-manifest.json".toList) then
    blocked "export blocked: evidence pack manifest is unavailable"
  else do
    checkEligibility (contractPayload run) (buildTestResult run)
    createExport run request

end C2c.Orchestrator.ParityExport
