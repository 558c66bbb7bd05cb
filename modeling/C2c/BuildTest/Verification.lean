import C2c.BuildTest.Request

namespace C2c.BuildTest.Verification

open C2c.Library.JavaText
open C2c.Library.JavaObject
open C2c.BuildTest.Comparison
open C2c.BuildTest.Outcomes
open C2c.BuildTest.Request

/-- The `build` section. -/
structure BuildSection where
  compileOk : Bool
  sourceCount : Nat
  fileCount : Nat
  diagnostics : List Diagnostic
  summary : Text

/-- The `execution` section. -/
structure ExecutionSection where
  status : ExecutionStatus
  exitCode : Option Int
  timedOut : Bool
  ran : Bool
  ok : Bool
  stdout : Text
  stderr : Text
  summary : Text
  errorClass : Option Text := none
  errorMessage : Option Text := none
  diagnostics : List Diagnostic := []

/-- The `goldenMaster` section. -/
inductive GoldenMasterSection
  | empty
  | unresolved (programId : Text)
  | resolved (golden : Resolved) (cobolRuntime : Option Reproduction)
  | oracle (note : Text)

inductive OracleOutcome
  | notExecuted (reason : Text)
  | userProvided
  | executed (oracle : OracleRun)

/-- The `oracle` section. -/
structure OracleSection where
  outcome : OracleOutcome
  sourceRef : ObjectMap
  expectedOutput : Option Text := none
  oracleInput : Option Text := none

/-- The `comparison` section. -/
inductive ComparisonSection
  | empty
  | unmatched (skipped : Bool) (reason : Text)
  | compared (result : ParityResult)

def ComparisonSection.matched : ComparisonSection → Bool
  | .compared result => result.matched
  | _ => false

def ComparisonSection.reason : ComparisonSection → Option Text
  | .unmatched _ reason => some reason
  | _ => none

/-- The response map; a section no code has put yet is `none` or empty. -/
structure Response where
  runId : Text
  workflowId : Text
  programId : Text
  classified : Option Classification := none
  build : Option BuildSection := none
  execution : Option ExecutionSection := none
  goldenMaster : GoldenMasterSection := .empty
  oracle : Option OracleSection := none
  comparison : ComparisonSection := .empty
  comparisonResult : Option ParityResult := none
  diagnostics : List Diagnostic := []

def Response.status (response : Response) : Option Status :=
  response.classified.map (·.status)

def Response.classification (response : Response) : Option Classifier :=
  response.classified.map (·.classification)

def newEnvelope (setup : Setup) : Response where
  runId := setup.runId
  workflowId := setup.workflowId
  programId := setup.programId

def applyClassification (response : Response) (result : Classification) : Response :=
  { response with classified := some result }

def failedBuild (diagnostics : List Diagnostic) (summary : Text) : BuildSection where
  compileOk := false
  sourceCount := 0
  fileCount := 0
  diagnostics := diagnostics
  summary := summary

def buildSection (compile : CompileResult) (fileCount : Nat) : BuildSection where
  compileOk := compile.ok
  sourceCount := compile.sourceCount
  fileCount := fileCount
  diagnostics := compile.diagnostics
  summary := if compile.ok then
      "Generated Java compiled successfully in the controlled build runner.".toList
    else "Generated Java compilation failed in the controlled build runner.".toList

def skippedExecutionSection (reason : Text) : ExecutionSection where
  status := .skipped
  exitCode := none
  timedOut := false
  ran := false
  ok := false
  stdout := []
  stderr := []
  summary := "Generated Java execution was skipped: ".toList ++ reason ++ ['.']

def emptyExecution : ExecutionSection :=
  skippedExecutionSection "build did not produce an executable generated Java candidate".toList

def isTimeout (u : UnicodeData) : Option Text → Bool
  | some value => contains (u.toLowerCase value) "timeout".toList
  | none => false

/-- A character of a path: a letter, a digit or one of `_`, `.`, `/` and `-`. -/
def isPathCharacter (c : Char) : Bool :=
  c.isAlphanum || c == '_' || c == '.' || c == '/' || c == '-'

/-- `replaceAll` of every path, a slash and at least one path character, by
`<path>`; `inside` tells whether a match is being read. -/
def hidePaths (inside : Bool) : Text → Text
  | [] => []
  | c :: t =>
      if inside then
        if isPathCharacter c then hidePaths true t else c :: hidePaths false t
      else if c = '/' ∧ (t.head?.map isPathCharacter).getD false then
        "<path>".toList ++ hidePaths true t
      else c :: hidePaths false t

def safeDiagnosticMessage : Option Text → Text
  | some message =>
      if isBlank message then "No diagnostic detail was available.".toList
      else hidePaths false message
  | none => "No diagnostic detail was available.".toList

def safeRuntimeSummary (u : UnicodeData) (run : RunResult) : Text :=
  if isTimeout u run.errorClass then
    "Generated Java execution exceeded the configured wall-clock budget.".toList
  else if !run.ran then
    "Generated Java execution could not start in the controlled runner.".toList
  else "Generated Java execution failed in the controlled runner: ".toList ++
    safeDiagnosticMessage run.errorMessage

def runtimeFilePath : Option Text → Text
  | some entryClass =>
      if isBlank entryClass then "generated-project".toList
      else "src/main/java/".toList ++
        (entryClass.map fun c => if c = '.' then '/' else c) ++ ".java".toList
  | none => "generated-project".toList

def runtimeDiagnostic (entryClass : Option Text) (run : RunResult) : Diagnostic where
  severity := .error
  code := if run.ran then "generated-java-runtime-failed".toList
    else "generated-java-run-not-started".toList
  filePath := runtimeFilePath entryClass
  line := 1
  column := 1
  message := match run.errorMessage with
    | none => "Generated Java execution failed.".toList
    | some message => safeDiagnosticMessage (some message)

def executionSection (u : UnicodeData) (entryClass : Option Text) (run : RunResult) :
    ExecutionSection where
  status := if run.ok then .passed
    else if isTimeout u run.errorClass then .timedOut else .failed
  exitCode := if run.ran then some run.exitCode else none
  timedOut := isTimeout u run.errorClass
  ran := run.ran
  ok := run.ok
  stdout := run.stdout
  stderr := run.stderr
  summary := if run.ok then
      "Generated Java executed successfully in the controlled runner.".toList
    else safeRuntimeSummary u run
  errorClass := run.errorClass
  errorMessage := run.errorMessage
  diagnostics := if !run.ok || !run.ran then [runtimeDiagnostic entryClass run] else []

def executionFactFromExecution (execution : ExecutionSection) : ExecutionFact where
  status := execution.status
  exitCode := execution.exitCode
  stdout := (string (.str execution.stdout)).getD []
  stderr := (string (.str execution.stderr)).getD []
  surfaceLabel := "generated-java".toList

def runtimeFailureReasons : List String :=
  ["compile-failed", "run-failed", "run-not-started", "oracle-cobol-compile-failed",
    "oracle-cobol-run-failed"]

def unsupportedReasons : List String :=
  ["missing-golden-master", "oracle-unavailable", "oracle-invalid-request",
    "options.compareOutput=false", "options.skipExecution=true"]

def attachComparisonResult (response : Response) : Response :=
  match response.comparisonResult, response.comparison.reason, response.execution with
  | none, some reason, some execution =>
      let target := executionFactFromExecution execution
      if runtimeFailureReasons.any fun known => known.toList == reason then
        { response with comparisonResult := some (runtimeFailure target reason) }
      else if unsupportedReasons.any fun known => known.toList == reason then
        { response with comparisonResult := some (unsupported target reason) }
      else response
  | _, _, _ => response

/-- The tail every path of `runVerification` shares: the comparison section,
the diagnostics and the comparison result. -/
def finishResponse (response : Response) (comparison : ComparisonSection)
    (diagnostics : List Diagnostic) : Response :=
  attachComparisonResult
    { response with comparison := comparison, diagnostics := diagnostics }

/-- The parity of a program the oracle or the golden master is compared with. -/
def compareOutputs (sourceStdout sourceStderr : Text) (sourceExitCode : Option Int)
    (javaStdout javaStderr : Text) (javaExitCode : Option Int) (sourceSurfaceLabel : Text) :
    ParityResult :=
  compare
    { status := .passed
      exitCode := sourceExitCode
      stdout := sourceStdout
      stderr := sourceStderr
      surfaceLabel := sourceSurfaceLabel }
    { status := if javaExitCode = some 0 then .passed
        else if javaExitCode = some 124 then .timedOut else .failed
      exitCode := javaExitCode
      stdout := javaStdout
      stderr := javaStderr
      surfaceLabel := "generated-java".toList }

def putComparison (response : Response) (result : ParityResult) : Response :=
  { response with comparison := .compared result, comparisonResult := some result }

def oracleSkippedMap (oracleSpec : ObjectMap) (reason : Text) : OracleSection where
  outcome := .notExecuted reason
  sourceRef := mapOrEmpty (get "sourceRef".toList oracleSpec)

def putSkippedOracle (setup : Setup) (response : Response) (reason : Text) : Response :=
  { response with oracle := some (oracleSkippedMap setup.oracleSpec reason) }

def oracleDiagnostic (code message : Text) : Diagnostic :=
  ⟨.error, code, "generated-project".toList, 1, 1, message⟩

/-- The part of `finaliseOracle` in which the COBOL oracle did not deliver an
output to compare with: the diagnostic, the classification and the comparison
section it ends with. -/
def oracleFailure (oracle : OracleRun) :
    Option (Diagnostic × Classification × ComparisonSection) :=
  if !oracle.attempted then
    some (oracleDiagnostic "oracle-invalid-request".toList oracle.reason,
      oracleInvalid (some oracle.reason),
      .unmatched true "oracle-invalid-request".toList)
  else if !oracle.available then
    some (oracleDiagnostic "oracle-unavailable".toList
        ("GnuCOBOL (cobc/cobcrun) is not available; cannot prove equivalence" ++
          " for UI-provided COBOL source.").toList,
      oracleUnavailable none,
      .unmatched true "oracle-unavailable".toList)
  else if !oracle.compileOk then
    some (oracleDiagnostic "oracle-cobol-compile-failed".toList
        ("cobc failed to compile the UI-provided COBOL source: ".toList ++ oracle.reason),
      oracleCompileError
        (some ("cobc failed: exit=".toList ++ intText oracle.compileExitCode)),
      .unmatched false "oracle-cobol-compile-failed".toList)
  else if !oracle.runOk then
    some (oracleDiagnostic "oracle-cobol-run-failed".toList
        ("cobcrun did not complete cleanly: ".toList ++ oracle.reason),
      oracleRunError (some ("cobcrun exit=".toList ++ intText oracle.exitCode ++
        (if isBlank oracle.reason then [] else ": ".toList ++ oracle.reason))),
      .unmatched false "oracle-cobol-run-failed".toList)
  else none

/-- The comparison `finaliseOracle` ends with. -/
def compareWithOracle (response : Response) (diagnostics : List Diagnostic) (run : RunResult)
    (expectedStdout : Text) (expectedExitCode : Option Int) (surfaceLabel : Text)
    (divergenceSummary : Text) : Response :=
  let result := compareOutputs expectedStdout [] expectedExitCode run.stdout run.stderr
    (some run.exitCode) surfaceLabel
  let response := putComparison response result
  let response := applyClassification response
    (if result.matched then match_ else divergence false divergenceSummary)
  finishResponse response response.comparison diagnostics

def finaliseOracle (tools : Tools) (setup : Setup) (response : Response)
    (diagnostics : List Diagnostic) (run : Option RunResult) : Response :=
  let note := "Oracle supplied by request.oracle; registry Golden Master not consulted.".toList
  let response := { response with goldenMaster := .oracle note }
  match run with
  | none =>
      let response := applyClassification response (skipped "skipExecution=true".toList)
      finishResponse (putSkippedOracle setup response "options.skipExecution=true".toList)
        (.unmatched true "options.skipExecution=true".toList) diagnostics
  | some run =>
      -- A failed run keeps the classification it already has.
      if !run.ok then
        finishResponse
          (putSkippedOracle setup response "java-run-failed; oracle not executed".toList)
          (.unmatched true "run-failed".toList) diagnostics
      else if !setup.compareOutput then
        let response := applyClassification response
          ⟨.ok, .skipped, "compareOutput=false; oracle execution skipped.".toList⟩
        finishResponse (putSkippedOracle setup response "options.compareOutput=false".toList)
          (.unmatched true "options.compareOutput=false".toList) diagnostics
      else
        let expectedOutput := exactStringOrNull (get "expectedOutput".toList setup.oracleSpec)
        let oracleInput := exactStringOrNull (get "oracleInput".toList setup.oracleSpec)
        let section_ (outcome : OracleOutcome) : OracleSection :=
          { outcome := outcome
            sourceRef := mapOrEmpty (get "sourceRef".toList setup.oracleSpec)
            expectedOutput := expectedOutput
            oracleInput := oracleInput }
        match expectedOutput with
        | some expected =>
            compareWithOracle { response with oracle := some (section_ .userProvided) } diagnostics
              run expected none "oracle.user-provided".toList
              "Generated Java stdout diverges from user-supplied expected output.".toList
        | none =>
            let oracle := tools.executeSource setup.programId
              (string (get "sourceText".toList setup.oracleSpec)) oracleInput
              setup.oracleTimeoutMs
            let response := { response with oracle := some (section_ (.executed oracle)) }
            match oracleFailure oracle with
            | some (diagnostic, result, comparison) =>
                finishResponse (applyClassification response result) comparison
                  (diagnostics ++ [diagnostic])
            | none =>
                compareWithOracle response diagnostics run oracle.stdout (some oracle.exitCode)
                  "oracle.cobol-runtime".toList
                  "Generated Java stdout diverges from COBOL oracle stdout.".toList

def trueGoldenMasterFailureSummary (reproduction : Reproduction) : Text :=
  if !reproduction.available then
    "GnuCOBOL cobc/cobcrun are not available for true Golden Master reproduction.".toList
  else if !reproduction.compileOk then
    "cobc failed while compiling the true Golden Master source: ".toList ++ reproduction.reason
  else if !reproduction.hasRun then
    "cobcrun did not execute the true Golden Master module: ".toList ++ reproduction.reason
  else if !reproduction.matched then
    ("cobcrun stdout differs from the checked-in true Golden Master expected " ++
      "output.").toList
  else "true Golden Master reproduction failed.".toList

def trueGoldenMasterClassification (reproduction : Reproduction) : Classification :=
  let summary := trueGoldenMasterFailureSummary reproduction
  if reproduction.available && reproduction.compileOk && reproduction.hasRun &&
      reproduction.exitCode == 0 && !reproduction.matched then
    trueGoldenMasterMismatch summary
  else trueGoldenMasterReproductionError summary

/-- The reproduction `runVerification` asks for: that of a true fixture whose
output is to be compared. -/
def reproductionOf (tools : Tools) (setup : Setup) (golden : Resolved) : Option Reproduction :=
  if !setup.skipExecution && setup.compareOutput && golden.isTrueFixture then
    some (tools.reproduce golden setup.timeoutMs)
  else none

/-- The end of `runVerification` once the reproduction did not fail. -/
def classifyAgainstGoldenMaster (setup : Setup) (response : Response)
    (diagnostics : List Diagnostic) (run : Option RunResult) (golden : Option Resolved) :
    Response :=
  match run with
  | none =>
      finishResponse (applyClassification response (skipped "skipExecution=true".toList))
        (.unmatched true "options.skipExecution=true".toList) diagnostics
  | some run =>
      if !setup.compareOutput then
        finishResponse
          (applyClassification response ⟨.ok, .skipped,
            "compareOutput=false; not comparing against Golden Master.".toList⟩)
          (.unmatched true "options.compareOutput=false".toList) diagnostics
      else
        match golden with
        | none =>
            finishResponse
              (applyClassification response (missingGoldenMaster setup.programId))
              (.unmatched true "missing-golden-master".toList) diagnostics
        | some golden =>
            let result := compareOutputs golden.expected [] none run.stdout run.stderr
              (if run.ran then some run.exitCode else none) "golden-master".toList
            let response := putComparison response result
            let response :=
              if run.ok then
                applyClassification response
                  (if result.matched then match_
                    else divergence golden.knownDivergenceAtW0
                      (if golden.knownDivergenceAtW0 then
                        ("Generated stdout diverges from Golden Master; classified as a " ++
                          "documented W0 generator coverage gap.").toList
                      else "Generated program output differs from Golden Master.".toList))
              else response
            finishResponse response response.comparison diagnostics

/-- The golden-master branch of `runVerification`. -/
def finaliseGoldenMaster (tools : Tools) (setup : Setup) (response : Response)
    (diagnostics : List Diagnostic) (run : Option RunResult) : Except JavaException Response :=
  match tools.resolve setup.programId setup.goldenMaster with
  | .error failure => .error failure
  | .ok none =>
      .ok (classifyAgainstGoldenMaster setup
        { response with goldenMaster := .unresolved setup.programId } diagnostics run none)
  | .ok (some golden) =>
      let reproduction := reproductionOf tools setup golden
      let response := { response with goldenMaster := .resolved golden reproduction }
      match reproduction with
      | some reproduction =>
          if !reproduction.ok then
            .ok (finishResponse
              (applyClassification response (trueGoldenMasterClassification reproduction))
              (.unmatched false "true-golden-master-reproduction-failed".toList)
              (diagnostics ++
                [oracleDiagnostic "true-golden-master-reproduction-failed".toList
                  (trueGoldenMasterFailureSummary reproduction)]))
          else .ok (classifyAgainstGoldenMaster setup response diagnostics run (some golden))
      | none => .ok (classifyAgainstGoldenMaster setup response diagnostics run (some golden))

/-- What the compile-failed and the run-not-started paths put into the
`goldenMaster` and `oracle` sections before they finish. -/
def finishWithoutRun (tools : Tools) (setup : Setup) (response : Response)
    (diagnostics : List Diagnostic) (oracleReason note comparisonReason : Text) :
    Except JavaException Response :=
  if setup.oracleEnabled then
    .ok (finishResponse
      (putSkippedOracle setup { response with goldenMaster := .oracle note } oracleReason)
      (.unmatched true comparisonReason) diagnostics)
  else
    match tools.resolve setup.programId setup.goldenMaster with
    | .error failure => .error failure
    | .ok golden =>
        let section_ : GoldenMasterSection := match golden with
          | some golden => .resolved golden none
          | none => .unresolved setup.programId
        .ok (finishResponse { response with goldenMaster := section_ }
          (.unmatched true comparisonReason) diagnostics)

/-- The early ends of `runVerification`, which leave nothing built. -/
def finishUnbuilt (response : Response) (result : Classification)
    (diagnostics : List Diagnostic) (summary : Text) (comparison : ComparisonSection) : Response :=
  finishResponse
    { applyClassification response result with
      build := some (failedBuild diagnostics summary)
      execution := some emptyExecution }
    comparison diagnostics

def materialiseDiagnostic (setup : Setup) (code message : Text) : Diagnostic :=
  ⟨.error, code, setup.entryFilePath.getD "generated-project".toList, 1, 1, message⟩

/-- The part of `runVerification` behind the compiler. -/
def runCompiled (u : UnicodeData) (tools : Tools) (setup : Setup) (response : Response)
    (compile : CompileResult) : Except JavaException Response :=
  let response :=
    { response with build := some (buildSection compile setup.files.length) }
  let diagnostics := compile.diagnostics
  let finishOutputs (response : Response) (diagnostics : List Diagnostic)
      (run : Option RunResult) : Except JavaException Response :=
    if setup.oracleEnabled then .ok (finaliseOracle tools setup response diagnostics run)
    else finaliseGoldenMaster tools setup response diagnostics run
  if !compile.ok then
    finishWithoutRun tools setup
      { applyClassification response compileFailure with execution := some emptyExecution }
      diagnostics "java-compile-failed; oracle not executed".toList
      "Java compile failed before the oracle could be executed.".toList "compile-failed".toList
  else if setup.skipExecution then
    let execution := skippedExecutionSection "options.skipExecution=true".toList
    finishOutputs { response with execution := some execution } diagnostics none
  else
    let run := tools.run setup.entryClass setup.timeoutMs
    let execution := executionSection u setup.entryClass run
    let response := { response with execution := some execution }
    let diagnostics := diagnostics ++ execution.diagnostics
    if !run.ran then
      finishWithoutRun tools setup
        (applyClassification response (runFailure run.errorClass)) diagnostics
        "java-run-not-started; oracle not executed".toList
        "Java run did not start before the oracle could be executed.".toList
        "run-not-started".toList
    else if !run.ok then
      finishOutputs (applyClassification response (runFailure run.errorClass)) diagnostics
        (some run)
    else finishOutputs response diagnostics (some run)

/-- `runVerification` behind the reading of the request. -/
def verify (u : UnicodeData) (tools : Tools) (setup : Setup) : Except JavaException Response :=
  let response := newEnvelope setup
  if setup.generatedProject.isEmpty then
    .ok (finishUnbuilt response
      ⟨.skipped, .skipped, "No generatedProject payload supplied; nothing to verify.".toList⟩ []
      "No generated project payload supplied; build did not run.".toList .empty)
  else
    let safetyDiagnostics := generatedJavaSafetyDiagnostics setup.files
    if !safetyDiagnostics.isEmpty then
      .ok (finishUnbuilt response compileFailure safetyDiagnostics
        "Generated Java contains APIs that are not allowed in the build/test sandbox.".toList
        (.unmatched true "generated-java-policy-denied".toList))
    else
      match tools.materialise setup.files with
      | .unsafe_ message =>
          .ok (finishUnbuilt response compileFailure
            [materialiseDiagnostic setup "materialise-failed".toList message]
            "Generated project could not be materialised safely.".toList .empty)
      | .ioError message =>
          .ok (finishUnbuilt response compileFailure
            [materialiseDiagnostic setup "materialise-io".toList
              ("Failed to write generated project to a temp directory: ".toList ++ message)]
            "Generated project could not be written to the controlled work directory.".toList
            .empty)
      | .written => runCompiled u tools setup response (tools.compile setup.files)

/-- `BuildTestRunnerService.runVerification`. -/
def runVerification (u : UnicodeData) (tools : Tools) (request : Option ObjectMap) :
    Except JavaException Response := do
  let setup ← readRequest u request
  verify u tools setup

end C2c.BuildTest.Verification
