import C2c.Orchestrator.RunAgents

namespace C2c.Orchestrator.WorkflowRun

open C2c.Library.JavaText
open C2c.Library.PythonText
open C2c.Library.PythonJson
open C2c.Library.Raising
open C2c.Orchestrator.RunContract
open C2c.Orchestrator.StepReplies
open C2c.Orchestrator.RunErrors
open C2c.Orchestrator.RunSteps
open C2c.Orchestrator.RunAgents

variable (env : Env) (options : Options)

/-- The capabilities `run` requires before the first step. -/
structure Capabilities where
  parse : Capability
  ir : Capability
  generator : Capability
  sourceReference : Option Capability
  buildTest : Capability
  evidence : Capability

section Intake

def stepGenerateIr : Text := "generate-ir".toList

def stepGenerateJava : Text := "generate-java".toList

/-- The run directory and the source are written and the run is accepted. -/
def acceptRun : Run PUnit := do
  -- the run directory, source.cbl and source-ref.json
  outside env
  outside env
  outside env
  writeSummary env "starting".toList "orchestrator workflow accepted".toList none
  advanceW02 env .sourceNormalized (some "normalize-source".toList)
    "source persisted to artifact store".toList none
  updateRun env "updating".toList "orchestrator workflow started".toList
  writeSummary env "updating".toList "orchestrator workflow started".toList none
  if options.modelPrompt = [] then persistModelPolicySkipped env else pure ⟨⟩

/-- The source/reference capability of a parity run. -/
def requireSourceReference : Run (Option Capability) :=
  if options.parityRun then some <$> requireCapability env options .sourceReference
  else pure none

def requireCapabilities : Run Capabilities := do
  let parse ← requireCapability env options .parse
  let ir ← requireCapability env options .ir
  let generator ← requireCapability env options .generator
  let sourceReference ← requireSourceReference env options
  let buildTest ← requireCapability env options .buildTest
  let evidence ← requireCapability env options .evidence
  updateContract env (setActiveStep (some stepParseCobol))
  pure ⟨parse, ir, generator, sourceReference, buildTest, evidence⟩

def parseCobol (capabilities : Capabilities) : Run PUnit := do
  let _ ← invokeStep env options stepParseCobol capabilities.parse
  outside env
  writeSummary env "updating".toList "parse-cobol completed".toList none
  advanceW02 env .cobolParseAttempted (some stepGenerateIr) "cobol parser returned ok".toList none

/-- A failed call of `generate-ir` marks the semantic IR blocked. -/
def invokeGenerateIr (capabilities : Capabilities) : Run Json :=
  tryCatch (invokeStep env options stepGenerateIr capabilities.ir) fun e => do
    advanceW02 env .semanticIrBlocked (some stepGenerateIr) "semantic IR generation failed".toList
      (some .semanticIrFailed)
    throw e

/-- The checked semantic IR is stored and becomes the run's. -/
def keepIr (document : Json) : Run PUnit := do
  outside env
  modify fun s => { s with irDocument := document }
  writeSummary env "updating".toList "generate-ir completed".toList none
  advanceW02 env .semanticIrReady (some stepGenerateJava) "semantic IR produced".toList none

def generateIr (capabilities : Capabilities) : Run PUnit := do
  let payload ← invokeGenerateIr env options capabilities
  match irDocument payload with
  | none => throw (raisedOther "irOutput has no attribute 'get'".toList)
  | some document => do
      outside env
      if irRefused payload document then do
        advanceW02 env .semanticIrBlocked (some stepGenerateIr)
          "semantic IR was not produced".toList (some .semanticIrFailed)
        throw ⟨.stepExecution false,
          "step generate-ir failed: semantic IR was not produced".toList, []⟩
      else keepIr env document

end Intake

section Candidate

/-- The generated project, its files and its manifest are stored. -/
def storeGeneratedProject (generatedProject : Json) : Run PUnit := do
  outsideEach env (iterGeneratedFiles generatedProject)
  let t ← tick
  match env.raises t with
  | some e => throw e
  | none => do
      recordProject (env.reference t) (iterGeneratedFiles generatedProject)
      updateLocals fun v => { v with
        generatedProject := generatedProject
        generatedArtifactRef := env.reference t }

def generateJava (capabilities : Capabilities) : Run PUnit := do
  advanceW02 env .baselineGenerationAttempted (some stepGenerateJava)
    "deterministic java generator invoked".toList none
  let payload ← invokeStep env options stepGenerateJava capabilities.generator
  match env.guardAgentInvocationPayload payload with
  | some error =>
      throw ⟨.agentContractInvalidStep, "step generate-java failed: ".toList ++ error, []⟩
  | none => do
      updateLocals fun v => { v with
        generatorOutputRef := coerceStepOutputRef env options payload stepGenerateJava }
      outside env
      storeGeneratedProject env (firstNonEmptyMapping (get payload "generatedProject"))
      writeSummary env "updating".toList "generate-java completed".toList none

/-- The decision of the assist gate, and the assist budget after it. -/
def assistDecisionOf (s : RunState) : AssistDecision × Budget :=
  if options.useTransformationAgent then
    match s.contract.assistBudget.consume with
    | none => (⟨false, "assist_budget_exhausted".toList, none⟩, s.contract.assistBudget)
    | some budget =>
        (⟨true, (detectDeterministicUncertainty s.irDocument s.locals.generatedProject).getD
          callerExplicitOptIn, some "transformation".toList⟩, budget)
  else (⟨false, "caller_did_not_opt_in".toList, none⟩, s.contract.assistBudget)

/-- `_record_assist_decision`. -/
def recordAssistDecision : Run PUnit := do
  let s ← get
  updateContract env fun contract =>
    { contract with
      activeStep := some "assist-decision".toList
      assistDecision := some (assistDecisionOf options s).1
      assistBudget := (assistDecisionOf options s).2 }
  outside env

/-- `assist_authorised`. -/
def assistAuthorised (contract : W02RunContract) : Bool :=
  match contract.assistDecision with
  | none => false
  | some decision => decision.required && decision.selectedAgentRole == some "transformation".toList

/-- What the runner raises for an error of the transformation agent. -/
def transformationFailure (e : Raised) : Raised :=
  match e.kind with
  | .transformationAgent .policyDenied =>
      ⟨.modelPolicyDeniedStep,
        "transformation agent blocked by model gateway policy: ".toList ++ e.text, e.text⟩
  | .transformationAgent .contractInvalid =>
      ⟨.agentContractInvalidStep,
        "transformation agent contract violation: ".toList ++ e.text, e.text⟩
  | .transformationAgent .gatewayUnavailable | .transformationAgent .timeout =>
      ⟨.stepExecution false,
        "transformation agent step transformation-agent failed: ".toList ++ e.text, e.text⟩
  | _ => e

/-- What the projects of both agents have in common. -/
def candidateMembers (candidate : JavaCandidate) (generationSource : String) :
    List (Text × Json) :=
  [("entryFilePath".toList, .text candidate.entryFilePath),
    ("fileCount".toList, .number (natText candidate.files.length)),
    ("files".toList, .object (candidate.files.map fun file => (file.1, .text file.2))),
    ("unsupportedConstructs".toList, .array (candidate.unsupportedConstructs.map .text)),
    ("generationSource".toList, .text generationSource.toList)]

def qualifiedEntryClass (candidate : JavaCandidate) : Text :=
  if candidate.entryPackage = [] then candidate.entryClass
  else candidate.entryPackage ++ '.' :: candidate.entryClass

/-- The project of a candidate of the transformation agent. -/
def transformationProject (candidate : JavaCandidate) : Json :=
  .object (("entryClass".toList, .text (qualifiedEntryClass candidate)) ::
    ("entryPackage".toList, .text candidate.entryPackage) ::
    candidateMembers candidate "transformation-agent")

/-- The project of a candidate of the repair agent. -/
def repairProject (candidate : JavaCandidate) : Json :=
  .object (("entryClass".toList, .text candidate.entryClass) ::
    candidateMembers candidate "verification-repair-agent")

/-- The failure codes a run without a candidate may be blocked with. -/
def transformationFailureCode (failureCode : Option Text) : FailureCode :=
  match readFailureCode (orText failureCode "java_generation_failed".toList) with
  | some code =>
      if code ∈ [.agentContractInvalid, .modelPolicyDenied, .modelGatewayUnavailable,
          .unsupportedCobol, .agentTimeout, .javaGenerationFailed] then code
      else .javaGenerationFailed
  | none => .javaGenerationFailed

/-- The agent's candidate takes the place of the baseline; without one the run
is blocked. -/
def useTransformationResult (result : TransformationResult) : Run PUnit :=
  match result.candidate with
  | some candidate => do
      updateLocals fun v => { v with
        generatedArtifactRef := result.javaCandidateRef.orElse fun _ => v.generatedArtifactRef
        generatedProject := transformationProject candidate }
      writeSummary env "updating".toList "transformation-agent completed".toList none
  | none =>
      updateLocals fun v => { v with
        blocked := true
        failureCode := some (transformationFailureCode result.failureCode)
        failureMessage := some (orText result.failureMessage
          ("transformation agent returned ".toList ++ result.status)) }

/-- The productive transformation agent, when the assist gate allows it. -/
def transform : Run PUnit := do
  let s ← get
  if options.useTransformationAgent ∧ assistAuthorised s.contract ∧ ¬ options.parityRun then do
    advanceW02 env .transformationAgentInvoked (some stepTransformationAgent)
      "productive transformation agent invoked".toList none
    let spent ← spendModelUnit
    if spent then do
      let result ← tryCatch (invokeTransformationAgent env options) fun e =>
        throw (transformationFailure e)
      useTransformationResult env result
    else do
      let s ← get
      throw ⟨.stepExecution true,
        "transformation agent step transformation-agent blocked by ".toList ++
          "model invocation budget exhaustion: ".toList ++
          modelBudgetExhaustedText s.contract.modelInvocationBudget, []⟩
  else pure ⟨⟩

/-- The candidate of the run is recorded in the contract. -/
def persistCandidate : Run PUnit := do
  let s ← get
  if s.locals.generatedArtifactRef.isSome then
    updateContract env fun contract =>
      { contract with generatedJavaRef := s.locals.generatedArtifactRef }
  else pure ⟨⟩
  advanceW02 env .javaCandidatePersisted (some stepCompileTestJava)
    "java candidate persisted to artifact store".toList none

/-- Everything up to the persisted candidate. -/
def produceCandidate : Run Capabilities := do
  acceptRun env options
  let capabilities ← requireCapabilities env options
  parseCobol env options capabilities
  generateIr env options capabilities
  generateJava env options capabilities
  recordAssistDecision env options
  transform env options
  persistCandidate env
  pure capabilities

end Candidate

section Verification

/-- The answer to a build request of the current candidate. -/
def runBuild (capabilities : Capabilities) : Run Json := do
  let s ← get
  let payload ← invokeStep env options stepCompileTestJava capabilities.buildTest
  modify fun s' => { s' with
    traffic := { s'.traffic with
      builds := ⟨s.locals.generatedProject, s.locals.generatedArtifactRef, payload⟩ ::
        s'.traffic.builds }
    locals := { s'.locals with buildTestOutput := some payload } }
  pure payload

def setBuildTestResultRef (payload : Json) : Run PUnit :=
  updateContract env fun contract =>
    { contract with
      buildTestResultRef := some (coerceStepOutputRef env options payload stepCompileTestJava) }

/-- `success, build_failure_code = build_test_outcome(...)`. -/
def classifyBuild (payload : Json) : Run PUnit :=
  updateLocals fun v => { v with
    success := (buildTestOutcome payload).isNone
    buildFailureCode := buildTestOutcome payload }

/-- The failure of a source/reference execution that did not pass. -/
def sourceReferenceFailure (payload : Json) : FailureCode :=
  if sourceReferenceUnsupported payload then .unsupportedCobol else .sourceReferenceFailed

/-- The source/reference execution of a parity run. -/
def runSourceReference (capabilities : Capabilities) : Run PUnit :=
  match capabilities.sourceReference, options.sourceReferenceFixtureId,
      options.sourceReferenceMode with
  | some capability, some _, some _ => do
      let payload ← invokeStep env options "source-reference-execution".toList capability
      outside env
      writeSummary env "updating".toList "source/reference execution completed".toList none
      if sourceReferencePassed payload then pure ⟨⟩
      else do
        blockRun env (some (sourceReferenceFailure payload))
          ((textOf (get payload "summary")).getD "source/reference execution failed".toList)
  | none, _, _ =>
      throw (raisedOther "parity run requires source-reference capability".toList)
  | _, _, _ =>
      throw (raisedOther
        "parity run requires source reference fixtureId and referenceMode".toList)

/-- The first build of the run. -/
def firstBuild (capabilities : Capabilities) : Run PUnit := do
  let payload ← runBuild env options capabilities
  outside env
  writeSummary env "updating".toList "compile-test-java completed".toList none
  setBuildTestResultRef env options payload
  -- the parity comparison
  outside env
  classifyBuild payload
  if options.parityRun ∧ (buildTestOutcome payload).isSome then do
    blockRun env (buildTestOutcome payload)
      ((textOf (get payload "summary")).getD "parity verification failed".toList)
  else pure ⟨⟩

/-- A build of a run that is not blocked. -/
def verifyUnblocked (capabilities : Capabilities) : Run PUnit := do
  advanceW02 env .buildTestRunning (some stepCompileTestJava)
    "build-test runner invoked".toList none
  if options.parityRun then do
    runSourceReference env options capabilities
    -- the expected output of the fixture
    outside env
  else pure ⟨⟩
  let s ← get
  if s.locals.blocked then pure ⟨⟩ else firstBuild env options capabilities

/-- The first verification; a run the agent blocked is not built. -/
def verify (capabilities : Capabilities) : Run PUnit := do
  let s ← get
  if s.locals.blocked then
    advanceW02 env .runBlocked none
      (orText s.locals.failureMessage "transformation agent blocked".toList) s.locals.failureCode
  else verifyUnblocked env options capabilities

end Verification

section Repair

def exhaustedRepairMessage (limit : Nat) : Text :=
  "build-test verification failed; repair budget (".toList ++ natText limit ++
    ") exhausted".toList

/-- The request for the current failing candidate. -/
def repairRequest (s : RunState) : RepairRequest where
  attemptNumber := s.locals.repairAttemptCounter
  failureCategory := s.locals.buildFailureCode.getD .javaCompileFailed
  previousJavaCandidateRef := s.locals.generatedArtifactRef.getD s.locals.generatorOutputRef
  previousJavaFiles := iterGeneratedFiles s.locals.generatedProject
  buildTestResultRef :=
    coerceStepOutputRef env options (s.locals.buildTestOutput.getD .null) stepCompileTestJava
  manualRegions := options.manualOverlayRegions
  assistReasonCode := s.contract.assistDecision.map AssistDecision.reasonCode

/-- Whether the manual-region guard blocks the repair. -/
def manualBlockPending (s : RunState) : Bool :=
  shouldManualRegionBlockRepair options.manualOverlayRegions
    (s.contract.assistDecision.map AssistDecision.reasonCode)

/-- The entry of an attempt that ended without a result. -/
def refusedAttempt (s : RunState) (refusalCode : String) (rationale : Text) : RepairAttempt where
  attemptNumber := s.locals.repairAttemptCounter
  repairDecision := .refuse
  failureCategory := s.locals.buildFailureCode.map FailureCode.text
  refusalCode := some refusalCode.toList
  rationale := some rationale
  buildTestResultRef := some (repairRequest env options s).buildTestResultRef

/-- The entry of an attempt that the agent answered. -/
def answeredAttempt (s : RunState) (result : RepairResult) : RepairAttempt where
  attemptNumber := s.locals.repairAttemptCounter
  repairDecision := result.decision
  failureCategory := s.locals.buildFailureCode.map FailureCode.text
  refusalCode := result.refusalCode
  escalationCode := result.escalationCode
  rationale := some result.rationale
  modelInvocationRef := result.modelInvocationRef
  repairInputRef := result.repairInputRef
  repairDecisionRef := result.repairDecisionRef
  javaCandidateRef := result.newJavaCandidateRef
  buildTestResultRef := some (repairRequest env options s).buildTestResultRef
  manualRegionBlock := result.manualRegionBlock

def recordAttempt (entry : RepairAttempt) : Run PUnit := do
  let s ← get
  onContract (recordRepairAttempt entry (env.now s.clock))

/-- The attempt ends before the agent is reached: no model unit is left. -/
def refuseForBudget : Run Bool := do
  let s ← get
  let text := modelBudgetExhaustedText s.contract.modelInvocationBudget
  recordAttempt env (refusedAttempt env options s "model_invocation_budget_exhausted" text)
  blockRun env s.locals.buildFailureCode
    ("verification/repair agent blocked by model invocation budget exhaustion: ".toList ++ text)
  pure false

/-- The references an error of the repair agent carries. -/
def withErrorRefs (entry : RepairAttempt) (e : Raised) : RepairAttempt :=
  match e.kind with
  | .repairAgent _ modelInvocationRef repairInputRef repairDecisionRef =>
      { entry with
        modelInvocationRef := modelInvocationRef
        repairInputRef := repairInputRef
        repairDecisionRef := repairDecisionRef }
  | _ => entry

def repairErrorCode (e : Raised) : FailureCode :=
  match e.kind with
  | .repairAgent kind _ _ _ => failureCodeForRepairException kind
  | _ => .javaGenerationFailed

/-- The attempt ends with an error of the repair agent. -/
def recordRepairError (e : Raised) : Run Bool := do
  let s ← get
  recordAttempt env (withErrorRefs (refusedAttempt env options s "no_safe_repair" e.text) e)
  blockRun env (some (repairErrorCode e)) ("verification/repair agent failed: ".toList ++ e.text)
  pure false

/-- The agent's candidate takes the place of the failing one and is built. -/
def rebuild (capabilities : Capabilities) (attempt : Nat) (candidate : JavaCandidate)
    (reference : Reference) : Run Bool := do
  updateContract env fun contract => { contract with generatedJavaRef := some reference }
  updateLocals fun v => { v with
    generatedArtifactRef := some reference
    generatedProject := repairProject candidate }
  advanceW02 env .javaCandidatePersisted (some stepCompileTestJava)
    ("repair attempt ".toList ++ natText attempt ++ " produced candidate java".toList) none
  advanceW02 env .buildTestRunning (some stepCompileTestJava)
    ("repair attempt ".toList ++ natText attempt ++ " build-test invoked".toList) none
  let payload ← runBuild env options capabilities
  setBuildTestResultRef env options payload
  outside env
  outside env
  classifyBuild payload
  pure true

/-- `_failure_code_for_repair_outcome`. -/
def failureCodeForRepairOutcome (result : RepairResult) : FailureCode :=
  match result.decision, result.refusalCode with
  | .refuse, some code => refusalFailureCode code
  | _, _ => .javaGenerationFailed

/-- What the decision of the agent leads to. -/
def followDecision (capabilities : Capabilities) (attempt : Nat) (result : RepairResult) :
    Run Bool := do
  match result.decision with
  | .refuse | .escalate => do
      blockRun env (some (result.failureCode.getD (failureCodeForRepairOutcome result)))
        (orText result.failureMessage result.rationale)
      pure false
  | .noChange => do
      blockRun env (some (result.failureCode.getD .javaGenerationFailed))
        (orText result.failureMessage ("no-change repair detected after attempt ".toList ++
          natText attempt ++ "; terminating loop".toList))
      pure false
  | .proposeCandidate =>
      match result.candidate, result.newJavaCandidateRef with
      | some candidate, some reference =>
          rebuild env options capabilities attempt candidate reference
      | _, _ => do
          blockRun env (some .agentContractInvalid)
            "verification/repair agent returned propose_candidate without a Java candidate".toList
          pure false

/-- The attempt is recorded whatever the agent decided. -/
def recordRepairResult (capabilities : Capabilities) (result : RepairResult) : Run Bool := do
  let s ← get
  recordAttempt env (answeredAttempt env options s result)
  followDecision env options capabilities s.locals.repairAttemptCounter result

/-- The agent is asked for a repair. -/
def askForRepair (capabilities : Capabilities) : Run Bool := do
  let s ← get
  let outcome ← catchingRepairError (invokeRepairAgent env options (repairRequest env options s))
  match outcome with
  | .error e => recordRepairError env options e
  | .ok result => recordRepairResult env options capabilities result

/-- One model unit is spent unless the manual-region guard blocks the repair. -/
def spendForRepair : Run Bool := do
  let s ← get
  if manualBlockPending options s then pure true else spendModelUnit

/-- An attempt whose repair unit has been spent. -/
def attemptRepair (capabilities : Capabilities) : Run Bool := do
  updateLocals fun v => { v with repairAttemptCounter := v.repairAttemptCounter + 1 }
  recordAgentAttempt env
  let spent ← spendForRepair options
  if spent then askForRepair env options capabilities else refuseForBudget env options

/-- The run is blocked because no repair unit is left. -/
def blockExhausted : Run Bool := do
  let s ← get
  blockRun env s.locals.buildFailureCode
    (exhaustedRepairMessage s.contract.repairBudget.limit)
  pure false

/-- A repair unit is spent and an attempt made. -/
def startAttempt (capabilities : Capabilities) : Run Bool := do
  let s ← get
  advanceW02 env .verificationRepairInvoked (some stepVerificationRepairAgent)
    "verification/repair agent invoked".toList s.locals.buildFailureCode
  let s ← get
  match s.contract.repairBudget.consume with
  | none => blockExhausted env
  | some budget => do
      modify fun s => { s with contract := { s.contract with repairBudget := budget } }
      attemptRepair env options capabilities

/-- One turn of the repair loop; whether there is another. -/
def repairTurn (capabilities : Capabilities) : Run Bool := do
  let s ← get
  if s.contract.repairBudget.exhausted then blockExhausted env
  else if iterGeneratedFiles s.locals.generatedProject = [] then do
    blockRun env s.locals.buildFailureCode
      "verification/repair agent cannot run without the previous candidate's files".toList
    pure false
  else startAttempt env options capabilities

/-- The condition of the repair loop. -/
def needsRepair (s : RunState) : Bool :=
  s.locals.buildTestOutput.isSome && !s.locals.success && !options.parityRun

/-- The repair loop, of so many turns at most; whether it came to its end. -/
def repairLoop (capabilities : Capabilities) : Nat → Run Bool
  | 0 => pure false
  | turns + 1 => do
      let s ← get
      if needsRepair options s then do
        let again ← repairTurn env options capabilities
        if again then repairLoop capabilities turns else pure true
      else pure true

/-- Every turn but the last spends a unit of the repair budget. -/
def repairTurns (contract : W02RunContract) : Nat :=
  contract.repairBudget.limit + 1

def repair (capabilities : Capabilities) : Run PUnit := do
  let s ← get
  let _ ← repairLoop env options capabilities (repairTurns s.contract)

end Repair

section Evidence

/-- A verified candidate becomes the final one. -/
def selectFinalJava : Run PUnit := do
  let s ← get
  if s.locals.success then
    advanceW02 env .finalJavaSelected (some stepWriteEvidence)
      "build-test verified java candidate".toList none
  else pure ⟨⟩

/-- The model guidance of a run that is not blocked. -/
def guide : Run PUnit := do
  let s ← get
  if options.modelPrompt ≠ [] ∧ ¬ s.locals.blocked ∧ ¬ options.parityRun then do
    let capability ← requireCapability env options .modelGateway
    let _ ← invokeStep env options stepModelGuidance capability
    modify fun s => { s with modelOutput := true }
    outside env
    writeSummary env "updating".toList "model-guidance completed".toList none
  else persistModelPolicySkipped env

/-- `_fetch_trajectory_ledger`. -/
def fetchTrajectoryLedger : Run PUnit :=
  tryCatch (outside env) fun e =>
    throw ⟨.other, "trajectory ledger unavailable: ".toList ++ e.text, e.text⟩

/-- The evidence of the run is written. -/
def writeEvidence (capabilities : Capabilities) : Run PUnit := do
  fetchTrajectoryLedger env
  -- trajectory-ledger.json, the manual edits, their overlay and the payload
  outside env
  outside env
  outside env
  outside env
  let payload ← invokeStep env options stepWriteEvidence capabilities.evidence
  updateLocals fun v => { v with evidenceOutput := some payload }
  outside env
  updateContract env fun contract =>
    { contract with
      evidencePackRef := some (coerceStepOutputRef env options payload stepWriteEvidence) }

/-- The code of an incomplete evidence pack. -/
def evidenceFailureCode (v : Locals) : FailureCode :=
  if v.blocked then v.failureCode.getD .evidenceIncomplete else .evidenceIncomplete

/-- An incomplete evidence pack blocks a run that is not blocked. -/
def blockOnEvidence (v : Locals) : Locals :=
  if v.blocked then v
  else { v with
    blocked := true
    failureCode := some .evidenceIncomplete
    failureMessage := some "evidence pack incomplete".toList }

/-- The evidence outcome of the run. -/
def classifyEvidence : Run PUnit := do
  let s ← get
  if evidenceMaterialized (s.locals.evidenceOutput.getD .null) then
    advanceW02 env .evidenceMaterialized (some "finalize".toList)
      (if s.locals.blocked then "blocked-run evidence pack materialised".toList
        else "evidence pack materialised".toList) none
  else do
    advanceW02 env .evidenceIncomplete (some "finalize".toList) "evidence pack incomplete".toList
      (some (evidenceFailureCode s.locals))
    updateLocals blockOnEvidence

end Evidence

section Exits

def generateOnlyMessage : Text :=
  "generator-only run completed; verification was not requested".toList

/-- The exit of a run that was to generate only. -/
def finishGenerateOnly : Run PUnit := do
  advanceW02 env .runBlocked none generateOnlyMessage (some .generateOnlyComplete)
  finalizeRun env .incomplete (some .generateOnlyComplete) (some generateOnlyMessage)
  writeSummary env "completed".toList "generator-only run completed".toList none
  updateRun env "completed".toList "generator-only run completed".toList

/-- `final_classification`. -/
def finalClassificationOf (v : Locals) : Classification :=
  if v.blocked then
    if v.failureCode = some .evidenceIncomplete then .incomplete else .blocked
  else .success

/-- The message of a blocked run; the failure code stands in for a missing one. -/
def blockedMessage (failureCode : Option FailureCode) (failureMessage : Option Text) : Text :=
  orText failureMessage ("W0.2 workflow blocked: ".toList ++
    (failureCode.map FailureCode.text).getD "None".toList)

/-- The exit of a blocked run. -/
def finishBlocked (v : Locals) : Run PUnit := do
  finalizeRun env (finalClassificationOf v) v.failureCode v.failureMessage
  let message := blockedMessage v.failureCode v.failureMessage
  writeSummary env "blocked".toList message (some stepCompileTestJava)
  updateRun env "failed".toList message

/-- The exit of a successful run. -/
def finishSuccess : Run PUnit := do
  finalizeRun env .success none (some "workflow completed".toList)
  writeSummary env "completed".toList "W0 migration workflow completed".toList none
  updateRun env "completed".toList "W0 migration workflow completed".toList

/-- The trust summary is built and the run finalised. -/
def conclude : Run PUnit := do
  outside env
  let s ← get
  if s.locals.blocked then finishBlocked env s.locals else finishSuccess env

/-- The run from its candidate to its evidence. -/
def verifyCandidate (capabilities : Capabilities) : Run PUnit := do
  verify env options capabilities
  repair env options capabilities
  selectFinalJava env
  guide env options
  writeEvidence env options capabilities
  classifyEvidence env

/-- The body of `run`, past the creation of the contract. -/
def body : Run PUnit := do
  let capabilities ← produceCandidate env options
  let s ← get
  if options.generateOnly ∧ ¬ s.locals.blocked then finishGenerateOnly env
  else do
    verifyCandidate env options capabilities
    conclude env

end Exits

section Failure

/-- `except Exception: pass`. -/
def swallowing (m : Run PUnit) : Run PUnit :=
  tryCatch m fun _ => pure ⟨⟩

/-- `except IllegalTransitionError: pass`. -/
def swallowingIllegalTransition (m : Run PUnit) : Run PUnit :=
  tryCatch m fun e =>
    match e.kind with
    | .contract (.illegalTransition _ _) => pure ⟨⟩
    | _ => throw e

def workflowFailureMessage (e : Raised) : Text :=
  "W0 migration workflow failed: ".toList ++ e.text

/-- The machine is moved to the state it can be finalised from. -/
def settleMachine (e : Raised) (current : WorkflowState) (code : FailureCode) : Run PUnit :=
  if failedStep e = some stepWriteEvidence ∨ current = .finalJavaSelected then
    swallowingIllegalTransition (advanceW02 env .evidenceIncomplete none
      "evidence pack incomplete after workflow failure".toList (some code))
  else if current ∈ [.runBlocked, .evidenceIncomplete, .evidenceMaterialized] then pure ⟨⟩
  else swallowingIllegalTransition (advanceW02 env .runBlocked none (workflowFailureMessage e)
    (some code))

/-- The contract of a failed run is finalised, unless it already was. -/
def finalizeFailure (e : Raised) : Run PUnit := do
  let s ← get
  let current := s.contract.stateMachine.current
  let code := failureCodeFromException e current (failedStep e)
  if current = .finalClassification then pure ⟨⟩
  else do
    settleMachine env e current code
    let classification := finalClassificationForFailureCode code
    modify fun s => { s with summaryStatus := classification.text }
    swallowingIllegalTransition (finalizeRun env classification (some code)
      (some (workflowFailureMessage e)))

/-- The model policy is recorded as skipped unless the model was asked. -/
def skipUnaskedModel : Run PUnit := do
  let s ← get
  if s.modelOutput then pure ⟨⟩ else persistModelPolicySkipped env

/-- The summary of a failed run. -/
def writeFailureSummary (e : Raised) : Run PUnit := do
  let s ← get
  writeSummary env s.summaryStatus (workflowFailureMessage e) (failedStep e)

/-- The exception path of `run`. -/
def recordFailure (e : Raised) : Run PUnit := do
  swallowing (skipUnaskedModel env)
  swallowing (finalizeFailure env e)
  swallowing (updateRun env "failed".toList (workflowFailureMessage e))
  swallowing (writeFailureSummary env e)

/-- `run`, past the creation of the contract. -/
def run : Run PUnit :=
  tryCatch (body env options) fun e => do
    recordFailure env e
    throw e

/-- The run once `_init_w02_contract` has created its contract. -/
def start (capabilities : CapabilityName → Option Capability) (now : Timestamp) : RunState where
  contract := newRunContract options.runId options.workflowId options.requester
    options.repairBudgetMax options.assistBudgetMax options.modelInvocationBudgetMax now
  capabilities := capabilities

end Failure

end C2c.Orchestrator.WorkflowRun
