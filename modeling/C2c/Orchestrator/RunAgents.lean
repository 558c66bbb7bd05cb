import C2c.Orchestrator.RunSteps

namespace C2c.Orchestrator.RunAgents

open C2c.Library.JavaText
open C2c.Library.PythonText
open C2c.Library.PythonJson
open C2c.Library.Raising
open C2c.Orchestrator.RunContract
open C2c.Orchestrator.StepReplies
open C2c.Orchestrator.RunErrors
open C2c.Orchestrator.RunSteps

section Gateway

variable (env : Env) {A : Type}

/-- `_call_model_gateway` and the decoding of its reply: the prompt, the
capability and the role are checked before the gateway is called. -/
def callModelGateway (answer : Nat → Except Raised A) : Run A := do
  outside env
  noteGatewayStep (some .agentCall)
  let t ← tick
  returning (answer t)

end Gateway

section Transformation

variable (env : Env) (options : Options)

/-- `TransformationAgentResult`. -/
structure TransformationResult where
  candidate : Option JavaCandidate := none
  javaCandidateRef : Option Reference := none
  status : Text
  failureCode : Option Text := none
  failureMessage : Option Text := none

/-- An agent error leaves a ledger entry and a failed response behind. -/
def recordingResponse {A : Type} (m : Run A) : Run A :=
  tryCatch m fun e =>
    match e.kind with
    | .transformationAgent _ => do
        outside env
        outside env
        throw e
    | _ => throw e

/-- The files of a candidate and their manifest are stored. -/
def storeCandidate (candidate : JavaCandidate) : Run Reference := do
  outsideEach env candidate.files
  let reference ← writeReferenced env
  recordProject (some reference) candidate.files
  pure reference

/-- What `invoke` makes of the decoded reply. -/
def transformationResult : TransformationReply → Run TransformationResult
  | .success candidate => do
      let reference ← storeCandidate env candidate
      outside env
      pure { candidate := some candidate, javaCandidateRef := some reference,
             status := "success".toList }
  | .declined status failureCode failureMessage => do
      outside env
      pure { status := status, failureCode := some failureCode,
             failureMessage := some failureMessage }

/-- `TransformationAgent.invoke`. -/
def transformationAgentInvoke : Run TransformationResult := do
  outside env
  let reply ← recordingResponse env (callModelGateway env env.transformation)
  transformationResult env reply

/-- `_invoke_transformation_agent`. -/
def invokeTransformationAgent : Run TransformationResult := do
  outside env
  let _ ← requireCapability env options .modelGateway
  recordAgentAttempt env
  outside env
  transformationAgentInvoke env

end Transformation

section Repair

variable (env : Env) (options : Options)

/-- What `RepairAgentRequest` checks and the agent reads. -/
structure RepairRequest where
  attemptNumber : Nat
  failureCategory : FailureCode
  previousJavaCandidateRef : Reference
  previousJavaFiles : List (Text × Text)
  buildTestResultRef : Reference
  manualRegions : List Json
  assistReasonCode : Option Text

/-- `VALID_FAILURE_CATEGORIES`. -/
def validFailureCategories : List FailureCode :=
  [.javaCompileFailed, .javaRuntimeFailed, .oracleMismatch]

def isHexDigit (c : Char) : Bool :=
  c.isDigit || (decide ('a' ≤ c) && decide (c ≤ 'f')) || (decide ('A' ≤ c) && decide (c ≤ 'F'))

/-- `_looks_like_artifact_ref`. -/
def looksLikeArtifactRef (ref : Reference) : Bool :=
  !ref.uri.isEmpty && ref.sha256.length == 64 && ref.sha256.all isHexDigit

/-- Whether the origin of a manual region is one of the manual ones. -/
def isManualRegion (region : Json) : Bool :=
  isMapping region &&
    (isText (get region "originClass") "manual_modified" ||
      isText (get region "originClass") "manual_edit")

/-- The first value error of `RepairAgentRequest.__post_init__`. -/
def requestError (request : RepairRequest) : Option Text :=
  if options.runId = [] then some "run_id is required".toList
  else if options.workflowId = [] then some "workflow_id is required".toList
  else if request.attemptNumber < 1 then some "attempt_number must be >= 1".toList
  else if request.failureCategory ∉ validFailureCategories then
    some ("failure_category must be one of ('java_compile_failed', ".toList ++
      "'java_runtime_failed', 'oracle_mismatch'), got ".toList ++
      reprText request.failureCategory.text)
  else if ¬ looksLikeArtifactRef request.previousJavaCandidateRef then
    some "previous_java_candidate_ref must be an artifact ref".toList
  else if ¬ looksLikeArtifactRef request.buildTestResultRef then
    some "build_test_result_ref must be an artifact ref".toList
  else if ¬ request.manualRegions.all isManualRegion then
    some "manual_regions originClass must be one of ('manual_modified', 'manual_edit')".toList
  else none

/-- `RepairAgentResult`. -/
structure RepairResult where
  decision : RepairDecision
  candidate : Option JavaCandidate := none
  refusalCode : Option Text := none
  escalationCode : Option Text := none
  rationale : Text
  failureCode : Option FailureCode := none
  failureMessage : Option Text := none
  modelInvocationRef : Option Text := none
  newJavaCandidateRef : Option Reference := none
  repairInputRef : Option Reference := none
  repairDecisionRef : Option Reference := none
  manualRegionBlock : Bool := false

/-- The result of `_maybe_manual_region_block` when the guard fires. -/
def manualRegionResult (request : RepairRequest) : RepairResult where
  decision := .noChange
  rationale :=
    "manual-edit assist-interaction rule (ADR 0007 §5): iteration targets a manual ".toList ++
      "region without ``assistDecision.reasonCode = caller_explicit_opt_in``; ".toList ++
      "no model invocation, no candidate output.".toList
  failureCode := some .javaGenerationFailed
  failureMessage := some ("manual-region guard blocked repair attempt ".toList ++
    natText request.attemptNumber ++ "; ".toList ++ natText request.manualRegions.length ++
    " manual region(s) require explicit opt-in".toList)
  manualRegionBlock := true

/-- An agent error leaves a failure decision behind and carries the references
of the artifacts of the attempt. -/
def recordingDecision {A : Type} (inputRef : Reference) (m : Run A) : Run A :=
  tryCatch m fun e =>
    match e.kind with
    | .repairAgent kind modelInvocationRef _ _ => do
        let decisionRef ← writeReferenced env
        throw { e with
          kind := .repairAgent kind modelInvocationRef (some inputRef) (some decisionRef) }
    | _ => throw e

/-- The result of a decoded decision, its artifacts being stored. -/
def repairResult (request : RepairRequest) (inputRef : Reference) (answer : RepairAnswer) :
    RepairReply → Run RepairResult
  | .proposeCandidate candidate => do
      let reference ← storeCandidate env candidate
      let decisionRef ← writeReferenced env
      let isNoChange := decide (request.previousJavaFiles ≠ [] ∧
        env.filesDigest request.previousJavaFiles = env.filesDigest candidate.files)
      pure
        { decision := if isNoChange then .noChange else .proposeCandidate
          candidate := some candidate
          rationale := answer.rationale
          failureCode := if isNoChange then some .javaGenerationFailed else none
          failureMessage := if isNoChange then
              some ("no-change repair detected after attempt ".toList ++
                natText request.attemptNumber ++ "; terminating loop".toList)
            else none
          modelInvocationRef := some answer.modelInvocationRef
          newJavaCandidateRef := some reference
          repairInputRef := some inputRef
          repairDecisionRef := some decisionRef }
  | .refuse refusalCode => do
      let decisionRef ← writeReferenced env
      pure
        { decision := .refuse
          refusalCode := some refusalCode
          rationale := answer.rationale
          failureCode := some (refusalFailureCode refusalCode)
          failureMessage := some ("repair refused: ".toList ++ refusalCode ++ "; ".toList ++
            answer.rationale)
          modelInvocationRef := some answer.modelInvocationRef
          repairInputRef := some inputRef
          repairDecisionRef := some decisionRef }
  | .escalate escalationCode => do
      let decisionRef ← writeReferenced env
      pure
        { decision := .escalate
          escalationCode := some escalationCode
          rationale := answer.rationale
          failureCode := some .javaGenerationFailed
          failureMessage := some ("repair escalated: ".toList ++ escalationCode ++ "; ".toList ++
            answer.rationale)
          modelInvocationRef := some answer.modelInvocationRef
          repairInputRef := some inputRef
          repairDecisionRef := some decisionRef }

/-- `RepairAgent.invoke`; the checks of the input and of the decision are made
with the writes they come before. -/
def repairAgentInvoke (request : RepairRequest) : Run RepairResult := do
  modify fun s => { s with
    traffic := { s.traffic with repairCalls := s.traffic.repairCalls + 1 } }
  if shouldManualRegionBlockRepair request.manualRegions request.assistReasonCode then
    pure (manualRegionResult request)
  else do
    let inputRef ← writeReferenced env
    let answer ← recordingDecision env inputRef (callModelGateway env env.repair)
    recordingDecision env inputRef (repairResult env request inputRef answer answer.reply)

/-- `_invoke_repair_agent`. -/
def invokeRepairAgent (request : RepairRequest) : Run RepairResult := do
  outside env
  let _ ← requireCapability env options .modelGateway
  match requestError options request with
  | some text => throw (raisedOther text)
  | none => repairAgentInvoke env request

/-- `except RepairAgentError`: any other exception goes on. -/
def catchingRepairError (m : Run RepairResult) : Run (Except Raised RepairResult) :=
  tryCatch (Except.ok <$> m) fun e =>
    match e.kind with
    | .repairAgent _ _ _ _ => pure (.error e)
    | _ => throw e

end Repair

end C2c.Orchestrator.RunAgents
