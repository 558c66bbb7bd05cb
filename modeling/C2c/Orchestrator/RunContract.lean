import C2c.Library.JavaText
import C2c.Library.Raising

namespace C2c.Orchestrator.RunContract

open C2c.Library.JavaText
open C2c.Library.Raising

/-- The W0.2 workflow states. -/
inductive WorkflowState
  | runAccepted
  | sourceNormalized
  | cobolParseAttempted
  | semanticIrReady
  | semanticIrBlocked
  | baselineGenerationAttempted
  | transformationAgentInvoked
  | javaCandidatePersisted
  | buildTestRunning
  | verificationRepairInvoked
  | finalJavaSelected
  | runBlocked
  | evidenceMaterialized
  | evidenceIncomplete
  | finalClassification
deriving DecidableEq

namespace WorkflowState

def text : WorkflowState → Text
  | runAccepted => "run_accepted".toList
  | sourceNormalized => "source_normalized".toList
  | cobolParseAttempted => "cobol_parse_attempted".toList
  | semanticIrReady => "semantic_ir_ready".toList
  | semanticIrBlocked => "semantic_ir_blocked".toList
  | baselineGenerationAttempted => "baseline_generation_attempted".toList
  | transformationAgentInvoked => "transformation_agent_invoked".toList
  | javaCandidatePersisted => "java_candidate_persisted".toList
  | buildTestRunning => "build_test_running".toList
  | verificationRepairInvoked => "verification_repair_invoked".toList
  | finalJavaSelected => "final_java_selected".toList
  | runBlocked => "run_blocked".toList
  | evidenceMaterialized => "evidence_materialized".toList
  | evidenceIncomplete => "evidence_incomplete".toList
  | finalClassification => "final_classification".toList

end WorkflowState

/-- `WORKFLOW_STATES`. -/
def workflowStates : List WorkflowState :=
  [.runAccepted, .sourceNormalized, .cobolParseAttempted, .semanticIrReady, .semanticIrBlocked,
    .baselineGenerationAttempted, .transformationAgentInvoked, .javaCandidatePersisted,
    .buildTestRunning, .verificationRepairInvoked, .finalJavaSelected, .runBlocked,
    .evidenceMaterialized, .evidenceIncomplete, .finalClassification]

def readState (t : Text) : Option WorkflowState :=
  workflowStates.find? fun state => state.text == t

/-- `_ALLOWED_TRANSITIONS`. -/
def allowedTransitions : WorkflowState → List WorkflowState
  | .runAccepted => [.sourceNormalized, .runBlocked]
  | .sourceNormalized => [.cobolParseAttempted, .runBlocked]
  | .cobolParseAttempted => [.semanticIrReady, .semanticIrBlocked, .runBlocked]
  | .semanticIrReady => [.baselineGenerationAttempted, .transformationAgentInvoked, .runBlocked]
  | .semanticIrBlocked => [.runBlocked, .evidenceIncomplete]
  | .baselineGenerationAttempted =>
      [.transformationAgentInvoked, .javaCandidatePersisted, .runBlocked]
  | .transformationAgentInvoked => [.javaCandidatePersisted, .runBlocked]
  | .javaCandidatePersisted => [.buildTestRunning, .runBlocked]
  | .buildTestRunning => [.finalJavaSelected, .verificationRepairInvoked, .runBlocked]
  | .verificationRepairInvoked =>
      [.transformationAgentInvoked, .javaCandidatePersisted, .buildTestRunning,
        .finalJavaSelected, .runBlocked]
  | .finalJavaSelected => [.evidenceMaterialized, .evidenceIncomplete]
  | .runBlocked => [.evidenceIncomplete, .evidenceMaterialized, .finalClassification]
  | .evidenceMaterialized => [.finalClassification]
  | .evidenceIncomplete => [.finalClassification]
  | .finalClassification => []

inductive FailureCode
  | unsupportedCobol
  | parseFailed
  | semanticIrFailed
  | modelGatewayUnavailable
  | modelPolicyDenied
  | agentTimeout
  | agentContractInvalid
  | javaGenerationFailed
  | sourceReferenceFailed
  | javaCompileFailed
  | javaRuntimeFailed
  | oracleMismatch
  | evidenceIncomplete
  | cancelled
  | generateOnlyComplete
deriving DecidableEq

namespace FailureCode

def text : FailureCode → Text
  | unsupportedCobol => "unsupported_cobol".toList
  | parseFailed => "parse_failed".toList
  | semanticIrFailed => "semantic_ir_failed".toList
  | modelGatewayUnavailable => "model_gateway_unavailable".toList
  | modelPolicyDenied => "model_policy_denied".toList
  | agentTimeout => "agent_timeout".toList
  | agentContractInvalid => "agent_contract_invalid".toList
  | javaGenerationFailed => "java_generation_failed".toList
  | sourceReferenceFailed => "source_reference_failed".toList
  | javaCompileFailed => "java_compile_failed".toList
  | javaRuntimeFailed => "java_runtime_failed".toList
  | oracleMismatch => "oracle_mismatch".toList
  | evidenceIncomplete => "evidence_incomplete".toList
  | cancelled => "cancelled".toList
  | generateOnlyComplete => "generate_only_complete".toList

end FailureCode

/-- `FAILURE_CODES`. -/
def failureCodes : List FailureCode :=
  [.unsupportedCobol, .parseFailed, .semanticIrFailed, .modelGatewayUnavailable,
    .modelPolicyDenied, .agentTimeout, .agentContractInvalid, .javaGenerationFailed,
    .sourceReferenceFailed, .javaCompileFailed, .javaRuntimeFailed, .oracleMismatch,
    .evidenceIncomplete, .cancelled, .generateOnlyComplete]

def readFailureCode (t : Text) : Option FailureCode :=
  failureCodes.find? fun code => code.text == t

inductive Classification
  | success
  | blocked
  | failed
  | cancelled
  | incomplete
deriving DecidableEq

namespace Classification

def text : Classification → Text
  | success => "success".toList
  | blocked => "blocked".toList
  | failed => "failed".toList
  | cancelled => "cancelled".toList
  | incomplete => "incomplete".toList

end Classification

/-- `FINAL_CLASSIFICATIONS`. -/
def finalClassifications : List Classification :=
  [.success, .blocked, .failed, .cancelled, .incomplete]

def readClassification (t : Text) : Option Classification :=
  finalClassifications.find? fun classification => classification.text == t

/-- The exceptions the run contract raises. -/
inductive ContractError
  | unknownState (target : Text)
  | unknownFailureCode (code : Text)
  | illegalTransition (current target : WorkflowState)
  | unknownClassification (classification : Text)
  | failureCodeRequired
  | budgetExhausted (budget : Text) (limit used : Nat)
  | attemptNumberInvalid
deriving DecidableEq

/-- The text of `str(exc)`; the targets an illegal transition lists are left out. -/
def ContractError.text : ContractError → Text
  | unknownState target => "unknown state: ".toList ++ target
  | unknownFailureCode code => "unknown failure code: ".toList ++ code
  | illegalTransition current target =>
      "cannot transition from '".toList ++ current.text ++ "' to '".toList ++ target.text ++
        "'".toList
  | unknownClassification classification =>
      "unknown final classification: ".toList ++ classification
  | failureCodeRequired => "non-success classifications require a failure_code".toList
  | budgetExhausted budget limit used =>
      budget ++ " exhausted (limit=".toList ++ natText limit ++ ", used=".toList ++ natText used ++
        ")".toList
  | attemptNumberInvalid => "repair attempt entry attemptNumber must be >= 1".toList

/-- A timestamp, as `_iso_now` writes it. -/
abbrev Timestamp := Text

structure StateTransition where
  state : WorkflowState
  timestamp : Timestamp
  message : Text := []
  failureCode : Option FailureCode := none
deriving DecidableEq

structure WorkflowStateMachine where
  current : WorkflowState
  history : List StateTransition
deriving DecidableEq

/-- `UNLIMITED_AI_BUDGET`. -/
def unlimitedAiBudget : Nat :=
  2147483647

/-- `clamp_repair_budget`, `clamp_assist_budget` and `clamp_model_invocation_budget`. -/
def clampBudget (value : Int) : Nat :=
  if value < 1 then 1
  else if (unlimitedAiBudget : Int) < value then unlimitedAiBudget
  else value.toNat

/-- `RepairBudget`, `AssistBudget` and `ModelInvocationBudget`. -/
structure Budget where
  limit : Nat
  used : Nat := 0
  within : used ≤ limit := by omega
deriving DecidableEq

namespace Budget

def remaining (b : Budget) : Nat :=
  b.limit - b.used

def exhausted (b : Budget) : Bool :=
  decide (b.limit ≤ b.used)

/-- One unit less, or nothing when none is left. -/
def consume (b : Budget) : Option Budget :=
  if h : b.used < b.limit then some { limit := b.limit, used := b.used + 1, within := h } else none

def ofLimit (value : Int) : Budget where
  limit := clampBudget value
  within := Nat.zero_le _

end Budget

/-- An artifact reference. -/
structure Reference where
  uri : Text
  sha256 : Text
  byteSize : Nat
deriving DecidableEq

inductive RepairDecision
  | proposeCandidate
  | refuse
  | escalate
  | noChange
deriving DecidableEq

/-- An entry `record_repair_attempt` has normalised. -/
structure RepairAttempt where
  attemptNumber : Nat
  repairDecision : RepairDecision
  failureCategory : Option Text := none
  refusalCode : Option Text := none
  escalationCode : Option Text := none
  rationale : Option Text := none
  modelInvocationRef : Option Text := none
  repairInputRef : Option Reference := none
  repairDecisionRef : Option Reference := none
  javaCandidateRef : Option Reference := none
  buildTestResultRef : Option Reference := none
  manualRegionBlock : Bool := false
deriving DecidableEq

/-- The parts of an assist decision the runner reads again. -/
structure AssistDecision where
  required : Bool
  reasonCode : Text
  selectedAgentRole : Option Text := none
deriving DecidableEq

structure W02RunContract where
  runId : Text
  workflowId : Text
  requester : Text
  stateMachine : WorkflowStateMachine
  repairBudget : Budget
  assistBudget : Budget
  modelInvocationBudget : Budget
  activeStep : Option Text := none
  agentAttemptCount : Nat := 0
  generatedJavaRef : Option Reference := none
  buildTestResultRef : Option Reference := none
  evidencePackRef : Option Reference := none
  finalClassification : Option Classification := none
  failureCode : Option FailureCode := none
  failureMessage : Option Text := none
  repairAttempts : List RepairAttempt := []
  assistDecision : Option AssistDecision := none
  createdAt : Timestamp
  updatedAt : Timestamp
deriving DecidableEq

/-- `new_run_contract`. -/
def newRunContract (runId workflowId requester : Text)
    (repairBudgetLimit assistBudgetLimit modelInvocationBudgetLimit : Int) (now : Timestamp) :
    W02RunContract where
  runId := runId
  workflowId := workflowId
  requester := requester
  stateMachine := ⟨.runAccepted, [⟨.runAccepted, now, "run accepted".toList, none⟩]⟩
  repairBudget := .ofLimit repairBudgetLimit
  assistBudget := .ofLimit assistBudgetLimit
  modelInvocationBudget := .ofLimit modelInvocationBudgetLimit
  activeStep := some "accepted".toList
  createdAt := now
  updatedAt := now

/-- A computation on the run contract. -/
abbrev ContractStep := EStateM ContractError W02RunContract

/-- A check of an optional failure code. -/
def checkFailureCode : Option Text → ContractStep (Option FailureCode)
  | none => pure none
  | some code =>
      match readFailureCode code with
      | some code => pure (some code)
      | none => throw (.unknownFailureCode code)

/-- The move of `advance`, its arguments checked. -/
def move (target : WorkflowState) (message : Text) (failureCode : Option FailureCode)
    (now : Timestamp) : ContractStep PUnit := do
  let contract ← get
  let machine := contract.stateMachine
  if target ∈ allowedTransitions machine.current then
    let transition : StateTransition := ⟨target, now, message, failureCode⟩
    let machine : WorkflowStateMachine := ⟨target, machine.history ++ [transition]⟩
    set { contract with stateMachine := machine }
  else throw (.illegalTransition machine.current target)

/-- `WorkflowStateMachine.advance`. -/
def advance (target message : Text) (failureCode : Option Text) (now : Timestamp) :
    ContractStep PUnit := do
  match readState target with
  | none => throw (.unknownState target)
  | some target => do
      let failureCode ← checkFailureCode failureCode
      move target message failureCode now

/-- `touch`. -/
def touch (now : Timestamp) : ContractStep PUnit :=
  modify fun contract => { contract with updatedAt := now }

/-- The three fields of a classification. -/
def classify (classification : Classification) (failureCode : Option FailureCode)
    (failureMessage : Option Text) : ContractStep PUnit :=
  modify fun contract => { contract with
    finalClassification := some classification
    failureCode := failureCode
    failureMessage := failureMessage }

/-- The checks `finalize` makes of its arguments. -/
def checkOutcome (classification : Text) (failureCode : Option Text) :
    ContractStep (Classification × Option FailureCode) :=
  match readClassification classification with
  | none => throw (.unknownClassification classification)
  | some outcome =>
      if outcome ≠ .success ∧ failureCode = none then throw .failureCodeRequired
      else do
        let code ← checkFailureCode failureCode
        pure (outcome, code)

/-- `failure_message or f"run finalised as {classification}"`. -/
def finalMessage (classification : Classification) (failureMessage : Option Text) : Text :=
  match failureMessage with
  | some (c :: t) => c :: t
  | _ => "run finalised as ".toList ++ classification.text

/-- `W02RunContract.finalize`. -/
def finalize (classification : Text) (failureCode failureMessage : Option Text) (now : Timestamp) :
    ContractStep PUnit := do
  let (outcome, code) ← checkOutcome classification failureCode
  classify outcome code failureMessage
  move .finalClassification (finalMessage outcome failureMessage) code now
  modify fun contract => { contract with activeStep := none }
  touch now

/-- `_DIAGNOSTIC_MESSAGE_MAX_LENGTH`. -/
def diagnosticMessageMaxLength : Nat :=
  4000

def diagnosticMessageTruncationSentinel : Text :=
  "…[truncated]".toList

/-- `_bounded_diagnostic_message`. -/
def boundedDiagnosticMessage (value : Text) : Text :=
  if value.length ≤ diagnosticMessageMaxLength then value
  else value.take (diagnosticMessageMaxLength - diagnosticMessageTruncationSentinel.length) ++
    diagnosticMessageTruncationSentinel

/-- What the handler of `_finalize_w02` does to the contract: on an illegal
transition the classification is recorded and the state machine left alone. -/
def recordClassification (classification : Text) (failureCode failureMessage : Option Text)
    (now : Timestamp) : ContractError → ContractStep PUnit
  | .illegalTransition _ _ => do
      modify fun contract => { contract with
        finalClassification := readClassification classification
        failureCode := failureCode.bind readFailureCode
        failureMessage := failureMessage }
      touch now
  | error => throw error

/-- The contract's part of `_finalize_w02`. -/
def finalizeW02 (classification : Text) (failureCode failureMessage : Option Text)
    (now : Timestamp) : ContractStep PUnit :=
  let failureMessage := failureMessage.map boundedDiagnosticMessage
  tryCatch (finalize classification failureCode failureMessage now)
    (recordClassification classification failureCode failureMessage now)

/-- `record_repair_attempt`. -/
def recordRepairAttempt (entry : RepairAttempt) (now : Timestamp) : ContractStep PUnit := do
  if entry.attemptNumber < 1 then throw .attemptNumberInvalid
  modify fun contract => { contract with repairAttempts := contract.repairAttempts ++ [entry] }
  touch now

end C2c.Orchestrator.RunContract
