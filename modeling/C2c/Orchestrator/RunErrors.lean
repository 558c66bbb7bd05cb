import C2c.Orchestrator.StepReplies

namespace C2c.Orchestrator.RunErrors

open C2c.Library.JavaText
open C2c.Library.PythonText
open C2c.Orchestrator.RunContract

/-- The classes of `TransformationAgentError` and of `RepairAgentError`. -/
inductive AgentErrorKind
  | base
  | contractInvalid
  | gatewayUnavailable
  | policyDenied
  | timeout
deriving DecidableEq

/-- The class of an exception, with the fields the runner reads. -/
inductive ErrorKind
  | capabilityMissing (stepName : Option Text) (failureCode : Option FailureCode)
  | stepExecution (causedByBudget : Bool)
  | agentContractInvalidStep
  | modelPolicyDeniedStep
  | harnessFailure
  | transformationAgent (kind : AgentErrorKind)
  | repairAgent (kind : AgentErrorKind) (modelInvocationRef : Option Text)
      (repairInputRef repairDecisionRef : Option Reference)
  | contract (error : ContractError)
  | other
deriving DecidableEq

/-- An exception: its class, `str(exc)`, and the texts of its causes. -/
structure Raised where
  kind : ErrorKind
  text : Text
  causes : Text := []
deriving DecidableEq

def raisedContract (error : ContractError) : Raised :=
  ⟨.contract error, error.text, []⟩

/-- An exception of a class the runner does not single out. -/
def raisedOther (text : Text) : Raised :=
  ⟨.other, text, []⟩

def stepParseCobol : Text := "parse-cobol".toList

def stepWriteEvidence : Text := "write-evidence".toList

def stepModelGuidance : Text := "model-guidance".toList

def stepCompileTestJava : Text := "compile-test-java".toList

def stepTransformationAgent : Text := "transformation-agent".toList

def stepVerificationRepairAgent : Text := "verification-repair-agent".toList

/-- The markers of `_failed_step_from_exception`. -/
def failedStepMarkers : List (Text × Text) :=
  [(stepParseCobol, stepParseCobol),
    ("generate-ir".toList, "generate-ir".toList),
    ("generate-java".toList, "generate-java".toList),
    (stepCompileTestJava, stepCompileTestJava),
    ("source-reference-execution".toList, "source-reference-execution".toList),
    ("parity-comparison".toList, "parity-comparison".toList),
    ("parity-evidence-capture".toList, "parity-evidence-capture".toList),
    (stepModelGuidance, stepModelGuidance),
    (stepWriteEvidence, stepWriteEvidence),
    (stepTransformationAgent, stepTransformationAgent),
    ("transformation agent".toList, stepTransformationAgent)]

/-- `_failed_step_from_exception`. -/
def failedStepFromException (e : Raised) : Option Text :=
  (failedStepMarkers.find? fun marker => contains (lower e.text) marker.1).map Prod.snd

/-- The failed step the exception path of `run` records. -/
def failedStep (e : Raised) : Option Text :=
  match e.kind with
  | .capabilityMissing _ _ => some "missing-capability".toList
  | _ => failedStepFromException e

/-- `_is_unsupported_cobol_diagnostic`. -/
def isUnsupportedCobolDiagnostic (e : Raised) : Bool :=
  ["unsupported-feature", "unsupported-data-declaration", "unsupported-statement"].any
    fun marker => contains (lower (e.text ++ ' ' :: e.causes)) marker.toList

/-- `_is_model_policy_denial`. -/
def isModelPolicyDenial (e : Raised) : Bool :=
  ["policy deny", "model_policy_denied", "forbidden_model", "forbidden_role",
    "forbidden_data_class", "disallowed_model_endpoint", "inactive_model",
    "timeout_exceeded_provider", "timeout_exceeded_model_default",
    "unsupported_structured_output"].any
    fun marker => contains (lower e.text) marker.toList

/-- The steps `_failure_code_for_step_name` has a code for. -/
def stepFailureCodes : List (Text × FailureCode) :=
  [(stepModelGuidance, .modelGatewayUnavailable),
    ("source-reference-execution".toList, .sourceReferenceFailed),
    ("parity-comparison".toList, .oracleMismatch),
    ("parity-evidence-capture".toList, .evidenceIncomplete),
    (stepParseCobol, .parseFailed),
    ("generate-ir".toList, .semanticIrFailed),
    ("generate-java".toList, .javaGenerationFailed),
    (stepCompileTestJava, .javaCompileFailed),
    (stepWriteEvidence, .evidenceIncomplete),
    (stepTransformationAgent, .javaGenerationFailed),
    (stepVerificationRepairAgent, .agentTimeout)]

/-- `_failure_code_for_step_name`. -/
def failureCodeForStepName (stepName : Option Text) : Option FailureCode :=
  stepName.bind fun name => (stepFailureCodes.find? fun entry => entry.1 == name).map Prod.snd

/-- `_fallback_failure_code_for_state`. -/
def fallbackFailureCodeForState : WorkflowState → FailureCode
  | .runAccepted | .sourceNormalized => .parseFailed
  | .cobolParseAttempted => .semanticIrFailed
  | .semanticIrReady | .baselineGenerationAttempted | .transformationAgentInvoked
  | .javaCandidatePersisted => .javaGenerationFailed
  | .buildTestRunning => .javaCompileFailed
  | .finalJavaSelected | .evidenceMaterialized | .evidenceIncomplete => .evidenceIncomplete
  | _ => .javaGenerationFailed

/-- The code of an exception whose failed step is known. -/
def failureCodeAtStep (e : Raised) (step : Option Text) : Option FailureCode :=
  if step = some stepParseCobol ∧ isUnsupportedCobolDiagnostic e then some .unsupportedCobol
  else failureCodeForStepName step

/-- The code the text of an exception and the state of the run give. -/
def failureCodeFromText (e : Raised) (current : WorkflowState) (step : Option Text) :
    FailureCode :=
  ((failureCodeAtStep e step).orElse fun _ => failureCodeAtStep e (failedStepFromException e)).getD
    (fallbackFailureCodeForState current)

/-- `_failure_code_from_exception`. -/
def failureCodeFromException (e : Raised) (current : WorkflowState) (step : Option Text) :
    FailureCode :=
  match e.kind with
  | .stepExecution true => .modelGatewayUnavailable
  | .modelPolicyDeniedStep => .modelPolicyDenied
  | .agentContractInvalidStep => .agentContractInvalid
  | .capabilityMissing _ (some code) => code
  | .capabilityMissing stepName none =>
      match failureCodeForStepName stepName with
      | some code => code
      | none =>
          if contains (lower e.text) "model".toList then .modelGatewayUnavailable
          else failureCodeFromText e current step
  | _ => failureCodeFromText e current step

/-- `_final_classification_for_failure_code`. -/
def finalClassificationForFailureCode (code : FailureCode) : Classification :=
  if code ∈ [.agentContractInvalid, .modelGatewayUnavailable, .modelPolicyDenied,
      .unsupportedCobol] then .blocked
  else .failed

/-- `_failure_code_for_repair_exception`. -/
def failureCodeForRepairException : AgentErrorKind → FailureCode
  | .contractInvalid => .agentContractInvalid
  | .policyDenied => .modelPolicyDenied
  | .timeout => .agentTimeout
  | .gatewayUnavailable => .modelGatewayUnavailable
  | .base => .javaGenerationFailed

/-- `REFUSAL_TO_FAILURE_CODE`. -/
def refusalFailureCode (refusalCode : Text) : FailureCode :=
  if refusalCode = "unsupported_construct".toList then .unsupportedCobol
  else if refusalCode = "policy_denied".toList then .modelPolicyDenied
  else .javaGenerationFailed

end C2c.Orchestrator.RunErrors
