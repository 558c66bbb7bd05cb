import C2c.Gateway.Ledger
import C2c.Gateway.Policy

/-!
The invocations of the model gateway: the validation of a request, the calls of
the providers, and the ledger record, event and answer they end in.
-/

namespace C2c.Gateway.Invocation

open C2c.Library.JavaText
open C2c.Library.GoText
open C2c.Library.GoTime
open C2c.Library.Sha256
open C2c.Library.JsonText
open C2c.Library.GoJson
open C2c.Library.JsonLines
open C2c.Harness.Events (SchemaValidationError firstFailing isHexDigit allowedDataClasses
  allowedRedactionProfiles)
open C2c.Gateway.Ledger
open C2c.Gateway.Policy

section Requests

/-- `ModelInvocationRequest`, whose maps are never `nil` here. -/
structure ModelInvocationRequest where
  runID : Text := []
  modelID : Text := []
  actor : Text := []
  agentRole : Text := []
  dataClass : Text := []
  promptTemplateVersion : Text := []
  prompt : Text := []
  structuredOutput : Bool := false
  structuredOutputSchema : AnyMap := .empty
  parameters : AnyMap := .empty
  timeoutMs : Int64 := 0

def ModelInvocationRequest.json (r : ModelInvocationRequest) : Json :=
  .object (present
    [("runId", textField r.runID),
      ("modelId", textField r.modelID),
      ("actor", textField r.actor),
      ("agentRole", textOmitEmpty r.agentRole),
      ("dataClass", textField r.dataClass),
      ("promptTemplateVersion", textField r.promptTemplateVersion),
      ("prompt", textField r.prompt),
      ("structuredOutput", boolField r.structuredOutput),
      ("structuredOutputSchema", mapOmitEmpty r.structuredOutputSchema),
      ("parameters", some r.parameters.json),
      ("timeoutMs", int64Field r.timeoutMs)])

/-- `len`, which no `int` is above. -/
def byteSize (raw : Text) : Int64 :=
  Int64.ofNat (min (byteLength raw) (2 ^ 63 - 1))

/-- `ComputeSHA256RefWithURI`, of a value that has a JSON text. -/
def computeSHA256RefWithURI (uri : Text) (payload : Json) : DataReference where
  uri
  sha256 := sha256Hex (marshal payload)
  byteSize := byteSize (marshal payload)

def computeSHA256Ref (payload : Json) : DataReference :=
  computeSHA256RefWithURI "urn:model-gateway/payload".toList payload

end Requests

section Parameters

/-- `isSafeLedgerString`. -/
def isSafeLedgerString (value : Text) : Bool :=
  let trimmed := trimSpace value
  trimmed ≠ [] && byteLength trimmed ≤ 256 &&
    !trimmed.any (fun c => c == '\r' || c == '\n' || c == '\t') &&
    !contains trimmed "://".toList &&
    ! (["api_key", "apikey", "authorization", "bearer ", "secret", "token", "password", "sk-"].any
      fun marker => contains (toLower trimmed) marker.toList)

def isSafeLedgerURI (value : Text) : Bool :=
  "urn:".toList.isPrefixOf (trimSpace value) && isSafeLedgerString (trimSpace value)

/-- `ledgerNumber`; the numbers of a decoded map are `float64`. -/
def ledgerNumber : Json → Option Json
  | .number n => some (.number n)
  | _ => none

/-- A member of a reference that is kept. -/
def referenceMember (raw : List (Text × Json)) (name : String)
    (keep : Json → Option Json) : Option (Text × Json) :=
  ((raw.lookup name.toList).bind keep).map fun value => (name.toList, value)

def keepText (safe : Text → Bool) : Json → Option Json
  | .string t => if safe t then some (.string t) else none
  | _ => none

/-- `sanitizeLedgerReference`. -/
def sanitizeLedgerReference : Json → Option Json
  | .object raw =>
      let ref := [referenceMember raw "uri" (keepText isSafeLedgerURI),
        referenceMember raw "sha256" (keepText fun sha =>
          byteLength sha = 64 && sha.all isHexDigit),
        referenceMember raw "byteSize" ledgerNumber,
        referenceMember raw "kind" (keepText isSafeLedgerString)].filterMap id
      if ref = [] then none else some (AnyMap.ofMembers ref).json
  | _ => none

/-- `sanitizeLedgerReferenceList`. -/
def sanitizeLedgerReferenceList : Json → Option Json
  | .array raw =>
      let refs := raw.filterMap sanitizeLedgerReference
      if refs = [] then none else some (.array refs)
  | _ => none

/-- A parameter of the ledger. -/
def ledgerParameter (key : Text) (value : Json) : Option Json :=
  if key ∈ ["temperature", "max_tokens", "attemptNumber", "repairBudgetRemaining"].map
      String.toList then ledgerNumber value
  else if key ∈ ["runId", "promptTemplateId", "failureCategory"].map String.toList then
    keepText isSafeLedgerString value
  else if key ∈ ["sourceRef", "semanticIrRef", "baselineJavaRef", "oracleRef",
      "previousJavaCandidateRef", "buildTestResultRef"].map String.toList then
    sanitizeLedgerReference value
  else if key = "previousRepairDecisionRefs".toList then sanitizeLedgerReferenceList value
  else none

/-- `sanitizeLedgerParameters`. -/
def sanitizeLedgerParameters (parameters : AnyMap) : AnyMap :=
  .ofMembers (parameters.entries.filterMap fun entry =>
    (ledgerParameter entry.1 entry.2).map fun value => (entry.1, value))

end Parameters

section Validation

/-- The codes of `ModelGatewayValidationError`. -/
inductive ValidationCode
  | missingRunID
  | missingModelID
  | missingDataClass
  | missingPromptTemplate
  | invalidTimeout
  | unknownModel
  | inactiveModel
  | disallowedModelEndpoint
  | forbiddenModel
  | forbiddenRole
  | unsupportedDataClass
  | forbiddenDataClass
  | unsupportedPromptTemplate
  | unsupportedStructuredOutput
  | missingStructuredOutputSchema
  | timeoutExceededModelDefault
  | timeoutExceededProvider
  | providerNotReady
deriving DecidableEq

def ValidationCode.text : ValidationCode → String
  | .missingRunID => "missing_run_id"
  | .missingModelID => "missing_model_id"
  | .missingDataClass => "missing_data_class"
  | .missingPromptTemplate => "missing_prompt_template"
  | .invalidTimeout => "invalid_timeout"
  | .unknownModel => "unknown_model"
  | .inactiveModel => "inactive_model"
  | .disallowedModelEndpoint => "disallowed_model_endpoint"
  | .forbiddenModel => "forbidden_model"
  | .forbiddenRole => "forbidden_role"
  | .unsupportedDataClass => "unsupported_data_class"
  | .forbiddenDataClass => "forbidden_data_class"
  | .unsupportedPromptTemplate => "unsupported_prompt_template"
  | .unsupportedStructuredOutput => "unsupported_structured_output"
  | .missingStructuredOutputSchema => "missing_structured_output_schema"
  | .timeoutExceededModelDefault => "timeout_exceeded_model_default"
  | .timeoutExceededProvider => "timeout_exceeded_provider"
  | .providerNotReady => "provider_not_ready"

structure ModelGatewayValidationError where
  code : ValidationCode
  message : Text
deriving DecidableEq

def policyDecisionAllow : Text := "policy allow".toList

def policyDecisionDeny : Text := "policy deny".toList

def actorModelGateway : Text := "model-gateway".toList

structure ValidatedInvocation where
  request : ModelInvocationRequest
  model : ModelMetadata
  policyDecision : Text
  record : ModelInvocationLedgerV0

/-- The record that `validateInvocation` starts with. -/
def ledgerRecord (s : ModelGatewayService) (request : ModelInvocationRequest)
    (requestRef : DataReference) : ModelInvocationLedgerV0 where
  schemaVersion := gatewayEventSchemaVersion
  requestRef
  dataClass := request.dataClass
  promptTemplate := request.promptTemplateVersion
  parameters := some (sanitizeLedgerParameters request.parameters)
  structuredOutput := request.structuredOutput
  policyId := s.resolvedPolicyID
  agentRole := trimSpace request.agentRole

-- `%q`.
variable (quote : Text → Text)

def forbiddenRoleMessage (modelID role : Text) : Text :=
  "modelId ".toList ++ quote modelID ++ " is not allowed for agentRole ".toList ++ quote role

/-- The first check that fails. -/
def firstRefused (checks : List (Bool × ValidationCode × Text)) :
    Option ModelGatewayValidationError :=
  (checks.find? fun check => !check.1).map fun check => ⟨check.2.1, check.2.2⟩

/-- The checks of a request before its model is looked up. -/
def requestChecks (request : ModelInvocationRequest) : List (Bool × ValidationCode × Text) :=
  [(trimSpace request.runID ≠ [], .missingRunID, "runId is required".toList),
    (trimSpace request.modelID ≠ [], .missingModelID, "modelId is required".toList),
    (trimSpace request.dataClass ≠ [], .missingDataClass, "dataClass is required".toList),
    (trimSpace request.promptTemplateVersion ≠ [], .missingPromptTemplate,
      "promptTemplateVersion is required".toList),
    (0 < request.timeoutMs, .invalidTimeout, "timeoutMs must be greater than zero".toList)]

/-- The checks of a model and the role it is asked for in. -/
def accessChecks (s : ModelGatewayService) (now : Time) (request : ModelInvocationRequest)
    (model : ModelMetadata) : List (Bool × ValidationCode × Text) :=
  [(model.isActive now, .inactiveModel, "model is not active".toList),
    (model.provider = s.allowlist.mode, .disallowedModelEndpoint,
      "model endpoint mode is not allowed for this gateway".toList),
    (s.isModelDeploymentAllowed model.id, .forbiddenModel,
      "modelId is not in allowlist".toList),
    (s.allowlist.isRoleAllowed request.agentRole model.id, .forbiddenRole,
      forbiddenRoleMessage quote model.id request.agentRole)]

/-- The checks of what is asked of a model. -/
def demandChecks (s : ModelGatewayService) (request : ModelInvocationRequest)
    (model : ModelMetadata) : List (Bool × ValidationCode × Text) :=
  [(request.dataClass ∈ allowedDataClasses, .unsupportedDataClass,
      "unsupported data class".toList),
    (model.isDataClassAllowed request.dataClass, .forbiddenDataClass,
      "data class is not allowed for model".toList),
    (model.supportsTemplate request.promptTemplateVersion, .unsupportedPromptTemplate,
      "unsupported promptTemplateVersion".toList),
    (!request.structuredOutput || model.supportsStructuredOutput, .unsupportedStructuredOutput,
      "model does not support structured output".toList),
    (!request.structuredOutput || request.structuredOutputSchema.entries ≠ [],
      .missingStructuredOutputSchema,
      "structuredOutputSchema is required when structuredOutput=true".toList),
    (!(0 < model.defaultTimeoutMs && model.defaultTimeoutMs < request.timeoutMs),
      .timeoutExceededModelDefault, "timeoutMs exceeds model default timeout".toList),
    (!(0 < (s.providerTimeouts.lookup model.provider).getD 0 &&
        (s.providerTimeouts.lookup model.provider).getD 0 < request.timeoutMs),
      .timeoutExceededProvider, "timeoutMs exceeds provider timeout".toList),
    (model.provider ∈ s.providers, .providerNotReady, "provider is not configured".toList)]

/-- `validateInvocation`, at a reading of the clock. -/
def validateInvocation (s : ModelGatewayService) (now : Time) (request : ModelInvocationRequest)
    (requestRef : DataReference) : Except ModelGatewayValidationError ValidatedInvocation :=
  match firstRefused (requestChecks request) with
  | some e => .error e
  | none =>
    match s.registry.get request.modelID with
    | none => .error ⟨.unknownModel, "unknown modelId".toList⟩
    | some model =>
      match firstRefused (accessChecks quote s now request model ++ demandChecks s request model) with
      | some e => .error e
      | none => .ok {
          request :=
            { request with
              actor := if trimSpace request.actor = [] then actorModelGateway else request.actor }
          model
          policyDecision := policyDecisionAllow
          record :=
            { ledgerRecord s request requestRef with
              modelId := model.id
              policyDecision := policyDecisionAllow } }

end Validation

section Events

/-- `EventEnvelopeV0` of the gateway. -/
structure EventEnvelopeV0 where
  schemaVersion : Text := gatewayEventSchemaVersion
  eventId : Text
  eventType : Text
  runId : Text
  stepId : Int
  actor : Text
  capability : Text := actorModelGateway
  dataClass : Text := dataClassModelGateway
  redactionProfile : Text := "harness-control-plane".toList
  policyDecision : Text
  status : Text
  stateTransition : Text
  errorClass : Text := []
  latencyMs : Int64
  inputRef : DataReference
  outputRef : DataReference
  createdAt : Time
  payload : AnyMap

/-- `EventEnvelopeV0.Validate`. -/
def EventEnvelopeV0.validate (e : EventEnvelopeV0) : Option SchemaValidationError :=
  (firstFailing
    [(e.schemaVersion = gatewayEventSchemaVersion, "schemaVersion", "must be v0"),
      (trimSpace e.eventId ≠ [], "eventId", "required"),
      (trimSpace e.eventType ≠ [], "eventType", "required"),
      (trimSpace e.runId ≠ [], "runId", "required"),
      (0 < e.stepId, "stepId", "required and must be > 0"),
      (!e.createdAt.isZero, "createdAt", "required"),
      (e.actor ≠ [], "actor", "required"),
      (e.capability ≠ [], "capability", "required"),
      (e.dataClass ∈ allowedDataClasses, "dataClass", "unsupported data class"),
      (e.status ≠ [], "status", "required"),
      (e.redactionProfile ∈ allowedRedactionProfiles, "redactionProfile",
        "unsupported redaction profile"),
      (trimSpace e.redactionProfile ≠ [], "redactionProfile", "required"),
      (trimSpace e.policyDecision ≠ [], "policyDecision", "required"),
      (e.stateTransition ≠ [], "stateTransition", "required")]).orElse fun _ =>
  e.inputRef.validate.orElse fun _ => e.outputRef.validate

def eventTypeModelInvocationFailed : Text := "model.invocation.failed".toList

def eventTypeModelInvocationDone : Text := "model.invocation.completed".toList

def defaultActor (actor : Text) : Text :=
  if trimSpace actor = [] then actorModelGateway else trimSpace actor

end Events

end C2c.Gateway.Invocation
