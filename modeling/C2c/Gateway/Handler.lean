import C2c.Gateway.Invocation

/-!
The handler of invocations: what it calls, and what it leaves in the ledger, in
the events and in its answer.
-/

namespace C2c.Gateway.Handler

open C2c.Library.JavaText
open C2c.Library.GoText
open C2c.Library.GoTime
open C2c.Library.GoCollections
open C2c.Library.JsonText
open C2c.Library.GoJson
open C2c.Library.JsonLines
open C2c.Harness.Events (SchemaValidationError)
open C2c.Gateway.Ledger
open C2c.Gateway.Policy
open C2c.Gateway.Invocation

section Providers

structure ModelInvocationOutput where
  data : Option AnyMap
  status : Text
  metadata : Option AnyMap

/-- What a call of a provider gives: an output, or an error that is
`context.DeadlineExceeded` or not. -/
inductive ProviderResult
  | output (o : ModelInvocationOutput)
  | error (deadlineExceeded : Bool)

/-- What a request meets: the readings of the clock at its start and at each
validation, the answers of the providers to the call after each validation,
whether its context has expired after the first call and at the end, the
nanoseconds it takes, and whether the file of the ledger can be written. -/
structure Environment where
  now : Time
  validatedAt : Nat → Time
  provider : Nat → ModelInvocationRequest → ModelMetadata → ProviderResult
  expiredAfterCall : Bool
  expiredAtEnd : Bool
  elapsed : Nat
  writable : Bool

/-- A call of a provider, with the time its model was checked at. -/
structure Call where
  checkedAt : Time
  request : ModelInvocationRequest
  model : ModelMetadata

/-- The invocation that is selected, and its result. -/
structure Attempt where
  selected : ValidatedInvocation
  result : ProviderResult

variable (quote : Text → Text) (s : ModelGatewayService) (env : Environment)

/-- `fallbackModelIDsForRole`. -/
def fallbackModelIDsForRole (role currentModelID : Text) : List Text :=
  ((takeAllNew id [trimSpace currentModelID]
    ((s.fallbackModelDeployments.map trimSpace).filter (· ≠ []))).tail).filter
      (s.allowlist.isRoleAllowed role)

/-- The loop over the fallback models after an error, from a validation on. -/
def callFallbacks (request : ModelInvocationRequest) (requestRef : DataReference)
    (selected : ValidatedInvocation) : Bool → Nat → List Text → List Call × Attempt
  | deadlineExceeded, _, [] => ([], ⟨selected, .error deadlineExceeded⟩)
  | deadlineExceeded, n, modelID :: modelIDs =>
      match validateInvocation quote s (env.validatedAt n) { request with modelID } requestRef with
      | .error _ => callFallbacks request requestRef selected deadlineExceeded (n + 1) modelIDs
      | .ok fallback =>
          let call := ⟨env.validatedAt n, fallback.request, fallback.model⟩
          match env.provider n fallback.request fallback.model with
          | .output o => ([call], ⟨fallback, .output o⟩)
          | .error deadlineExceeded =>
              let rest :=
                callFallbacks request requestRef selected deadlineExceeded (n + 1) modelIDs
              (call :: rest.1, rest.2)

/-- The call of the model asked for, and those of the fallbacks. -/
def callProviders (request : ModelInvocationRequest) (requestRef : DataReference)
    (validated : ValidatedInvocation) : List Call × Attempt :=
  let call := ⟨env.validatedAt 0, validated.request, validated.model⟩
  match env.provider 0 validated.request validated.model with
  | .output o => ([call], ⟨validated, .output o⟩)
  | .error deadlineExceeded =>
      if deadlineExceeded || env.expiredAfterCall then
        ([call], ⟨validated, .error deadlineExceeded⟩)
      else
        let rest := callFallbacks quote s env request requestRef validated deadlineExceeded 1
          (fallbackModelIDsForRole s request.agentRole validated.model.id)
        (call :: rest.1, rest.2)

end Providers

section Results

def errorClassValidation : Text := "validation".toList

def errorClassProviderError : Text := "provider_error".toList

def errorClassProviderTimeout : Text := "provider_timeout".toList

def errorCodePolicyDenied : Text := "model_policy_denied".toList

def errorCodeProviderTimeout : Text := "model_provider_timeout".toList

def errorCodeProviderUnavailable : Text := "model_provider_unavailable".toList

def errorCodeProviderError : Text := "model_provider_error".toList

def errorCodeMalformedRequest : Text := "malformed_request".toList

/-- `normalizeInvocationStatus`. -/
def normalizeInvocationStatus (status : Text) : Text :=
  if trimSpace status ∈ [statusCompleted, statusFailed, statusRejected] then status
  else statusCompleted

def safeProviderFailureMessage (errorCode : Text) : Text :=
  if errorCode = errorCodeProviderTimeout then "model provider timed out".toList
  else if errorCode = errorCodeProviderUnavailable then "model provider unavailable".toList
  else "model provider error".toList

/-- `statusForValidationErr`. -/
def statusForValidationErr : ValidationCode → Nat
  | .forbiddenModel | .forbiddenDataClass | .forbiddenRole | .disallowedModelEndpoint
  | .inactiveModel | .timeoutExceededProvider | .timeoutExceededModelDefault => 403
  | .providerNotReady => 503
  | _ => 400

/-- `isPolicyValidationCode`. -/
def isPolicyValidationCode : ValidationCode → Bool
  | .forbiddenModel | .forbiddenDataClass | .forbiddenRole | .disallowedModelEndpoint
  | .inactiveModel | .timeoutExceededProvider | .timeoutExceededModelDefault
  | .unsupportedStructuredOutput => true
  | _ => false

/-- `errorCodeForValidationErr`. -/
def errorCodeForValidationErr (code : ValidationCode) : Text :=
  if isPolicyValidationCode code then errorCodePolicyDenied
  else if code = .providerNotReady then errorCodeProviderUnavailable
  else errorCodeMalformedRequest

/-- What the handler makes of the result of a call. -/
structure Result where
  status : Text
  errorClass : Text := []
  errorCode : Text := []
  errorMessage : Text := []
  data : AnyMap
  usage : AnyMap := .empty

/-- The output data of an invocation without data. -/
def noData (invocationID : Text) : AnyMap :=
  .ofMembers [("invocationId".toList, .string invocationID),
    ("status".toList, .string statusFailed)]

/-- The data of an output, with its status and the invocation. -/
def outputData (invocationID status : Text) (data : AnyMap) : AnyMap :=
  let stated := if (data.entries.lookup "status".toList).isSome then []
    else [("status".toList, Json.string status)]
  .ofMembers (data.entries ++ (stated ++ [("invocationId".toList, .string invocationID)]))

/-- The `usage` of the metadata, if it is a map. -/
def outputUsage (metadata : Option AnyMap) : AnyMap :=
  match (metadata.getD .empty).entries.lookup "usage".toList with
  | some (.object rawUsage) => .ofMembers rawUsage
  | _ => .empty

def resultOf (invocationID : Text) (expired : Bool) : ProviderResult → Result
  | .error deadlineExceeded =>
      let timedOut := deadlineExceeded || expired
      let errorCode := if timedOut then errorCodeProviderTimeout else errorCodeProviderError
      { status := statusFailed
        errorClass := if timedOut then errorClassProviderTimeout else errorClassProviderError
        errorCode
        errorMessage := safeProviderFailureMessage errorCode
        data := noData invocationID }
  | .output o =>
      let status := normalizeInvocationStatus o.status
      { status
        data := outputData invocationID status (o.data.getD (noData invocationID))
        usage := outputUsage o.metadata }

end Results

section Handling

structure ModelInvocationResponse where
  invocationID : Text
  runID : Text
  modelID : Text
  provider : Text
  policyID : Text
  agentRole : Text
  promptTemplateVersion : Text
  policyDecision : Text
  status : Text
  latencyMs : Int64
  usage : AnyMap
  ledgerRef : DataReference
  output : AnyMap

inductive LedgerError
  | append (e : AppendError SchemaValidationError)
  | write

/-- The answers after `validateInvocation`, with the status codes that vary. -/
inductive Answer
  | rejected (statusCode : Nat) (error errorCode : Text) (validationCode : ValidationCode)
      (invocationID policyID : Text)
  | failed (statusCode : Nat) (error errorCode errorClass invocationID policyID : Text)
  | completed (response : ModelInvocationResponse)
  | ledgerHash
  | notAppended (e : LedgerError)

def Answer.statusCode : Answer → Nat
  | .rejected statusCode .. => statusCode
  | .failed statusCode .. => statusCode
  | .completed _ => 200
  | .ledgerHash => 500
  | .notAppended _ => 500

structure GatewayState where
  ledger : Log ModelInvocationLedgerV0 := newLog
  events : List EventEnvelopeV0 := []
  invocationCounter : Nat := 0

/-- What a request leaves. -/
structure Handled where
  state : GatewayState
  calls : List Call
  answer : Answer

/-- `now.Format("20060102150405")`. -/
def clockText (now : Time) : Text :=
  now.toFields.dateText ++ padded 2 now.hour ++ padded 2 now.minute ++ padded 2 now.second

/-- `newInvocationID`, with the counter after it. -/
def newInvocationID (now : Time) (counter : Nat) : Text :=
  "mg-".toList ++ clockText now ++ '-' :: natText counter

/-- The milliseconds of `time.Since(start)`, which ends at the longest duration. -/
def latencyMs (elapsed : Nat) : Int64 :=
  Int64.ofNat (min elapsed (2 ^ 63 - 1) / 1000000)

variable (quote : Text → Text) (s : ModelGatewayService) (env : Environment)

/-- `appendLedgerRecord`, with `JSONLModelInvocationLedger` as the ledger. -/
def appendLedgerRecord (ledger : Log ModelInvocationLedgerV0) (record : ModelInvocationLedgerV0) :
    Except LedgerError (Log ModelInvocationLedgerV0) :=
  if !s.invocationLedgerEnabled then .ok ledger
  else
    match append modelInvocationLedger ledger record with
    | (next, .ok _) => if env.writable then .ok next else .error .write
    | (_, .error e) => .error (.append e)

/-- `emitEvent`. -/
def emitEvent (events : List EventEnvelopeV0) (event : EventEnvelopeV0) : List EventEnvelopeV0 :=
  if !s.harnessEventEmissionEnabled then events
  else if event.validate.isSome then events
  else events ++ [event]

def orElseText (t other : Text) : Text :=
  if trimSpace t = [] then other else t

/-- The record of a rejection. -/
def rejectedRecord (request : ModelInvocationRequest) (requestRef : DataReference)
    (invocationID : Text) (e : ModelGatewayValidationError) (outputRef : DataReference) :
    ModelInvocationLedgerV0 :=
  let record := ledgerRecord s request requestRef
  { record with
    invocationId := invocationID
    runId := orElseText request.runID "unknown-run".toList
    provider := s.allowlist.mode
    policyId := orElseText record.policyId s.resolvedPolicyID
    modelId := orElseText record.modelId "unknown-model".toList
    dataClass := orElseText record.dataClass dataClassModelGateway
    promptTemplate := orElseText record.promptTemplate defaultTemplateVersion
    policyDecision := policyDecisionDeny
    status := statusRejected
    errorClass := errorClassValidation
    errorMessage := e.message
    errorCode := errorCodeForValidationErr e.code
    outputRef
    latencyMs := latencyMs env.elapsed
    createdAt := env.now }

def rejectedEvent (request : ModelInvocationRequest) (requestRef : DataReference)
    (invocationID : Text) (counter : Nat) (e : ModelGatewayValidationError)
    (outputRef : DataReference) : EventEnvelopeV0 where
  eventId := "mgv-".toList ++ invocationID
  eventType := eventTypeModelInvocationFailed
  runId := request.runID
  stepId := counter
  actor := defaultActor request.actor
  policyDecision := policyDecisionDeny
  status := statusRejected
  stateTransition := "validate.rejected".toList
  inputRef := requestRef
  outputRef
  errorClass := errorClassValidation
  latencyMs := latencyMs env.elapsed
  createdAt := env.now
  payload := .ofMembers
    [("invocationId".toList, .string invocationID),
      ("modelId".toList, .string request.modelID),
      ("agentRole".toList, .string (trimSpace request.agentRole)),
      ("policyId".toList, .string s.resolvedPolicyID),
      ("errorCode".toList, .string (errorCodeForValidationErr e.code)),
      ("mode".toList, .string s.allowlist.mode),
      ("reason".toList, .string e.message)]

/-- What is hashed of a rejection. -/
def rejectedOutput (invocationID : Text) (e : ModelGatewayValidationError) : AnyMap :=
  .ofMembers
    [("invocationId".toList, .string invocationID),
      ("error".toList, .string e.message),
      ("errorCode".toList, .string (errorCodeForValidationErr e.code)),
      ("status".toList, .string statusRejected)]

/-- The handler after a validation that fails. -/
def reject (state : GatewayState) (request : ModelInvocationRequest) (requestRef : DataReference)
    (invocationID : Text) (e : ModelGatewayValidationError) : Handled :=
  let outputRef := computeSHA256Ref (rejectedOutput invocationID e).json
  let record := rejectedRecord s env request requestRef invocationID e outputRef
  match appendLedgerRecord s env state.ledger record with
  | .error failure => ⟨state, [], .notAppended failure⟩
  | .ok ledger =>
      let event :=
        rejectedEvent s env request requestRef invocationID state.invocationCounter e outputRef
      ⟨{ state with ledger, events := emitEvent s state.events event }, [],
        .rejected (statusForValidationErr e.code) e.message (errorCodeForValidationErr e.code)
          e.code invocationID s.resolvedPolicyID⟩

/-- The record of an invocation that calls a provider. -/
def invokedRecord (validated : ValidatedInvocation) (invocationID : Text) (result : Result)
    (outputRef : DataReference) : ModelInvocationLedgerV0 :=
  { validated.record with
    invocationId := invocationID
    runId := validated.request.runID
    provider := validated.model.provider
    outputRef
    status := result.status
    latencyMs := latencyMs env.elapsed
    usage := result.usage
    errorClass := result.errorClass
    errorCode := result.errorCode
    errorMessage := result.errorMessage
    createdAt := env.now
    policyId := orElseText validated.record.policyId s.resolvedPolicyID }

def invokedEvent (validated : ValidatedInvocation) (requestRef : DataReference)
    (invocationID : Text) (counter : Nat) (failed : Bool) (result : Result)
    (record : ModelInvocationLedgerV0) : EventEnvelopeV0 where
  eventId := "mgv-".toList ++ invocationID
  eventType := if failed then eventTypeModelInvocationFailed else eventTypeModelInvocationDone
  runId := validated.request.runID
  stepId := counter
  actor := defaultActor validated.request.actor
  policyDecision := validated.policyDecision
  status := result.status
  stateTransition := if failed then "invoke.failed".toList else "invoke.completed".toList
  inputRef := requestRef
  outputRef := record.outputRef
  errorClass := result.errorClass
  latencyMs := latencyMs env.elapsed
  createdAt := env.now
  payload := .ofMembers
    [("invocationId".toList, .string invocationID),
      ("modelId".toList, .string validated.request.modelID),
      ("provider".toList, .string validated.model.provider),
      ("agentRole".toList, .string (trimSpace validated.request.agentRole)),
      ("policyId".toList, .string record.policyId),
      ("errorCode".toList, .string result.errorCode),
      ("mode".toList, .string s.allowlist.mode),
      ("usage".toList, if result.usage.entries = [] then .null else result.usage.json)]

def response (validated : ValidatedInvocation) (invocationID : Text) (result : Result)
    (record : ModelInvocationLedgerV0) (ledgerRef : DataReference) : ModelInvocationResponse where
  invocationID
  runID := validated.request.runID
  modelID := validated.request.modelID
  provider := validated.model.provider
  policyID := record.policyId
  agentRole := trimSpace validated.request.agentRole
  promptTemplateVersion := validated.request.promptTemplateVersion
  policyDecision := validated.policyDecision
  status := result.status
  latencyMs := latencyMs env.elapsed
  usage := result.usage
  ledgerRef
  output := result.data

def ProviderResult.failed : ProviderResult → Bool
  | .output _ => false
  | .error _ => true

/-- The handler after the calls of the providers. -/
def finish (state : GatewayState) (requestRef : DataReference) (invocationID : Text)
    (calls : List Call) (attempt : Attempt) : Handled :=
  let validated := attempt.selected
  let result := resultOf invocationID env.expiredAtEnd attempt.result
  let outputRef := computeSHA256Ref result.data.json
  let record := invokedRecord s env validated invocationID result outputRef
  match record.json with
  | none => ⟨state, calls, .ledgerHash⟩
  | some recordJson =>
    let ledgerRef := computeSHA256RefWithURI
      ("urn:model-gateway/invocations/".toList ++ invocationID) recordJson
    match appendLedgerRecord s env state.ledger record with
    | .error failure => ⟨state, calls, .notAppended failure⟩
    | .ok ledger =>
        let event := invokedEvent s env validated requestRef invocationID state.invocationCounter
          attempt.result.failed result record
        let answer :=
          if attempt.result.failed then
            .failed (if result.errorClass = errorClassProviderTimeout then 504 else 502)
              result.errorMessage result.errorCode result.errorClass invocationID record.policyId
          else .completed (response env validated invocationID result record ledgerRef)
        ⟨{ state with ledger, events := emitEvent s state.events event }, calls, answer⟩

/-- `invokeHandler`, for a request that is decoded. -/
def invokeHandler (state : GatewayState) (request : ModelInvocationRequest) : Handled :=
  let requestRef := computeSHA256Ref request.json
  let state := { state with invocationCounter := state.invocationCounter + 1 }
  let invocationID := newInvocationID env.now state.invocationCounter
  match validateInvocation quote s (env.validatedAt 0) request requestRef with
  | .error e => reject s env state request requestRef invocationID e
  | .ok validated =>
      let called := callProviders quote s env request requestRef validated
      finish s env state requestRef invocationID called.1 called.2

end Handling

end C2c.Gateway.Handler
