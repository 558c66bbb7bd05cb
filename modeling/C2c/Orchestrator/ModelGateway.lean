import C2c.Orchestrator.RunErrors

namespace C2c.Orchestrator.ModelGateway

open C2c.Library.JavaText
open C2c.Library.PythonText
open C2c.Library.PythonJson
open C2c.Orchestrator.RunContract
open C2c.Orchestrator.RunErrors

section Classification

def timeoutMarkers : List Text :=
  ["model_provider_timeout".toList, "deadline exceeded".toList, "timed out".toList]

/-- "policy deny" and `_MODEL_POLICY_DENY_MARKERS`. -/
def policyDenyMarkers : List Text :=
  ["policy deny".toList, "model_policy_denied".toList, "forbidden_model".toList,
    "forbidden_role".toList, "forbidden_data_class".toList, "disallowed_model_endpoint".toList,
    "inactive_model".toList, "timeout_exceeded_provider".toList,
    "timeout_exceeded_model_default".toList, "unsupported_structured_output".toList]

/-- Whether the text of an exception has one of the markers. -/
def marked (markers : List Text) (text : Text) : Bool :=
  markers.any fun marker => contains (lower text) marker

/-- The class `_classify_gateway_failure` gives an exception of the text. -/
def gatewayFailureKind (text : Text) : AgentErrorKind :=
  if marked timeoutMarkers text then .timeout
  else if marked policyDenyMarkers text then .policyDenied
  else .gatewayUnavailable

def gatewayFailureText : AgentErrorKind → Text
  | .timeout => "model gateway timed out".toList
  | .policyDenied => "model gateway policy denied".toList
  | _ => "model gateway unavailable".toList

/-- `_classify_gateway_failure`. -/
def classifyGatewayFailure (e : Raised) : Raised :=
  ⟨.transformationAgent (gatewayFailureKind e.text),
    gatewayFailureText (gatewayFailureKind e.text), e.text⟩

/-- The `failure_code` of the classes of `TransformationAgentError`. -/
def agentFailureCode : AgentErrorKind → FailureCode
  | .base => .javaGenerationFailed
  | .contractInvalid => .agentContractInvalid
  | .gatewayUnavailable => .modelGatewayUnavailable
  | .policyDenied => .modelPolicyDenied
  | .timeout => .agentTimeout

/-- What `_call_model_gateway` of the transformation agent raises for an
exception of the invoker: its own classes go on as they are. -/
def transformationError (e : Raised) : Raised :=
  match e.kind with
  | .transformationAgent _ => e
  | _ => classifyGatewayFailure e

/-- `_classify_failure` of the repair agent. -/
def classifyFailure (e : Raised) : Raised :=
  let classified := classifyGatewayFailure e
  let kind : AgentErrorKind :=
    match agentFailureCode (gatewayFailureKind e.text) with
    | .modelPolicyDenied => .policyDenied
    | .agentTimeout => .timeout
    | _ => .gatewayUnavailable
  ⟨.repairAgent kind none none none, classified.text, e.text⟩

/-- What `_call_model_gateway` of the repair agent raises for an exception of
the invoker. -/
def repairError (e : Raised) : Raised :=
  match e.kind with
  | .repairAgent _ _ _ _ => e
  | _ => classifyFailure e

end Classification

section Invoker

/-- What `urllib.parse.urlparse` returns. -/
structure ParsedUrl where
  scheme : Text
  netloc : Text
  path : Text
  params : Text
  query : Text
  fragment : Text

/-- `urllib.parse`. -/
structure UrlParser where
  urlparse : Text → ParsedUrl
  urlunparse : ParsedUrl → Text

variable (urls : UrlParser)

/-- `path.rstrip("/")`. -/
def stripSlashes (path : Text) : Text :=
  path.rdropWhile fun c => c == '/'

def invokePath : Text :=
  "/v0/invoke".toList

/-- `_model_gateway_capabilities_url`. -/
def modelGatewayCapabilitiesUrl (endpoint : Text) : Option Text :=
  let parsed := urls.urlparse (strip endpoint)
  let path := stripSlashes parsed.path
  if parsed.scheme = [] ∨ parsed.netloc = [] then none
  else if ¬ invokePath.isSuffixOf path then none
  else
    let capabilitiesPath := path.take (path.length - invokePath.length) ++
      "/v0/capabilities".toList
    some (urls.urlunparse { parsed with path := capabilitiesPath, query := [], fragment := [] })

/-- `_normalised_model_gateway_endpoint`. -/
def normalisedModelGatewayEndpoint (endpoint : Text) : Option Text :=
  let parsed := urls.urlparse (strip endpoint)
  let path := stripSlashes parsed.path
  if parsed.scheme ∉ ["http".toList, "https".toList] ∨ parsed.netloc = [] then none
  else if path ≠ invokePath then none
  else some (urls.urlunparse { parsed with path := path, params := [], query := [], fragment := [] })

/-- `str(value.get(key) or "").strip()`. -/
def fieldText (value : Json) (key : String) : Text :=
  strip (strOrEmpty (get value key))

/-- The refusal of a field the allowlist expects another value of. -/
def fieldRefusal (capability expected : Json) (key message : String) : Option Text :=
  if fieldText expected key ≠ [] ∧ fieldText capability key ≠ fieldText expected key then
    some message.toList
  else none

/-- The message `_validate_model_gateway_capability` refuses a capability with. -/
def modelGatewayCapabilityRefusal (capability : Json) (capabilityId : Text)
    (expectedCapability : Option Json) : Option Text :=
  if fieldText capability "id" ≠ capabilityId then
    some "model gateway capability id mismatch".toList
  else
    match normalisedModelGatewayEndpoint urls (strOrEmpty (get capability "endpoint")) with
    | none => some "model gateway capability endpoint is not approved".toList
    | some endpoint =>
        match expectedCapability with
        | none => none
        | some expected =>
            (((fieldRefusal capability expected "id"
              "model gateway capability id does not match configured allowlist").orElse fun _ =>
            fieldRefusal capability expected "owner"
              "model gateway capability owner is not approved").orElse fun _ =>
            fieldRefusal capability expected "dataClass"
              "model gateway capability dataClass is not approved").orElse fun _ =>
            if normalisedModelGatewayEndpoint urls (strOrEmpty (get expected "endpoint")) ≠
                some endpoint then
              some "model gateway capability endpoint does not match configured allowlist".toList
            else none

/-- The harness gateway of an invoker: what each of its calls returns, or the
text of what it raises. An invoker that has kept its capability does not ask
for it again. -/
structure HarnessGateway where
  getCapability : Except Text Json
  /-- The status and the payload `http.get_json` returns; none without a client. -/
  getJson : Option (Text → Except Text (Option Int × Json))
  invokeCapability : Except Text Json

/-- `HarnessModelGatewayInvoker`, with the role and the model of the payload. -/
structure Invocation where
  capabilityId : Text
  expectedCapability : Option Json := none
  agentRole : Text
  modelId : Text

def gatewayUnavailable (text : Text) : Raised :=
  ⟨.transformationAgent .gatewayUnavailable, text, []⟩

/-- `_capability`. -/
def resolveCapability (harness : HarnessGateway) (call : Invocation) : Except Raised Json :=
  match harness.getCapability with
  | .error text => .error (raisedOther text)
  | .ok capability =>
      if ¬ isMapping capability ∨ ¬ truthy (get capability "endpoint") then
        .error (gatewayUnavailable ("model gateway capability ".toList ++
          reprText call.capabilityId ++ " unavailable".toList))
      else
        match modelGatewayCapabilityRefusal urls capability call.capabilityId
            call.expectedCapability with
        | some text => .error (gatewayUnavailable text)
        | none => .ok capability

/-- The non-empty members of `availableModels`. -/
def availableModels (role : Json) : List Text :=
  match get role "availableModels" with
  | .array items => (items.map fun item => strip (str item)).filter fun item => item ≠ []
  | _ => []

/-- `str(raw_role.get("reason") or "no approved active model for role").strip()`. -/
def unavailableReason (role : Json) : Text :=
  let reason := get role "reason"
  strip (if truthy reason then str reason else "no approved active model for role".toList)

/-- What the entry of the role says against the call. -/
def roleRefusal (agentRole modelId : Text) (role : Json) : Option Raised :=
  if lower (fieldText role "status") ≠ "ok".toList ∨ availableModels role = [] then
    some (gatewayUnavailable ("no approved model available for agentRole ".toList ++
      reprText agentRole ++ ": ".toList ++ unavailableReason role))
  else if modelId ≠ [] ∧ modelId ∉ availableModels role then
    some ⟨.transformationAgent .policyDenied, "modelId ".toList ++ reprText modelId ++
      " is not available for agentRole ".toList ++ reprText agentRole, []⟩
  else none

/-- What the capabilities view of the gateway says against the call. -/
def capabilitiesRefusal (agentRole modelId : Text) (capabilities : Json) : Option Raised :=
  if ¬ isMapping capabilities then
    some (gatewayUnavailable "model gateway capabilities returned non-object response".toList)
  else
    match get capabilities "roles" with
    | .array roles =>
        match roles.find? fun role => isMapping role && fieldText role "role" == agentRole with
        | some role => roleRefusal agentRole modelId role
        | none => some (gatewayUnavailable
            ("model gateway capabilities missing agentRole ".toList ++ reprText agentRole))
    | _ => some (gatewayUnavailable
        "model gateway capabilities missing role availability".toList)

/-- `_ensure_role_available`: what it raises. -/
def ensureRoleAvailable (harness : HarnessGateway) (call : Invocation) (capability : Json) :
    Option Raised :=
  let agentRole := strip call.agentRole
  let modelId := strip call.modelId
  let unreachable := gatewayUnavailable
    ("model gateway capabilities unavailable for agentRole ".toList ++ reprText agentRole)
  if agentRole = [] then none
  else
    match modelGatewayCapabilitiesUrl urls (strOrEmpty (get capability "endpoint")),
        harness.getJson with
    | some url, some getJson =>
        match getJson url with
        | .error _ => some unreachable
        | .ok (status, capabilities) =>
            if status ≠ some 200 then some unreachable
            else capabilitiesRefusal agentRole modelId capabilities
    | _, _ => none

/-- `HarnessModelGatewayInvoker.invoke`. -/
def invoke (harness : HarnessGateway) (call : Invocation) : Except Raised Json := do
  let capability ← resolveCapability urls harness call
  match ensureRoleAvailable urls harness call capability with
  | some e => .error e
  | none =>
      match harness.invokeCapability with
      | .error text => .error (classifyGatewayFailure (raisedOther text))
      | .ok response =>
          if isMapping response then .ok response
          else .error (gatewayUnavailable "model gateway returned non-object response".toList)

end Invoker

end C2c.Orchestrator.ModelGateway
