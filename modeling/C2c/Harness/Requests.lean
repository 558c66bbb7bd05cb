import C2c.Harness.Service
import C2c.Library.GoJson

/-!
The requests that change what the harness keeps: registrations of capabilities
and MCP servers, runs and posted events, each handled to its end.
-/

namespace C2c.Harness.Requests

open C2c.Library.JavaText
open C2c.Library.JsonText
open C2c.Library.GoJson
open C2c.Library.Machine
open C2c.Harness.Events
open C2c.Harness.Service

section Registries

structure Capability where
  id : Text := []
  name : Text := []
  owner : Text := []
  endpoint : Text := []
  dataClass : Text := []
  policyProfile : Text := []
  version : Text := []
  description : Text := []
deriving DecidableEq

def Capability.json (cap : Capability) : Json :=
  .object (present
    [("id", textField cap.id),
      ("name", textField cap.name),
      ("owner", textField cap.owner),
      ("endpoint", textField cap.endpoint),
      ("dataClass", textField cap.dataClass),
      ("policyProfile", textField cap.policyProfile),
      ("version", textField cap.version),
      ("description", textField cap.description)])

/-- `PolicyProfileOrDefault`. -/
def Capability.policyProfileOrDefault (cap : Capability) : Text :=
  if cap.policyProfile = [] then profileControlledByHarness else cap.policyProfile

/-- An MCP server as it is requested; `capabilities` may be `nil`. -/
structure McpServer where
  id : Text := []
  name : Text := []
  endpoint : Text := []
  protocol : Text := []
  capabilities : Option (List Text) := none
deriving DecidableEq

/-- `RegisterMcpServerRequest`, with the role the handler fills in. -/
def McpServer.requestJson (callerRole : Text) (server : McpServer) : Json :=
  .object (present
    [("callerRole", textField callerRole),
      ("id", textField server.id),
      ("name", textField server.name),
      ("endpoint", textField server.endpoint),
      ("protocol", textField server.protocol),
      ("capabilities", some ((server.capabilities.map fun names =>
        .array (names.map .string)).getD .null))])

def isIdChar (c : Char) : Bool :=
  ('a' ≤ c && c ≤ 'z') || isDigitAscii c

/-- What may follow in an id, `fresh` at the start of a segment. -/
def idRest (fresh : Bool) : Text → Bool
  | [] => !fresh
  | c :: t => if isIdChar c then idRest false t else isSeparator c && !fresh && idRest true t

/-- `idPattern.MatchString`. -/
def matchesIdPattern (t : Text) : Bool :=
  idRest true t

/-- The reason of the first check that fails. -/
def firstReason (checks : List (Bool × String)) : Option Text :=
  (checks.find? fun check => !check.1).map fun check => check.2.toList

/-- `validateCapabilityFields`, where `isURL` is `validateURL`. -/
def validateCapabilityFields (isURL : Text → Bool) (cap : Capability) : Option Text :=
  firstReason
    [(cap.id ≠ [] && matchesIdPattern cap.id,
        "capability.id must be non-empty and use lowercase dot/hyphen/underscore segments"),
      (cap.name ≠ [], "capability.name is required"),
      (cap.owner ≠ [], "capability.owner is required"),
      (cap.endpoint ≠ [], "capability.endpoint is required"),
      (cap.dataClass ≠ [], "capability.dataClass is required"),
      (cap.dataClass ∈ allowedDataClasses,
        "capability.dataClass must be one of supported data classes"),
      (cap.policyProfile ≠ [], "capability.policyProfile is required"),
      (cap.version ≠ [], "capability.version is required"),
      (isURL cap.endpoint, "endpoint must be a valid URL with scheme and host")]

def validateMcpServer (server : McpServer) : Option Text :=
  firstReason
    [(server.id ≠ [], "mcp server id is required"),
      (server.name ≠ [], "mcp server name is required"),
      (server.endpoint ≠ [], "mcp server endpoint is required")]

/-- `Register` past its checks: an id is registered once. -/
def insertNew {A : Type} (kind : String) (registry : Text → Option A) (id : Text) (a : A) :
    Except Text (Text → Option A) :=
  if (registry id).isSome then .error (kind.toList ++ ' ' :: id ++ " already registered".toList)
  else .ok (Function.update registry id (some a))

/-- `CapabilityRegistry.Register`. -/
def registerCapability (isURL : Text → Bool) (registry : Text → Option Capability)
    (cap : Capability) : Except Text (Text → Option Capability) :=
  match validateCapabilityFields isURL cap with
  | some reason => .error reason
  | none => insertNew "capability" registry cap.id cap

/-- `McpServerRegistry.Register`. -/
def registerMcpServer (registry : Text → Option McpServer) (server : McpServer) :
    Except Text (Text → Option McpServer) :=
  match validateMcpServer server with
  | some reason => .error reason
  | none => insertNew "mcp server" registry server.id server

/-- The data classes agents must not register. -/
def forbiddenDataClasses : List Text :=
  allowedDataClasses.filter (· != dataClassOther)

/-- `DefaultPolicyEngine.Decide` on `register_capability`: the reason of an
allowance or of a refusal. -/
def decideRegistration (role dataClass : Text) : Except Text Text :=
  let role := if role = [] then "agent".toList else role
  if role = "agent".toList ∧ dataClass ∈ forbiddenDataClasses then
    .error "direct agent integration to core infrastructure services is prohibited".toList
  else .ok policyAllow

end Registries

section Handlers

/-- A change the harness has accepted. -/
inductive Change
  | capability (cap : Capability)
  | mcpServer (server : McpServer)
  | run (runId : Text) (transition : Transition)

/-- An event of the log, with the place of the change it was emitted for. -/
structure Logged where
  event : EventEnvelopeV0
  change : Option Nat := none

/-- The harness; `changes` holds the changes it has answered with success. -/
structure ServiceState where
  capabilities : Text → Option Capability := fun _ => none
  mcpServers : Text → Option McpServer := fun _ => none
  store : RunStore := {}
  steps : Text → Nat := fun _ => 0
  log : List Logged := []
  changes : List Change := []

/-- `emitEvent`, on a sink that does not fail. -/
def ServiceState.emitEvent (s : ServiceState) (event : EventEnvelopeV0) (now : Nat) (change : Option Nat) :
    ServiceState :=
  let numbered := event.stepId = 0
  let event := completed (if numbered then { event with stepId := s.steps event.runId + 1 }
    else event) now
  { s with
    steps := if numbered then Function.update s.steps event.runId (s.steps event.runId + 1)
      else s.steps
    log := if event.validate = none then s.log ++ [⟨event, change⟩] else s.log }

/-- The handler has stored a change and emits its event. -/
def ServiceState.record (s : ServiceState) (change : Change) (event : EventEnvelopeV0) (now : Nat) : ServiceState :=
  { s with changes := s.changes ++ [change] }.emitEvent event now (some s.changes.length)

def systemRunId : Text := "system".toList

/-- The event of a registration. -/
def registryEvent (principal : Principal) (eventType : String) (dataClass profile reason : Text)
    (inputRef outputRef : EventReference) (payload : Json) : EventEnvelopeV0 where
  runId := systemRunId
  eventType := eventType.toList
  actor := principal.actor
  capability := "agentic-harness-core".toList
  dataClass := dataClass
  redactionProfile := profile
  policyDecision := reason
  status := "ok".toList
  stateTransition := "registry.registered".toList
  inputRef := inputRef
  outputRef := outputRef
  payload := marshal payload

def capabilityPayload (cap : Capability) : Json :=
  .object [("capabilityId".toList, .string cap.id)]

def capabilityEvent (principal : Principal) (cap : Capability) (reason : Text) : EventEnvelopeV0 :=
  registryEvent principal "capability.registered" cap.dataClass cap.policyProfileOrDefault reason
    (newEventReference "urn:harness/capability/request".toList (marshal cap.json))
    (newEventReference "urn:harness/capability/response".toList (marshal (.object
      [("id".toList, .string cap.id), ("profile".toList, .string cap.policyProfile),
        ("status".toList, .string "registered".toList)])))
    (capabilityPayload cap)

def mcpServerPayload (server : McpServer) : Json :=
  .object [("serverId".toList, .string server.id)]

def mcpServerEvent (principal : Principal) (server : McpServer) (reason : Text) : EventEnvelopeV0 :=
  registryEvent principal "mcp-server.registered" dataClassOther profileControlledByHarness reason
    (newEventReference "urn:harness/mcp/request".toList
      (marshal (server.requestJson principal.role)))
    (newEventReference "urn:harness/mcp/response".toList (marshal (.object
      [("id".toList, .string server.id), ("name".toList, .string server.name),
        ("status".toList, .string "registered".toList)])))
    (mcpServerPayload server)

/-- A request with its authenticated principal and the time it is handled at. -/
inductive Request
  | postCapability (principal : Principal) (cap : Capability) (now : Nat)
  | postMcpServer (principal : Principal) (server : McpServer) (now : Nat)
  | postRun (principal : Principal) (workflowId : Text) (documents : Documents) (now : Nat)
  | patchRun (principal : Principal) (runId status : Text) (documents : Documents) (now : Nat)
  | postEvent (principal : Principal) (event : EventEnvelopeV0) (now : Nat)

variable (isURL : Text → Bool)

/-- `POST /v0/capabilities`. -/
def postCapability (s : ServiceState) (principal : Principal) (cap : Capability) (now : Nat) : ServiceState :=
  match decideRegistration principal.role cap.dataClass with
  | .error _ => s
  | .ok reason =>
    match registerCapability isURL s.capabilities cap with
    | .error _ => s
    | .ok capabilities =>
        { s with capabilities }.record (.capability cap) (capabilityEvent principal cap reason) now

/-- `POST /v0/mcp-servers`. -/
def postMcpServer (s : ServiceState) (principal : Principal) (server : McpServer) (now : Nat) : ServiceState :=
  match decideRegistration principal.role dataClassOther with
  | .error _ => s
  | .ok reason =>
    match registerMcpServer s.mcpServers server with
    | .error _ => s
    | .ok mcpServers =>
        { s with mcpServers }.record (.mcpServer server) (mcpServerEvent principal server reason) now

/-- `POST /v0/runs`. -/
def postRun (s : ServiceState) (principal : Principal) (workflowId : Text) (documents : Documents)
    (now : Nat) : ServiceState :=
  if workflowId = [] then s
  else
    let runId := runIdOf (s.store.seq + 1)
    { s with store := s.store.create }.record (.run runId ⟨none, .starting⟩)
      (stateEvent principal runId "urn:harness/run/request".toList documents ⟨none, .starting⟩) now

/-- `PATCH /v0/runs/\x7bid\x7d`. -/
def patchRun (s : ServiceState) (principal : Principal) (runId status : Text) (documents : Documents)
    (now : Nat) : ServiceState :=
  match s.store.update runId (Library.GoText.toLower status) with
  | .error _ => s
  | .ok (store, previous, next) =>
      { s with store }.record (.run runId ⟨some previous, next⟩)
        (stateEvent principal runId ("urn:harness/run/".toList ++ runId ++ "/request".toList)
          documents ⟨some previous, next⟩) now

/-- What `authorizeEventProducer` reads of the registered capabilities. -/
def ServiceState.registered (s : ServiceState) (id : Text) : Option RegisteredCapability :=
  (s.capabilities id).map fun cap => ⟨cap.owner, cap.dataClass⟩

/-- `POST /v0/events`. -/
def postEvent (s : ServiceState) (principal : Principal) (event : EventEnvelopeV0) (now : Nat) : ServiceState :=
  if event.runId = [] then s
  else
    match s.store.runs event.runId with
    | none => s
    | some status =>
        if status.isTerminal then s
        else if (authorizeEventProducer principal s.registered
            (withDefaults principal event now)).isSome then s
        else s.emitEvent (withDefaults principal event now) now none

def handle (s : ServiceState) : Request → ServiceState
  | .postCapability principal cap now => postCapability isURL s principal cap now
  | .postMcpServer principal server now => postMcpServer s principal server now
  | .postRun principal workflowId documents now => postRun s principal workflowId documents now
  | .patchRun principal runId status documents now =>
      patchRun s principal runId status documents now
  | .postEvent principal event now => postEvent s principal event now

end Handlers

end C2c.Harness.Requests
