import Mathlib
import C2c.Library.GoCollections
import C2c.Library.GoText
import C2c.Library.GoTime

/-!
The configuration of the model gateway: the model registry, the allowlist with
its roles, the service built from them, and the view of the available models.
-/

namespace C2c.Gateway.Policy

open C2c.Library.JavaText
open C2c.Library.GoText
open C2c.Library.GoTime
open C2c.Library.GoCollections

section Registry

structure ModelMetadata where
  id : Text
  provider : Text
  deploymentName : Text
  modelName : Text
  lifecycleStatus : Text
  licenseStatus : Text
  approvalExpiry : Text
  allowedDataClasses : List Text := []
  supportedTemplateVersions : List Text := []
  supportsStructuredOutput : Bool := false
  defaultTimeoutMs : Int64 := 0

def defaultTemplateVersion : Text := "v1".toList

def dataClassModelGateway : Text := "model-gateway".toList

def modelProviderFoundryDevelopment : Text := "foundry-development".toList

def modelProviderCustomerInternalMock : Text := "customer-internal-mock".toList

def allowedModelStatuses : List Text := ["approved".toList]

def allowedLicenseStatuses : List Text := ["approved".toList, "compliant".toList]

namespace ModelMetadata

/-- `IsActive`. -/
def isActive (m : ModelMetadata) (now : Time) : Bool :=
  m.id ≠ [] && m.deploymentName ≠ [] && m.modelName ≠ [] &&
    m.lifecycleStatus ∈ allowedModelStatuses && m.licenseStatus ∈ allowedLicenseStatuses &&
    match parse m.approvalExpiry with
    | some approval => !approval.before now
    | none => false

def supportsTemplate (m : ModelMetadata) (templateVersion : Text) : Bool :=
  if templateVersion = [] then false
  else if m.supportedTemplateVersions = [] then templateVersion = defaultTemplateVersion
  else templateVersion ∈ m.supportedTemplateVersions

def isDataClassAllowed (m : ModelMetadata) (dataClass : Text) : Bool :=
  if m.allowedDataClasses = [] then
    m.provider = modelProviderCustomerInternalMock || dataClass = dataClassModelGateway
  else dataClass ∈ m.allowedDataClasses

/-- `ModelMetadata.Validate`. -/
def validate (m : ModelMetadata) : Option String :=
  (List.find? (fun check => !check.1)
    [(decide (trimSpace m.id ≠ []), "model id is required"),
      (decide (trimSpace m.provider ≠ []), "model provider is required"),
      (decide (trimSpace m.deploymentName ≠ []), "deployment name is required"),
      (decide (trimSpace m.modelName ≠ []), "model name is required"),
      (decide (trimSpace m.lifecycleStatus ≠ []), "lifecycle status is required"),
      (decide (trimSpace m.licenseStatus ≠ []), "license status is required"),
      (decide (trimSpace m.approvalExpiry ≠ []), "approval expiry is required"),
      ((parse m.approvalExpiry).isSome, "approval expiry must be RFC3339 timestamp")]).map
    Prod.snd

end ModelMetadata

structure ModelRegistry where
  models : List ModelMetadata

/-- `ModelRegistry.Get`. -/
def ModelRegistry.get (r : ModelRegistry) (modelID : Text) : Option ModelMetadata :=
  r.models.find? fun model => model.id == modelID

inductive ConfigError
  | text (message : String)
  | modelInvalid (id : Text) (message : String)
  | unsupportedMode (mode : Text)
  | roleWithoutModels (role : Text)
  | roleModelNotAllowed (role modelID : Text)
  | deploymentNotFound (modelID : Text)
  | deploymentNotActive (modelID : Text)
  | defaultNotAllowed (modelID : Text)
deriving DecidableEq

/-- `ModelRegistry.Validate`. -/
def ModelRegistry.validate (r : ModelRegistry) : Option ConfigError :=
  if r.models = [] then some (.text "model registry has no models")
  else r.models.findSome? fun model => model.validate.map (.modelInvalid model.id)

end Registry

section Allowlist

structure ProviderFoundryConfig where
  endpoint : Text := []
  apiKeyRef : Text := []
  apiKey : Text := []
  timeoutMs : Int64 := 0

structure CustomerInternalConfig where
  baseURL : Text := []
  apiKeyRef : Text := []
  timeoutMs : Int64 := 0

/-- `FoundryDevelopmentAllowlist`; its roles are a map. -/
structure FoundryDevelopmentAllowlist where
  mode : Text
  policyID : Text := []
  allowedModelIDs : List Text := []
  roles : List (Text × List Text) := []
  rolesOnce : (roles.map Prod.fst).Nodup
  foundry : ProviderFoundryConfig := {}
  customerInternal : CustomerInternalConfig := {}

def defaultPolicyID : Text := "foundry-development-v0".toList

namespace FoundryDevelopmentAllowlist

variable (c : FoundryDevelopmentAllowlist)

def isModelAllowed (modelID : Text) : Bool :=
  if c.allowedModelIDs = [] then true else modelID ∈ c.allowedModelIDs

/-- `IsRoleAllowed`. -/
def isRoleAllowed (role modelID : Text) : Bool :=
  let role := trimSpace role
  if role = [] then false
  else
    match c.roles.lookup role with
    | none => false
    | some models => modelID ∈ models

/-- `AllowedModelsForRole`. -/
def allowedModelsForRole (role : Text) : Option (List Text) :=
  c.roles.lookup role

def resolvedPolicyID : Text :=
  if trimSpace c.policyID = [] then defaultPolicyID else trimSpace c.policyID

/-- The loop of `Validate` over the roles. -/
def roleError (entry : Text × List Text) : Option ConfigError :=
  if trimSpace entry.1 = [] then some (.text "role name must not be empty in roles map")
  else if entry.2 = [] then some (.roleWithoutModels entry.1)
  else
    (entry.2.find? fun modelID => !c.isModelAllowed modelID).map (.roleModelNotAllowed entry.1)

/-- `FoundryDevelopmentAllowlist.Validate`. -/
def validate : Option ConfigError :=
  if trimSpace c.mode = [] then some (.text "allowlist mode is required")
  else if c.mode ∉ [modelProviderFoundryDevelopment, modelProviderCustomerInternalMock] then
    some (.unsupportedMode c.mode)
  else if c.mode = modelProviderFoundryDevelopment ∧ c.allowedModelIDs = [] then
    some (.text "allowedModelIds must contain at least one model in foundry-development mode")
  else c.roles.findSome? c.roleError

end FoundryDevelopmentAllowlist

end Allowlist

section Service

-- Whether `url.Parse` takes a text as a URL with a scheme and a host.
variable (absoluteURL : Text → Bool)

/-- `NewFoundryAdapter`. -/
def newFoundryAdapter (cfg : ProviderFoundryConfig) : Except ConfigError Text :=
  if trimSpace cfg.endpoint = [] then .error (.text "foundry endpoint required")
  else if trimSpace cfg.apiKeyRef = [] ∧ trimSpace cfg.apiKey = [] then
    .error (.text "foundry api key reference required")
  else if cfg.timeoutMs ≤ 0 then .error (.text "foundry timeout must be greater than zero")
  else if !absoluteURL cfg.endpoint then
    .error (.text "foundry endpoint must be a valid absolute URL")
  else .ok modelProviderFoundryDevelopment

/-- `NewCustomerInternalMockAdapter`. -/
def newCustomerInternalMockAdapter (cfg : CustomerInternalConfig) : Except ConfigError Text :=
  if trimSpace cfg.baseURL = [] then .error (.text "customer mock base URL required")
  else if trimSpace cfg.apiKeyRef = [] then
    .error (.text "customer mock api key reference required")
  else if cfg.timeoutMs ≤ 0 then .error (.text "customer mock timeout must be greater than zero")
  else if !absoluteURL cfg.baseURL then
    .error (.text "customer mock base URL must be a valid absolute URL")
  else .ok modelProviderCustomerInternalMock

/-- `ModelGatewayService`, with the names of its providers. -/
structure ModelGatewayService where
  registry : ModelRegistry
  allowlist : FoundryDevelopmentAllowlist
  providers : List Text
  providerTimeouts : List (Text × Int64)
  policyID : Text := []
  defaultModelDeployment : Text := []
  fallbackModelDeployments : List Text := []
  allowedModelDeployments : List Text := []
  invocationLedgerEnabled : Bool := false
  harnessEventEmissionEnabled : Bool := false

/-- `NewModelGatewayService`. -/
def newModelGatewayService (registry : ModelRegistry) (allowlist : FoundryDevelopmentAllowlist) :
    Except ConfigError ModelGatewayService :=
  match registry.validate with
  | some e => .error e
  | none =>
    match allowlist.validate with
    | some e => .error e
    | none =>
      if allowlist.mode = modelProviderFoundryDevelopment then
        match newFoundryAdapter absoluteURL allowlist.foundry with
        | .error e => .error e
        | .ok name => .ok {
            registry
            allowlist
            providers := [name]
            providerTimeouts := [(name, allowlist.foundry.timeoutMs)] }
      else if allowlist.mode = modelProviderCustomerInternalMock then
        match newCustomerInternalMockAdapter absoluteURL allowlist.customerInternal with
        | .error e => .error e
        | .ok name => .ok {
            registry
            allowlist
            providers := [name]
            providerTimeouts := [(name, allowlist.customerInternal.timeoutMs)] }
      else .error (.unsupportedMode allowlist.mode)

structure GatewayConfig where
  defaultModelDeployment : Text := []
  fallbackModelDeployments : List Text := []
  allowedModelDeployments : List Text := []
  policyID : Text := []
  invocationLedgerEnabled : Bool := true
  harnessEventEmissionEnabled : Bool := true

/-- `dedupeAndTrimNonEmptyStringSlice`. -/
def dedupeAndTrimNonEmptyStringSlice (values : List Text) : List Text :=
  takeAllNew id [] ((values.map trimSpace).filter (· ≠ []))

/-- `validateDeploymentPolicyActive`, with the readings of the clock from the
first on. -/
def validateDeploymentPolicyActive (registry : ModelRegistry) (now : Nat → Time) :
    Nat → List Text → Option ConfigError
  | _, [] => none
  | reading, modelID :: modelIDs =>
      match registry.get modelID with
      | none => some (.deploymentNotFound modelID)
      | some model =>
          if model.isActive (now reading) then
            validateDeploymentPolicyActive registry now (reading + 1) modelIDs
          else some (.deploymentNotActive modelID)

/-- `applyGatewayRuntimeConfig`. -/
def applyGatewayRuntimeConfig (s : ModelGatewayService) (cfg : GatewayConfig) (now : Nat → Time) :
    Except ConfigError ModelGatewayService :=
  let fallbacks := dedupeAndTrimNonEmptyStringSlice cfg.fallbackModelDeployments
  let configured := dedupeAndTrimNonEmptyStringSlice cfg.allowedModelDeployments
  let allowed :=
    if configured = [] then dedupeAndTrimNonEmptyStringSlice s.allowlist.allowedModelIDs
    else configured
  let byDefault :=
    if trimSpace cfg.defaultModelDeployment = [] then allowed.headD []
    else trimSpace cfg.defaultModelDeployment
  let policyID :=
    if trimSpace cfg.policyID = [] then s.allowlist.resolvedPolicyID else trimSpace cfg.policyID
  match validateDeploymentPolicyActive s.registry now 0 allowed with
  | some e => .error e
  | none =>
    if byDefault ≠ [] ∧ byDefault ∉ allowed then .error (.defaultNotAllowed byDefault)
    else
      match validateDeploymentPolicyActive s.registry now allowed.length fallbacks with
      | some e => .error e
      | none => .ok { s with
          policyID
          defaultModelDeployment := byDefault
          fallbackModelDeployments := fallbacks
          allowedModelDeployments := allowed
          invocationLedgerEnabled := cfg.invocationLedgerEnabled
          harnessEventEmissionEnabled := cfg.harnessEventEmissionEnabled }

/-- A service that starts. -/
def configured (registry : ModelRegistry) (allowlist : FoundryDevelopmentAllowlist)
    (cfg : GatewayConfig) (now : Nat → Time) : Except ConfigError ModelGatewayService :=
  match newModelGatewayService absoluteURL registry allowlist with
  | .error e => .error e
  | .ok s => applyGatewayRuntimeConfig s cfg now

end Service

section Capabilities

variable (s : ModelGatewayService)

/-- `resolvedPolicyID` of the service. -/
def ModelGatewayService.resolvedPolicyID : Text :=
  if trimSpace s.policyID ≠ [] then s.policyID else s.allowlist.resolvedPolicyID

/-- `isModelDeploymentAllowed`. -/
def ModelGatewayService.isModelDeploymentAllowed (modelID : Text) : Bool :=
  if s.allowedModelDeployments = [] then s.allowlist.isModelAllowed modelID
  else modelID ∈ s.allowedModelDeployments

structure RoleAvailability where
  role : Text
  status : String
  policyID : Text
  availableModels : List Text
  configuredModels : List Text
  reason : String

/-- The body of the loop of `roleAvailability`. -/
def ModelGatewayService.isAvailable (now : Time) (modelID : Text) : Bool :=
  match s.registry.get modelID with
  | none => false
  | some model =>
      model.isActive now && s.isModelDeploymentAllowed modelID &&
        model.provider = s.allowlist.mode && model.provider ∈ s.providers

/-- `roleAvailability`. -/
def ModelGatewayService.roleAvailability (now : Time) (role : Text) : RoleAvailability :=
  match s.allowlist.allowedModelsForRole role with
  | none => {
      role
      status := "unavailable"
      policyID := s.resolvedPolicyID
      availableModels := []
      configuredModels := []
      reason := "role is not configured in allowlist" }
  | some configured =>
      let available := configured.filter (s.isAvailable now)
      { role
        status := if available = [] then "unavailable" else "ok"
        policyID := s.resolvedPolicyID
        availableModels := available
        configuredModels := configured
        reason := if available = [] then "no approved active model for role" else "" }

/-- `w02AgentRoles`. -/
def w02AgentRoles : List Text :=
  ["transformation".toList, "verification-repair".toList]

/-- The roles that `capabilitiesHandler` reports, before they are sorted. -/
def ModelGatewayService.reportedRoles : List Text :=
  takeAllNew id w02AgentRoles
    ((s.allowlist.roles.map Prod.fst).filter fun role => trimSpace role ≠ [])

/-- The roles of the answer of `capabilitiesHandler`, each at its reading of the
clock. -/
def ModelGatewayService.capabilities (now : Text → Time) : List RoleAvailability :=
  (s.reportedRoles.insertionSort (· ≤ ·)).map fun role => s.roleAvailability (now role) role

end Capabilities

end C2c.Gateway.Policy
