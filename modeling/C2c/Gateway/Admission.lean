import C2c.Gateway.Handler

/-!
What the models that providers are called with are checked for, and the models
that the capabilities list for a role.
-/

namespace C2c.Gateway.Admission

open C2c.Library.JavaText
open C2c.Library.GoText
open C2c.Library.GoTime
open C2c.Library.GoCollections
open C2c.Harness.Events (allowedDataClasses)
open C2c.Gateway.Ledger
open C2c.Gateway.Policy
open C2c.Gateway.Invocation
open C2c.Gateway.Handler

section Configuration

/-- What the start of a service ensures. -/
structure Configured (s : ModelGatewayService) : Prop where
  identified : ∀ model ∈ s.registry.models, trimSpace model.id ≠ []
  named : ∀ entry ∈ s.allowlist.roles, trimSpace entry.1 ≠ []
  mode : trimSpace s.allowlist.mode ≠ []
  ready : s.allowlist.mode ∈ s.providers
  limited : ∃ limit, s.providerTimeouts.lookup s.allowlist.mode = some limit ∧ 0 < limit

theorem identified_of_validate {r : ModelRegistry} (h : r.validate = none) :
    ∀ model ∈ r.models, trimSpace model.id ≠ [] := by
  intro model hmodel
  unfold ModelRegistry.validate at h
  split at h
  · cases h
  · have hvalid := List.findSome?_eq_none_iff.mp h model hmodel
    rw [Option.map_eq_none_iff, ModelMetadata.validate, Option.map_eq_none_iff,
      List.find?_eq_none] at hvalid
    simpa using hvalid _ List.mem_cons_self

theorem named_of_validate {c : FoundryDevelopmentAllowlist} (h : c.validate = none) :
    ∀ entry ∈ c.roles, trimSpace entry.1 ≠ [] := by
  intro entry hentry hblank
  unfold FoundryDevelopmentAllowlist.validate at h
  split_ifs at h
  have hrole := List.findSome?_eq_none_iff.mp h entry hentry
  rw [FoundryDevelopmentAllowlist.roleError, if_pos hblank] at hrole
  cases hrole

theorem newFoundryAdapter_ok {absoluteURL : Text → Bool} {cfg : ProviderFoundryConfig}
    {name : Text} (h : newFoundryAdapter absoluteURL cfg = .ok name) :
    name = modelProviderFoundryDevelopment ∧ 0 < cfg.timeoutMs := by
  unfold newFoundryAdapter at h
  split_ifs at h with _ _ htimeout
  exact ⟨(Except.ok.inj h).symm, Int64.not_le.mp htimeout⟩

theorem newCustomerInternalMockAdapter_ok {absoluteURL : Text → Bool}
    {cfg : CustomerInternalConfig} {name : Text}
    (h : newCustomerInternalMockAdapter absoluteURL cfg = .ok name) :
    name = modelProviderCustomerInternalMock ∧ 0 < cfg.timeoutMs := by
  unfold newCustomerInternalMockAdapter at h
  split_ifs at h with _ _ htimeout
  exact ⟨(Except.ok.inj h).symm, Int64.not_le.mp htimeout⟩

theorem configured_new {absoluteURL : Text → Bool} {registry : ModelRegistry}
    {allowlist : FoundryDevelopmentAllowlist} {s : ModelGatewayService}
    (h : newModelGatewayService absoluteURL registry allowlist = .ok s) : Configured s := by
  unfold newModelGatewayService at h
  split at h
  · cases h
  next hregistry =>
  split at h
  · cases h
  next hallowlist =>
  have hidentified := identified_of_validate hregistry
  have hnamed := named_of_validate hallowlist
  split_ifs at h with hfoundry hmock
  · split at h
    · cases h
    · next name hname =>
        obtain ⟨rfl, htimeout⟩ := newFoundryAdapter_ok hname
        cases h
        exact ⟨hidentified, hnamed, by rw [hfoundry]; decide, List.mem_singleton.mpr hfoundry, _,
          by rw [hfoundry]; exact List.lookup_cons_self, htimeout⟩
  · split at h
    · cases h
    · next name hname =>
        obtain ⟨rfl, htimeout⟩ := newCustomerInternalMockAdapter_ok hname
        cases h
        exact ⟨hidentified, hnamed, by rw [hmock]; decide, List.mem_singleton.mpr hmock, _,
          by rw [hmock]; exact List.lookup_cons_self, htimeout⟩

theorem configured_apply {s s' : ModelGatewayService} {cfg : GatewayConfig} {now : Nat → Time}
    (hs : Configured s) (h : applyGatewayRuntimeConfig s cfg now = .ok s') : Configured s' := by
  unfold applyGatewayRuntimeConfig at h
  extract_lets fallbacks configured allowed byDefault policyID at h
  clear_value fallbacks configured allowed byDefault policyID
  split at h
  · cases h
  split at h
  · cases h
  split at h
  · cases h
  · cases h
    exact ⟨hs.identified, hs.named, hs.mode, hs.ready, hs.limited⟩

theorem configured_ok {absoluteURL : Text → Bool} {registry : ModelRegistry}
    {allowlist : FoundryDevelopmentAllowlist} {cfg : GatewayConfig} {now : Nat → Time}
    {s : ModelGatewayService} (h : configured absoluteURL registry allowlist cfg now = .ok s) :
    Configured s := by
  unfold configured at h
  split at h
  · cases h
  · next hnew => exact configured_apply (configured_new hnew) h

end Configuration

section Checks

theorem firstRefused_eq_none {checks : List (Bool × ValidationCode × Text)} :
    firstRefused checks = none ↔ ∀ check ∈ checks, check.1 = true := by
  simp [firstRefused]

theorem firstRefused_append (checks more : List (Bool × ValidationCode × Text)) :
    firstRefused (checks ++ more) = (firstRefused checks).or (firstRefused more) := by
  unfold firstRefused
  rw [List.find?_append, Option.map_or]

/-- The error of a check that fails. -/
theorem mem_of_firstRefused {checks : List (Bool × ValidationCode × Text)}
    {e : ModelGatewayValidationError} (h : firstRefused checks = some e) :
    ∃ check ∈ checks, check.1 = false ∧ check.2.1 = e.code := by
  obtain ⟨check, hcheck, rfl⟩ := Option.map_eq_some_iff.mp h
  exact ⟨check, List.mem_of_find?_eq_some hcheck, by simpa using List.find?_some hcheck, rfl⟩

theorem get_id {r : ModelRegistry} {modelID : Text} {model : ModelMetadata}
    (h : r.get modelID = some model) : model.id = modelID := by
  have hfound := List.find?_some (show r.models.find? (fun m => m.id == modelID) = some model from h)
  exact eq_of_beq hfound

/-- A role lists a model under a name. -/
def Configures (s : ModelGatewayService) (role modelID : Text) : Prop :=
  ∃ models, s.allowlist.roles.lookup role = some models ∧ modelID ∈ models

theorem isRoleAllowed_iff {s : ModelGatewayService} (hs : Configured s) {role modelID : Text} :
    s.allowlist.isRoleAllowed role modelID = true ↔ Configures s (trimSpace role) modelID := by
  unfold FoundryDevelopmentAllowlist.isRoleAllowed Configures
  dsimp only
  split
  · next hblank =>
      rw [hblank]
      constructor
      · exact nofun
      · rintro ⟨models, hlookup, _⟩
        obtain ⟨before, after, hroles, _⟩ := List.lookup_eq_some_iff.mp hlookup
        exact absurd rfl (hs.named ([], models) (by simp [hroles]))
  · split <;> simp [*]

end Checks

section Calls

/-- A model that a provider may be called with: everything its registry entry, the
gateway and the request say of it at a time. -/
structure Admitted (s : ModelGatewayService) (now : Time) (request : ModelInvocationRequest)
    (model : ModelMetadata) : Prop where
  registered : s.registry.get model.id = some model
  active : model.isActive now = true
  mode : model.provider = s.allowlist.mode
  deployed : s.isModelDeploymentAllowed model.id = true
  role : Configures s (trimSpace request.agentRole) model.id
  known : request.dataClass ∈ allowedDataClasses
  dataClass : model.isDataClassAllowed request.dataClass = true
  template : model.supportsTemplate request.promptTemplateVersion = true
  structured : request.structuredOutput = true →
    model.supportsStructuredOutput = true ∧ request.structuredOutputSchema.entries ≠ []
  positive : 0 < request.timeoutMs
  modelTimeout : 0 < model.defaultTimeoutMs → request.timeoutMs ≤ model.defaultTimeoutMs
  providerTimeout : ∃ limit, s.providerTimeouts.lookup s.allowlist.mode = some limit ∧
    request.timeoutMs ≤ limit

variable {quote : Text → Text} {s : ModelGatewayService}

/-- What a validation that succeeds has found. -/
theorem admitted_of_validate (hs : Configured s) {now : Time} {request : ModelInvocationRequest}
    {requestRef : DataReference} {v : ValidatedInvocation}
    (h : validateInvocation quote s now request requestRef = .ok v) :
    Admitted s now request v.model ∧ v.model.id = request.modelID ∧
      v.request = { request with actor := v.request.actor } := by
  unfold validateInvocation at h
  split at h
  · cases h
  next hrequest =>
  split at h
  · cases h
  next model hmodel =>
  split at h
  · cases h
  next hmodelChecks =>
  cases h
  simp only [firstRefused_append, Option.or_eq_none_iff, firstRefused_eq_none, accessChecks,
    demandChecks, requestChecks, List.forall_mem_cons, decide_eq_true_eq, Bool.or_eq_true,
    Bool.not_eq_true', Bool.and_eq_false_iff, decide_eq_false_iff_not] at hmodelChecks hrequest
  obtain ⟨⟨hactive, hmode, hdeployed, hrole, _⟩, hknown, hdata, htemplate, hoffered, hschema,
    hdefault, hprovider, _⟩ := hmodelChecks
  obtain ⟨limit, hlimit, hpositive⟩ := hs.limited
  have hid := get_id hmodel
  refine ⟨{
    registered := by rw [hid]; exact hmodel
    active := hactive
    mode := hmode
    deployed := hdeployed
    role := (isRoleAllowed_iff hs).mp hrole
    known := hknown
    dataClass := hdata
    template := htemplate
    structured := fun hstructured => ?_
    positive := hrequest.2.2.2.2.1
    modelTimeout := fun hbound => ?_
    providerTimeout := ⟨limit, hlimit, ?_⟩ }, hid, rfl⟩
  · simp only [hstructured, Bool.true_eq_false, false_or] at hoffered hschema
    exact ⟨hoffered, hschema⟩
  · exact Int64.not_lt.mp (hdefault.resolve_left (not_not.mpr hbound))
  · rw [hmode, hlimit, Option.getD_some] at hprovider
    exact Int64.not_lt.mp (hprovider.resolve_left (not_not.mpr hpositive))

/-- A call of a request: its model is admitted when it is checked, and nothing but
the model and the actor differs from what is asked. -/
structure Lawful (s : ModelGatewayService) (request : ModelInvocationRequest) (call : Call) :
    Prop where
  admitted : Admitted s call.checkedAt request call.model
  asked : call.request =
    { request with modelID := call.model.id, actor := call.request.actor }

theorem lawful_of_validate (hs : Configured s) {now : Time} {request : ModelInvocationRequest}
    {modelID : Text} {requestRef : DataReference} {v : ValidatedInvocation}
    (h : validateInvocation quote s now { request with modelID } requestRef = .ok v) :
    Lawful s request ⟨now, v.request, v.model⟩ := by
  obtain ⟨hadmitted, hid, hrequest⟩ := admitted_of_validate hs h
  refine ⟨⟨hadmitted.registered, hadmitted.active, hadmitted.mode, hadmitted.deployed,
    hadmitted.role, hadmitted.known, hadmitted.dataClass, hadmitted.template,
    hadmitted.structured, hadmitted.positive, hadmitted.modelTimeout,
    hadmitted.providerTimeout⟩, ?_⟩
  change v.request = { request with modelID := v.model.id, actor := v.request.actor }
  rw [hid]
  exact hrequest

theorem lawful_callFallbacks (hs : Configured s) (env : Environment)
    (request : ModelInvocationRequest) (requestRef : DataReference)
    (selected : ValidatedInvocation) (modelIDs : List Text) (deadlineExceeded : Bool) (n : Nat) :
    ∀ call ∈ (callFallbacks quote s env request requestRef selected deadlineExceeded n modelIDs).1,
      Lawful s request call := by
  induction modelIDs generalizing deadlineExceeded n with
  | nil => exact nofun
  | cons modelID modelIDs ih =>
      rw [callFallbacks]
      split
      · exact ih deadlineExceeded (n + 1)
      · next fallback hvalid =>
          have hcall := lawful_of_validate hs hvalid
          dsimp only
          split
          · exact List.forall_mem_singleton.mpr hcall
          · exact List.forall_mem_cons.mpr ⟨hcall, ih _ (n + 1)⟩

theorem lawful_callProviders (hs : Configured s) (env : Environment)
    {request : ModelInvocationRequest} {requestRef : DataReference} {v : ValidatedInvocation}
    (h : validateInvocation quote s (env.validatedAt 0) request requestRef = .ok v) :
    ∀ call ∈ (callProviders quote s env request requestRef v).1, Lawful s request call := by
  have hcall : Lawful s request ⟨env.validatedAt 0, v.request, v.model⟩ :=
    @lawful_of_validate quote s hs _ request request.modelID requestRef v h
  unfold callProviders
  dsimp only
  split
  · exact List.forall_mem_singleton.mpr hcall
  · split
    · exact List.forall_mem_singleton.mpr hcall
    · exact List.forall_mem_cons.mpr ⟨hcall, lawful_callFallbacks hs env request requestRef v _ _ 1⟩

theorem calls_reject (env : Environment) (state : GatewayState) (request : ModelInvocationRequest)
    (requestRef : DataReference) (invocationID : Text) (e : ModelGatewayValidationError) :
    (reject s env state request requestRef invocationID e).calls = [] := by
  unfold reject
  dsimp only
  split <;> rfl

theorem calls_finish (env : Environment) (state : GatewayState) (requestRef : DataReference)
    (invocationID : Text) (calls : List Call) (attempt : Attempt) :
    (finish s env state requestRef invocationID calls attempt).calls = calls := by
  unfold finish
  dsimp only
  split
  · rfl
  · split <;> rfl

theorem lawful_invokeHandler (hs : Configured s) (env : Environment) (state : GatewayState)
    (request : ModelInvocationRequest) :
    ∀ call ∈ (invokeHandler quote s env state request).calls, Lawful s request call := by
  unfold invokeHandler
  dsimp only
  split
  · rw [calls_reject]
    exact nofun
  · next v hvalid =>
      rw [calls_finish]
      exact lawful_callProviders hs env hvalid

end Calls

section Capabilities

variable {quote : Text → Text} {s : ModelGatewayService}

/-- The codes of the checks of a model and of the role it is asked for in. -/
def modelAndRoleCodes : List ValidationCode :=
  [.missingModelID, .unknownModel, .inactiveModel, .disallowedModelEndpoint, .forbiddenModel,
    .forbiddenRole, .providerNotReady]

/-- No request for a model in a role is refused for the model or the role. -/
def Accepts (quote : Text → Text) (s : ModelGatewayService) (now : Time) (role modelID : Text) :
    Prop :=
  ∀ request requestRef e, request.modelID = modelID → request.agentRole = role →
    validateInvocation quote s now request requestRef = .error e → e.code ∉ modelAndRoleCodes

/-- A model that a gateway can use at a time. -/
def Usable (s : ModelGatewayService) (now : Time) (modelID : Text) : Prop :=
  ∃ model, s.registry.get modelID = some model ∧ model.isActive now = true ∧
    model.provider = s.allowlist.mode ∧ s.isModelDeploymentAllowed modelID = true

theorem isAvailable_iff (hs : Configured s) {now : Time} {modelID : Text} :
    s.isAvailable now modelID = true ↔ Usable s now modelID := by
  unfold ModelGatewayService.isAvailable Usable
  split
  · next hnone => simp [hnone]
  · next model hmodel =>
      simp only [Bool.and_eq_true, decide_eq_true_eq, hmodel, Option.some.injEq,
        exists_eq_left']
      constructor
      · rintro ⟨⟨⟨hactive, hdeployed⟩, hmode⟩, _⟩
        exact ⟨hactive, hmode, hdeployed⟩
      · rintro ⟨hactive, hmode, hdeployed⟩
        exact ⟨⟨⟨hactive, hdeployed⟩, hmode⟩, hmode ▸ hs.ready⟩

theorem mem_availableModels (hs : Configured s) {now : Time} {role modelID : Text} :
    modelID ∈ (s.roleAvailability now role).availableModels ↔
      Usable s now modelID ∧ Configures s role modelID := by
  unfold ModelGatewayService.roleAvailability FoundryDevelopmentAllowlist.allowedModelsForRole
    Configures
  split
  · next hnone => simp [hnone]
  · next models hmodels =>
      simp only [List.mem_filter, isAvailable_iff hs, hmodels, Option.some.injEq,
        exists_eq_left']
      exact and_comm

/-- A request that leaves only its model and its role to be refused. -/
def probe (role modelID : Text) : ModelInvocationRequest where
  runID := "run".toList
  modelID
  agentRole := role
  dataClass := "model".toList
  promptTemplateVersion := defaultTemplateVersion
  timeoutMs := 1

theorem code_of_requestChecks_probe {role modelID : Text} {e : ModelGatewayValidationError}
    (h : firstRefused (requestChecks (probe role modelID)) = some e) :
    e.code = .missingModelID := by
  obtain ⟨check, hcheck, hfails, hcode⟩ := mem_of_firstRefused h
  simp only [requestChecks, probe, List.mem_cons, List.not_mem_nil, or_false] at hcheck
  rcases hcheck with rfl | rfl | rfl | rfl | rfl
  · exact absurd hfails (show decide (trimSpace "run".toList ≠ []) ≠ false by decide)
  · exact hcode.symm
  · exact absurd hfails (show decide (trimSpace "model".toList ≠ []) ≠ false by decide)
  · exact absurd hfails (show decide (trimSpace defaultTemplateVersion ≠ []) ≠ false by decide)
  · exact absurd hfails (show decide ((0 : Int64) < 1) ≠ false by decide)

theorem code_of_accessChecks {now : Time} {request : ModelInvocationRequest}
    {model : ModelMetadata} {e : ModelGatewayValidationError}
    (h : firstRefused (accessChecks quote s now request model) = some e) :
    e.code ∈ modelAndRoleCodes := by
  obtain ⟨check, hcheck, _, hcode⟩ := mem_of_firstRefused h
  have hmem : e.code ∈ (accessChecks quote s now request model).map fun check => check.2.1 :=
    List.mem_map.mpr ⟨check, hcheck, hcode⟩
  have hcodes : ∀ code ∈ [ValidationCode.inactiveModel, .disallowedModelEndpoint,
      .forbiddenModel, .forbiddenRole], code ∈ modelAndRoleCodes := by decide
  exact hcodes e.code hmem

/-- What is accepted passes the checks of the model and the role. -/
theorem usable_of_accepts (hs : Configured s) {now : Time} {role modelID : Text}
    (h : Accepts quote s now role modelID) :
    Usable s now modelID ∧ Configures s (trimSpace role) modelID := by
  have hprobe := h (probe role modelID) (computeSHA256Ref .null)
  unfold validateInvocation at hprobe
  split at hprobe
  · next e he =>
      have hcode := hprobe e rfl rfl rfl
      rw [code_of_requestChecks_probe he] at hcode
      exact absurd (by decide) hcode
  split at hprobe
  · exact absurd (by decide) (hprobe _ rfl rfl rfl)
  next model hmodel =>
  rw [firstRefused_append] at hprobe
  cases haccess : firstRefused (accessChecks quote s now (probe role modelID) model) with
  | some e =>
      rw [haccess, Option.some_or] at hprobe
      exact absurd (code_of_accessChecks haccess) (hprobe e rfl rfl rfl)
  | none =>
      simp only [firstRefused_eq_none, accessChecks, List.forall_mem_cons,
        decide_eq_true_eq] at haccess
      obtain ⟨hactive, hmode, hdeployed, hrole, _⟩ := haccess
      have hid : model.id = modelID := get_id hmodel
      rw [hid] at hdeployed hrole
      exact ⟨⟨model, hmodel, hactive, hmode, hdeployed⟩, (isRoleAllowed_iff hs).mp hrole⟩

theorem code_of_requestChecks {request : ModelInvocationRequest}
    (hid : trimSpace request.modelID ≠ []) {e : ModelGatewayValidationError}
    (h : firstRefused (requestChecks request) = some e) : e.code ∉ modelAndRoleCodes := by
  obtain ⟨check, hcheck, hfails, hcode⟩ := mem_of_firstRefused h
  simp only [requestChecks, List.mem_cons, List.not_mem_nil, or_false] at hcheck
  rw [← hcode]
  rcases hcheck with rfl | rfl | rfl | rfl | rfl
  · exact show ValidationCode.missingRunID ∉ modelAndRoleCodes by decide
  · exact absurd hfails (by simpa using hid)
  · exact show ValidationCode.missingDataClass ∉ modelAndRoleCodes by decide
  · exact show ValidationCode.missingPromptTemplate ∉ modelAndRoleCodes by decide
  · exact show ValidationCode.invalidTimeout ∉ modelAndRoleCodes by decide

theorem code_of_demandChecks {request : ModelInvocationRequest} {model : ModelMetadata}
    (hready : model.provider ∈ s.providers) {e : ModelGatewayValidationError}
    (h : firstRefused (demandChecks s request model) = some e) : e.code ∉ modelAndRoleCodes := by
  obtain ⟨check, hcheck, hfails, hcode⟩ := mem_of_firstRefused h
  simp only [demandChecks, List.mem_cons, List.not_mem_nil, or_false] at hcheck
  rw [← hcode]
  rcases hcheck with rfl | rfl | rfl | rfl | rfl | rfl | rfl | rfl
  · exact show ValidationCode.unsupportedDataClass ∉ modelAndRoleCodes by decide
  · exact show ValidationCode.forbiddenDataClass ∉ modelAndRoleCodes by decide
  · exact show ValidationCode.unsupportedPromptTemplate ∉ modelAndRoleCodes by decide
  · exact show ValidationCode.unsupportedStructuredOutput ∉ modelAndRoleCodes by decide
  · exact show ValidationCode.missingStructuredOutputSchema ∉ modelAndRoleCodes by decide
  · exact show ValidationCode.timeoutExceededModelDefault ∉ modelAndRoleCodes by decide
  · exact show ValidationCode.timeoutExceededProvider ∉ modelAndRoleCodes by decide
  · exact absurd hfails (by simpa using hready)

theorem accepts_of_usable (hs : Configured s) {now : Time} {role modelID : Text}
    (h : Usable s now modelID) (hrole : Configures s (trimSpace role) modelID) :
    Accepts quote s now role modelID := by
  rintro request requestRef e rfl rfl herror
  obtain ⟨model, hmodel, hactive, hmode, hdeployed⟩ := h
  have hid := get_id hmodel
  have hnamed : trimSpace request.modelID ≠ [] := by
    rw [← hid]
    exact hs.identified model (List.mem_of_find?_eq_some hmodel)
  have haccess : firstRefused (accessChecks quote s now request model) = none := by
    simp only [firstRefused_eq_none, accessChecks, List.forall_mem_cons, decide_eq_true_eq, hid]
    exact ⟨hactive, hmode, hdeployed, (isRoleAllowed_iff hs).mpr hrole, nofun⟩
  unfold validateInvocation at herror
  split at herror
  · next hrefused =>
      cases herror
      exact code_of_requestChecks hnamed hrefused
  rw [hmodel] at herror
  simp only [firstRefused_append, haccess, Option.none_or] at herror
  split at herror
  · next hrefused =>
      cases herror
      exact code_of_demandChecks (hmode ▸ hs.ready) hrefused
  · cases herror

theorem accepts_iff (hs : Configured s) {now : Time} {role modelID : Text} :
    Accepts quote s now role modelID ↔
      Usable s now modelID ∧ Configures s (trimSpace role) modelID :=
  ⟨usable_of_accepts hs, fun h => accepts_of_usable hs h.1 h.2⟩

/-- A role's name and its name without the white space around it are configured
with the same usable models. -/
def NamesAgree (s : ModelGatewayService) (now : Time) (role : Text) : Prop :=
  ∀ modelID, Usable s now modelID →
    (Configures s role modelID ↔ Configures s (trimSpace role) modelID)

theorem view_agrees_iff (hs : Configured s) (now : Time) (role : Text) :
    (∀ modelID, modelID ∈ (s.roleAvailability now role).availableModels ↔
      Accepts quote s now role modelID) ↔ NamesAgree s now role := by
  simp only [mem_availableModels hs, accepts_iff hs, NamesAgree, and_congr_right_iff]

/-- Every call is of a model that is admitted, and the capabilities list the models
that are accepted for a role exactly where the role's names agree. -/
theorem access_is_governed (absoluteURL : Text → Bool) (quote : Text → Text)
    (registry : ModelRegistry) (allowlist : FoundryDevelopmentAllowlist) (cfg : GatewayConfig)
    (startedAt : Nat → Time) (s : ModelGatewayService)
    (h : configured absoluteURL registry allowlist cfg startedAt = .ok s) :
    (∀ (env : Environment) (state : GatewayState) (request : ModelInvocationRequest),
      ∀ call ∈ (invokeHandler quote s env state request).calls, Lawful s request call) ∧
    ∀ now : Text → Time, ∀ a ∈ s.capabilities now,
      (∀ modelID, modelID ∈ a.availableModels ↔ Accepts quote s (now a.role) a.role modelID) ↔
        NamesAgree s (now a.role) a.role := by
  have hs := configured_ok h
  refine ⟨lawful_invokeHandler hs, fun now a ha => ?_⟩
  obtain ⟨role, _, rfl⟩ := List.mem_map.mp ha
  have hrole : (s.roleAvailability (now role) role).role = role := by
    unfold ModelGatewayService.roleAvailability
    split <;> rfl
  rw [hrole]
  exact view_agrees_iff hs (now role) role

end Capabilities

section Example

def approvedModel : ModelMetadata where
  id := "phi-4".toList
  provider := modelProviderCustomerInternalMock
  deploymentName := "phi-4".toList
  modelName := "phi".toList
  lifecycleStatus := "approved".toList
  licenseStatus := "approved".toList
  approvalExpiry := "2030-01-01T00:00:00Z".toList

/-- An allowlist with blanks around the name of a role. -/
def spacedAllowlist : FoundryDevelopmentAllowlist where
  mode := modelProviderCustomerInternalMock
  allowedModelIDs := ["phi-4".toList]
  roles := [(" reviewer ".toList, ["phi-4".toList])]
  rolesOnce := List.nodup_singleton _
  customerInternal := ⟨"http://mock".toList, "ref".toList, 1000⟩

def spacedService : ModelGatewayService where
  registry := ⟨[approvedModel]⟩
  allowlist := spacedAllowlist
  providers := [modelProviderCustomerInternalMock]
  providerTimeouts := [(modelProviderCustomerInternalMock, 1000)]
  policyID := defaultPolicyID
  defaultModelDeployment := "phi-4".toList
  allowedModelDeployments := ["phi-4".toList]
  invocationLedgerEnabled := true
  harnessEventEmissionEnabled := true

def newYear : Time :=
  ⟨⟨2026, 1, 1, 0, 0, 0, 0, 0⟩, by decide⟩

theorem spacedService_starts : configured (fun _ => true) ⟨[approvedModel]⟩ spacedAllowlist {}
    (fun _ => newYear) = .ok spacedService :=
  rfl

theorem usable_approved : Usable spacedService newYear "phi-4".toList :=
  ⟨approvedModel, rfl, by decide +kernel, rfl, by decide⟩

/-- The capabilities list a model in a role that every request for it is refused. -/
theorem spaced_role_is_listed_and_refused :
    configured (fun _ => true) ⟨[approvedModel]⟩ spacedAllowlist {} (fun _ => newYear) =
      .ok spacedService ∧
    ∃ a ∈ spacedService.capabilities fun _ => newYear,
      "phi-4".toList ∈ a.availableModels ∧
      ¬ Accepts id spacedService newYear a.role "phi-4".toList := by
  have hs := configured_ok spacedService_starts
  refine ⟨spacedService_starts, spacedService.roleAvailability newYear " reviewer ".toList,
    ?_, ?_, ?_⟩
  · exact List.mem_map.mpr ⟨" reviewer ".toList, by decide +kernel, rfl⟩
  · exact (mem_availableModels hs).mpr ⟨usable_approved, _, rfl, List.mem_singleton_self _⟩
  · intro haccepts
    obtain ⟨_, models, hlookup, _⟩ := (accepts_iff hs).mp haccepts
    have hnone : spacedService.allowlist.roles.lookup (trimSpace " reviewer ".toList) = none := by
      decide
    cases hnone.symm.trans hlookup

theorem spaced_service_is_governed :
    (∀ (env : Environment) (state : GatewayState) (request : ModelInvocationRequest),
      ∀ call ∈ (invokeHandler id spacedService env state request).calls,
        Lawful spacedService request call) ∧
    ∀ now : Text → Time, ∀ a ∈ spacedService.capabilities now,
      (∀ modelID, modelID ∈ a.availableModels ↔
          Accepts id spacedService (now a.role) a.role modelID) ↔
        NamesAgree spacedService (now a.role) a.role :=
  access_is_governed (fun _ => true) id ⟨[approvedModel]⟩ spacedAllowlist {} (fun _ => newYear)
    spacedService spacedService_starts

end Example

end C2c.Gateway.Admission
