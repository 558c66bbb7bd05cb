import C2c.Library.Raising
import C2c.Orchestrator.RunErrors

namespace C2c.Orchestrator.RunSteps

open C2c.Library.JavaText
open C2c.Library.PythonText
open C2c.Library.PythonJson
open C2c.Library.Raising
open C2c.Orchestrator.RunContract
open C2c.Orchestrator.StepReplies
open C2c.Orchestrator.RunErrors

/-- The capabilities of the configuration. -/
inductive CapabilityName
  | parse
  | ir
  | generator
  | sourceReference
  | buildTest
  | evidence
  | modelGateway
deriving DecidableEq

/-- What the runner reads of the run's context and of its configuration. -/
structure Options where
  runId : Text
  workflowId : Text
  requester : Text
  modelPrompt : Text := []
  useTransformationAgent : Bool := false
  generateOnly : Bool := false
  parityRun : Bool := false
  sourceReferenceFixtureId : Option Text := none
  sourceReferenceMode : Option Text := none
  manualOverlayRegions : List Json := []
  repairBudgetMax : Int := 1
  assistBudgetMax : Int := 1
  modelInvocationBudgetMax : Int := 1
  maxRetries : Int := 0
  capabilityId : CapabilityName → Text := fun _ => []

/-- A capability whose id has been checked. -/
structure Capability where
  endpoint : Text

inductive CapabilityReply
  | unavailable
  | invalid
  | resolved (capability : Capability)

/-- A path `_safe_relpath` lets through. -/
def IsSafePath (path : Text) : Prop :=
  path ≠ [] ∧ relativePath path = path ∧ ['.', '.'] ∉ pathParts path

/-- `GeneratedJavaCandidate` and `RepairedJavaCandidate`: its paths are safe. -/
structure JavaCandidate where
  files : List (Text × Text)
  entryClass : Text
  entryPackage : Text
  entryFilePath : Text
  unsupportedConstructs : List Text := []
  safe : ∀ file ∈ files, IsSafePath file.1

/-- What the transformation agent decodes from a reply of the gateway. -/
inductive TransformationReply
  | success (candidate : JavaCandidate)
  | declined (status failureCode failureMessage : Text)

/-- What the repair agent decodes from a reply of the gateway. -/
inductive RepairReply
  | proposeCandidate (candidate : JavaCandidate)
  | refuse (refusalCode : Text)
  | escalate (escalationCode : Text)

structure RepairAnswer where
  modelInvocationRef : Text
  rationale : Text
  reply : RepairReply

/-- What the services around the runner do at each outside call, and the
functions the runner applies to texts it does not read. -/
structure Env where
  now : Nat → Timestamp
  /-- What an outside call raises, if it does. -/
  raises : Nat → Option Raised
  /-- Whether a record whose write raises is in place nevertheless. -/
  landed : Nat → Bool
  capability : Nat → CapabilityReply
  /-- `_validate_model_gateway_capability`. -/
  modelGatewayAllowed : Capability → Bool
  /-- The reply to an invocation made for a step. -/
  reply : Nat → Text → Except Raised Json
  /-- The reference of an artifact written; none when nothing is stored. -/
  reference : Nat → Option Reference
  /-- `_guard_agent_invocation_payload`. -/
  guardAgentInvocationPayload : Json → Option Text
  transformation : Nat → Except Raised TransformationReply
  repair : Nat → Except Raised RepairAnswer
  /-- The hash and the size `_build_reference` takes of a payload. -/
  digest : Json → Text × Nat
  /-- `_files_canonical_sha256`. -/
  filesDigest : List (Text × Text) → Text

/-- The record `run-summary.json`. -/
structure Summary where
  status : Text
  message : Text
  failedStep : Option Text := none
deriving DecidableEq

/-- What the gateway has been told of the run. -/
structure GatewayRun where
  status : Text
  message : Text
deriving DecidableEq

/-- A build request that was answered, and the answer. -/
structure Build where
  generatedProject : Json
  generatedArtifactRef : Option Reference
  payload : Json

/-- A manifest that was written, and the files written before it. -/
structure StoredProject where
  reference : Option Reference
  files : List (Text × Text)

/-- What the run does with its model invocation budget. -/
inductive GatewayStep
  | unitSpent
  | agentCall
  | guidanceCall
deriving DecidableEq

/-- What the run has sent and stored, newest first. -/
structure Traffic where
  builds : List Build := []
  projects : List StoredProject := []
  gatewaySteps : List GatewayStep := []
  repairCalls : Nat := 0

/-- The variables of `run` its phases share. -/
structure Locals where
  generatedProject : Json := .object []
  generatedArtifactRef : Option Reference := none
  generatorOutputRef : Reference := ⟨[], [], 0⟩
  blocked : Bool := false
  failureCode : Option FailureCode := none
  failureMessage : Option Text := none
  buildTestOutput : Option Json := none
  success : Bool := false
  buildFailureCode : Option FailureCode := none
  repairAttemptCounter : Nat := 0
  evidenceOutput : Option Json := none

structure RunState where
  contract : W02RunContract
  clock : Nat := 0
  capabilities : CapabilityName → Option Capability := fun _ => none
  summary : Option Summary := none
  gatewayRun : Option GatewayRun := none
  irDocument : Json := .object []
  traffic : Traffic := {}
  locals : Locals := {}
  modelPolicySkipped : Bool := false
  modelOutput : Bool := false
  summaryStatus : Text := "failed".toList

/-- A computation of the runner. -/
abbrev Run := EStateM Raised RunState

def tick : Run Nat := do
  let s ← get
  set { s with clock := s.clock + 1 }
  pure s.clock

section Effects

variable (env : Env)

/-- A store write, or another call outside, whose result the runner does not
read. -/
def outside : Run PUnit := do
  let t ← tick
  match env.raises t with
  | none => pure ⟨⟩
  | some e => throw e

/-- One such call for each item. -/
def outsideEach {A : Type} : List A → Run PUnit
  | [] => pure ⟨⟩
  | _ :: items => do
      outside env
      outsideEach items

/-- A store write whose reference the caller needs. -/
def writeReferenced : Run Reference := do
  let t ← tick
  match env.raises t, env.reference t with
  | some e, _ => throw e
  | none, some reference => pure reference
  | none, none => throw (raisedOther "'NoneType' object has no attribute 'uri'".toList)

def recordProject (reference : Option Reference) (files : List (Text × Text)) : Run PUnit :=
  modify fun s => { s with
    traffic := { s.traffic with projects := ⟨reference, files⟩ :: s.traffic.projects } }

/-- The write of a record that may be in place even if the write raises. -/
def recordWrite (change : RunState → RunState) : Run PUnit := do
  let t ← tick
  match env.raises t with
  | none => modify change
  | some e => do
      modify fun s => if env.landed t then change s else s
      throw e

/-- `_write_summary`. -/
def writeSummary (status message : Text) (failedStep : Option Text) : Run PUnit :=
  recordWrite env fun s => { s with
    summary := some ⟨status, boundedDiagnosticMessage message, failedStep⟩ }

/-- `gateway.update_run`. -/
def updateRun (status message : Text) : Run PUnit :=
  recordWrite env fun s => { s with gatewayRun := some ⟨status, message⟩ }

/-- `_persist_model_policy_skipped`. -/
def persistModelPolicySkipped : Run PUnit := do
  let s ← get
  if s.modelPolicySkipped then pure ⟨⟩
  else do
    outside env
    modify fun s => { s with modelPolicySkipped := true }

end Effects

section Contract

variable (env : Env)

/-- A computation on the run contract. -/
def onContract {A : Type} (m : ContractStep A) : Run A := fun s =>
  match m s.contract with
  | .ok a contract => .ok a { s with contract := contract }
  | .error e contract => .error (raisedContract e) { s with contract := contract }

/-- A setter of the run contract, which also touches it. -/
def updateContract (change : W02RunContract → W02RunContract) : Run PUnit :=
  modify fun s => { s with
    contract := { change s.contract with updatedAt := env.now s.clock } }

def updateLocals (change : Locals → Locals) : Run PUnit :=
  modify fun s => { s with locals := change s.locals }

/-- `if active_step is not None: contract.set_active_step(active_step)`. -/
def setActiveStep (activeStep : Option Text) (contract : W02RunContract) : W02RunContract :=
  match activeStep with
  | none => contract
  | some step => { contract with activeStep := some step }

/-- `_advance_w02`. -/
def advanceW02 (target : WorkflowState) (activeStep : Option Text) (message : Text)
    (failureCode : Option FailureCode) : Run PUnit := do
  let s ← get
  onContract (advance target.text (boundedDiagnosticMessage message)
    (failureCode.map FailureCode.text) (env.now s.clock))
  updateContract env (setActiveStep activeStep)
  outside env

/-- `_finalize_w02`. -/
def finalizeRun (classification : Classification) (failureCode : Option FailureCode)
    (failureMessage : Option Text) : Run PUnit := do
  let s ← get
  onContract (finalizeW02 classification.text (failureCode.map FailureCode.text) failureMessage
    (env.now s.clock))
  outside env

/-- The run is marked blocked and the state machine moved. -/
def blockRun (failureCode : Option FailureCode) (failureMessage : Text) : Run PUnit := do
  updateLocals fun v => { v with
    blocked := true
    failureCode := failureCode
    failureMessage := some failureMessage }
  advanceW02 env .runBlocked none failureMessage failureCode

end Contract

section Capabilities

variable (env : Env) (options : Options)

/-- The step and the code of `_capability_failure_context`. -/
def capabilityFailureContext : CapabilityName → Text × FailureCode
  | .parse => (stepParseCobol, .parseFailed)
  | .ir => ("generate-ir".toList, .semanticIrFailed)
  | .generator => ("generate-java".toList, .javaGenerationFailed)
  | .sourceReference => ("source-reference-execution".toList, .sourceReferenceFailed)
  | .buildTest => (stepCompileTestJava, .javaCompileFailed)
  | .evidence => (stepWriteEvidence, .evidenceIncomplete)
  | .modelGateway => (stepModelGuidance, .modelGatewayUnavailable)

def capabilityMissing (name : CapabilityName) (text : Text) : Raised :=
  let context := capabilityFailureContext name
  ⟨.capabilityMissing (some context.1) (some context.2), text, []⟩

/-- `_require_capability`. -/
def requireCapability (name : CapabilityName) : Run Capability := do
  let s ← get
  match s.capabilities name with
  | some capability => pure capability
  | none => do
      let t ← tick
      match env.capability t with
      | .unavailable =>
          throw (capabilityMissing name
            ("required capability ".toList ++ options.capabilityId name ++ " unavailable".toList))
      | .invalid =>
          throw (capabilityMissing name
            ("invalid capability payload for ".toList ++ options.capabilityId name))
      | .resolved capability =>
          if name = .modelGateway ∧ ¬ env.modelGatewayAllowed capability then
            throw (capabilityMissing name
              "model gateway capability failed allowlist validation".toList)
          else do
            modify fun s => { s with
              capabilities := fun other =>
                if other = name then some capability else s.capabilities other }
            pure capability

/-- A call of the model gateway, or nothing for another capability. -/
def noteGatewayStep (step : Option GatewayStep) : Run PUnit :=
  modify fun s => { s with
    traffic := { s.traffic with gatewaySteps := step.toList ++ s.traffic.gatewaySteps } }

/-- What `_invoke_step` raises for a call that failed. -/
def stepFailure (stepName : Text) (e : Raised) : Raised :=
  if stepName = stepModelGuidance ∧ isModelPolicyDenial e then
    ⟨.modelPolicyDeniedStep,
      "step ".toList ++ stepName ++ " blocked by model gateway policy: ".toList ++ e.text, e.text⟩
  else ⟨.stepExecution false, "step ".toList ++ stepName ++ " failed: ".toList ++ e.text,
    e.text ++ ' ' :: e.causes⟩

/-- The attempts `_invoke_step` has left; only the model guidance calls the
model gateway. -/
def invokeAttempts (stepName : Text) : Nat → Run Json
  | 0 => throw ⟨.stepExecution false,
      "step ".toList ++ stepName ++ " retry loop exited without resolution".toList, []⟩
  | attempts + 1 => do
      noteGatewayStep (if stepName = stepModelGuidance then some .guidanceCall else none)
      let t ← tick
      match env.reply t stepName with
      | .ok payload => pure payload
      | .error e =>
          if e.kind = .harnessFailure ∧ 0 < attempts then invokeAttempts stepName attempts
          else throw (stepFailure stepName e)

/-- `_invoke_step`. -/
def invokeStep (stepName : Text) (capability : Capability) : Run Json :=
  if strip capability.endpoint = [] then
    throw ⟨.capabilityMissing (some stepName)
      (some ((failureCodeForStepName (some stepName)).getD .javaGenerationFailed)),
      stepName ++ " capability endpoint is missing".toList, []⟩
  else invokeAttempts env stepName (options.maxRetries + 1).toNat

theorem lawfulBEq_optionText : LawfulBEq (Option Text) :=
  inferInstance

local instance : LawfulBEq (Option Text) :=
  lawfulBEq_optionText

/-- The hash and the size of a payload, as a reference. -/
def buildReference (uri : Text) (payload : Json) : Reference :=
  ⟨uri, (env.digest payload).1, (env.digest payload).2⟩

/-- `_to_non_negative_int`. -/
def toNonNegativeInt (value : Json) : Nat :=
  let t := strip (strOrEmpty value)
  let digits := if t.head? = some '+' then t.tail else t
  if digits ≠ [] ∧ digits.all Char.isDigit then digitsValue digits else 0

/-- `_coerce_step_output_ref`. -/
def coerceStepOutputRef (payload : Json) (stepName : Text) : Reference :=
  let uri := "urn:orchestrator/".toList ++ options.runId ++ "/step/".toList ++ stepName
  let raw := firstNonEmptyMapping (get payload "outputRef")
  if truthy raw then
    { uri := (textOf (get raw "uri")).getD uri
      sha256 := (textOf (get raw "sha256")).getD (buildReference env uri payload).sha256
      byteSize := toNonNegativeInt
        (if hasKey raw "byteSize" then get raw "byteSize" else get raw "byte_size") }
  else if textOf (get payload "status") ∈ [some "failed".toList, some "error".toList] then
    buildReference env (uri ++ "/failed".toList)
      (.text (((textOf (get payload "error")).orElse fun _ => textOf (get payload "message")).getD
        (stepName ++ " failed".toList)))
  else buildReference env uri payload

end Capabilities

section Budgets

variable (env : Env)

/-- `model_invocation_budget.consume`; whether a unit was left. -/
def spendModelUnit : Run Bool := do
  let s ← get
  match s.contract.modelInvocationBudget.consume with
  | none => pure false
  | some budget => do
      modify fun s => { s with contract := { s.contract with modelInvocationBudget := budget } }
      noteGatewayStep (some .unitSpent)
      pure true

/-- `str(exhausted_exc)` of the model invocation budget. -/
def modelBudgetExhaustedText (budget : Budget) : Text :=
  (ContractError.budgetExhausted "model invocation budget".toList budget.limit budget.used).text

/-- `record_agent_attempt`. -/
def recordAgentAttempt : Run PUnit :=
  updateContract env fun contract =>
    { contract with agentAttemptCount := contract.agentAttemptCount + 1 }

end Budgets

end C2c.Orchestrator.RunSteps
