import C2c.Orchestrator.ContractRuns
import C2c.Orchestrator.WorkflowRun

namespace C2c.Orchestrator.RunFrames

open C2c.Library.JavaText
open C2c.Library.PythonJson
open C2c.Library.Raising
open C2c.Orchestrator.RunContract
open C2c.Orchestrator.ContractRuns
open C2c.Orchestrator.RunErrors
open C2c.Orchestrator.RunSteps
open C2c.Orchestrator.RunAgents
open C2c.Orchestrator.WorkflowRun

/-- What most steps leave alone: all but the records, the clock and the
progress of the contract. -/
structure Undisturbed (s s' : RunState) : Prop where
  unfinished : s.contract.stateMachine.current ≠ .finalClassification →
    s'.contract.stateMachine.current ≠ .finalClassification
  locals : s'.locals = s.locals
  traffic : s'.traffic = s.traffic
  repairBudget : s'.contract.repairBudget = s.contract.repairBudget
  modelInvocationBudget : s'.contract.modelInvocationBudget = s.contract.modelInvocationBudget
  repairAttempts : s'.contract.repairAttempts = s.contract.repairAttempts
  generatedJavaRef : s'.contract.generatedJavaRef = s.contract.generatedJavaRef
  finalClassification : s'.contract.finalClassification = s.contract.finalClassification

instance : IsPreorder RunState Undisturbed where
  refl _ := ⟨id, rfl, rfl, rfl, rfl, rfl, rfl, rfl⟩
  trans _ _ _ h h' :=
    ⟨h'.unfinished ∘ h.unfinished, h'.locals.trans h.locals, h'.traffic.trans h.traffic,
      h'.repairBudget.trans h.repairBudget,
      h'.modelInvocationBudget.trans h.modelInvocationBudget,
      h'.repairAttempts.trans h.repairAttempts, h'.generatedJavaRef.trans h.generatedJavaRef,
      h'.finalClassification.trans h.finalClassification⟩

/-- The computation disturbs nothing. -/
abbrev Calm {A : Type} (m : Run A) : Prop :=
  Within Undisturbed m

section Contract

variable {contract : W02RunContract}

@[simp] theorem readState_text (state : WorkflowState) : readState state.text = some state := by
  cases state <;> decide

@[simp] theorem readFailureCode_text (code : FailureCode) :
    readFailureCode code.text = some code := by
  cases code <;> decide

@[simp] theorem readClassification_text (classification : Classification) :
    readClassification classification.text = some classification := by
  cases classification <;> decide

theorem after_advance (target : WorkflowState) (message : Text) (code : Option FailureCode)
    (now : Timestamp) :
    After (advance target.text message (code.map FailureCode.text) now)
      (fun _ c => target ∈ allowedTransitions contract.stateMachine.current ∧
        c = moved contract ⟨target, now, message, code⟩)
      (fun e c => target ∉ allowedTransitions contract.stateMachine.current ∧
        e = .illegalTransition contract.stateMachine.current target ∧ c = contract) contract := by
  simp only [advance, readState_text]
  cases code with
  | none => exact after_move target message none now
  | some code =>
      simp only [Option.map_some, checkFailureCode, readFailureCode_text]
      exact after_move target message (some code) now

/-- The contract after a finalisation: moved if its machine may be. -/
structure FinalisedAs (contract : W02RunContract) (classification : Classification)
    (code : Option FailureCode) (message : Option Text) (contract' : W02RunContract) : Prop where
  classification : contract'.finalClassification = some classification
  code : contract'.failureCode = code
  message : contract'.failureMessage = message.map boundedDiagnosticMessage
  moved : mayFinalize contract → contract'.stateMachine.current = .finalClassification
  unmoved : ¬ mayFinalize contract → contract'.stateMachine = contract.stateMachine
  repairBudget : contract'.repairBudget = contract.repairBudget
  modelInvocationBudget : contract'.modelInvocationBudget = contract.modelInvocationBudget
  repairAttempts : contract'.repairAttempts = contract.repairAttempts
  generatedJavaRef : contract'.generatedJavaRef = contract.generatedJavaRef

theorem readOutcome_text (classification : Classification) (code : Option FailureCode)
    {outcome : Classification × Option FailureCode}
    (h : readOutcome classification.text (code.map FailureCode.text) = some outcome) :
    outcome = (classification, code) := by
  obtain ⟨hclassification, hcode⟩ := readOutcome_eq h
  rw [readClassification_text, Option.some.injEq] at hclassification
  cases code with
  | none => exact Prod.ext hclassification.symm hcode.symm
  | some code =>
      rw [Option.map_some, Option.bind_some, readFailureCode_text] at hcode
      exact Prod.ext hclassification.symm hcode.symm

/-- Only a missing code makes `_finalize_w02` raise, and then it changes nothing. -/
theorem after_finalizeW02 (classification : Classification) (code : Option FailureCode)
    (message : Option Text) (now : Timestamp) :
    After (finalizeW02 classification.text (code.map FailureCode.text) message now)
      (fun _ => FinalisedAs contract classification code message)
      (fun _ c => c = contract) contract := by
  unfold finalizeW02
  rw [after_tryCatch]
  refine (after_finalize classification.text (code.map FailureCode.text) _ now).mono ?_ ?_
  · rintro _ _ ⟨outcome, transition, houtcome, hallowed, hfinal, rfl⟩
    obtain rfl := readOutcome_text classification code houtcome
    exact ⟨rfl, rfl, rfl, fun _ => hfinal, fun hnot => absurd hallowed hnot, rfl, rfl, rfl, rfl⟩
  · rintro e _ (⟨-, he, rfl⟩ | ⟨outcome, houtcome, hillegal, rfl, rfl⟩)
    · rw [recordClassification_invalid he]
      rfl
    · obtain ⟨hclassification, hcode⟩ := readOutcome_eq houtcome
      obtain rfl := readOutcome_text classification code houtcome
      exact ⟨hclassification, hcode, rfl, fun hmay => absurd hmay hillegal, fun _ => rfl,
        rfl, rfl, rfl, rfl⟩

end Contract

section Steps

variable {env : Env} {options : Options} {s : RunState} {A : Type}

theorem after_onContract {m : ContractStep A} {post : A → RunState → Prop}
    {raised : Raised → RunState → Prop} :
    After (onContract m) post raised s ↔
      After m (fun a c => post a { s with contract := c })
        (fun e c => raised (raisedContract e) { s with contract := c }) s.contract := by
  unfold After onContract
  cases m s.contract <;> exact Iff.rfl

theorem calm_tick : Calm tick :=
  fun _ => ⟨id, rfl, rfl, rfl, rfl, rfl, rfl, rfl⟩

theorem calm_outside : Calm (outside env) := by
  refine within_bind calm_tick fun t => ?_
  split
  · exact within_pure _
  · exact within_throw _

theorem calm_outsideEach {B : Type} (items : List B) : Calm (outsideEach env items) := by
  induction items with
  | nil => exact within_pure _
  | cons item items ih => exact within_bind calm_outside fun _ => ih

theorem calm_writeReferenced : Calm (writeReferenced env) := by
  refine within_bind calm_tick fun t => ?_
  split
  · exact within_throw _
  · exact within_pure _
  · exact within_throw _

theorem calm_recordWrite {change : RunState → RunState} (h : ∀ s, Undisturbed s (change s)) :
    Calm (recordWrite env change) := by
  refine within_bind calm_tick fun t => ?_
  split
  · exact within_modify h
  · refine within_bind (within_modify fun s => ?_) fun _ => within_throw _
    split
    · exact h s
    · exact refl_of Undisturbed s

theorem calm_writeSummary (status message : Text) (failedStep : Option Text) :
    Calm (writeSummary env status message failedStep) :=
  calm_recordWrite fun _ => ⟨id, rfl, rfl, rfl, rfl, rfl, rfl, rfl⟩

theorem calm_updateRun (status message : Text) : Calm (updateRun env status message) :=
  calm_recordWrite fun _ => ⟨id, rfl, rfl, rfl, rfl, rfl, rfl, rfl⟩

theorem calm_persistModelPolicySkipped : Calm (persistModelPolicySkipped env) := by
  refine within_bind within_get fun s => ?_
  split
  · exact within_pure _
  · exact within_bind calm_outside fun _ =>
      within_modify fun _ => ⟨id, rfl, rfl, rfl, rfl, rfl, rfl, rfl⟩

theorem calm_setActiveStep (activeStep : Option Text) :
    Calm (updateContract env (setActiveStep activeStep)) := by
  cases activeStep <;> exact fun _ => ⟨id, rfl, rfl, rfl, rfl, rfl, rfl, rfl⟩

theorem calm_advanceW02 {target : WorkflowState} (htarget : target ≠ .finalClassification)
    (activeStep : Option Text) (message : Text) (code : Option FailureCode) :
    Calm (advanceW02 env target activeStep message code) := by
  refine within_bind within_get fun given => within_bind (fun s => ?_) fun _ =>
    within_bind (calm_setActiveStep activeStep) fun _ => calm_outside
  rw [after_onContract]
  refine (after_advance target _ code _).mono ?_ ?_
  · rintro _ _ ⟨-, rfl⟩
    exact ⟨fun _ => htarget, rfl, rfl, rfl, rfl, rfl, rfl, rfl⟩
  · rintro _ _ ⟨-, -, rfl⟩
    exact refl_of Undisturbed s

theorem calm_requireCapability (name : CapabilityName) :
    Calm (requireCapability env options name) := by
  refine within_bind within_get fun s => ?_
  split
  · exact within_pure _
  · refine within_bind calm_tick fun t => ?_
    split
    · exact within_throw _
    · exact within_throw _
    · split
      · exact within_throw _
      · exact within_bind (within_modify fun _ => ⟨id, rfl, rfl, rfl, rfl, rfl, rfl, rfl⟩)
          fun _ => within_pure _

theorem calm_invokeAttempts {stepName : Text} (hstep : stepName ≠ stepModelGuidance)
    (attempts : Nat) : Calm (invokeAttempts env stepName attempts) := by
  induction attempts with
  | zero => exact within_throw _
  | succ attempts ih =>
      simp only [invokeAttempts, if_neg hstep]
      refine within_bind (within_modify fun _ => ⟨id, rfl, rfl, rfl, rfl, rfl, rfl, rfl⟩)
        fun _ => within_bind calm_tick fun t => ?_
      split
      · exact within_pure _
      · split
        · exact ih
        · exact within_throw _

theorem calm_invokeStep {stepName : Text} (hstep : stepName ≠ stepModelGuidance)
    (capability : Capability) : Calm (invokeStep env options stepName capability) := by
  unfold invokeStep
  split
  · exact within_throw _
  · exact calm_invokeAttempts hstep _

end Steps

section Phases

variable {env : Env} {options : Options}

theorem calm_acceptRun : Calm (acceptRun env options) := by
  refine within_bind calm_outside fun _ => within_bind calm_outside fun _ =>
    within_bind calm_outside fun _ => within_bind (calm_writeSummary _ _ _) fun _ =>
    within_bind (calm_advanceW02 (by decide) _ _ _) fun _ =>
    within_bind (calm_updateRun _ _) fun _ => within_bind (calm_writeSummary _ _ _) fun _ => ?_
  split
  · exact calm_persistModelPolicySkipped
  · exact within_pure _

theorem calm_requireSourceReference : Calm (requireSourceReference env options) := by
  unfold requireSourceReference
  split
  · exact within_map _ (calm_requireCapability _)
  · exact within_pure _

theorem calm_requireCapabilities : Calm (requireCapabilities env options) :=
  within_bind (calm_requireCapability _) fun _ => within_bind (calm_requireCapability _) fun _ =>
    within_bind (calm_requireCapability _) fun _ =>
    within_bind calm_requireSourceReference fun _ =>
    within_bind (calm_requireCapability _) fun _ => within_bind (calm_requireCapability _) fun _ =>
    within_bind (calm_setActiveStep _) fun _ => within_pure _

theorem calm_parseCobol (capabilities : Capabilities) :
    Calm (parseCobol env options capabilities) :=
  within_bind (calm_invokeStep (by decide) _) fun _ => within_bind calm_outside fun _ =>
    within_bind (calm_writeSummary _ _ _) fun _ => calm_advanceW02 (by decide) _ _ _

theorem calm_invokeGenerateIr (capabilities : Capabilities) :
    Calm (invokeGenerateIr env options capabilities) :=
  within_tryCatch (calm_invokeStep (by decide) _) fun _ =>
    within_bind (calm_advanceW02 (by decide) _ _ _) fun _ => within_throw _

theorem calm_keepIr (document : Json) : Calm (keepIr env document) :=
  within_bind calm_outside fun _ =>
    within_bind (within_modify fun _ => ⟨id, rfl, rfl, rfl, rfl, rfl, rfl, rfl⟩) fun _ =>
    within_bind (calm_writeSummary _ _ _) fun _ => calm_advanceW02 (by decide) _ _ _

theorem calm_generateIr (capabilities : Capabilities) :
    Calm (generateIr env options capabilities) := by
  refine within_bind (calm_invokeGenerateIr capabilities) fun payload => ?_
  split
  · exact within_throw _
  · refine within_bind calm_outside fun _ => ?_
    split
    · exact within_bind (calm_advanceW02 (by decide) _ _ _) fun _ => within_throw _
    · exact calm_keepIr _

theorem calm_recordAssistDecision : Calm (recordAssistDecision env options) :=
  within_bind within_get fun _ =>
    within_bind (within_modify fun _ => ⟨id, rfl, rfl, rfl, rfl, rfl, rfl, rfl⟩) fun _ =>
    calm_outside

theorem calm_selectFinalJava : Calm (selectFinalJava env) := by
  refine within_bind within_get fun s => ?_
  split
  · exact calm_advanceW02 (by decide) _ _ _
  · exact within_pure _

theorem calm_fetchTrajectoryLedger : Calm (fetchTrajectoryLedger env) :=
  within_tryCatch calm_outside fun _ => within_throw _

end Phases

/-- What every step leaves alone that neither deals with the model budget nor
finalises the run. -/
structure Untraded (s s' : RunState) : Prop where
  unfinished : s.contract.stateMachine.current ≠ .finalClassification →
    s'.contract.stateMachine.current ≠ .finalClassification
  gatewaySteps : s'.traffic.gatewaySteps = s.traffic.gatewaySteps
  modelInvocationBudget : s'.contract.modelInvocationBudget = s.contract.modelInvocationBudget
  finalClassification : s'.contract.finalClassification = s.contract.finalClassification

instance : IsPreorder RunState Untraded where
  refl _ := ⟨id, rfl, rfl, rfl⟩
  trans _ _ _ h h' :=
    ⟨h'.unfinished ∘ h.unfinished, h'.gatewaySteps.trans h.gatewaySteps,
      h'.modelInvocationBudget.trans h.modelInvocationBudget,
      h'.finalClassification.trans h.finalClassification⟩

theorem Undisturbed.untraded {s s' : RunState} (h : Undisturbed s s') : Untraded s s' :=
  ⟨h.unfinished, congrArg Traffic.gatewaySteps h.traffic, h.modelInvocationBudget,
    h.finalClassification⟩

/-- The computation neither deals with the model budget nor finalises the run. -/
abbrev Idle {A : Type} (m : Run A) : Prop :=
  Within Untraded m

section Idle

variable {env : Env} {options : Options} {A : Type}

theorem idle_of_calm {m : Run A} (h : Calm m) : Idle m :=
  fun s => (h s).mono (fun _ _ hs => hs.untraded) fun _ _ hs => hs.untraded

theorem idle_outside : Idle (outside env) :=
  idle_of_calm calm_outside

theorem idle_writeSummary (status message : Text) (failedStep : Option Text) :
    Idle (writeSummary env status message failedStep) :=
  idle_of_calm (calm_writeSummary status message failedStep)

theorem idle_writeReferenced : Idle (writeReferenced env) :=
  idle_of_calm calm_writeReferenced

theorem idle_advanceW02 {target : WorkflowState} (htarget : target ≠ .finalClassification)
    (activeStep : Option Text) (message : Text) (code : Option FailureCode) :
    Idle (advanceW02 env target activeStep message code) :=
  idle_of_calm (calm_advanceW02 htarget activeStep message code)

theorem idle_invokeStep {stepName : Text} (hstep : stepName ≠ stepModelGuidance)
    (capability : Capability) : Idle (invokeStep env options stepName capability) :=
  idle_of_calm (calm_invokeStep hstep capability)

theorem idle_updateLocals (change : Locals → Locals) : Idle (updateLocals change) :=
  fun _ => ⟨id, rfl, rfl, rfl⟩

theorem idle_blockRun (code : Option FailureCode) (message : Text) :
    Idle (blockRun env code message) :=
  within_bind (idle_updateLocals _) fun _ => idle_advanceW02 (by decide) _ _ _

theorem idle_recordProject (reference : Option Reference) (files : List (Text × Text)) :
    Idle (recordProject reference files) :=
  fun _ => ⟨id, rfl, rfl, rfl⟩

theorem idle_storeGeneratedProject (generatedProject : Json) :
    Idle (storeGeneratedProject env generatedProject) := by
  refine within_bind (idle_of_calm (calm_outsideEach _)) fun _ =>
    within_bind (idle_of_calm calm_tick) fun t => ?_
  split
  · exact within_throw _
  · exact within_bind (idle_recordProject _ _) fun _ => idle_updateLocals _

theorem idle_generateJava (capabilities : Capabilities) :
    Idle (generateJava env options capabilities) := by
  refine within_bind (idle_advanceW02 (by decide) _ _ _) fun _ =>
    within_bind (idle_invokeStep (by decide) _) fun payload => ?_
  split
  · exact within_throw _
  · exact within_bind (idle_updateLocals _) fun _ => within_bind idle_outside fun _ =>
      within_bind (idle_storeGeneratedProject _) fun _ => idle_writeSummary _ _ _

theorem idle_storeCandidate (candidate : JavaCandidate) : Idle (storeCandidate env candidate) :=
  within_bind (idle_of_calm (calm_outsideEach _)) fun _ =>
    within_bind idle_writeReferenced fun _ =>
    within_bind (idle_recordProject _ _) fun _ => within_pure _

theorem idle_transformationResult (reply : TransformationReply) :
    Idle (transformationResult env reply) := by
  cases reply with
  | success candidate =>
      exact within_bind (idle_storeCandidate candidate) fun _ =>
        within_bind idle_outside fun _ => within_pure _
  | declined status failureCode failureMessage =>
      exact within_bind idle_outside fun _ => within_pure _

theorem idle_useTransformationResult (result : TransformationResult) :
    Idle (useTransformationResult env result) := by
  unfold useTransformationResult
  split
  · exact within_bind (idle_updateLocals _) fun _ => idle_writeSummary _ _ _
  · exact idle_updateLocals _

theorem idle_persistCandidate : Idle (persistCandidate env) := by
  refine within_bind within_get fun s => ?_
  split
  · exact within_bind (within_modify fun _ => ⟨id, rfl, rfl, rfl⟩) fun _ =>
      idle_advanceW02 (by decide) _ _ _
  · exact idle_advanceW02 (by decide) _ _ _

theorem idle_runBuild (capabilities : Capabilities) :
    Idle (runBuild env options capabilities) :=
  within_bind within_get fun _ => within_bind (idle_invokeStep (by decide) _) fun _ =>
    within_bind (within_modify fun _ => ⟨id, rfl, rfl, rfl⟩) fun _ => within_pure _

theorem idle_setBuildTestResultRef (payload : Json) :
    Idle (setBuildTestResultRef env options payload) :=
  fun _ => ⟨id, rfl, rfl, rfl⟩

theorem idle_runSourceReference (capabilities : Capabilities) :
    Idle (runSourceReference env options capabilities) := by
  unfold runSourceReference
  split
  · refine within_bind (idle_invokeStep (by decide) _) fun payload =>
      within_bind idle_outside fun _ => within_bind (idle_writeSummary _ _ _) fun _ => ?_
    split
    · exact within_pure _
    · exact idle_blockRun _ _
  · exact within_throw _
  · exact within_throw _

theorem idle_firstBuild (capabilities : Capabilities) :
    Idle (firstBuild env options capabilities) := by
  refine within_bind (idle_runBuild _) fun payload => within_bind idle_outside fun _ =>
    within_bind (idle_writeSummary _ _ _) fun _ =>
    within_bind (idle_setBuildTestResultRef _) fun _ => within_bind idle_outside fun _ =>
    within_bind (idle_updateLocals _) fun _ => ?_
  split
  · exact idle_blockRun _ _
  · exact within_pure _

theorem idle_verifyUnblocked (capabilities : Capabilities) :
    Idle (verifyUnblocked env options capabilities) := by
  have hbuild : Idle (do
      let s ← get
      if s.locals.blocked then pure ⟨⟩ else firstBuild env options capabilities) := by
    refine within_bind within_get fun s => ?_
    split
    · exact within_pure _
    · exact idle_firstBuild _
  refine within_bind (idle_advanceW02 (by decide) _ _ _) fun _ => ?_
  split
  · exact within_bind (idle_runSourceReference _) fun _ => within_bind idle_outside fun _ => hbuild
  · exact hbuild

theorem idle_verify (capabilities : Capabilities) : Idle (verify env options capabilities) := by
  refine within_bind within_get fun s => ?_
  split
  · exact idle_advanceW02 (by decide) _ _ _
  · exact idle_verifyUnblocked _

theorem idle_recordAttempt (entry : RepairAttempt) : Idle (recordAttempt env entry) := by
  refine within_bind within_get fun given s => ?_
  rw [after_onContract]
  unfold recordRepairAttempt
  split
  · exact refl_of Untraded s
  · exact ⟨id, rfl, rfl, rfl⟩

theorem idle_refuseForBudget : Idle (refuseForBudget env options) :=
  within_bind within_get fun _ => within_bind (idle_recordAttempt _) fun _ =>
    within_bind (idle_blockRun _ _) fun _ => within_pure _

theorem idle_recordRepairError (e : Raised) : Idle (recordRepairError env options e) :=
  within_bind within_get fun _ => within_bind (idle_recordAttempt _) fun _ =>
    within_bind (idle_blockRun _ _) fun _ => within_pure _

theorem idle_rebuild (capabilities : Capabilities) (attempt : Nat) (candidate : JavaCandidate)
    (reference : Reference) :
    Idle (rebuild env options capabilities attempt candidate reference) :=
  within_bind (within_modify fun _ => ⟨id, rfl, rfl, rfl⟩) fun _ =>
    within_bind (idle_updateLocals _) fun _ =>
    within_bind (idle_advanceW02 (by decide) _ _ _) fun _ =>
    within_bind (idle_advanceW02 (by decide) _ _ _) fun _ =>
    within_bind (idle_runBuild _) fun _ => within_bind (idle_setBuildTestResultRef _) fun _ =>
    within_bind idle_outside fun _ => within_bind idle_outside fun _ =>
    within_bind (idle_updateLocals _) fun _ => within_pure _

theorem idle_followDecision (capabilities : Capabilities) (attempt : Nat)
    (result : RepairResult) : Idle (followDecision env options capabilities attempt result) := by
  have hblock (code : Option FailureCode) (message : Text) :
      Idle (do blockRun env code message; pure false) :=
    within_bind (idle_blockRun code message) fun _ => within_pure false
  unfold followDecision
  split
  · exact hblock _ _
  · exact hblock _ _
  · exact hblock _ _
  · split
    · exact idle_rebuild _ _ _ _
    · exact hblock _ _

theorem idle_recordRepairResult (capabilities : Capabilities) (result : RepairResult) :
    Idle (recordRepairResult env options capabilities result) :=
  within_bind within_get fun _ => within_bind (idle_recordAttempt _) fun _ =>
    idle_followDecision _ _ _

theorem idle_blockExhausted : Idle (blockExhausted env) :=
  within_bind within_get fun _ => within_bind (idle_blockRun _ _) fun _ => within_pure _

theorem idle_writeEvidence (capabilities : Capabilities) :
    Idle (writeEvidence env options capabilities) :=
  within_bind (idle_of_calm calm_fetchTrajectoryLedger) fun _ => within_bind idle_outside fun _ =>
    within_bind idle_outside fun _ => within_bind idle_outside fun _ =>
    within_bind idle_outside fun _ => within_bind (idle_invokeStep (by decide) _) fun _ =>
    within_bind (idle_updateLocals _) fun _ => within_bind idle_outside fun _ =>
    within_modify fun _ => ⟨id, rfl, rfl, rfl⟩

theorem idle_classifyEvidence : Idle (classifyEvidence env) := by
  refine within_bind within_get fun s => ?_
  split
  · exact idle_advanceW02 (by decide) _ _ _
  · exact within_bind (idle_advanceW02 (by decide) _ _ _) fun _ => idle_updateLocals _

end Idle

end C2c.Orchestrator.RunFrames
