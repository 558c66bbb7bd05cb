import C2c.Orchestrator.ModelGateway
import C2c.Orchestrator.VerifiedRuns

namespace C2c.Orchestrator.GatewayFailures

open C2c.Library.JavaText
open C2c.Library.PythonText
open C2c.Library.PythonJson
open C2c.Library.Raising
open C2c.Orchestrator.RunContract
open C2c.Orchestrator.ContractRuns
open C2c.Orchestrator.StepReplies
open C2c.Orchestrator.RunErrors
open C2c.Orchestrator.RunSteps
open C2c.Orchestrator.RunAgents
open C2c.Orchestrator.WorkflowRun
open C2c.Orchestrator.RunFrames
open C2c.Orchestrator.RepairRuns
open C2c.Orchestrator.VerifiedRuns
open C2c.Orchestrator.ModelGateway

section Codes

/-- The class the invoker gave a failure, or the agent, if the invoker gave it none. -/
def assignedCode (e : Raised) : FailureCode :=
  match (transformationError e).kind with
  | .transformationAgent kind => agentFailureCode kind
  | _ => .javaGenerationFailed

/-- The code of an error of the transformation agent. -/
def transformationCode (e : Raised) : FailureCode :=
  let raised := transformationFailure (transformationError e)
  failureCodeFromException raised .transformationAgentInvoked (failedStep raised)

/-- The steps a text is searched for before `model-guidance`. -/
def earlierMarkers : List (Text × Text) :=
  failedStepMarkers.takeWhile fun marker => marker.1 != stepModelGuidance

/-- A text that names `model-guidance` and no step it is searched for earlier. -/
def namesModelGuidance (text : Text) : Prop :=
  contains (lower text) stepModelGuidance = true ∧
    ∀ marker ∈ earlierMarkers, contains (lower text) marker.1 = false

/-- The failures whose code survives: those of the invoker's own checks whose
text gives the class of the error once more. -/
def KeepsItsCode (e : Raised) : Prop :=
  match e.kind with
  | .transformationAgent .gatewayUnavailable =>
      gatewayFailureKind e.text = .gatewayUnavailable ∧ namesModelGuidance e.text
  | .transformationAgent .policyDenied => gatewayFailureKind e.text = .policyDenied
  | _ => False

/-- A failure as the invoker raises it. -/
inductive FromInvoker : Raised → Prop
  | unclassified (text : Text) : FromInvoker (raisedOther text)
  | classified {kind : AgentErrorKind} (hkind : kind ∈ [.gatewayUnavailable, .policyDenied, .timeout])
      (text causes : Text) : FromInvoker ⟨.transformationAgent kind, text, causes⟩

theorem lower_append (a b : Text) : lower (a ++ b) = lower a ++ lower b :=
  List.flatMap_append

theorem fromInvoker_classify (e : Raised) : FromInvoker (classifyGatewayFailure e) := by
  refine .classified ?_ _ _
  unfold gatewayFailureKind
  split
  · decide
  · split <;> decide

theorem fromInvoker_unavailable (text : Text) : FromInvoker (gatewayUnavailable text) :=
  .classified (by decide) _ _

theorem fromInvoker_resolveCapability {urls : UrlParser} {harness : HarnessGateway}
    {call : Invocation} {e : Raised} (h : resolveCapability urls harness call = .error e) :
    FromInvoker e := by
  unfold resolveCapability at h
  split at h
  · cases h
    exact .unclassified _
  · split at h
    · cases h
      exact fromInvoker_unavailable _
    · split at h
      · cases h
        exact fromInvoker_unavailable _
      · contradiction

theorem fromInvoker_roleRefusal {agentRole modelId : Text} {role : Json} {e : Raised}
    (h : roleRefusal agentRole modelId role = some e) : FromInvoker e := by
  unfold roleRefusal at h
  split at h
  · cases h
    exact fromInvoker_unavailable _
  · split at h
    · cases h
      exact .classified (by decide) _ _
    · contradiction

theorem fromInvoker_capabilitiesRefusal {agentRole modelId : Text} {capabilities : Json}
    {e : Raised} (h : capabilitiesRefusal agentRole modelId capabilities = some e) :
    FromInvoker e := by
  unfold capabilitiesRefusal at h
  split at h
  · cases h
    exact fromInvoker_unavailable _
  · split at h
    · split at h
      · exact fromInvoker_roleRefusal h
      · cases h
        exact fromInvoker_unavailable _
    · cases h
      exact fromInvoker_unavailable _

theorem fromInvoker_ensureRoleAvailable {urls : UrlParser} {harness : HarnessGateway}
    {call : Invocation} {capability : Json} {e : Raised}
    (h : ensureRoleAvailable urls harness call capability = some e) : FromInvoker e := by
  unfold ensureRoleAvailable at h
  dsimp only at h
  split at h
  · contradiction
  · split at h
    · split at h
      · cases h
        exact fromInvoker_unavailable _
      · split at h
        · cases h
          exact fromInvoker_unavailable _
        · exact fromInvoker_capabilitiesRefusal h
    · contradiction

theorem fromInvoker_invoke {urls : UrlParser} {harness : HarnessGateway} {call : Invocation}
    {e : Raised} (h : invoke urls harness call = .error e) : FromInvoker e := by
  unfold invoke at h
  cases hcapability : resolveCapability urls harness call with
  | error e' =>
      rw [hcapability] at h
      cases h
      exact fromInvoker_resolveCapability hcapability
  | ok capability =>
      rw [hcapability] at h
      dsimp only [bind, Except.bind] at h
      split at h
      · rename_i e' hrole
        cases h
        exact fromInvoker_ensureRoleAvailable hrole
      · split at h
        · cases h
          exact fromInvoker_classify _
        · split at h
          · contradiction
          · cases h
            exact fromInvoker_unavailable _

end Codes

section Texts

def stepFailedHead : Text :=
  "transformation agent step transformation-agent failed:".toList

/-- The text of a failed step of the transformation agent. -/
def stepFailed (text : Text) : Text :=
  "transformation agent step transformation-agent failed: ".toList ++ text

theorem lower_stepFailed (text : Text) :
    lower (stepFailed text) = stepFailedHead ++ ' ' :: lower text := by
  have hhead : lower "transformation agent step transformation-agent failed: ".toList =
      stepFailedHead ++ [' '] := by
    decide +kernel
  calc lower (stepFailed text)
    _ = lower "transformation agent step transformation-agent failed: ".toList ++ lower text :=
        lower_append _ _
    _ = (stepFailedHead ++ [' ']) ++ lower text := congrArg (· ++ lower text) hhead
    _ = stepFailedHead ++ ' ' :: lower text := List.append_assoc _ _ _

/-- A marker is found in the text of the step as it is in the text of the failure. -/
theorem contains_stepFailed {marker : Text} (hspace : ' ' ∉ marker)
    (hhead : contains stepFailedHead marker = false) (text : Text) :
    contains (lower (stepFailed text)) marker = contains (lower text) marker := by
  rw [lower_stepFailed, contains_append_of_notMem hspace, hhead, Bool.false_or]

theorem find_snd_iff {p : Text × Text → Bool} {earlier later : List (Text × Text)}
    {entry : Text × Text} (hearlier : ∀ other ∈ earlier, other.2 ≠ entry.2)
    (hlater : ∀ other ∈ later, other.2 ≠ entry.2) :
    ((earlier ++ entry :: later).find? p).map Prod.snd = some entry.2 ↔
      p entry = true ∧ ∀ other ∈ earlier, p other = false := by
  rw [List.find?_append]
  cases hfound : earlier.find? p with
  | some other =>
      rw [Option.some_or, Option.map_some, Option.some.injEq]
      have hmem := List.mem_of_find?_eq_some hfound
      constructor
      · exact fun h => absurd h (hearlier other hmem)
      · rintro ⟨-, hnone⟩
        have hp := List.find?_some hfound
        rw [hnone other hmem] at hp
        contradiction
  | none =>
      have hnone : ∀ other ∈ earlier, p other = false := by
        simpa using List.find?_eq_none.mp hfound
      rw [Option.none_or, List.find?_cons]
      cases p entry with
      | true => exact iff_of_true rfl ⟨rfl, hnone⟩
      | false =>
          constructor
          · intro h
            obtain ⟨other, hother, hsnd⟩ := Option.map_eq_some_iff.mp h
            exact absurd hsnd (hlater other (List.mem_of_find?_eq_some hother))
          · rintro ⟨⟨⟩, -⟩

theorem failedStep_guidance_iff {e : Raised} {text : Text} (htext : e.text = stepFailed text) :
    failedStepFromException e = some stepModelGuidance ↔ namesModelGuidance text := by
  have hsplit : failedStepMarkers = earlierMarkers ++ (stepModelGuidance, stepModelGuidance) ::
      failedStepMarkers.drop (earlierMarkers.length + 1) := by
    decide
  unfold failedStepFromException
  rw [htext, hsplit, find_snd_iff (by decide) (by decide)]
  unfold namesModelGuidance
  have hsame : ∀ marker ∈ earlierMarkers, contains (lower (stepFailed text)) marker.1 =
      contains (lower text) marker.1 := by
    have hfree : ∀ marker ∈ earlierMarkers, ' ' ∉ marker.1 ∧
        contains stepFailedHead marker.1 = false := by
      decide +kernel
    exact fun marker hmarker => contains_stepFailed (hfree marker hmarker).1 (hfree marker hmarker).2 text
  rw [contains_stepFailed (by decide) (by decide)]
  exact and_congr_right' (forall₂_congr fun marker hmarker => by rw [hsame marker hmarker])

theorem failedStep_stepFailed {e : Raised} {text : Text} (htext : e.text = stepFailed text) :
    ∃ step ∈ failedStepMarkers.map Prod.snd, failedStepFromException e = some step := by
  have hstep : contains (lower e.text) stepTransformationAgent = true := by
    have hhead : stepTransformationAgent <:+: stepFailedHead := by
      decide +kernel
    rw [htext, lower_stepFailed, contains_iff_infix]
    exact hhead.trans List.infix_append_left
  have hsome : (failedStepMarkers.find? fun marker => contains (lower e.text) marker.1).isSome :=
    List.find?_isSome.mpr ⟨(stepTransformationAgent, stepTransformationAgent), by decide, hstep⟩
  obtain ⟨marker, hmarker⟩ := Option.isSome_iff_exists.mp hsome
  refine ⟨marker.2, List.mem_map_of_mem (List.mem_of_find?_eq_some hmarker), ?_⟩
  unfold failedStepFromException
  rw [hmarker, Option.map_some]

/-- The code of a step that a text names. -/
theorem failureCodeAtStep_marker (e : Raised) {step : Text}
    (hstep : step ∈ failedStepMarkers.map Prod.snd) :
    ∃ code, failureCodeAtStep e (some step) = some code ∧ code ≠ .agentTimeout ∧
      (code = .modelGatewayUnavailable ↔ step = stepModelGuidance) := by
  unfold failureCodeAtStep
  split
  · rename_i hparse
    obtain rfl := Option.some.inj hparse.1
    exact ⟨.unsupportedCobol, rfl, by decide, by decide⟩
  · have hcodes : ∀ step ∈ failedStepMarkers.map Prod.snd,
        (failureCodeForStepName (some step)).isSome ∧
          failureCodeForStepName (some step) ≠ some .agentTimeout ∧
          (failureCodeForStepName (some step) = some .modelGatewayUnavailable ↔
            step = stepModelGuidance) := by
      decide
    obtain ⟨hsome, htimeout, hguidance⟩ := hcodes step hstep
    obtain ⟨code, hcode⟩ := Option.isSome_iff_exists.mp hsome
    rw [hcode] at htimeout hguidance ⊢
    exact ⟨code, rfl, fun h => htimeout (congrArg some h), by rwa [Option.some.injEq] at hguidance⟩

/-- The code the text of a failed step of the transformation agent gives. -/
theorem failureCodeFromText_stepFailed {e : Raised} {text : Text} (current : WorkflowState)
    (htext : e.text = stepFailed text) :
    failureCodeFromText e current (failedStepFromException e) ≠ .agentTimeout ∧
      (failureCodeFromText e current (failedStepFromException e) = .modelGatewayUnavailable ↔
        namesModelGuidance text) := by
  obtain ⟨step, hstep, hfailed⟩ := failedStep_stepFailed htext
  obtain ⟨code, hcode, htimeout, hguidance⟩ := failureCodeAtStep_marker e hstep
  have heq : failureCodeFromText e current (failedStepFromException e) = code := by
    unfold failureCodeFromText
    rw [hfailed, hcode]
    rfl
  rw [heq, hguidance, ← failedStep_guidance_iff htext, hfailed, Option.some.injEq]
  exact ⟨htimeout, Iff.rfl⟩

end Texts

section Agreement

theorem transformationCode_denied (text causes : Text) :
    transformationCode ⟨.transformationAgent .policyDenied, text, causes⟩ = .modelPolicyDenied :=
  rfl

theorem transformationCode_unavailable (text causes : Text) :
    transformationCode ⟨.transformationAgent .gatewayUnavailable, text, causes⟩ =
      .modelGatewayUnavailable ↔ namesModelGuidance text :=
  (failureCodeFromText_stepFailed _ rfl).2

theorem transformationCode_timeout (text causes : Text) :
    transformationCode ⟨.transformationAgent .timeout, text, causes⟩ ≠ .agentTimeout :=
  (failureCodeFromText_stepFailed _ rfl).1

theorem gatewayFailureKind_mem (text : Text) :
    gatewayFailureKind text ∈ [.gatewayUnavailable, .policyDenied, .timeout] := by
  unfold gatewayFailureKind
  split
  · decide
  · split <;> decide

theorem repairError_fromInvoker {e : Raised} (h : FromInvoker e) :
    repairError e = ⟨.repairAgent (gatewayFailureKind e.text) none none none,
      gatewayFailureText (gatewayFailureKind e.text), e.text⟩ := by
  have hclassify : classifyFailure e = ⟨.repairAgent (gatewayFailureKind e.text) none none none,
      gatewayFailureText (gatewayFailureKind e.text), e.text⟩ := by
    have hkind := gatewayFailureKind_mem e.text
    unfold classifyFailure classifyGatewayFailure
    generalize gatewayFailureKind e.text = kind at hkind ⊢
    cases kind with
    | base => simp at hkind
    | contractInvalid => simp at hkind
    | _ => rfl
  cases h with
  | unclassified text => exact hclassify
  | classified hkind text causes => exact hclassify

/-- The code of an error of the repair agent. -/
def repairCode (e : Raised) : FailureCode :=
  repairErrorCode (repairError e)

theorem repairCode_fromInvoker {e : Raised} (h : FromInvoker e) :
    repairCode e = agentFailureCode (gatewayFailureKind e.text) := by
  have hcodes (kind : AgentErrorKind) : failureCodeForRepairException kind = agentFailureCode kind := by
    cases kind <;> rfl
  rw [repairCode, repairError_fromInvoker h]
  exact hcodes _

theorem agentFailureCode_injective {a b : AgentErrorKind} (h : agentFailureCode a = agentFailureCode b) :
    a = b := by
  cases a <;> cases b <;> first | rfl | contradiction

/-- Both agents lead to the code first assigned, and classifying the error of
that code once more gives it again. -/
def SameCode (e : Raised) : Prop :=
  transformationCode e = assignedCode e ∧ repairCode e = assignedCode e ∧
    agentFailureCode (gatewayFailureKind (transformationError e).text) = assignedCode e

theorem sameCode_iff {e : Raised} (h : FromInvoker e) : SameCode e ↔ KeepsItsCode e := by
  unfold SameCode
  rw [repairCode_fromInvoker h]
  cases h with
  | unclassified text =>
      refine iff_of_false ?_ id
      have hkind := gatewayFailureKind_mem text
      have herror : transformationError (raisedOther text) =
        ⟨.transformationAgent (gatewayFailureKind text),
          gatewayFailureText (gatewayFailureKind text), text⟩ := rfl
      have hcode : transformationCode (raisedOther text) =
          transformationCode ⟨.transformationAgent (gatewayFailureKind text),
            gatewayFailureText (gatewayFailureKind text), text⟩ := rfl
      rw [hcode, assignedCode, herror]
      generalize gatewayFailureKind text = kind at hkind ⊢
      rintro ⟨htransformation, -, hagain⟩
      cases kind with
      | base => simp at hkind
      | contractInvalid => simp at hkind
      | gatewayUnavailable =>
          have hguidance := (transformationCode_unavailable _ _).mp htransformation
          exact absurd hguidance.1 (by decide +kernel)
      | policyDenied =>
          have hagain' : gatewayFailureKind (gatewayFailureText .policyDenied) = .policyDenied :=
            agentFailureCode_injective hagain
          exact absurd hagain' (by decide +kernel)
      | timeout => exact transformationCode_timeout _ _ htransformation
  | @classified kind hkind text causes =>
      have hassigned : assignedCode ⟨.transformationAgent kind, text, causes⟩ =
        agentFailureCode kind := rfl
      have hagain : (transformationError ⟨.transformationAgent kind, text, causes⟩).text = text := rfl
      rw [hassigned, hagain, and_self]
      have hiff : agentFailureCode (gatewayFailureKind text) = agentFailureCode kind ↔
          gatewayFailureKind text = kind :=
        ⟨agentFailureCode_injective, congrArg agentFailureCode⟩
      rw [hiff]
      cases kind with
      | base => simp at hkind
      | contractInvalid => simp at hkind
      | gatewayUnavailable =>
          refine Iff.trans (and_congr_left' (transformationCode_unavailable text causes)) and_comm
      | policyDenied => exact and_iff_right rfl
      | timeout =>
          exact iff_of_false (fun h => transformationCode_timeout _ _ h.1) id

end Agreement

/-- What no step of the transformation agent touches. -/
structure Stays (s s' : RunState) : Prop where
  stateMachine : s'.contract.stateMachine = s.contract.stateMachine
  failureCode : s'.contract.failureCode = s.contract.failureCode

instance : IsPreorder RunState Stays where
  refl _ := ⟨rfl, rfl⟩
  trans _ _ _ h h' := ⟨h'.stateMachine.trans h.stateMachine, h'.failureCode.trans h.failureCode⟩

section Transformation

variable {env : Env} {options : Options} {s : RunState}

theorem stays_tick : Within Stays tick :=
  fun _ => ⟨rfl, rfl⟩

theorem stays_outside : Within Stays (outside env) := by
  refine within_bind stays_tick fun t => ?_
  split
  · exact within_pure _
  · exact within_throw _

theorem stays_outsideEach {A : Type} (items : List A) : Within Stays (outsideEach env items) := by
  induction items with
  | nil => exact within_pure _
  | cons item items ih => exact within_bind stays_outside fun _ => ih

theorem stays_writeReferenced : Within Stays (writeReferenced env) := by
  refine within_bind stays_tick fun t => ?_
  split
  · exact within_throw _
  · exact within_pure _
  · exact within_throw _

theorem stays_recordWrite {change : RunState → RunState}
    (h : ∀ s, (change s).contract = s.contract) : Within Stays (recordWrite env change) := by
  have hchange (s : RunState) : Stays s (change s) := ⟨by rw [h], by rw [h]⟩
  refine within_bind stays_tick fun t => ?_
  split
  · exact within_modify hchange
  · refine within_bind (within_modify fun s => ?_) fun _ => within_throw _
    split
    · exact hchange s
    · exact refl_of Stays s

theorem stays_requireCapability (name : CapabilityName) :
    Within Stays (requireCapability env options name) := by
  refine within_bind within_get fun s => ?_
  split
  · exact within_pure _
  · refine within_bind stays_tick fun t => ?_
    split
    · exact within_throw _
    · exact within_throw _
    · split
      · exact within_throw _
      · exact within_bind (within_modify fun _ => ⟨rfl, rfl⟩) fun _ => within_pure _

theorem stays_spendModelUnit : Within Stays spendModelUnit := by
  refine within_bind within_get fun s => ?_
  split
  · exact within_pure _
  · exact within_bind (within_modify fun _ => ⟨rfl, rfl⟩) fun _ =>
      within_bind (within_modify fun _ => ⟨rfl, rfl⟩) fun _ => within_pure _

theorem stays_callModelGateway {A : Type} (answer : Nat → Except Raised A) :
    Within Stays (callModelGateway env answer) :=
  within_bind stays_outside fun _ => within_bind (within_modify fun _ => ⟨rfl, rfl⟩) fun _ =>
    within_bind stays_tick fun _ => within_returning _

theorem stays_transformationResult (reply : TransformationReply) :
    Within Stays (transformationResult env reply) := by
  cases reply with
  | success candidate =>
      have hstore : Within Stays (storeCandidate env candidate) :=
        within_bind (stays_outsideEach _) fun _ => within_bind stays_writeReferenced fun _ =>
          within_bind (within_modify fun _ => ⟨rfl, rfl⟩) fun _ => within_pure _
      exact within_bind hstore fun _ => within_bind stays_outside fun _ => within_pure _
  | declined status failureCode failureMessage =>
      exact within_bind stays_outside fun _ => within_pure _

theorem stays_invokeTransformationAgent :
    Within Stays (invokeTransformationAgent env options) := by
  have hcall : Within Stays (recordingResponse env (callModelGateway env env.transformation)) := by
    refine within_tryCatch (stays_callModelGateway _) fun e => ?_
    split
    · exact within_bind stays_outside fun _ => within_bind stays_outside fun _ => within_throw _
    · exact within_throw _
  have hinvoke : Within Stays (transformationAgentInvoke env) :=
    within_bind stays_outside fun _ => within_bind hcall stays_transformationResult
  exact within_bind stays_outside fun _ => within_bind (stays_requireCapability _) fun _ =>
    within_bind (within_modify fun _ => ⟨rfl, rfl⟩) fun _ =>
    within_bind stays_outside fun _ => hinvoke

/-- What `transform` raises once its step has begun it raises in the state of
that step. -/
theorem after_transform :
    After (transform env options) (fun _ _ => True)
      (fun e s' => (∃ error, e.kind = .contract error) ∨
        s'.contract.stateMachine.current = .transformationAgentInvoked ∧
          s'.contract.failureCode = s.contract.failureCode) s := by
  have hrest : Within Stays (do
      let spent ← spendModelUnit
      if spent then do
        let result ← tryCatch (invokeTransformationAgent env options) fun e =>
          throw (transformationFailure e)
        useTransformationResult env result
      else do
        let s ← get
        throw ⟨.stepExecution true,
          "transformation agent step transformation-agent blocked by ".toList ++
            "model invocation budget exhaustion: ".toList ++
            modelBudgetExhaustedText s.contract.modelInvocationBudget, []⟩) := by
    refine within_bind stays_spendModelUnit fun spent => ?_
    split
    · refine within_bind (within_tryCatch stays_invokeTransformationAgent fun e =>
        within_throw _) fun result => ?_
      unfold useTransformationResult
      split
      · exact within_bind (within_modify fun _ => ⟨rfl, rfl⟩) fun _ =>
          stays_recordWrite fun _ => rfl
      · exact within_modify fun _ => ⟨rfl, rfl⟩
    · exact within_bind within_get fun _ => within_throw _
  unfold transform
  rw [after_bind, after_get]
  split
  · rw [after_bind]
    have hadvance : After (advanceW02 env .transformationAgentInvoked (some stepTransformationAgent)
        "productive transformation agent invoked".toList none)
        (fun _ s' => s'.contract.stateMachine.current = .transformationAgentInvoked ∧
          s'.contract.failureCode = s.contract.failureCode)
        (fun e s' => (∃ error, e.kind = .contract error) ∨
          s'.contract.stateMachine.current = .transformationAgentInvoked ∧
            s'.contract.failureCode = s.contract.failureCode) s := by
      unfold advanceW02
      rw [after_bind, after_get, after_bind, after_onContract]
      refine (after_advance .transformationAgentInvoked _ none _).mono ?_
        fun error _ _ => .inl ⟨error, rfl⟩
      rintro _ _ ⟨-, rfl⟩
      rw [after_bind, updateContract, after_modify]
      exact (stays_outside _).mono
        (fun _ _ h => ⟨congrArg _ h.stateMachine, h.failureCode⟩)
        fun _ _ h => .inr ⟨congrArg _ h.stateMachine, h.failureCode⟩
    refine hadvance.mono ?_ fun _ _ h => h
    rintro _ s₁ ⟨hcurrent, hcode⟩
    exact (hrest s₁).mono (fun _ _ _ => trivial) fun _ _ h =>
      .inr ⟨(congrArg _ h.stateMachine).trans hcurrent, h.failureCode.trans hcode⟩
  · trivial

end Transformation

section Recording

variable {env : Env} {options : Options} {s : RunState} {A : Type}

/-- The failure code of the contract is left alone. -/
def KeepsCode (s s' : RunState) : Prop :=
  s'.contract.failureCode = s.contract.failureCode

instance : IsPreorder RunState KeepsCode where
  refl _ := rfl
  trans _ _ _ h h' := Eq.trans h' h

theorem keepsCode_of_stays {m : Run A} (h : Within Stays m) : Within KeepsCode m :=
  fun s => (h s).mono (fun _ _ h' => h'.failureCode) fun _ _ h' => h'.failureCode

theorem keepsCode_advanceW02 (target : WorkflowState) (activeStep : Option Text) (message : Text)
    (code : Option FailureCode) : Within KeepsCode (advanceW02 env target activeStep message code) := by
  refine within_bind within_get fun given => within_bind (fun s => ?_) fun _ =>
    within_bind (within_modify fun s => ?_) fun _ => keepsCode_of_stays stays_outside
  · rw [after_onContract]
    refine (after_advance target _ code _).mono ?_ ?_
    · rintro _ _ ⟨-, rfl⟩
      exact rfl
    · rintro _ _ ⟨-, -, rfl⟩
      exact rfl
  · cases activeStep <;> rfl

theorem keepsCode_swallowingIllegalTransition {m : Run PUnit} (h : Within KeepsCode m) :
    Within KeepsCode (swallowingIllegalTransition m) := by
  refine within_tryCatch h fun e => ?_
  split
  · exact within_pure _
  · exact within_throw e

theorem keepsCode_settleMachine (e : Raised) (current : WorkflowState) (code : FailureCode) :
    Within KeepsCode (settleMachine env e current code) := by
  unfold settleMachine
  split
  · exact keepsCode_swallowingIllegalTransition (keepsCode_advanceW02 _ _ _ _)
  · split
    · exact within_pure _
    · exact keepsCode_swallowingIllegalTransition (keepsCode_advanceW02 _ _ _ _)

/-- A finalisation that is made sets the code it is given. -/
theorem code_finalizeRun (classification : Classification) (code : Option FailureCode)
    (message : Option Text) :
    After (finalizeRun env classification code message)
      (fun _ s' => s'.contract.failureCode = code)
      (fun _ s' => s'.contract.failureCode = s.contract.failureCode ∨
        s'.contract.failureCode = code) s := by
  unfold finalizeRun
  rw [after_bind, after_get, after_bind, after_onContract]
  refine (after_finalizeW02 classification code message _).mono ?_ ?_
  · intro _ c hc
    exact (stays_outside _).mono (fun _ _ h => h.failureCode.trans hc.code)
      fun _ _ h => .inr (h.failureCode.trans hc.code)
  · rintro _ _ rfl
    exact .inl rfl

/-- The code `run` records for an exception it catches in a state. -/
def recordedCode (e : Raised) (s : RunState) : FailureCode :=
  failureCodeFromException e s.contract.stateMachine.current (failedStep e)

/-- The code is recorded, or no code is. -/
def MayRecord (code : FailureCode) (s s' : RunState) : Prop :=
  s'.contract.failureCode = s.contract.failureCode ∨ s'.contract.failureCode = some code

theorem mayRecord_finalizeFailure {e : Raised}
    (hunfinished : s.contract.stateMachine.current ≠ .finalClassification) :
    After (finalizeFailure env e) (fun _ => MayRecord (recordedCode e s) s)
      (fun _ => MayRecord (recordedCode e s) s) s := by
  unfold finalizeFailure
  rw [after_bind, after_get]
  dsimp only
  rw [if_neg hunfinished]
  refine (keepsCode_settleMachine e _ _).bind (fun _ s₁ h₁ => ?_) fun _ _ h₁ => .inl h₁
  rw [after_bind, after_modify, swallowingIllegalTransition, after_tryCatch]
  refine (code_finalizeRun _ _ _).mono (fun _ _ h => .inr h) fun e' s₂ h₂ => ?_
  have hmay : MayRecord (recordedCode e s) s s₂ := h₂.imp_left fun h => Eq.trans h h₁
  split
  · exact hmay
  · exact hmay

theorem after_swallowing {m : Run PUnit} {post : RunState → Prop}
    (h : After m (fun _ => post) (fun _ => post) s) :
    After (swallowing m) (fun _ => post) (fun _ _ => False) s := by
  unfold swallowing
  rw [after_tryCatch]
  exact h.mono (fun _ _ h => h) fun _ _ h => h

theorem stays_skipUnaskedModel : Within Stays (skipUnaskedModel env) := by
  refine within_bind within_get fun s => ?_
  split
  · exact within_pure _
  · refine within_bind within_get fun s => ?_
    split
    · exact within_pure _
    · exact within_bind stays_outside fun _ => within_modify fun _ => ⟨rfl, rfl⟩

theorem keepsCode_reports (e : Raised) : Within KeepsCode (do
    swallowing (updateRun env "failed".toList (workflowFailureMessage e))
    swallowing (writeFailureSummary env e)) := by
  have hswallow {m : Run PUnit} (h : Within Stays m) : Within KeepsCode (swallowing m) :=
    within_tryCatch (keepsCode_of_stays h) fun _ => within_pure _
  exact within_bind (hswallow (stays_recordWrite fun _ => rfl)) fun _ =>
    hswallow (within_bind within_get fun _ => stays_recordWrite fun _ => rfl)

/-- The exception path records no other code. -/
theorem mayRecord_recordFailure {e : Raised}
    (hunfinished : s.contract.stateMachine.current ≠ .finalClassification) :
    MayRecord (recordedCode e s) s (stateAfter (recordFailure env e) s) := by
  have h : After (recordFailure env e) (fun _ => MayRecord (recordedCode e s) s)
      (fun _ => MayRecord (recordedCode e s) s) s := by
    unfold recordFailure
    rw [after_bind]
    refine (after_swallowing (stays_skipUnaskedModel s)).mono ?_ fun _ _ => False.elim
    intro _ s₁ h₁
    have hsame : recordedCode e s₁ = recordedCode e s := by
      unfold recordedCode
      rw [h₁.stateMachine]
    rw [after_bind]
    refine (after_swallowing (mayRecord_finalizeFailure
      (by rwa [h₁.stateMachine]))).mono ?_ fun _ _ => False.elim
    intro _ s₂ h₂
    rw [hsame] at h₂
    have hmay : MayRecord (recordedCode e s) s s₂ := h₂.imp_left fun h => h.trans h₁.failureCode
    exact (keepsCode_reports e s₂).mono (fun _ _ h => hmay.imp h.trans h.trans)
      fun _ _ h => hmay.imp h.trans h.trans
  exact After.result (p := fun _ => MayRecord (recordedCode e s) s) h

theorem finalizeW02_coded (classification : Classification) (code : FailureCode)
    (message : Option Text) (now : Timestamp) (contract : W02RunContract) :
    After (finalizeW02 classification.text (some code.text) message now)
      (fun _ c => c.failureCode = some code) (fun _ _ => False) contract := by
  have hread : readOutcome classification.text (some code.text) = some (classification, some code) := by
    cases classification <;> simp [readOutcome]
  unfold finalizeW02
  rw [after_tryCatch]
  refine (after_finalize classification.text (some code.text) _ now).mono ?_ ?_
  · rintro _ _ ⟨outcome, transition, houtcome, -, -, rfl⟩
    cases hread.symm.trans houtcome
    rfl
  · rintro e _ (⟨hinvalid, -, -⟩ | ⟨outcome, -, -, rfl, rfl⟩)
    · rw [hread] at hinvalid
      contradiction
    · exact readFailureCode_text code

end Recording

section Quiet

variable {env : Env} {s : RunState}

theorem quiet_outside (hquiet : ∀ t, env.raises t = none) :
    After (outside env) (fun _ => Stays s) (fun _ _ => False) s := by
  have hreturns : outside env s = .ok ⟨⟩ { s with clock := s.clock + 1 } := by
    unfold outside
    simp only [hquiet]
    rfl
  unfold After
  rw [hreturns]
  exact ⟨rfl, rfl⟩

theorem quiet_finalizeRun (hquiet : ∀ t, env.raises t = none) (classification : Classification)
    (code : FailureCode) (message : Option Text) :
    After (finalizeRun env classification (some code) message)
      (fun _ s' => s'.contract.failureCode = some code) (fun _ _ => False) s := by
  unfold finalizeRun
  rw [after_bind, after_get, after_bind, after_onContract]
  refine (finalizeW02_coded classification code message _ _).mono ?_ fun _ _ => False.elim
  intro _ c hc
  exact (quiet_outside hquiet).mono (fun _ _ h => h.failureCode.trans hc) fun _ _ => False.elim

theorem quiet_settleMachine (hquiet : ∀ t, env.raises t = none) (e : Raised)
    (current : WorkflowState) (code : FailureCode) :
    After (settleMachine env e current code) (fun _ _ => True) (fun _ _ => False) s := by
  have hadvance (target : WorkflowState) (message : Text) :
      After (swallowingIllegalTransition (advanceW02 env target none message (some code)))
        (fun _ _ => True) (fun _ _ => False) s := by
    unfold swallowingIllegalTransition advanceW02
    rw [after_tryCatch, after_bind, after_get, after_bind, after_onContract]
    refine (after_advance target _ (some code) _).mono ?_ ?_
    · rintro _ c -
      rw [after_bind, updateContract, after_modify]
      exact (quiet_outside hquiet).mono (fun _ _ _ => trivial) fun _ _ => False.elim
    · rintro _ c ⟨-, rfl, -⟩
      trivial
  unfold settleMachine
  split
  · exact hadvance _ _
  · split
    · trivial
    · exact hadvance _ _

theorem quiet_finalizeFailure (hquiet : ∀ t, env.raises t = none) {e : Raised}
    (hunfinished : s.contract.stateMachine.current ≠ .finalClassification) :
    After (finalizeFailure env e)
      (fun _ s' => s'.contract.failureCode = some (recordedCode e s)) (fun _ _ => False) s := by
  unfold finalizeFailure
  rw [after_bind, after_get]
  dsimp only
  rw [if_neg hunfinished, after_bind]
  refine (quiet_settleMachine hquiet e _ _).mono ?_ fun _ _ => False.elim
  intro _ s₁ _
  rw [after_bind, after_modify, swallowingIllegalTransition, after_tryCatch]
  exact (quiet_finalizeRun hquiet _ _ _).mono (fun _ _ h => h) fun _ _ => False.elim

/-- When nothing outside fails, the exception path records the code. -/
theorem code_recordFailure (hquiet : ∀ t, env.raises t = none) {e : Raised}
    (hunfinished : s.contract.stateMachine.current ≠ .finalClassification) :
    (stateAfter (recordFailure env e) s).contract.failureCode = some (recordedCode e s) := by
  have h : After (recordFailure env e)
      (fun _ s' => s'.contract.failureCode = some (recordedCode e s))
      (fun _ s' => s'.contract.failureCode = some (recordedCode e s)) s := by
    unfold recordFailure
    rw [after_bind]
    refine (after_swallowing (stays_skipUnaskedModel s)).mono ?_ fun _ _ => False.elim
    intro _ s₁ h₁
    have hsame : recordedCode e s₁ = recordedCode e s := by
      unfold recordedCode
      rw [h₁.stateMachine]
    rw [after_bind, ← hsame]
    refine (after_swallowing ((quiet_finalizeFailure hquiet
      (by rwa [h₁.stateMachine])).mono (fun _ _ h => h) fun _ _ => False.elim)).mono ?_
      fun _ _ => False.elim
    intro _ s₂ h₂
    exact (keepsCode_reports e s₂).mono (fun _ _ h => Eq.trans h h₂) fun _ _ h => Eq.trans h h₂
  exact After.result
    (p := fun _ (s' : RunState) => s'.contract.failureCode = some (recordedCode e s)) h

end Quiet

section Repair

variable {env : Env} {options : Options} {s : RunState}

/-- What is left of `run` once the repair agent has failed. -/
def finishAfterRepairError (env : Env) (options : Options) (capabilities : Capabilities)
    (e : Raised) : Run PUnit := do
  let _ ← recordRepairError env options e
  selectFinalJava env
  guide env options
  writeEvidence env options capabilities
  classifyEvidence env
  conclude env

/-- The run is blocked with a code. -/
structure BlockedWith (code : FailureCode) (s : RunState) : Prop where
  blocked : s.locals.blocked = true
  failureCode : s.locals.failureCode = some code

theorem BlockedWith.same {code : FailureCode} {s s' : RunState} (h : BlockedWith code s)
    (h' : s'.locals = s.locals) : BlockedWith code s' :=
  ⟨(congrArg Locals.blocked h').trans h.blocked, (congrArg Locals.failureCode h').trans h.failureCode⟩

theorem blocked_recordRepairError (e : Raised) :
    Returns (recordRepairError env options e) (fun _ => BlockedWith (repairErrorCode e)) s := by
  unfold recordRepairError
  rw [Returns, after_bind, after_get, after_bind, blockRun]
  refine (show After _ (fun _ _ => True) (fun _ _ => True) s from ?_).mono ?_ fun _ _ _ => trivial
  · unfold After
    split <;> trivial
  · intro _ s₁ _
    rw [after_bind, after_bind, updateLocals, after_modify]
    exact (calm_advanceW02 (by decide) _ _ _ _).mono (fun _ _ h =>
      BlockedWith.same ⟨rfl, rfl⟩ h.locals) fun _ _ _ => trivial

theorem blocked_writeEvidence {code : FailureCode} (capabilities : Capabilities)
    (h : BlockedWith code s) :
    Returns (writeEvidence env options capabilities) (fun _ => BlockedWith code) s := by
  unfold writeEvidence
  refine (sameOutcome_of_calm calm_fetchTrajectoryLedger).bind (fun _ s₁ h₁ => ?_)
    fun _ _ _ => trivial
  refine sameOutcome_outside.bind (fun _ s₂ h₂ => ?_) fun _ _ _ => trivial
  refine sameOutcome_outside.bind (fun _ s₃ h₃ => ?_) fun _ _ _ => trivial
  refine sameOutcome_outside.bind (fun _ s₄ h₄ => ?_) fun _ _ _ => trivial
  refine sameOutcome_outside.bind (fun _ s₅ h₅ => ?_) fun _ _ _ => trivial
  refine (sameOutcome_invokeStep _ _).bind (fun payload s₆ h₆ => ?_) fun _ _ _ => trivial
  have hblocked := (((((h.same h₁.locals).same h₂.locals).same h₃.locals).same h₄.locals).same
    h₅.locals).same h₆.locals
  rw [after_bind, updateLocals, after_modify]
  refine sameOutcome_outside.bind (fun _ s₇ h₇ => ?_) fun _ _ _ => trivial
  rw [updateContract, after_modify]
  exact ⟨(congrArg Locals.blocked h₇.locals).trans hblocked.blocked,
    (congrArg Locals.failureCode h₇.locals).trans hblocked.failureCode⟩

theorem blocked_classifyEvidence {code : FailureCode} (h : BlockedWith code s) :
    Returns (classifyEvidence env) (fun _ => BlockedWith code) s := by
  unfold classifyEvidence
  rw [Returns, after_bind, after_get]
  split
  · exact (calm_advanceW02 (by decide) _ _ _ s).mono (fun _ _ h' => h.same h'.locals)
      fun _ _ _ => trivial
  · refine Within.bind (calm_advanceW02 (by decide) _ _ _) (fun _ s₁ h₁ => ?_)
      fun _ _ _ => trivial
    have hkept := h.same h₁.locals
    have hblock : blockOnEvidence s₁.locals = s₁.locals := if_pos hkept.blocked
    rw [updateLocals, after_modify]
    exact hkept.same hblock

theorem code_conclude {code : FailureCode} (h : BlockedWith code s) :
    Returns (conclude env) (fun _ s' => s'.contract.failureCode = some code) s := by
  unfold conclude
  refine Within.bind calm_outside (fun _ s₁ h₁ => ?_) fun _ _ _ => trivial
  have hblocked := h.same h₁.locals
  rw [after_bind, after_get, if_pos hblocked.blocked, finishBlocked, hblocked.failureCode, after_bind]
  refine (code_finalizeRun _ _ _).mono ?_ fun _ _ _ => trivial
  intro _ s₂ h₂
  have hrest : Within KeepsCode (do
      writeSummary env "blocked".toList (blockedMessage (some code) s₁.locals.failureMessage)
        (some stepCompileTestJava)
      updateRun env "failed".toList (blockedMessage (some code) s₁.locals.failureMessage)) :=
    within_bind (keepsCode_of_stays (stays_recordWrite fun _ => rfl)) fun _ =>
      keepsCode_of_stays (stays_recordWrite fun _ => rfl)
  exact (hrest s₂).mono (fun _ _ h' => Eq.trans h' h₂) fun _ _ _ => trivial

/-- A run the repair agent fails in ends with the code of the agent's error. -/
theorem code_finishAfterRepairError (capabilities : Capabilities) (e : Raised) :
    Returns (finishAfterRepairError env options capabilities e)
      (fun _ s' => s'.contract.failureCode = some (repairErrorCode e)) s := by
  unfold finishAfterRepairError
  rw [Returns, after_bind]
  refine (blocked_recordRepairError e).mono ?_ fun _ _ h => h
  intro _ s₁ h₁
  refine (sameOutcome_of_calm calm_selectFinalJava).bind (fun _ s₂ h₂ => ?_) fun _ _ _ => trivial
  refine sameOutcome_guide.bind (fun _ s₃ h₃ => ?_) fun _ _ _ => trivial
  rw [after_bind]
  refine (blocked_writeEvidence capabilities ((h₁.same h₂.locals).same h₃.locals)).mono ?_
    fun _ _ h => h
  intro _ s₄ h₄
  rw [after_bind]
  exact (blocked_classifyEvidence h₄).mono (fun _ _ h₅ => code_conclude h₅) fun _ _ h => h

end Repair

/-- The failure as the repair agent raises it, with its artifacts. -/
def withArtifacts (e : Raised) (repairInputRef repairDecisionRef : Option Reference) : Raised :=
  match e.kind with
  | .repairAgent kind modelInvocationRef _ _ =>
      { e with kind := .repairAgent kind modelInvocationRef repairInputRef repairDecisionRef }
  | _ => e

/-- Whichever agent a failure hits, every code the run records for it is the one
first assigned; and that code is what classifying the error again gives. -/
structure RecordsOneCode (e : Raised) : Prop where
  transformation : ∀ (env : Env) (options : Options) (s s' : RunState),
    s.contract.failureCode = none →
    transform env options s = .error (transformationFailure (transformationError e)) s' →
    ∀ code, (stateAfter (recordFailure env (transformationFailure (transformationError e)))
        s').contract.failureCode = some code →
      code = assignedCode e
  repair : ∀ (env : Env) (options : Options) (capabilities : Capabilities)
    (repairInputRef repairDecisionRef : Option Reference) (s s₁ s' : RunState),
    invokeRepairAgent env options (repairRequest env options s) s =
      .error (withArtifacts (repairError e) repairInputRef repairDecisionRef) s₁ →
    finishAfterRepairError env options capabilities
      (withArtifacts (repairError e) repairInputRef repairDecisionRef) s₁ = .ok ⟨⟩ s' →
    s'.contract.failureCode = some (assignedCode e)
  again : agentFailureCode (gatewayFailureKind (transformationError e).text) = assignedCode e

theorem repairErrorCode_withArtifacts (e : Raised)
    (repairInputRef repairDecisionRef : Option Reference) :
    repairErrorCode (withArtifacts e repairInputRef repairDecisionRef) = repairErrorCode e := by
  obtain ⟨kind, text, causes⟩ := e
  cases kind <;> rfl

/-- No error of the transformation agent is one of the run contract. -/
theorem transformationFailure_kind {e : Raised} (h : FromInvoker e) (error : ContractError) :
    (transformationFailure (transformationError e)).kind ≠ .contract error := by
  have hkind : ∃ kind text causes, transformationError e = ⟨.transformationAgent kind, text, causes⟩ ∧
      kind ∈ [.gatewayUnavailable, .policyDenied, .timeout] := by
    cases h with
    | unclassified text => exact ⟨_, _, _, rfl, gatewayFailureKind_mem text⟩
    | classified hkind text causes => exact ⟨_, _, _, rfl, hkind⟩
  obtain ⟨kind, text, causes, heq, hmem⟩ := hkind
  rw [heq]
  cases kind with
  | base => simp at hmem
  | contractInvalid => simp at hmem
  | _ => exact nofun

section Samples

open C2c.Orchestrator.RunAccounts

/-- Services that all answer, but for the model gateway, which fails. -/
def failingEnv (e : Raised) : Env :=
  { steadyEnv passedBuild with
    transformation := fun _ => .error (transformationError e)
    repair := fun _ => .error (repairError e) }

def transformingOptions : Options :=
  { steadyOptions with useTransformationAgent := true }

/-- A run whose assist gate has chosen the transformation agent. -/
def transformingRun : RunState :=
  let s := start transformingOptions (fun _ => none) []
  { s with
    contract := { s.contract with
      stateMachine := ⟨.baselineGenerationAttempted, []⟩
      assistDecision := some ⟨true, callerExplicitOptIn, some "transformation".toList⟩ } }

def sampleReference : Reference :=
  ⟨"urn:artifact".toList, List.replicate 64 'a', 1⟩

/-- A run in its first repair iteration. -/
def repairingRun : RunState :=
  let s := start steadyOptions (fun _ => none) []
  { s with
    contract := { s.contract with stateMachine := ⟨.verificationRepairInvoked, []⟩ }
    locals := { s.locals with
      repairAttemptCounter := 1
      generatedArtifactRef := some sampleReference } }

def sampleCapabilities : Capabilities :=
  let capability : Capability := ⟨"endpoint".toList⟩
  { parse := capability, ir := capability, generator := capability, buildTest := capability
    evidence := capability, sourceReference := none }

theorem transform_fails {e : Raised} (h : FromInvoker e) :
    transform (failingEnv e) transformingOptions transformingRun =
      .error (transformationFailure (transformationError e))
        (stateAfter (transform (failingEnv e) transformingOptions) transformingRun) := by
  cases h with
  | unclassified text => rfl
  | classified hkind text causes => rfl

/-- The run once its call of the repair agent has failed. -/
def failedRun : RunState :=
  let env := failingEnv (raisedOther [])
  stateAfter (invokeRepairAgent env steadyOptions (repairRequest env steadyOptions repairingRun))
    repairingRun

def sampleError (kind : AgentErrorKind) (causes : Text) : Raised :=
  ⟨.repairAgent kind none (some sampleReference) (some sampleReference), gatewayFailureText kind,
    causes⟩

theorem withArtifacts_fromInvoker {e : Raised} (h : FromInvoker e) :
    withArtifacts (repairError e) (some sampleReference) (some sampleReference) =
      sampleError (gatewayFailureKind e.text) e.text := by
  rw [repairError_fromInvoker h]
  rfl

theorem repair_fails {e : Raised} (h : FromInvoker e) :
    invokeRepairAgent (failingEnv e) steadyOptions
        (repairRequest (failingEnv e) steadyOptions repairingRun) repairingRun =
      .error (withArtifacts (repairError e) (some sampleReference) (some sampleReference))
        failedRun := by
  rw [withArtifacts_fromInvoker h]
  unfold failingEnv
  rw [repairError_fromInvoker h]
  rfl

theorem failedRun_finishes {e : Raised} (h : FromInvoker e) :
    ∃ s', finishAfterRepairError (failingEnv e) steadyOptions sampleCapabilities
      (withArtifacts (repairError e) (some sampleReference) (some sampleReference)) failedRun =
        .ok ⟨⟩ s' := by
  have hends : ∀ kind ∈ [AgentErrorKind.gatewayUnavailable, .policyDenied, .timeout],
      (resultOf (finishAfterRepairError (steadyEnv passedBuild) steadyOptions sampleCapabilities
        (sampleError kind [])) failedRun).isSome = true := by
    decide +kernel
  -- the failing gateway is not called again
  have hsame : finishAfterRepairError (failingEnv e) steadyOptions sampleCapabilities
      (sampleError (gatewayFailureKind e.text) e.text) =
        finishAfterRepairError (steadyEnv passedBuild) steadyOptions sampleCapabilities
          (sampleError (gatewayFailureKind e.text) []) := rfl
  obtain ⟨⟨⟩, hreturns⟩ := Option.isSome_iff_exists.mp (hends _ (gatewayFailureKind_mem e.text))
  rw [withArtifacts_fromInvoker h, hsame]
  exact returns_of_resultOf hreturns

/-- A gateway that serves the role and denies the call. -/
def denyingHarness : HarnessGateway where
  getCapability := .ok (.object [("id".toList, .text "model-gateway".toList),
    ("endpoint".toList, .text "http://gateway/v0/invoke".toList)])
  getJson := none
  invokeCapability := .error "403: policy deny (forbidden_role)".toList

def sampleUrls : UrlParser where
  urlparse _ := ⟨"http".toList, "gateway".toList, "/v0/invoke".toList, [], [], []⟩
  urlunparse _ := "http://gateway/v0/invoke".toList

def sampleCall : Invocation where
  capabilityId := "model-gateway".toList
  agentRole := "verification-repair".toList
  modelId := "model".toList

/-- A gateway that has one model for the transformation agent. -/
def servingHarness : HarnessGateway :=
  { denyingHarness with
    getJson := some fun _ => .ok (some 200, .object [("roles".toList, .array [.object
      [("role".toList, .text "transformation".toList), ("status".toList, .text "ok".toList),
        ("availableModels".toList, .array [.text "model".toList])]])]) }

def refusedCall : Invocation where
  capabilityId := "model-gateway".toList
  agentRole := "transformation".toList
  modelId := "forbidden_model".toList

end Samples

theorem recordedCode_of_current {e : Raised} {s : RunState}
    (h : s.contract.stateMachine.current = .transformationAgentInvoked) :
    recordedCode (transformationFailure (transformationError e)) s = transformationCode e := by
  unfold recordedCode transformationCode
  rw [h]

/-- A failed call of the model gateway is recorded with one code, whichever
agent makes it, exactly if the failure is one of the invoker's own checks whose
text gives its class again and, where it is an unavailability, names the model
guidance step. -/
theorem records_one_code_iff (urls : UrlParser) (harness : HarnessGateway) (call : Invocation)
    (e : Raised) (hfails : invoke urls harness call = .error e) :
    RecordsOneCode e ↔ KeepsItsCode e := by
  have h := fromInvoker_invoke hfails
  -- a failed transformation is caught in the state of its step
  have hcaught {env : Env} {options : Options} {s s' : RunState}
      (hfailed : transform env options s =
        .error (transformationFailure (transformationError e)) s') :
      s'.contract.stateMachine.current = .transformationAgentInvoked ∧
        s'.contract.failureCode = s.contract.failureCode := by
    have hstate := @after_transform env options s
    unfold After at hstate
    rw [hfailed] at hstate
    exact hstate.resolve_left fun ⟨error, herror⟩ => transformationFailure_kind h error herror
  have hrepaired {env : Env} {options : Options} {capabilities : Capabilities} {s s' : RunState}
      {inputRef decisionRef : Option Reference}
      (hfinished : finishAfterRepairError env options capabilities
        (withArtifacts (repairError e) inputRef decisionRef) s = .ok ⟨⟩ s') :
      s'.contract.failureCode = some (repairCode e) := by
    have hends := @code_finishAfterRepairError env options s
      capabilities (withArtifacts (repairError e) inputRef decisionRef)
    unfold Returns After at hends
    rw [hfinished, repairErrorCode_withArtifacts] at hends
    exact hends
  rw [← sameCode_iff h]
  constructor
  · intro hone
    refine ⟨?_, ?_, hone.again⟩
    · have hfailed := transform_fails h
      have hcurrent := (hcaught hfailed).1
      have hrecorded := @code_recordFailure (failingEnv e) _ (fun _ => rfl)
        (transformationFailure (transformationError e)) (by rw [hcurrent]; decide)
      rw [recordedCode_of_current hcurrent] at hrecorded
      exact hone.transformation _ _ _ _ rfl hfailed _ hrecorded
    · obtain ⟨s', hfinished⟩ := failedRun_finishes h
      have hcode := hone.repair _ _ _ _ _ _ _ _ (repair_fails h) hfinished
      exact Option.some.inj ((hrepaired hfinished).symm.trans hcode)
  · rintro ⟨htransformation, hrepair, hagain⟩
    refine ⟨?_, ?_, hagain⟩
    · intro env options s s' hnone hfailed code hcode
      obtain ⟨hcurrent, hkept⟩ := hcaught hfailed
      have hmay := @mayRecord_recordFailure env s'
        (transformationFailure (transformationError e)) (by rw [hcurrent]; decide)
      unfold MayRecord at hmay
      rw [recordedCode_of_current hcurrent, htransformation, hkept, hnone, hcode] at hmay
      exact Option.some.inj (hmay.resolve_left nofun)
    · intro env options capabilities inputRef decisionRef s s₁ s' _ hfinished
      rw [hrepaired hfinished, hrepair]

theorem refused_model_keeps_code :
    RecordsOneCode ⟨.transformationAgent .policyDenied,
      "modelId 'forbidden_model' is not available for agentRole 'transformation'".toList, []⟩ :=
  (records_one_code_iff sampleUrls servingHarness refusedCall _ (by rfl)).mpr
    (show gatewayFailureKind _ = _ by decide +kernel)

open C2c.Orchestrator.RunAccounts

/-- What an invocation raises. -/
def failureOf : Except Raised Json → Option Raised
  | .error e => some e
  | .ok _ => none

def deniedCall : Raised :=
  classifyGatewayFailure (raisedOther "403: policy deny (forbidden_role)".toList)

/-- A call the policy denies blocks the run as denied when the transformation
agent makes it, and as unavailable when the repair agent does. -/
theorem denied_repair_is_unavailable :
    failureOf (invoke sampleUrls denyingHarness sampleCall) = some deniedCall ∧
      assignedCode deniedCall = .modelPolicyDenied ∧
      (finalState (failingEnv deniedCall) transformingOptions).contract.failureCode =
        some .modelPolicyDenied ∧
      (finalState { failingEnv deniedCall with
          reply := (steadyEnv (failedBuild "compile_failed")).reply }
        steadyOptions).contract.failureCode = some .modelGatewayUnavailable := by
  decide +kernel

end C2c.Orchestrator.GatewayFailures
