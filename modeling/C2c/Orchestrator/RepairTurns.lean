import C2c.Orchestrator.RunFrames

namespace C2c.Orchestrator.RepairTurns

open C2c.Library.JavaText
open C2c.Library.PythonText
open C2c.Library.PythonJson
open C2c.Library.Raising
open C2c.Orchestrator.RunContract
open C2c.Orchestrator.ContractRuns
open C2c.Orchestrator.StepReplies
open C2c.Orchestrator.RunErrors
open C2c.Orchestrator.RunSteps
open C2c.Orchestrator.RunAgents
open C2c.Orchestrator.WorkflowRun
open C2c.Orchestrator.RunFrames

/-- The typed errors of the repair agent. -/
def IsRepairError (e : Raised) : Prop :=
  ∃ kind modelInvocationRef repairInputRef repairDecisionRef,
    e.kind = .repairAgent kind modelInvocationRef repairInputRef repairDecisionRef

/-- Services that differ in what the builds and the repair agent answer only:
nothing else fails. -/
structure Steady (env : Env) (options : Options) (capabilities : Capabilities) : Prop where
  raises : ∀ t, env.raises t = none
  capability : ∀ t, ∃ capability, env.capability t = .resolved capability ∧
    env.modelGatewayAllowed capability = true
  reference : ∀ t, ∃ reference, env.reference t = some reference
  build : ∀ t, ∃ payload, env.reply t stepCompileTestJava = .ok payload
  repair : ∀ t e, env.repair t = .error e → IsRepairError e
  endpoint : strip capabilities.buildTest.endpoint ≠ []
  retries : 0 ≤ options.maxRetries

/-- What the calls to the services leave alone. -/
structure Outer (s s' : RunState) : Prop where
  contract : s'.contract = s.contract
  locals : s'.locals = s.locals
  builds : s'.traffic.builds = s.traffic.builds
  repairCalls : s'.traffic.repairCalls = s.traffic.repairCalls

instance : IsPreorder RunState Outer where
  refl _ := ⟨rfl, rfl, rfl, rfl⟩
  trans _ _ _ h h' :=
    ⟨h'.contract.trans h.contract, h'.locals.trans h.locals, h'.builds.trans h.builds,
      h'.repairCalls.trans h.repairCalls⟩

section Services

variable {env : Env} {options : Options} {capabilities : Capabilities} {A : Type}

/-- The error is one of the given if the services are steady. -/
def Unless (env : Env) (options : Options) (capabilities : Capabilities)
    (errors : Raised → Prop) (e : Raised) : Prop :=
  Steady env options capabilities → errors e

/-- A computation outside the contract that raises only if the services are not
steady. -/
abbrev Served (env : Env) (options : Options) (capabilities : Capabilities) (m : Run A) : Prop :=
  WithinExpecting Outer (Unless env options capabilities fun _ => False) m

theorem served_tick : Served env options capabilities tick :=
  fun _ => ⟨rfl, rfl, rfl, rfl⟩

theorem served_outside : Served env options capabilities (outside env) := by
  refine expecting_bind served_tick fun t => ?_
  split
  · exact expecting_pure _
  · rename_i e hraises
    refine expecting_throw fun hsteady => ?_
    rw [hsteady.raises t] at hraises
    contradiction

theorem served_outsideEach {B : Type} (items : List B) :
    Served env options capabilities (outsideEach env items) := by
  induction items with
  | nil => exact expecting_pure _
  | cons item items ih => exact expecting_bind served_outside fun _ => ih

theorem served_writeReferenced : Served env options capabilities (writeReferenced env) := by
  refine expecting_bind served_tick fun t => ?_
  split
  · rename_i hraises
    refine expecting_throw fun hsteady => ?_
    rw [hsteady.raises t] at hraises
    contradiction
  · exact expecting_pure _
  · rename_i _ hreference
    refine expecting_throw fun hsteady => ?_
    obtain ⟨reference, hsome⟩ := hsteady.reference t
    rw [hsome] at hreference
    contradiction

theorem served_requireModelGateway :
    Served env options capabilities (requireCapability env options .modelGateway) := by
  refine expecting_bind expecting_get fun s => ?_
  split
  · exact expecting_pure _
  · refine expecting_bind served_tick fun t => ?_
    have hresolved (hsteady : Steady env options capabilities) := hsteady.capability t
    split
    · rename_i hreply
      refine expecting_throw fun hsteady => ?_
      obtain ⟨capability, hcapability, -⟩ := hresolved hsteady
      rw [hcapability] at hreply
      contradiction
    · rename_i hreply
      refine expecting_throw fun hsteady => ?_
      obtain ⟨capability, hcapability, -⟩ := hresolved hsteady
      rw [hcapability] at hreply
      contradiction
    · rename_i capability hreply
      split
      · rename_i hdenied
        refine expecting_throw fun hsteady => ?_
        obtain ⟨capability, hcapability, hallowed⟩ := hresolved hsteady
        rw [hcapability] at hreply
        obtain rfl := CapabilityReply.resolved.inj hreply
        exact hdenied.2 hallowed
      · exact expecting_bind (expecting_modify fun _ => ⟨rfl, rfl, rfl, rfl⟩)
          fun _ => expecting_pure _

theorem served_storeCandidate (candidate : JavaCandidate) :
    Served env options capabilities (storeCandidate env candidate) :=
  expecting_bind (served_outsideEach _) fun _ => expecting_bind served_writeReferenced fun _ =>
    expecting_bind (expecting_modify fun _ => ⟨rfl, rfl, rfl, rfl⟩) fun _ => expecting_pure _

/-- The attempts of a build run out only if there are none. -/
theorem expecting_invokeAttempts (attempts : Nat) :
    WithinExpecting Outer (Unless env options capabilities fun _ => attempts = 0)
      (invokeAttempts env stepCompileTestJava attempts) := by
  induction attempts with
  | zero => exact expecting_throw fun _ => rfl
  | succ attempts ih =>
      simp only [invokeAttempts]
      refine expecting_bind (expecting_modify fun _ => ⟨rfl, rfl, rfl, rfl⟩) fun _ =>
        expecting_bind (served_tick.mono fun _ h hsteady => (h hsteady).elim) fun t => ?_
      split
      · exact expecting_pure _
      · rename_i e hreply
        have hunsteady (hsteady : Steady env options capabilities) : False := by
          obtain ⟨payload, hpayload⟩ := hsteady.build t
          rw [hpayload] at hreply
          contradiction
        split
        · exact ih.mono fun _ _ hsteady => (hunsteady hsteady).elim
        · exact expecting_throw fun hsteady => (hunsteady hsteady).elim

theorem served_invokeBuild :
    Served env options capabilities
      (invokeStep env options stepCompileTestJava capabilities.buildTest) := by
  unfold invokeStep
  split
  · rename_i hblank
    exact expecting_throw fun hsteady => hsteady.endpoint hblank
  · have hattempts : WithinExpecting Outer
        (Unless env options capabilities fun _ => (options.maxRetries + 1).toNat = 0)
        (invokeAttempts env stepCompileTestJava (options.maxRetries + 1).toNat) :=
      expecting_invokeAttempts _
    refine hattempts.mono fun _ hnone hsteady => ?_
    have := hnone hsteady
    have := hsteady.retries
    omega

/-- A computation of the repair agent: it may also raise one of its errors. -/
abbrev Agent (env : Env) (options : Options) (capabilities : Capabilities) (m : Run A) : Prop :=
  WithinExpecting Outer (Unless env options capabilities IsRepairError) m

theorem agent_of_served {m : Run A} (h : Served env options capabilities m) :
    Agent env options capabilities m :=
  h.mono fun _ hnone hsteady => (hnone hsteady).elim

theorem agent_callModelGateway :
    Agent env options capabilities (callModelGateway env env.repair) := by
  refine expecting_bind (agent_of_served served_outside) fun _ =>
    expecting_bind (expecting_modify fun _ => ⟨rfl, rfl, rfl, rfl⟩) fun _ =>
    expecting_bind (agent_of_served served_tick) fun t => ?_
  cases hanswer : env.repair t with
  | ok answer => exact expecting_pure answer
  | error e => exact expecting_throw fun hsteady => hsteady.repair t e hanswer

theorem agent_recordingDecision (inputRef : Reference) {m : Run A}
    (hm : Agent env options capabilities m) :
    Agent env options capabilities (recordingDecision env inputRef m) := by
  refine expecting_tryCatch hm fun e he => ?_
  split
  · exact expecting_bind (agent_of_served served_writeReferenced) fun _ =>
      expecting_throw fun _ => ⟨_, _, _, _, rfl⟩
  · exact expecting_throw he

end Services

section Agent

variable {env : Env} {options : Options} {capabilities : Capabilities}

/-- A proposed candidate comes with the reference it was stored under last. -/
def Proposes (result : RepairResult) (s : RunState) : Prop :=
  result.decision = .proposeCandidate → ∃ candidate reference,
    result.candidate = some candidate ∧ result.newJavaCandidateRef = some reference ∧
      s.traffic.projects.head? = some ⟨some reference, candidate.files⟩

theorem after_storeCandidate (candidate : JavaCandidate) (s : RunState) :
    After (storeCandidate env candidate)
      (fun reference s' => Outer s s' ∧
        s'.traffic.projects.head? = some ⟨some reference, candidate.files⟩)
      (fun e s' => Outer s s' ∧ Unless env options capabilities (fun _ => False) e) s := by
  unfold storeCandidate
  rw [after_bind]
  refine (served_outsideEach _ s).mono ?_ fun _ _ h => h
  intro _ s₁ h₁
  rw [after_bind]
  refine (served_writeReferenced s₁).mono ?_ fun _ _ h => ⟨trans_of Outer h₁ h.1, h.2⟩
  intro reference s₂ h₂
  rw [after_bind, recordProject, after_modify]
  have h := trans_of Outer h₁ h₂
  exact ⟨⟨h.contract, h.locals, h.builds, h.repairCalls⟩, rfl⟩

theorem after_repairResult (request : RepairRequest) (inputRef : Reference)
    (answer : RepairAnswer) (reply : RepairReply) (s : RunState) :
    After (repairResult env request inputRef answer reply)
      (fun result s' => Outer s s' ∧ Proposes result s')
      (fun e s' => Outer s s' ∧ Unless env options capabilities (fun _ => False) e) s := by
  cases reply with
  | proposeCandidate candidate =>
      simp only [repairResult]
      rw [after_bind]
      refine (after_storeCandidate candidate s).mono ?_ fun _ _ h => h
      rintro reference s₁ ⟨h₁, hstored⟩
      rw [after_bind]
      refine ((served_writeReferenced s₁).and (calm_writeReferenced s₁)).mono ?_
        fun _ _ h => ⟨trans_of Outer h₁ h.1.1, h.1.2⟩
      rintro decisionRef s₂ ⟨h₂, hcalm⟩
      refine ⟨trans_of Outer h₁ h₂, fun _ => ⟨candidate, reference, rfl, rfl, ?_⟩⟩
      rw [hcalm.traffic]
      exact hstored
  | refuse refusalCode =>
      simp only [repairResult]
      rw [after_bind]
      exact (served_writeReferenced s).mono (fun _ _ h => ⟨h, by rintro ⟨⟩⟩) fun _ _ h => h
  | escalate escalationCode =>
      simp only [repairResult]
      rw [after_bind]
      exact (served_writeReferenced s).mono (fun _ _ h => ⟨h, by rintro ⟨⟩⟩) fun _ _ h => h

theorem after_repairResult_agent (request : RepairRequest) (inputRef : Reference)
    (answer : RepairAnswer) (s : RunState) :
    After (repairResult env request inputRef answer answer.reply)
      (fun result s' => Outer s s' ∧ Proposes result s')
      (fun e s' => Outer s s' ∧ Unless env options capabilities IsRepairError e) s :=
  (after_repairResult request inputRef answer answer.reply s).mono (fun _ _ h => h)
    fun _ _ h => ⟨h.1, fun hsteady => (h.2 hsteady).elim⟩

/-- What an invocation of the repair agent leaves alone. -/
structure Asked (s s' : RunState) : Prop where
  contract : s'.contract = s.contract
  locals : s'.locals = s.locals
  builds : s'.traffic.builds = s.traffic.builds
  repairCalls : s'.traffic.repairCalls ≤ s.traffic.repairCalls + 1

/-- The same of an invocation that reaches the agent. -/
structure Called (s s' : RunState) : Prop extends Asked s s' where
  called : s'.traffic.repairCalls = s.traffic.repairCalls + 1

theorem Outer.asked {s s' : RunState} (h : Outer s s') : Asked s s' :=
  ⟨h.contract, h.locals, h.builds, h.repairCalls.le.trans (Nat.le_succ _)⟩

theorem Called.outer {s s' s'' : RunState} (h : Called s s') (h' : Outer s' s'') :
    Called s s'' where
  contract := h'.contract.trans h.contract
  locals := h'.locals.trans h.locals
  builds := h'.builds.trans h.builds
  repairCalls := h'.repairCalls.le.trans h.repairCalls
  called := h'.repairCalls.trans h.called

theorem Called.from {s s' s'' : RunState} (h' : Called s' s'') (h : Outer s s') :
    Called s s'' where
  contract := h'.contract.trans h.contract
  locals := h'.locals.trans h.locals
  builds := h'.builds.trans h.builds
  repairCalls := by
    rw [← h.repairCalls]
    exact h'.repairCalls
  called := by
    rw [← h.repairCalls]
    exact h'.called

theorem after_recordingDecision {A : Type} (inputRef : Reference) {m : Run A} {s : RunState}
    {post : A → RunState → Prop}
    (hm : After m post
      (fun e s' => Outer s s' ∧ Unless env options capabilities IsRepairError e) s) :
    After (recordingDecision env inputRef m) post
      (fun e s' => Outer s s' ∧ Unless env options capabilities IsRepairError e) s := by
  unfold recordingDecision
  rw [after_tryCatch]
  refine hm.mono (fun _ _ h => h) ?_
  rintro e s₁ ⟨h₁, he⟩
  split
  · rw [after_bind]
    refine (served_writeReferenced s₁).mono ?_
      fun _ _ h => ⟨trans_of Outer h₁ h.1, fun hsteady => (h.2 hsteady).elim⟩
    exact fun _ _ h₂ => ⟨trans_of Outer h₁ h₂, fun _ => ⟨_, _, _, _, rfl⟩⟩
  · exact ⟨h₁, he⟩

theorem after_repairAgentInvoke (options : Options) (capabilities : Capabilities)
    (request : RepairRequest) (s : RunState) :
    After (repairAgentInvoke env request)
      (fun result s' => Called s s' ∧ Proposes result s')
      (fun e s' => Called s s' ∧ Unless env options capabilities IsRepairError e) s := by
  have hcall : Called s { s with
      traffic := { s.traffic with repairCalls := s.traffic.repairCalls + 1 } } :=
    ⟨⟨rfl, rfl, rfl, Nat.le_refl _⟩, rfl⟩
  unfold repairAgentInvoke
  rw [after_bind, after_modify]
  split
  · exact ⟨hcall, by rintro ⟨⟩⟩
  · rw [after_bind]
    refine (agent_of_served served_writeReferenced _).mono ?_
      fun _ _ h => ⟨hcall.outer h.1, h.2⟩
    intro inputRef s₁ h₁
    rw [after_bind]
    refine (agent_recordingDecision inputRef agent_callModelGateway s₁).mono ?_
      fun _ _ h => ⟨(hcall.outer h₁).outer h.1, h.2⟩
    intro answer s₂ h₂
    have h := (hcall.outer h₁).outer h₂
    exact (after_recordingDecision inputRef (after_repairResult_agent request inputRef answer
      s₂)).mono (fun _ _ h₃ => ⟨h.outer h₃.1, h₃.2⟩) fun _ _ h₃ => ⟨h.outer h₃.1, h₃.2⟩

/-- What raises instead of the repair agent answering: one of its own errors,
or the refusal of the request. -/
def Fails (env : Env) (options : Options) (capabilities : Capabilities) (request : RepairRequest)
    (s : RunState) (e : Raised) (s' : RunState) : Prop :=
  Asked s s' ∧ (Steady env options capabilities →
    (requestError options request = none ∧ Called s s' ∧ IsRepairError e) ∨
      (requestError options request ≠ none ∧ ¬ IsRepairError e))

theorem after_invokeRepairAgent (capabilities : Capabilities) (request : RepairRequest)
    (s : RunState) :
    After (invokeRepairAgent env options request)
      (fun result s' => requestError options request = none ∧ Called s s' ∧ Proposes result s')
      (Fails env options capabilities request s) s := by
  unfold invokeRepairAgent
  rw [after_bind]
  refine (served_outside s).mono ?_
    fun _ _ h => ⟨h.1.asked, fun hsteady => (h.2 hsteady).elim⟩
  intro _ s₁ h₁
  rw [after_bind]
  refine (served_requireModelGateway s₁).mono ?_
    fun _ _ h => ⟨(trans_of Outer h₁ h.1).asked, fun hsteady => (h.2 hsteady).elim⟩
  intro _ s₂ h₂
  have h := trans_of Outer h₁ h₂
  split
  · rename_i text hrefused
    refine ⟨h.asked, fun _ => .inr ⟨?_, by rintro ⟨_, _, _, _, ⟨⟩⟩⟩⟩
    rw [hrefused]
    exact Option.some_ne_none text
  · rename_i haccepted
    refine (after_repairAgentInvoke options capabilities request s₂).mono ?_ ?_
    · exact fun _ _ h₃ => ⟨haccepted, h₃.1.from h, h₃.2⟩
    · exact fun _ _ h₃ => ⟨(h₃.1.from h).toAsked,
        fun hsteady => .inl ⟨haccepted, h₃.1.from h, h₃.2 hsteady⟩⟩

end Agent

/-- What moving the state machine leaves alone. -/
structure SameBooks (s s' : RunState) : Prop where
  traffic : s'.traffic = s.traffic
  repairBudget : s'.contract.repairBudget = s.contract.repairBudget
  modelInvocationBudget : s'.contract.modelInvocationBudget = s.contract.modelInvocationBudget
  repairAttempts : s'.contract.repairAttempts = s.contract.repairAttempts
  generatedJavaRef : s'.contract.generatedJavaRef = s.contract.generatedJavaRef
  assistDecision : s'.contract.assistDecision = s.contract.assistDecision

instance : IsPreorder RunState SameBooks where
  refl _ := ⟨rfl, rfl, rfl, rfl, rfl, rfl⟩
  trans _ _ _ h h' :=
    ⟨h'.traffic.trans h.traffic, h'.repairBudget.trans h.repairBudget,
      h'.modelInvocationBudget.trans h.modelInvocationBudget,
      h'.repairAttempts.trans h.repairAttempts, h'.generatedJavaRef.trans h.generatedJavaRef,
      h'.assistDecision.trans h.assistDecision⟩

/-- What writing a record leaves alone. -/
structure Same (s s' : RunState) : Prop extends SameBooks s s' where
  locals : s'.locals = s.locals
  current : s'.contract.stateMachine.current = s.contract.stateMachine.current

instance : IsPreorder RunState Same where
  refl s := ⟨refl_of SameBooks s, rfl, rfl⟩
  trans _ _ _ h h' :=
    ⟨trans_of SameBooks h.toSameBooks h'.toSameBooks, h'.locals.trans h.locals,
      h'.current.trans h.current⟩

/-- The run with its state machine moved. -/
structure MovedTo (target : WorkflowState) (s s' : RunState) : Prop extends SameBooks s s' where
  locals : s'.locals = s.locals
  current : s'.contract.stateMachine.current = target

/-- The run blocked with a failure code. -/
structure BlockedAs (code : Option FailureCode) (s s' : RunState) : Prop
    extends SameBooks s s' where
  locals : ∃ message, s'.locals = { s.locals with
    blocked := true
    failureCode := code
    failureMessage := message }
  current : s'.contract.stateMachine.current = .runBlocked

section Moves

variable {env : Env} {options : Options} {capabilities : Capabilities}

theorem same_of_calm {s s' : RunState} (hcalm : Undisturbed s s') (houter : Outer s s') :
    Same s s' where
  traffic := hcalm.traffic
  repairBudget := hcalm.repairBudget
  modelInvocationBudget := hcalm.modelInvocationBudget
  repairAttempts := hcalm.repairAttempts
  generatedJavaRef := hcalm.generatedJavaRef
  assistDecision := congrArg W02RunContract.assistDecision houter.contract
  locals := hcalm.locals
  current := by rw [houter.contract]

theorem MovedTo.still {target : WorkflowState} {s s' s'' : RunState} (h : MovedTo target s s')
    (h' : Same s' s'') : MovedTo target s s'' :=
  ⟨trans_of SameBooks h.toSameBooks h'.toSameBooks, h'.locals.trans h.locals,
    h'.current.trans h.current⟩

/-- A record is written. -/
abbrev Filing (env : Env) (options : Options) (capabilities : Capabilities) {A : Type}
    (m : Run A) : Prop :=
  WithinExpecting Same (Unless env options capabilities fun _ => False) m

theorem filing_of_served {A : Type} {m : Run A} (hcalm : Calm m)
    (hserved : Served env options capabilities m) : Filing env options capabilities m :=
  fun s => ((hcalm s).and (hserved s)).mono (fun _ _ h => same_of_calm h.1 h.2)
    fun _ _ h => ⟨same_of_calm h.1 h.2.1, h.2.2⟩

theorem filing_outside : Filing env options capabilities (outside env) :=
  filing_of_served calm_outside served_outside

theorem filing_setBuildTestResultRef (payload : Json) :
    Filing env options capabilities (setBuildTestResultRef env options payload) :=
  fun _ => ⟨⟨rfl, rfl, rfl, rfl, rfl, rfl⟩, rfl, rfl⟩

theorem after_advanceW02 (options : Options) (capabilities : Capabilities)
    (target : WorkflowState) (activeStep : Option Text) (message : Text)
    (code : Option FailureCode) (s : RunState) :
    After (advanceW02 env target activeStep message code) (fun _ => MovedTo target s)
      (fun _ _ => Steady env options capabilities →
        target ∉ allowedTransitions s.contract.stateMachine.current) s := by
  unfold advanceW02
  rw [after_bind, after_get, after_bind, after_onContract]
  refine (after_advance target _ code _).mono ?_ fun _ _ h _ => h.1
  rintro _ _ ⟨-, rfl⟩
  rw [after_bind, updateContract, after_modify]
  have hmoved : MovedTo target s
      { s with contract :=
        { setActiveStep activeStep (moved s.contract ⟨target, env.now s.clock,
            boundedDiagnosticMessage message, code⟩) with
          updatedAt := env.now s.clock } } := by
    cases activeStep <;> exact ⟨⟨rfl, rfl, rfl, rfl, rfl, rfl⟩, rfl, rfl⟩
  exact (filing_outside _).mono (fun _ _ h => hmoved.still h) fun _ _ h hsteady =>
    (h.2 hsteady).elim

theorem after_blockRun (options : Options) (capabilities : Capabilities)
    (code : Option FailureCode) (message : Text) (s : RunState) :
    After (blockRun env code message) (fun _ => BlockedAs code s)
      (fun _ _ => Steady env options capabilities →
        .runBlocked ∉ allowedTransitions s.contract.stateMachine.current) s := by
  unfold blockRun
  rw [after_bind, updateLocals, after_modify]
  refine (after_advanceW02 options capabilities .runBlocked none message code _).mono ?_
    fun _ _ h => h
  intro _ s' h
  exact ⟨⟨h.traffic, h.repairBudget, h.modelInvocationBudget, h.repairAttempts,
    h.generatedJavaRef, h.assistDecision⟩, ⟨some message, h.locals⟩, h.current⟩

/-- The run with an attempt recorded. -/
structure Recorded (entry : RepairAttempt) (s s' : RunState) : Prop where
  locals : s'.locals = s.locals
  traffic : s'.traffic = s.traffic
  stateMachine : s'.contract.stateMachine = s.contract.stateMachine
  repairBudget : s'.contract.repairBudget = s.contract.repairBudget
  modelInvocationBudget : s'.contract.modelInvocationBudget = s.contract.modelInvocationBudget
  repairAttempts : s'.contract.repairAttempts = s.contract.repairAttempts ++ [entry]
  generatedJavaRef : s'.contract.generatedJavaRef = s.contract.generatedJavaRef
  assistDecision : s'.contract.assistDecision = s.contract.assistDecision

theorem after_recordAttempt {entry : RepairAttempt} (hnumber : 1 ≤ entry.attemptNumber)
    (s : RunState) :
    After (recordAttempt env entry) (fun _ => Recorded entry s) (fun _ _ => False) s := by
  unfold recordAttempt
  rw [after_bind, after_get, after_onContract]
  unfold recordRepairAttempt
  rw [if_neg (by omega)]
  exact ⟨rfl, rfl, rfl, rfl, rfl, rfl, rfl, rfl⟩

end Moves

section Books

/-- What the run keeps in step: the attempts recorded and the units used, the
calls and the builds made, the candidate recorded and the one built last. -/
structure Books (s : RunState) : Prop where
  attempts : s.contract.repairAttempts.map RepairAttempt.attemptNumber =
    List.range' 1 s.contract.repairBudget.used
  counter : s.locals.repairAttemptCounter = s.contract.repairBudget.used
  calls : s.traffic.repairCalls ≤ s.contract.repairBudget.used
  builds : s.traffic.builds.length ≤ s.contract.repairBudget.used + 1
  recorded : s.contract.generatedJavaRef = s.locals.generatedArtifactRef
  built : ∀ build ∈ s.traffic.builds.head?,
    build.generatedArtifactRef = s.locals.generatedArtifactRef

/-- A run the repair loop has blocked. -/
structure Blocked (s : RunState) : Prop extends Books s where
  blocked : s.locals.blocked = true
  failureCode : s.locals.failureCode.isSome = true
  current : s.contract.stateMachine.current = .runBlocked

/-- A run whose candidate, the one stored last, has been built. -/
structure Standing (s : RunState) : Prop extends Books s where
  unblocked : s.locals.blocked = false
  current : s.contract.stateMachine.current = .buildTestRunning
  stored : s.traffic.projects.head? =
    some ⟨s.locals.generatedArtifactRef, iterGeneratedFiles s.locals.generatedProject⟩
  build : ∃ payload builds,
    s.traffic.builds =
      ⟨s.locals.generatedProject, s.locals.generatedArtifactRef, payload⟩ :: builds ∧
    s.locals.buildTestOutput = some payload ∧
    s.locals.success = (buildTestOutcome payload).isNone ∧
    s.locals.buildFailureCode = buildTestOutcome payload

theorem Books.blocked {code : Option FailureCode} {s s' : RunState} (h : Books s)
    (hcode : code.isSome = true) (h' : BlockedAs code s s') : Blocked s' := by
  obtain ⟨message, hlocals⟩ := h'.locals
  refine ⟨⟨?_, ?_, ?_, ?_, ?_, ?_⟩, ?_, ?_, h'.current⟩
  · rw [h'.repairAttempts, h'.repairBudget]
    exact h.attempts
  · rw [hlocals, h'.repairBudget]
    exact h.counter
  · rw [h'.traffic, h'.repairBudget]
    exact h.calls
  · rw [h'.traffic, h'.repairBudget]
    exact h.builds
  · rw [hlocals, h'.generatedJavaRef]
    exact h.recorded
  · rw [hlocals, h'.traffic]
    exact h.built
  · rw [hlocals]
  · rw [hlocals]
    exact hcode

theorem Standing.failing {s : RunState} (h : Standing s) (hfailed : s.locals.success = false) :
    s.locals.buildFailureCode.isSome = true := by
  obtain ⟨payload, builds, -, -, hsuccess, hcode⟩ := h.build
  rw [hcode, ← Option.not_isNone, ← hsuccess, hfailed]
  rfl

end Books

section Builds

variable {env : Env} {options : Options} {capabilities : Capabilities}

/-- A build of the current candidate. -/
structure BuildMade (payload : Json) (s s' : RunState) : Prop where
  contract : s'.contract = s.contract
  locals : s'.locals = { s.locals with buildTestOutput := some payload }
  builds : s'.traffic.builds =
    ⟨s.locals.generatedProject, s.locals.generatedArtifactRef, payload⟩ :: s.traffic.builds
  projects : s'.traffic.projects = s.traffic.projects
  repairCalls : s'.traffic.repairCalls = s.traffic.repairCalls

theorem after_runBuild (s : RunState) :
    After (runBuild env options capabilities) (fun payload s' => BuildMade payload s s')
      (fun e _ => Unless env options capabilities (fun _ => False) e) s := by
  unfold runBuild
  rw [after_bind, after_get, after_bind]
  refine ((calm_invokeStep (by decide) capabilities.buildTest s).and (served_invokeBuild s)).mono
    ?_ fun _ _ h => h.2.2
  rintro payload s₁ ⟨hcalm, hserved⟩
  have hprojects : s₁.traffic.projects = s.traffic.projects :=
    congrArg Traffic.projects hcalm.traffic
  rw [after_bind, after_modify]
  refine ⟨hserved.contract, ?_, ?_, hprojects, hserved.repairCalls⟩
  · rw [← hserved.locals]
  · dsimp only
    rw [hserved.builds]

/-- The files of a project that was proposed are the candidate's. -/
theorem iterGeneratedFiles_project {members : List (Text × Json)} (candidate : JavaCandidate)
    (hfiles : get (.object members) "files" =
      .object (candidate.files.map fun file => (file.1, .text file.2))) :
    iterGeneratedFiles (.object members) = candidate.files := by
  unfold iterGeneratedFiles
  rw [hfiles, membersOf, List.filterMap_map]
  calc candidate.files.filterMap _ = candidate.files.filterMap some := by
        refine List.filterMap_congr fun file hfile => ?_
        obtain ⟨hnonempty, hrelative, hparts⟩ := candidate.safe file hfile
        simp only [Function.comp_apply, hrelative, hnonempty, hparts, or_self, if_false]
        rfl
    _ = candidate.files := List.filterMap_some

theorem iterGeneratedFiles_repairProject (candidate : JavaCandidate) :
    iterGeneratedFiles (repairProject candidate) = candidate.files :=
  iterGeneratedFiles_project candidate rfl

theorem iterGeneratedFiles_transformationProject (candidate : JavaCandidate) :
    iterGeneratedFiles (transformationProject candidate) = candidate.files :=
  iterGeneratedFiles_project candidate rfl

end Builds

section Turns

variable {env : Env} {options : Options} {capabilities : Capabilities}

/-- An attempt is under way and the repair agent may be asked. -/
structure Started (s s' : RunState) : Prop where
  current : s'.contract.stateMachine.current = .verificationRepairInvoked
  locals : s'.locals = { s.locals with
    repairAttemptCounter := s.locals.repairAttemptCounter + 1 }
  traffic : s'.traffic.builds = s.traffic.builds
  repairCalls : s'.traffic.repairCalls = s.traffic.repairCalls
  limit : s'.contract.repairBudget.limit = s.contract.repairBudget.limit
  used : s'.contract.repairBudget.used = s.contract.repairBudget.used + 1
  repairAttempts : s'.contract.repairAttempts = s.contract.repairAttempts
  generatedJavaRef : s'.contract.generatedJavaRef = s.contract.generatedJavaRef
  assistDecision : s'.contract.assistDecision = s.contract.assistDecision

/-- The attempt has been recorded and nothing followed from it yet. -/
structure Attempted (s s' : RunState) : Prop extends Books s' where
  current : s'.contract.stateMachine.current = .verificationRepairInvoked
  room : s'.traffic.builds.length ≤ s'.contract.repairBudget.used
  unblocked : s'.locals.blocked = false
  failing : s'.locals.buildFailureCode.isSome = true
  limit : s'.contract.repairBudget.limit = s.contract.repairBudget.limit
  used : s'.contract.repairBudget.used = s.contract.repairBudget.used + 1

theorem Started.attempted {s s₁ s₂ s₃ : RunState} {entry : RepairAttempt} (hs : Standing s)
    (hfailed : s.locals.success = false) (h₁ : Started s s₁) (h₂ : Asked s₁ s₂)
    (h₃ : Recorded entry s₂ s₃)
    (hentry : entry.attemptNumber = s₂.locals.repairAttemptCounter) : Attempted s s₃ := by
  have hlocals := (h₃.locals.trans h₂.locals).trans h₁.locals
  have hbuilds : s₃.traffic.builds = s.traffic.builds := by
    rw [h₃.traffic, h₂.builds, h₁.traffic]
  have hused : s₃.contract.repairBudget.used = s.contract.repairBudget.used + 1 := by
    rw [h₃.repairBudget, h₂.contract, h₁.used]
  refine ⟨⟨?_, ?_, ?_, ?_, ?_, ?_⟩, ?_, ?_, ?_, ?_, ?_, hused⟩
  · rw [h₃.repairAttempts, h₂.contract, h₁.repairAttempts, hused, List.map_append, hs.attempts,
      List.range'_1_concat, List.map_singleton, hentry, h₂.locals, h₁.locals, hs.counter,
      Nat.add_comm 1]
  · rw [hlocals, hused, hs.counter]
  · have hcalls := h₂.repairCalls
    have := hs.calls
    rw [h₁.repairCalls] at hcalls
    rw [h₃.traffic, hused]
    omega
  · rw [hbuilds, hused]
    exact hs.builds.trans (Nat.le_succ _)
  · rw [h₃.generatedJavaRef, h₂.contract, h₁.generatedJavaRef, hlocals]
    exact hs.recorded
  · rw [hbuilds, hlocals]
    exact hs.built
  · rw [h₃.stateMachine, h₂.contract, h₁.current]
  · rw [hbuilds, hused]
    exact hs.builds
  · rw [hlocals]
    exact hs.unblocked
  · rw [hlocals]
    exact hs.failing hfailed
  · rw [h₃.repairBudget, h₂.contract, h₁.limit]

/-- What follows from an attempt changes neither budget and asks nobody. -/
structure Unpaid (s s' : RunState) : Prop where
  repairBudget : s'.contract.repairBudget = s.contract.repairBudget
  modelInvocationBudget : s'.contract.modelInvocationBudget = s.contract.modelInvocationBudget
  assistDecision : s'.contract.assistDecision = s.contract.assistDecision
  repairCalls : s'.traffic.repairCalls = s.traffic.repairCalls

theorem SameBooks.unpaid {s s' : RunState} (h : SameBooks s s') : Unpaid s s' :=
  ⟨h.repairBudget, h.modelInvocationBudget, h.assistDecision,
    congrArg Traffic.repairCalls h.traffic⟩

/-- The loop goes on with a built candidate or ends with a blocked run. -/
def Follows (s : RunState) (again : Bool) (s' : RunState) : Prop :=
  Unpaid s s' ∧ (again = true ∧ Standing s' ∨ again = false ∧ Blocked s')

/-- The run with its candidate built and the build classified. -/
structure Judged (payload : Json) (s s' : RunState) : Prop where
  repairBudget : s'.contract.repairBudget = s.contract.repairBudget
  modelInvocationBudget : s'.contract.modelInvocationBudget = s.contract.modelInvocationBudget
  repairAttempts : s'.contract.repairAttempts = s.contract.repairAttempts
  generatedJavaRef : s'.contract.generatedJavaRef = s.contract.generatedJavaRef
  assistDecision : s'.contract.assistDecision = s.contract.assistDecision
  current : s'.contract.stateMachine.current = s.contract.stateMachine.current
  locals : s'.locals = { s.locals with
    buildTestOutput := some payload
    success := (buildTestOutcome payload).isNone
    buildFailureCode := buildTestOutcome payload }
  builds : s'.traffic.builds =
    ⟨s.locals.generatedProject, s.locals.generatedArtifactRef, payload⟩ :: s.traffic.builds
  projects : s'.traffic.projects = s.traffic.projects
  repairCalls : s'.traffic.repairCalls = s.traffic.repairCalls

/-- The records written between a build and its classification. -/
theorem after_classifyBuild {payload : Json} {s s₁ s₂ : RunState} (h : BuildMade payload s s₁)
    (h' : Same s₁ s₂) :
    After (classifyBuild payload) (fun _ => Judged payload s) (fun _ _ => False) s₂ := by
  rw [classifyBuild, updateLocals, after_modify]
  refine ⟨?_, ?_, ?_, ?_, ?_, ?_, ?_, ?_, ?_, ?_⟩
  · exact h'.repairBudget.trans (congrArg W02RunContract.repairBudget h.contract)
  · exact h'.modelInvocationBudget.trans
      (congrArg W02RunContract.modelInvocationBudget h.contract)
  · exact h'.repairAttempts.trans (congrArg W02RunContract.repairAttempts h.contract)
  · exact h'.generatedJavaRef.trans (congrArg W02RunContract.generatedJavaRef h.contract)
  · exact h'.assistDecision.trans (congrArg W02RunContract.assistDecision h.contract)
  · rw [← h.contract]
    exact h'.current
  · dsimp only
    rw [h'.locals, h.locals]
  · exact (congrArg Traffic.builds h'.traffic).trans h.builds
  · exact (congrArg Traffic.projects h'.traffic).trans h.projects
  · exact (congrArg Traffic.repairCalls h'.traffic).trans h.repairCalls

/-- A run whose candidate, the one stored last, is to be built. -/
structure Buildable (s : RunState) : Prop where
  attempts : s.contract.repairAttempts.map RepairAttempt.attemptNumber =
    List.range' 1 s.contract.repairBudget.used
  counter : s.locals.repairAttemptCounter = s.contract.repairBudget.used
  calls : s.traffic.repairCalls ≤ s.contract.repairBudget.used
  room : s.traffic.builds.length ≤ s.contract.repairBudget.used
  recorded : s.contract.generatedJavaRef = s.locals.generatedArtifactRef
  unblocked : s.locals.blocked = false
  stored : s.traffic.projects.head? =
    some ⟨s.locals.generatedArtifactRef, iterGeneratedFiles s.locals.generatedProject⟩

theorem Buildable.moved {target : WorkflowState} {s s' : RunState} (h : Buildable s)
    (h' : MovedTo target s s') : Buildable s' := by
  refine ⟨?_, ?_, ?_, ?_, ?_, ?_, ?_⟩
  · rw [h'.repairAttempts, h'.repairBudget]
    exact h.attempts
  · rw [h'.locals, h'.repairBudget]
    exact h.counter
  · rw [h'.traffic, h'.repairBudget]
    exact h.calls
  · rw [h'.traffic, h'.repairBudget]
    exact h.room
  · rw [h'.generatedJavaRef, h'.locals]
    exact h.recorded
  · rw [h'.locals]
    exact h.unblocked
  · rw [h'.traffic, h'.locals]
    exact h.stored

theorem Buildable.standing {payload : Json} {s s' : RunState} (h : Buildable s)
    (hcurrent : s.contract.stateMachine.current = .buildTestRunning) (h' : Judged payload s s') :
    Standing s' := by
  refine ⟨⟨?_, ?_, ?_, ?_, ?_, ?_⟩, ?_, ?_, ?_, ⟨payload, s.traffic.builds, ?_, ?_, ?_, ?_⟩⟩
  · rw [h'.repairAttempts, h'.repairBudget]
    exact h.attempts
  · rw [h'.locals, h'.repairBudget]
    exact h.counter
  · rw [h'.repairCalls, h'.repairBudget]
    exact h.calls
  · rw [h'.builds, h'.repairBudget, List.length_cons]
    exact Nat.succ_le_succ h.room
  · rw [h'.generatedJavaRef, h'.locals]
    exact h.recorded
  · rw [h'.builds, h'.locals]
    rintro build ⟨⟩
    rfl
  · rw [h'.locals]
    exact h.unblocked
  · rw [h'.current]
    exact hcurrent
  · rw [h'.projects, h'.locals]
    exact h.stored
  · rw [h'.builds, h'.locals]
  · rw [h'.locals]
  · rw [h'.locals]
  · rw [h'.locals]

/-- The run with the candidate of the repair agent in place. -/
theorem after_rebuild {attempt : Nat} {candidate : JavaCandidate} {reference : Reference}
    {s₀ s : RunState} (h : Attempted s₀ s)
    (hstored : s.traffic.projects.head? = some ⟨some reference, candidate.files⟩) :
    After (rebuild env options capabilities attempt candidate reference) (Follows s)
      (fun e _ => Unless env options capabilities (fun _ => False) e) s := by
  unfold rebuild
  rw [after_bind, updateContract, after_modify, after_bind, updateLocals, after_modify, after_bind]
  refine (after_advanceW02 options capabilities _ _ _ _ _).mono ?_ ?_
  · intro _ s₁ h₁
    rw [after_bind]
    refine (after_advanceW02 options capabilities _ _ _ _ s₁).mono ?_ ?_
    · intro _ s₂ h₂
      rw [after_bind]
      refine (after_runBuild s₂).mono ?_ fun _ _ he => he
      intro payload s₃ h₃
      rw [after_bind]
      refine (filing_setBuildTestResultRef payload s₃).mono ?_ fun _ _ he => he.2
      intro _ s₄ h₄
      rw [after_bind]
      refine (filing_outside s₄).mono ?_ fun _ _ he => he.2
      intro _ s₅ h₅
      rw [after_bind]
      refine (filing_outside s₅).mono ?_ fun _ _ he => he.2
      intro _ s₆ h₆
      rw [after_bind]
      refine (after_classifyBuild h₃ (trans_of Same h₄ (trans_of Same h₅ h₆))).mono ?_
        fun _ _ he => he.elim
      intro _ s₇ h₇
      have hbuildable : Buildable s₂ := by
        refine Buildable.moved (Buildable.moved ?_ h₁) h₂
        refine ⟨h.attempts, h.counter, h.calls, h.room, rfl, h.unblocked, ?_⟩
        dsimp only
        rw [iterGeneratedFiles_repairProject]
        exact hstored
      refine ⟨⟨?_, ?_, ?_, ?_⟩, .inl ⟨rfl, hbuildable.standing h₂.current h₇⟩⟩
      · exact h₇.repairBudget.trans (h₂.repairBudget.trans h₁.repairBudget)
      · exact h₇.modelInvocationBudget.trans
          (h₂.modelInvocationBudget.trans h₁.modelInvocationBudget)
      · exact h₇.assistDecision.trans (h₂.assistDecision.trans h₁.assistDecision)
      · rw [h₇.repairCalls, h₂.traffic, h₁.traffic]
    · intro _ _ hillegal hsteady
      refine hillegal hsteady ?_
      rw [h₁.current]
      decide
  · intro _ _ hillegal hsteady
    refine hillegal hsteady ?_
    dsimp only
    rw [h.current]
    decide

theorem after_blockAttempt {code : Option FailureCode} (hcode : code.isSome = true)
    (message : Text) {s₀ s : RunState} (h : Attempted s₀ s) :
    After (do blockRun env code message; pure false) (Follows s)
      (fun e _ => Unless env options capabilities (fun _ => False) e) s := by
  rw [after_bind]
  refine (after_blockRun options capabilities code message s).mono ?_ ?_
  · exact fun _ _ h₁ => ⟨h₁.unpaid, .inr ⟨rfl, h.toBooks.blocked hcode h₁⟩⟩
  · intro _ _ hillegal hsteady
    refine hillegal hsteady ?_
    rw [h.current]
    decide

theorem after_followDecision {result : RepairResult} {attempt : Nat} {s₀ s : RunState}
    (h : Attempted s₀ s) (hproposes : Proposes result s) :
    After (followDecision env options capabilities attempt result) (Follows s)
      (fun e _ => Unless env options capabilities (fun _ => False) e) s := by
  unfold followDecision
  split
  · exact after_blockAttempt rfl _ h
  · exact after_blockAttempt rfl _ h
  · exact after_blockAttempt rfl _ h
  · rename_i hdecision
    obtain ⟨candidate, reference, hcandidate, hreference, hstored⟩ := hproposes hdecision
    rw [hcandidate, hreference]
    exact after_rebuild h hstored

/-- A turn of the repair loop. -/
structure TurnTaken (s : RunState) (again : Bool) (s' : RunState) : Prop where
  limit : s'.contract.repairBudget.limit = s.contract.repairBudget.limit
  outcome : again = true ∧ Standing s' ∧
      s'.contract.repairBudget.used = s.contract.repairBudget.used + 1 ∨
    again = false ∧ Blocked s'

theorem Follows.turnTaken {s s₁ s' : RunState} {again : Bool} (h : Attempted s s₁)
    (h' : Follows s₁ again s') : TurnTaken s again s' := by
  obtain ⟨hunpaid, houtcome⟩ := h'
  refine ⟨?_, houtcome.imp_left fun hagain => ⟨hagain.1, hagain.2, ?_⟩⟩
  · rw [hunpaid.repairBudget]
    exact h.limit
  · rw [hunpaid.repairBudget]
    exact h.used

/-- The units of a manually blocked repair, and of any other. -/
def unitsOf (options : Options) (s : RunState) (calls : Nat) : Nat :=
  if manualBlockPending options s then 0 else calls

/-- A unit has been spent on every call of the agent between the two states,
and on nothing else; none if the repair is blocked by a manual region. -/
structure Charged (options : Options) (s s' : RunState) : Prop where
  assistDecision : s'.contract.assistDecision = s.contract.assistDecision
  units : s'.contract.modelInvocationBudget.used + unitsOf options s s.traffic.repairCalls =
    s.contract.modelInvocationBudget.used + unitsOf options s s'.traffic.repairCalls

theorem unitsOf_congr {s s' : RunState}
    (h : s'.contract.assistDecision = s.contract.assistDecision) (calls : Nat) :
    unitsOf options s' calls = unitsOf options s calls := by
  rw [unitsOf, unitsOf, manualBlockPending, manualBlockPending, h]

theorem Charged.trans {s s' s'' : RunState} (h : Charged options s s')
    (h' : Charged options s' s'') : Charged options s s'' := by
  refine ⟨h'.assistDecision.trans h.assistDecision, ?_⟩
  have hunits := h.units
  have hunits' := h'.units
  rw [unitsOf_congr h.assistDecision, unitsOf_congr h.assistDecision] at hunits'
  omega

theorem charged_of_unpaid {s s' : RunState} (h : Unpaid s s') : Charged options s s' := by
  refine ⟨h.assistDecision, ?_⟩
  rw [h.modelInvocationBudget, h.repairCalls]

/-- The unit of an attempt has been spent, if it needs one. -/
def Paid (options : Options) (s s' : RunState) : Prop :=
  s'.contract.modelInvocationBudget.used =
    s.contract.modelInvocationBudget.used + unitsOf options s 1

theorem charged_of_called {s s₁ s₂ s₃ : RunState} {entry : RepairAttempt} (h₁ : Started s s₁)
    (hpaid : Paid options s s₁) (h₂ : Called s₁ s₂) (h₃ : Recorded entry s₂ s₃) :
    Charged options s s₃ := by
  refine ⟨?_, ?_⟩
  · rw [h₃.assistDecision, h₂.contract, h₁.assistDecision]
  · rw [h₃.modelInvocationBudget, h₂.contract, h₃.traffic, h₂.called, h₁.repairCalls, hpaid]
    unfold unitsOf
    split
    · rfl
    · omega

/-- An attempt that was spent a unit of the repair budget on and not recorded. -/
def Unrecorded (s : RunState) : Prop :=
  s.contract.repairAttempts.length < s.contract.repairBudget.used

theorem Started.unrecorded {s s₁ s₂ : RunState} (hs : Standing s) (h₁ : Started s s₁)
    (h₂ : Asked s₁ s₂) : Unrecorded s₂ := by
  have hlength := congrArg List.length hs.attempts
  rw [List.length_map, List.length_range'] at hlength
  rw [Unrecorded, h₂.contract, h₁.repairAttempts, h₁.used, hlength]
  exact Nat.lt_succ_self _

theorem after_recordRepairError {s s₁ s₂ : RunState} (e : Raised) (hs : Standing s)
    (hfailed : s.locals.success = false) (h₁ : Started s s₁) (h₂ : Asked s₁ s₂) :
    After (recordRepairError env options e)
      (fun again s' => TurnTaken s again s' ∧ ∃ entry s₃, Recorded entry s₂ s₃ ∧ Unpaid s₃ s')
      (fun e _ => Unless env options capabilities (fun _ => False) e) s₂ := by
  have hcounter : s₂.locals.repairAttemptCounter = s.contract.repairBudget.used + 1 := by
    rw [h₂.locals, h₁.locals, hs.counter]
  have hentry : (withErrorRefs (refusedAttempt env options s₂ "no_safe_repair" e.text)
      e).attemptNumber = s₂.locals.repairAttemptCounter := by
    unfold withErrorRefs
    split <;> rfl
  unfold recordRepairError
  rw [after_bind, after_get, after_bind]
  refine (after_recordAttempt (by omega) s₂).mono ?_ fun _ _ h => h.elim
  intro _ s₃ h₃
  have hattempted := h₁.attempted hs hfailed h₂ h₃ hentry
  exact (after_blockAttempt rfl _ hattempted).mono
    (fun _ _ h => ⟨h.turnTaken hattempted, _, s₃, h₃, h.1⟩) fun _ _ h => h

theorem after_recordRepairResult {s s₁ s₂ : RunState} {result : RepairResult} (hs : Standing s)
    (hfailed : s.locals.success = false) (h₁ : Started s s₁) (h₂ : Called s₁ s₂)
    (hproposes : Proposes result s₂) :
    After (recordRepairResult env options capabilities result)
      (fun again s' => TurnTaken s again s' ∧ ∃ entry s₃, Recorded entry s₂ s₃ ∧ Unpaid s₃ s')
      (fun e _ => Unless env options capabilities (fun _ => False) e) s₂ := by
  have hcounter : s₂.locals.repairAttemptCounter = s.contract.repairBudget.used + 1 := by
    rw [h₂.locals, h₁.locals, hs.counter]
  have hnumber : 1 ≤ (answeredAttempt env options s₂ result).attemptNumber :=
    (Nat.le_add_left 1 _).trans_eq hcounter.symm
  unfold recordRepairResult
  rw [after_bind, after_get, after_bind]
  refine (after_recordAttempt hnumber s₂).mono ?_ fun _ _ h => h.elim
  intro _ s₃ h₃
  have hattempted := h₁.attempted hs hfailed h₂.toAsked h₃ rfl
  have hproposes₃ : Proposes result s₃ := by
    intro hdecision
    rw [h₃.traffic]
    exact hproposes hdecision
  exact (after_followDecision hattempted hproposes₃).mono
    (fun _ _ h => ⟨h.turnTaken hattempted, _, s₃, h₃, h.1⟩) fun _ _ h => h

theorem after_askForRepair {s s₁ : RunState} (hs : Standing s)
    (hfailed : s.locals.success = false) (h₁ : Started s s₁) (hpaid : Paid options s s₁) :
    After (askForRepair env options capabilities)
      (fun again s' => TurnTaken s again s' ∧ (Steady env options capabilities →
        Charged options s s' ∧ requestError options (repairRequest env options s₁) = none))
      (fun _ s' => Steady env options capabilities →
        requestError options (repairRequest env options s₁) ≠ none ∧ Unrecorded s') s₁ := by
  unfold askForRepair catchingRepairError
  rw [after_bind, after_get, after_bind, after_tryCatch, after_map]
  refine (after_invokeRepairAgent capabilities (repairRequest env options s₁) s₁).mono ?_ ?_
  · rintro result s₂ ⟨haccepted, h₂, hproposes⟩
    refine (after_recordRepairResult hs hfailed h₁ h₂ hproposes).mono ?_
      fun _ _ he hsteady => (he hsteady).elim
    rintro again s' ⟨hturn, entry, s₃, h₃, hunpaid⟩
    exact ⟨hturn, fun _ => ⟨(charged_of_called h₁ hpaid h₂ h₃).trans (charged_of_unpaid hunpaid),
      haccepted⟩⟩
  · rintro e s₂ ⟨h₂, hfails⟩
    split
    · rename_i kind _ _ _ hkind
      refine (after_recordRepairError e hs hfailed h₁ h₂).mono ?_
        fun _ _ he hsteady => (he hsteady).elim
      rintro again s' ⟨hturn, entry, s₃, h₃, hunpaid⟩
      refine ⟨hturn, fun hsteady => ?_⟩
      obtain ⟨haccepted, hcalled, -⟩ | ⟨-, hother⟩ := hfails hsteady
      · exact ⟨(charged_of_called h₁ hpaid hcalled h₃).trans (charged_of_unpaid hunpaid),
          haccepted⟩
      · exact absurd ⟨_, _, _, _, hkind⟩ hother
    · rename_i hkind
      intro hsteady
      obtain ⟨-, -, _, _, _, _, hrepair⟩ | ⟨hrefused, -⟩ := hfails hsteady
      · exact absurd hrepair (hkind _ _ _ _)
      · exact ⟨hrefused, h₁.unrecorded hs h₂⟩

/-- The request the agent gets in the next turn. -/
def nextRequest (env : Env) (options : Options) (s : RunState) : RepairRequest :=
  { repairRequest env options s with attemptNumber := s.locals.repairAttemptCounter + 1 }

/-- Whether the next turn asks the agent: both budgets have a unit left, or
the repair is blocked by a manual region, and there are files to repair. -/
def AsksAgent (options : Options) (s : RunState) : Prop :=
  s.contract.repairBudget.exhausted = false ∧
    iterGeneratedFiles s.locals.generatedProject ≠ [] ∧
    (manualBlockPending options s = true ∨ s.contract.modelInvocationBudget.consume ≠ none)

/-- A turn that asks the agent gives it a request the agent takes. -/
def Acceptable (env : Env) (options : Options) (s : RunState) : Prop :=
  AsksAgent options s → requestError options (nextRequest env options s) = none

theorem Started.request {s s₁ : RunState} (h : Started s s₁) :
    repairRequest env options s₁ = nextRequest env options s := by
  simp only [repairRequest, nextRequest, h.locals, h.assistDecision]

/-- What a turn of the loop leads to: an attempt recorded and charged, or an
exception that only a request the agent does not take raises. -/
abbrev Turning (env : Env) (options : Options) (capabilities : Capabilities) (s₀ : RunState)
    (m : Run Bool) (s : RunState) : Prop :=
  After m
    (fun again s' => TurnTaken s₀ again s' ∧ (Steady env options capabilities →
      Charged options s₀ s' ∧ Acceptable env options s₀))
    (fun _ s' => Steady env options capabilities →
      ¬ Acceptable env options s₀ ∧ Unrecorded s') s

theorem turning_block {s : RunState} (hs : Standing s) (hfailed : s.locals.success = false)
    (hasks : ¬ AsksAgent options s) (message : Text) :
    Turning env options capabilities s
      (do blockRun env s.locals.buildFailureCode message; pure false) s := by
  unfold Turning
  rw [after_bind]
  refine (after_blockRun options capabilities _ message s).mono ?_ ?_
  · intro _ s' h
    refine ⟨⟨?_, .inr ⟨rfl, hs.toBooks.blocked (hs.failing hfailed) h⟩⟩, fun _ =>
      ⟨charged_of_unpaid h.unpaid, fun h => absurd h hasks⟩⟩
    rw [h.repairBudget]
  · intro _ _ hillegal hsteady
    refine absurd ?_ (hillegal hsteady)
    rw [hs.current]
    decide

theorem turning_blockExhausted {s : RunState} (hs : Standing s)
    (hfailed : s.locals.success = false) (hasks : ¬ AsksAgent options s) :
    Turning env options capabilities s (blockExhausted env) s := by
  unfold blockExhausted Turning
  rw [after_bind, after_get]
  exact turning_block hs hfailed hasks _

/-- The repair is refused without the agent: no model unit is left. -/
theorem turning_refuseForBudget {s s₁ : RunState} (hs : Standing s)
    (hfailed : s.locals.success = false) (hasks : ¬ AsksAgent options s) (h₁ : Started s s₁)
    (hbudget : s₁.contract.modelInvocationBudget = s.contract.modelInvocationBudget) :
    Turning env options capabilities s (refuseForBudget env options) s₁ := by
  have hcounter : s₁.locals.repairAttemptCounter = s.contract.repairBudget.used + 1 := by
    rw [h₁.locals, hs.counter]
  have hfailing : s₁.locals.buildFailureCode.isSome = true := by
    rw [h₁.locals]
    exact hs.failing hfailed
  unfold Turning refuseForBudget
  rw [after_bind, after_get, after_bind]
  refine (after_recordAttempt ((Nat.le_add_left 1 _).trans_eq hcounter.symm) s₁).mono ?_
    fun _ _ h => h.elim
  intro _ s₂ h₂
  have hattempted := h₁.attempted hs hfailed (refl_of Outer s₁).asked h₂ rfl
  refine (after_blockAttempt hfailing _ hattempted).mono ?_ fun _ _ he hsteady => (he hsteady).elim
  intro again s' h
  have hcharged : Charged options s s₂ := by
    refine ⟨h₂.assistDecision.trans h₁.assistDecision, ?_⟩
    rw [h₂.modelInvocationBudget, hbudget, h₂.traffic, h₁.repairCalls]
  exact ⟨h.turnTaken hattempted, fun _ =>
    ⟨hcharged.trans (charged_of_unpaid h.1), fun h => absurd h hasks⟩⟩

theorem turning_askForRepair {s s₁ : RunState} (hs : Standing s)
    (hfailed : s.locals.success = false) (hasks : AsksAgent options s) (h₁ : Started s s₁)
    (hpaid : Paid options s s₁) :
    Turning env options capabilities s (askForRepair env options capabilities) s₁ := by
  refine (after_askForRepair hs hfailed h₁ hpaid).mono ?_ ?_
  · intro again s' h
    refine ⟨h.1, fun hsteady => ⟨(h.2 hsteady).1, fun _ => ?_⟩⟩
    rw [← h₁.request]
    exact (h.2 hsteady).2
  · intro _ s' h hsteady
    refine ⟨fun hacceptable => (h hsteady).1 ?_, (h hsteady).2⟩
    rw [h₁.request]
    exact hacceptable hasks

theorem Started.spent {s s₁ : RunState} {budget : Budget} {steps : List GatewayStep}
    (h : Started s s₁) :
    Started s { s₁ with
      contract := { s₁.contract with modelInvocationBudget := budget }
      traffic := { s₁.traffic with gatewaySteps := steps } } :=
  ⟨h.current, h.locals, h.traffic, h.repairCalls, h.limit, h.used, h.repairAttempts,
    h.generatedJavaRef, h.assistDecision⟩

/-- The unit is spent and the agent asked, or no unit is left. -/
theorem turning_spendForRepair {s s₁ : RunState} (hs : Standing s)
    (hfailed : s.locals.success = false)
    (hroom : s.contract.repairBudget.exhausted = false)
    (hfiles : iterGeneratedFiles s.locals.generatedProject ≠ []) (h₁ : Started s s₁)
    (hbudget : s₁.contract.modelInvocationBudget = s.contract.modelInvocationBudget) :
    Turning env options capabilities s (do
      let spent ← spendForRepair options
      if spent then askForRepair env options capabilities else refuseForBudget env options) s₁ := by
  have hmanual : manualBlockPending options s₁ = manualBlockPending options s := by
    rw [manualBlockPending, manualBlockPending, h₁.assistDecision]
  unfold Turning spendForRepair
  rw [after_bind, after_bind, after_get, hmanual]
  split
  · rename_i hblock
    refine turning_askForRepair hs hfailed ⟨hroom, hfiles, .inl hblock⟩ h₁ ?_
    rw [Paid, hbudget, unitsOf, if_pos hblock, Nat.add_zero]
  · rename_i hblock
    unfold spendModelUnit
    rw [after_bind, after_get, hbudget]
    split
    · rename_i hconsume
      have hasks : ¬ AsksAgent options s := by
        rintro ⟨-, -, hmay | hmay⟩
        · exact hblock hmay
        · exact hmay hconsume
      exact turning_refuseForBudget hs hfailed hasks h₁ hbudget
    · rename_i budget hconsume
      have hasks : AsksAgent options s := by
        refine ⟨hroom, hfiles, .inr ?_⟩
        rw [hconsume]
        exact Option.some_ne_none budget
      refine turning_askForRepair hs hfailed hasks h₁.spent ?_
      unfold Budget.consume at hconsume
      split at hconsume
      · obtain rfl := Option.some.inj hconsume
        rw [Paid, unitsOf, if_neg hblock]
      · contradiction

theorem turning_repairTurn {s : RunState} (hs : Standing s)
    (hfailed : s.locals.success = false) :
    Turning env options capabilities s (repairTurn env options capabilities) s := by
  unfold Turning repairTurn
  rw [after_bind, after_get]
  split
  · rename_i hexhausted
    refine turning_blockExhausted hs hfailed ?_
    rintro ⟨hroom, -⟩
    rw [hexhausted] at hroom
    contradiction
  · rename_i hroom
    rw [Bool.not_eq_true] at hroom
    split
    · rename_i hnone
      exact turning_block hs hfailed (fun hasks => hasks.2.1 hnone) _
    · rename_i hfiles
      unfold startAttempt
      rw [after_bind, after_get, after_bind]
      refine (after_advanceW02 options capabilities _ _ _ _ s).mono ?_ ?_
      · intro _ s₁ h₁
        rw [after_bind, after_get, h₁.repairBudget]
        have hleft : s.contract.repairBudget.used < s.contract.repairBudget.limit := by
          simpa [Budget.exhausted] using hroom
        rw [Budget.consume, dif_pos hleft]
        dsimp only
        rw [after_bind, after_modify, attemptRepair, after_bind, updateLocals, after_modify,
          after_bind, recordAgentAttempt, updateContract, after_modify]
        refine turning_spendForRepair hs hfailed hroom hfiles ⟨h₁.current, ?_, ?_, ?_, rfl, rfl,
          h₁.repairAttempts, h₁.generatedJavaRef, h₁.assistDecision⟩ h₁.modelInvocationBudget
        · dsimp only
          rw [h₁.locals]
        · exact congrArg Traffic.builds h₁.traffic
        · exact congrArg Traffic.repairCalls h₁.traffic
      · intro _ _ hillegal hsteady
        refine absurd ?_ (hillegal hsteady)
        rw [hs.current]
        decide

end Turns

end C2c.Orchestrator.RepairTurns
