import C2c.Orchestrator.RunFrames

namespace C2c.Orchestrator.RunAccounts

open C2c.Library.JavaText
open C2c.Library.PythonJson
open C2c.Library.Raising
open C2c.Orchestrator.RunContract
open C2c.Orchestrator.StepReplies
open C2c.Orchestrator.RunErrors
open C2c.Orchestrator.RunSteps
open C2c.Orchestrator.RunAgents
open C2c.Orchestrator.WorkflowRun
open C2c.Orchestrator.RunFrames

/-- Every call is an agent's, made with the unit spent right before it, and
every unit is spent on such a call; the newest step is the first. -/
inductive Paired : List GatewayStep → Prop
  | nil : Paired []
  | pair {steps : List GatewayStep} (h : Paired steps) :
      Paired (.agentCall :: .unitSpent :: steps)

/-- The newest unit may have been spent without a call. -/
inductive Spent : List GatewayStep → Prop
  | paired {steps : List GatewayStep} (h : Paired steps) : Spent steps
  | uncalled {steps : List GatewayStep} (h : Paired steps) : Spent (.unitSpent :: steps)

theorem Paired.append {steps steps' : List GatewayStep} (h : Paired steps)
    (h' : Paired steps') : Paired (steps ++ steps') := by
  induction h with
  | nil => exact h'
  | pair h ih => exact .pair ih

theorem Spent.append {steps steps' : List GatewayStep} (h : Spent steps) (h' : Paired steps') :
    Spent (steps ++ steps') := by
  cases h with
  | paired h => exact .paired (h.append h')
  | uncalled h => exact .uncalled (h.append h')

/-- A computation that took the given steps and did not finalise the run. -/
structure Traded (steps : List GatewayStep) (s s' : RunState) : Prop where
  unfinished : s.contract.stateMachine.current ≠ .finalClassification →
    s'.contract.stateMachine.current ≠ .finalClassification
  gatewaySteps : s'.traffic.gatewaySteps = steps ++ s.traffic.gatewaySteps
  limit : s'.contract.modelInvocationBudget.limit = s.contract.modelInvocationBudget.limit
  used : s'.contract.modelInvocationBudget.used =
    s.contract.modelInvocationBudget.used + steps.count .unitSpent
  finalClassification : s'.contract.finalClassification = s.contract.finalClassification

section Trades

variable {s s' s'' : RunState} {steps steps' : List GatewayStep}

theorem traded_nil (h : Untraded s s') : Traded [] s s' :=
  ⟨h.unfinished, h.gatewaySteps, congrArg Budget.limit h.modelInvocationBudget,
    congrArg Budget.used h.modelInvocationBudget, h.finalClassification⟩

theorem Traded.trans (h : Traded steps s s') (h' : Traded steps' s' s'') :
    Traded (steps' ++ steps) s s'' where
  unfinished := h'.unfinished ∘ h.unfinished
  gatewaySteps := by rw [h'.gatewaySteps, h.gatewaySteps, List.append_assoc]
  limit := h'.limit.trans h.limit
  used := by
    rw [h'.used, h.used, List.count_append]
    omega
  finalClassification := h'.finalClassification.trans h.finalClassification

theorem Traded.idle (h : Traded steps s s') (h' : Untraded s' s'') : Traded steps s s'' :=
  h.trans (traded_nil h')

theorem Traded.from (h' : Traded steps s' s'') (h : Untraded s s') : Traded steps s s'' := by
  have htraded := (traded_nil h).trans h'
  rwa [List.append_nil] at htraded

/-- Every unit spent on the way was spent on a call. -/
def Settles (s s' : RunState) : Prop :=
  ∃ steps, Paired steps ∧ Traded steps s s'

/-- All but the last unit spent on the way were. -/
def Spends (s s' : RunState) : Prop :=
  ∃ steps, Spent steps ∧ Traded steps s s'

theorem settles_of_untraded (h : Untraded s s') : Settles s s' :=
  ⟨[], .nil, traded_nil h⟩

theorem Settles.spends (h : Settles s s') : Spends s s' := by
  obtain ⟨steps, hpaired, htraded⟩ := h
  exact ⟨steps, .paired hpaired, htraded⟩

theorem Settles.trans (h : Settles s s') (h' : Settles s' s'') : Settles s s'' := by
  obtain ⟨steps, hpaired, htraded⟩ := h
  obtain ⟨steps', hpaired', htraded'⟩ := h'
  exact ⟨steps' ++ steps, hpaired'.append hpaired, htraded.trans htraded'⟩

theorem Settles.then (h : Settles s s') (h' : Spends s' s'') : Spends s s'' := by
  obtain ⟨steps, hpaired, htraded⟩ := h
  obtain ⟨steps', hspent, htraded'⟩ := h'
  exact ⟨steps' ++ steps, hspent.append hpaired, htraded.trans htraded'⟩

theorem Spends.idle (h : Spends s s') (h' : Untraded s' s'') : Spends s s'' := by
  obtain ⟨steps, hspent, htraded⟩ := h
  exact ⟨steps, hspent, htraded.idle h'⟩

/-- What a computation of an agent may do before it raises. -/
def Asks (s s' : RunState) : Prop :=
  Untraded s s' ∨ Traded [.agentCall] s s'

theorem Asks.idle (h : Asks s s') (h' : Untraded s' s'') : Asks s s'' := by
  obtain h | h := h
  · exact .inl (trans_of Untraded h h')
  · exact .inr (h.idle h')

theorem Asks.from (h' : Asks s' s'') (h : Untraded s s') : Asks s s'' := by
  obtain h' | h' := h'
  · exact .inl (trans_of Untraded h h')
  · exact .inr (h'.from h)

/-- A unit spent and then, perhaps, the call it was spent on. -/
theorem spends_of_asks (h : Traded [.unitSpent] s s') (h' : Asks s' s'') : Spends s s'' := by
  obtain h' | h' := h'
  · exact ⟨_, .uncalled .nil, h.idle h'⟩
  · exact ⟨_, .paired (.pair .nil), h.trans h'⟩

end Trades

section Agents

variable {env : Env} {options : Options} {A B : Type}

/-- The computation does nothing but raise in the end. -/
def Throwing (m : Run A) : Prop :=
  ∀ s, After m (fun _ _ => False) (fun _ => Untraded s) s

theorem throwing_throw (e : Raised) : Throwing (throw e : Run A) :=
  fun s => refl_of Untraded s

theorem throwing_bind {m : Run A} {f : A → Run B} (hm : Idle m) (hf : ∀ a, Throwing (f a)) :
    Throwing (m >>= f) := by
  intro s
  rw [after_bind]
  refine (hm s).mono ?_ fun _ _ h => h
  intro a s₁ h₁
  exact (hf a s₁).mono (fun _ _ h => h) fun _ _ h₂ => trans_of Untraded h₁ h₂

/-- The computation calls the gateway once for an agent. -/
def Asking (m : Run A) : Prop :=
  ∀ s, After m (fun _ => Traded [.agentCall] s) (fun _ => Asks s) s

theorem asking_of_idle_bind {m : Run A} {f : A → Run B} (hm : Idle m) (hf : ∀ a, Asking (f a)) :
    Asking (m >>= f) := by
  intro s
  rw [after_bind]
  refine (hm s).mono ?_ fun _ _ h => .inl h
  intro a s₁ h₁
  exact (hf a s₁).mono (fun _ _ h₂ => h₂.from h₁) fun _ _ h₂ => h₂.from h₁

theorem asking_bind {m : Run A} {f : A → Run B} (hm : Asking m) (hf : ∀ a, Idle (f a)) :
    Asking (m >>= f) := by
  intro s
  rw [after_bind]
  refine (hm s).mono ?_ fun _ _ h => h
  intro a s₁ h₁
  exact (hf a s₁).mono (fun _ _ h₂ => h₁.idle h₂) fun _ _ h₂ => .inr (h₁.idle h₂)

theorem asking_tryCatch {m : Run A} {handle : Raised → Run A} (hm : Asking m)
    (hhandle : ∀ e, Throwing (handle e)) : Asking (tryCatch m handle) := by
  intro s
  rw [after_tryCatch]
  refine (hm s).mono (fun _ _ h => h) ?_
  intro e s₁ h₁
  exact (hhandle e s₁).mono (fun _ _ h₂ => h₂.elim) fun _ _ h₂ => h₁.idle h₂

theorem asking_agentCall : Asking (noteGatewayStep (some .agentCall)) :=
  fun _ => ⟨id, rfl, rfl, rfl, rfl⟩

theorem asking_callModelGateway (answer : Nat → Except Raised A) :
    Asking (callModelGateway env answer) :=
  asking_of_idle_bind idle_outside fun _ => asking_bind asking_agentCall fun _ =>
    within_bind (idle_of_calm calm_tick) fun t => within_returning (answer t)

theorem asking_transformationAgentInvoke : Asking (transformationAgentInvoke env) := by
  refine asking_of_idle_bind idle_outside fun _ =>
    asking_bind (asking_tryCatch (asking_callModelGateway _) fun e => ?_)
      fun reply => idle_transformationResult reply
  split
  · exact throwing_bind idle_outside fun _ => throwing_bind idle_outside fun _ => throwing_throw e
  · exact throwing_throw e

theorem idle_recordAgentAttempt : Idle (recordAgentAttempt env) :=
  within_modify fun _ => ⟨id, rfl, rfl, rfl⟩

theorem asking_invokeTransformationAgent : Asking (invokeTransformationAgent env options) :=
  asking_of_idle_bind idle_outside fun _ =>
    asking_of_idle_bind (idle_of_calm (calm_requireCapability _)) fun _ =>
    asking_of_idle_bind idle_recordAgentAttempt fun _ =>
    asking_of_idle_bind idle_outside fun _ => asking_transformationAgentInvoke

theorem throwing_recordDecision (inputRef : Reference) (e : Raised) :
    Throwing (match e.kind with
      | .repairAgent kind modelInvocationRef _ _ => (do
          let decisionRef ← writeReferenced env
          throw { e with
            kind := .repairAgent kind modelInvocationRef (some inputRef) (some decisionRef) } :
          Run A)
      | _ => throw e) := by
  split
  · exact throwing_bind idle_writeReferenced fun _ => throwing_throw _
  · exact throwing_throw e

theorem idle_repairResult (request : RepairRequest) (inputRef : Reference)
    (answer : RepairAnswer) (reply : RepairReply) :
    Idle (repairResult env request inputRef answer reply) := by
  cases reply with
  | proposeCandidate candidate =>
      exact within_bind (idle_storeCandidate candidate) fun _ =>
        within_bind idle_writeReferenced fun _ => within_pure _
  | refuse refusalCode => exact within_bind idle_writeReferenced fun _ => within_pure _
  | escalate escalationCode => exact within_bind idle_writeReferenced fun _ => within_pure _

theorem idle_recordingDecision (inputRef : Reference) {m : Run A} (hm : Idle m) :
    Idle (recordingDecision env inputRef m) := by
  refine within_tryCatch hm fun e => ?_
  split
  · exact within_bind idle_writeReferenced fun _ => within_throw _
  · exact within_throw e

/-- An answer of the repair agent: the manual-region guard fired, or the
gateway was called once. -/
def Answering (request : RepairRequest) (m : Run RepairResult) : Prop :=
  ∀ s, After m
    (fun _ s' => (shouldManualRegionBlockRepair request.manualRegions request.assistReasonCode
        = true ∧ Untraded s s') ∨
      (shouldManualRegionBlockRepair request.manualRegions request.assistReasonCode = false ∧
        Traded [.agentCall] s s'))
    (fun _ s' => Untraded s s' ∨ (shouldManualRegionBlockRepair request.manualRegions
      request.assistReasonCode = false ∧ Asks s s')) s

theorem answering_repairAgentInvoke (request : RepairRequest) :
    Answering request (repairAgentInvoke env request) := by
  intro s
  unfold repairAgentInvoke
  rw [after_bind, after_modify]
  split
  · rename_i hblock
    exact .inl ⟨hblock, id, rfl, rfl, rfl⟩
  · rename_i hblock
    rw [Bool.not_eq_true] at hblock
    have hasking : Asking (do
        let inputRef ← writeReferenced env
        let answer ← recordingDecision env inputRef (callModelGateway env env.repair)
        recordingDecision env inputRef (repairResult env request inputRef answer answer.reply)) :=
      asking_of_idle_bind idle_writeReferenced fun inputRef =>
        asking_bind (asking_tryCatch (asking_callModelGateway _)
          fun e => throwing_recordDecision inputRef e)
          fun answer => idle_recordingDecision inputRef (idle_repairResult _ _ _ _)
    refine (hasking _).mono ?_ ?_
    · intro result s' h
      exact .inr ⟨hblock, h.from ⟨id, rfl, rfl, rfl⟩⟩
    · intro e s' h
      exact .inr ⟨hblock, h.from ⟨id, rfl, rfl, rfl⟩⟩

theorem answering_of_idle_bind {request : RepairRequest} {m : Run A}
    {f : A → Run RepairResult} (hm : Idle m) (hf : ∀ a, Answering request (f a)) :
    Answering request (m >>= f) := by
  intro s
  rw [after_bind]
  refine (hm s).mono ?_ fun _ _ h => .inl h
  intro a s₁ h₁
  refine (hf a s₁).mono ?_ ?_
  · rintro result s₂ (⟨hblock, h₂⟩ | ⟨hblock, h₂⟩)
    · exact .inl ⟨hblock, trans_of Untraded h₁ h₂⟩
    · exact .inr ⟨hblock, h₂.from h₁⟩
  · rintro e s₂ (h₂ | ⟨hblock, h₂⟩)
    · exact .inl (trans_of Untraded h₁ h₂)
    · exact .inr ⟨hblock, h₂.from h₁⟩

theorem answering_invokeRepairAgent (request : RepairRequest) :
    Answering request (invokeRepairAgent env options request) := by
  refine answering_of_idle_bind idle_outside fun _ =>
    answering_of_idle_bind (idle_of_calm (calm_requireCapability _)) fun _ => ?_
  split
  · exact fun s => .inl (refl_of Untraded s)
  · exact answering_repairAgentInvoke request

end Agents

section Run

variable {env : Env} {options : Options}

theorem after_spendModelUnit (s : RunState) :
    After spendModelUnit
      (fun spent s' => (spent = true ∧ Traded [.unitSpent] s s' ∧
          s'.contract.assistDecision = s.contract.assistDecision) ∨
        (spent = false ∧ s' = s))
      (fun _ _ => False) s := by
  unfold spendModelUnit
  rw [after_bind, after_get]
  cases hconsume : s.contract.modelInvocationBudget.consume with
  | none => exact .inr ⟨rfl, rfl⟩
  | some budget =>
      unfold Budget.consume at hconsume
      split at hconsume
      · obtain rfl := Option.some.inj hconsume
        exact .inl ⟨rfl, ⟨id, rfl, rfl, rfl, rfl⟩, rfl⟩
      · contradiction

theorem after_transform (s : RunState) :
    After (transform env options) (fun _ => Settles s) (fun _ => Spends s) s := by
  unfold transform
  rw [after_bind, after_get]
  split
  · rw [after_bind]
    refine (idle_advanceW02 (by decide) _ _ _ s).mono ?_
      fun _ _ h => (settles_of_untraded h).spends
    intro _ s₁ h₁
    rw [after_bind]
    refine (after_spendModelUnit s₁).mono ?_ fun _ _ h => h.elim
    rintro spent s₂ (⟨rfl, h₂, -⟩ | ⟨rfl, rfl⟩)
    · rw [if_pos rfl, after_bind, after_tryCatch]
      refine (asking_invokeTransformationAgent s₂).mono ?_ ?_
      · intro result s₃ h₃
        have hpair : Traded [.agentCall, .unitSpent] s s₃ := (h₂.from h₁).trans h₃
        exact (idle_useTransformationResult result s₃).mono
          (fun _ _ h₄ => ⟨_, .pair .nil, hpair.idle h₄⟩)
          fun _ _ h₄ => ⟨_, .paired (.pair .nil), hpair.idle h₄⟩
      · intro e s₃ h₃
        exact spends_of_asks (h₂.from h₁) h₃
    · exact (settles_of_untraded h₁).spends
  · exact settles_of_untraded (refl_of Untraded s)

/-- The computation ends the repair loop with a blocked run, or goes on with
the loop if it may. -/
def Following (mayGoOn : Prop) (m : Run Bool) : Prop :=
  ∀ s, After m
    (fun again s' => (mayGoOn ∧ again = true ∨ again = false ∧ s'.locals.blocked = true) ∧
      Untraded s s')
    (fun _ => Untraded s) s

variable {mayGoOn : Prop}

theorem following_blockRun (code : Option FailureCode) (message : Text) :
    Following mayGoOn (do blockRun env code message; pure false) := by
  intro s
  rw [after_bind, blockRun, after_bind, updateLocals, after_modify]
  refine (calm_advanceW02 (by decide) none message code _).mono ?_ ?_
  · intro _ s' h
    exact ⟨.inr ⟨rfl, congrArg Locals.blocked h.locals⟩, h.unfinished, h.untraded.gatewaySteps,
      h.modelInvocationBudget, h.finalClassification⟩
  · intro _ s' h
    exact ⟨h.unfinished, h.untraded.gatewaySteps, h.modelInvocationBudget, h.finalClassification⟩

theorem following_bind {A : Type} {m : Run A} {f : A → Run Bool} (hm : Idle m)
    (hf : ∀ a, Following mayGoOn (f a)) :
    Following mayGoOn (m >>= f) := by
  intro s
  rw [after_bind]
  refine (hm s).mono ?_ fun _ _ h => h
  intro a s₁ h₁
  exact (hf a s₁).mono (fun _ _ h₂ => ⟨h₂.1, trans_of Untraded h₁ h₂.2⟩)
    fun _ _ h₂ => trans_of Untraded h₁ h₂

theorem following_pure_true : Following True (pure true) :=
  fun s => ⟨.inl ⟨trivial, rfl⟩, refl_of Untraded s⟩

theorem following_blockExhausted : Following mayGoOn (blockExhausted env) :=
  following_bind within_get fun _ => following_blockRun _ _

theorem following_refuseForBudget : Following mayGoOn (refuseForBudget env options) :=
  following_bind within_get fun _ => following_bind (idle_recordAttempt _) fun _ =>
    following_blockRun _ _

theorem following_recordRepairError (e : Raised) :
    Following mayGoOn (recordRepairError env options e) :=
  following_bind within_get fun _ => following_bind (idle_recordAttempt _) fun _ =>
    following_blockRun _ _

theorem following_rebuild (capabilities : Capabilities) (attempt : Nat)
    (candidate : JavaCandidate) (reference : Reference) :
    Following True (rebuild env options capabilities attempt candidate reference) :=
  following_bind (within_modify fun _ => ⟨id, rfl, rfl, rfl⟩) fun _ =>
    following_bind (idle_updateLocals _) fun _ =>
    following_bind (idle_advanceW02 (by decide) _ _ _) fun _ =>
    following_bind (idle_advanceW02 (by decide) _ _ _) fun _ =>
    following_bind (idle_runBuild _) fun _ => following_bind (idle_setBuildTestResultRef _)
      fun _ => following_bind idle_outside fun _ => following_bind idle_outside fun _ =>
    following_bind (idle_updateLocals _) fun _ => following_pure_true

theorem following_followDecision (capabilities : Capabilities) (attempt : Nat)
    (result : RepairResult) :
    Following True (followDecision env options capabilities attempt result) := by
  unfold followDecision
  split
  · exact following_blockRun _ _
  · exact following_blockRun _ _
  · exact following_blockRun _ _
  · split
    · exact following_rebuild _ _ _ _
    · exact following_blockRun _ _

theorem following_recordRepairResult (capabilities : Capabilities) (result : RepairResult) :
    Following True (recordRepairResult env options capabilities result) :=
  following_bind within_get fun _ => following_bind (idle_recordAttempt _) fun _ =>
    following_followDecision _ _ _

/-- A turn of the repair loop: it goes on with every unit spent on a call, or
the run is blocked. -/
def Turned (s : RunState) (again : Bool) (s' : RunState) : Prop :=
  (again = true ∧ Settles s s') ∨ (again = false ∧ s'.locals.blocked = true ∧ Spends s s')

theorem turned_of_following {s s₁ s' : RunState} {again : Bool} (hspends : Spends s s₁)
    (hsettles : mayGoOn → Settles s s₁)
    (h : (mayGoOn ∧ again = true ∨ again = false ∧ s'.locals.blocked = true) ∧ Untraded s₁ s') :
    Turned s again s' := by
  obtain ⟨⟨hmay, rfl⟩ | ⟨rfl, hblocked⟩, h₁⟩ := h
  · exact .inl ⟨rfl, (hsettles hmay).trans (settles_of_untraded h₁)⟩
  · exact .inr ⟨rfl, hblocked, hspends.idle h₁⟩

/-- The state the agent is asked in: the unit of the attempt has been spent,
unless the manual-region guard is to fire. -/
def Ready (options : Options) (s₀ s : RunState) : Prop :=
  (manualBlockPending options s = true ∧ Untraded s₀ s) ∨
    (manualBlockPending options s = false ∧ Traded [.unitSpent] s₀ s)

/-- What the agent leaves when it answers. -/
theorem settles_of_answer {s₀ s s' : RunState} (h : Ready options s₀ s)
    (h' : (manualBlockPending options s = true ∧ Untraded s s') ∨
      (manualBlockPending options s = false ∧ Traded [.agentCall] s s')) : Settles s₀ s' := by
  obtain ⟨hblock, h⟩ | ⟨hblock, h⟩ := h
  · obtain ⟨-, h'⟩ | ⟨hnot, -⟩ := h'
    · exact settles_of_untraded (trans_of Untraded h h')
    · rw [hblock] at hnot
      contradiction
  · obtain ⟨hnot, -⟩ | ⟨-, h'⟩ := h'
    · rw [hblock] at hnot
      contradiction
    · exact ⟨_, .pair .nil, h.trans h'⟩

/-- What the agent leaves when it raises. -/
theorem spends_of_error {s₀ s s' : RunState} (h : Ready options s₀ s)
    (h' : Untraded s s' ∨ (manualBlockPending options s = false ∧ Asks s s')) : Spends s₀ s' := by
  obtain ⟨hblock, h⟩ | ⟨-, h⟩ := h
  · obtain h' | ⟨hnot, -⟩ := h'
    · exact (settles_of_untraded (trans_of Untraded h h')).spends
    · rw [hblock] at hnot
      contradiction
  · obtain h' | ⟨-, h'⟩ := h'
    · exact spends_of_asks h (.inl h')
    · exact spends_of_asks h h'

theorem after_askForRepair (capabilities : Capabilities) {s₀ s : RunState}
    (h : Ready options s₀ s) :
    After (askForRepair env options capabilities) (Turned s₀) (fun _ => Spends s₀) s := by
  unfold askForRepair catchingRepairError
  rw [after_bind, after_get, after_bind, after_tryCatch, after_map]
  refine (answering_invokeRepairAgent (repairRequest env options s) s).mono ?_ ?_
  · intro result s₁ h₁
    have hsettles := settles_of_answer h h₁
    exact (following_recordRepairResult capabilities result s₁).mono
      (fun _ _ h₂ => turned_of_following hsettles.spends (fun _ => hsettles) h₂)
      fun _ _ h₂ => hsettles.spends.idle h₂
  · intro e s₁ h₁
    have hspends := spends_of_error h h₁
    split
    · exact (following_recordRepairError e s₁).mono
        (fun _ _ h₂ => turned_of_following hspends False.elim h₂) fun _ _ h₂ => hspends.idle h₂
    · exact hspends

theorem after_attemptRepair (capabilities : Capabilities) (s : RunState) :
    After (attemptRepair env options capabilities) (Turned s) (fun _ => Spends s) s := by
  unfold attemptRepair spendForRepair
  rw [after_bind]
  refine (idle_updateLocals _ s).mono ?_ fun _ _ h => (settles_of_untraded h).spends
  intro _ s₁ h₁
  rw [after_bind]
  refine (idle_recordAgentAttempt s₁).mono ?_
    fun _ _ h => (settles_of_untraded (trans_of Untraded h₁ h)).spends
  intro _ s₂ h₂
  have hidle := trans_of Untraded h₁ h₂
  rw [after_bind, after_bind, after_get]
  split
  · rename_i hblock
    exact after_askForRepair capabilities (.inl ⟨hblock, hidle⟩)
  · rename_i hblock
    rw [Bool.not_eq_true] at hblock
    refine (after_spendModelUnit s₂).mono ?_ fun _ _ h => h.elim
    rintro spent s₃ (⟨rfl, h₃, hdecision⟩ | ⟨rfl, rfl⟩)
    · have hpending : manualBlockPending options s₃ = false := by
        rw [manualBlockPending, hdecision]
        exact hblock
      exact after_askForRepair capabilities (.inr ⟨hpending, h₃.from hidle⟩)
    · have hsettles := settles_of_untraded hidle
      exact (following_refuseForBudget s₃).mono
        (fun _ _ h => turned_of_following hsettles.spends False.elim h)
        fun _ _ h => hsettles.spends.idle h

theorem after_repairTurn (capabilities : Capabilities) (s : RunState) :
    After (repairTurn env options capabilities) (Turned s) (fun _ => Spends s) s := by
  have hblock {m : Run Bool} (hm : Following False m) {s₁ : RunState} (h₁ : Untraded s s₁) :
      After m (Turned s) (fun _ => Spends s) s₁ := by
    have hsettles := settles_of_untraded h₁
    exact (hm s₁).mono (fun _ _ h => turned_of_following hsettles.spends False.elim h)
      fun _ _ h => hsettles.spends.idle h
  unfold repairTurn startAttempt
  rw [after_bind, after_get]
  split
  · exact hblock following_blockExhausted (refl_of Untraded s)
  · split
    · exact hblock (following_blockRun _ _) (refl_of Untraded s)
    · rw [after_bind, after_get, after_bind]
      refine (idle_advanceW02 (by decide) _ _ _ s).mono ?_
        fun _ _ h => (settles_of_untraded h).spends
      intro _ s₁ h₁
      rw [after_bind, after_get]
      split
      · exact hblock following_blockExhausted h₁
      · rename_i budget hconsume
        rw [after_bind, after_modify]
        have hspent : Untraded s { s₁ with contract := { s₁.contract with repairBudget := budget } } :=
          ⟨h₁.unfinished, h₁.gatewaySteps, h₁.modelInvocationBudget, h₁.finalClassification⟩
        refine (after_attemptRepair capabilities _).mono ?_ ?_
        · rintro again s₂ (⟨rfl, h₂⟩ | ⟨rfl, hblocked, h₂⟩)
          · exact .inl ⟨rfl, (settles_of_untraded hspent).trans h₂⟩
          · exact .inr ⟨rfl, hblocked, (settles_of_untraded hspent).then h₂⟩
        · intro e s₂ h₂
          exact (settles_of_untraded hspent).then h₂

/-- After the loop every unit has been spent on a call, unless the run is
blocked. -/
theorem after_repairLoop (capabilities : Capabilities) (turns : Nat) (s : RunState) :
    After (repairLoop env options capabilities turns)
      (fun _ s' => Settles s s' ∨ (s'.locals.blocked = true ∧ Spends s s'))
      (fun _ => Spends s) s := by
  induction turns generalizing s with
  | zero => exact .inl (settles_of_untraded (refl_of Untraded s))
  | succ turns ih =>
      unfold repairLoop
      rw [after_bind, after_get]
      split
      · rw [after_bind]
        refine (after_repairTurn capabilities s).mono ?_ fun _ _ h => h
        rintro again s₁ (⟨rfl, h₁⟩ | ⟨rfl, hblocked, h₁⟩)
        · refine (ih s₁).mono ?_ fun _ _ h₂ => h₁.then h₂
          rintro _ s₂ (h₂ | ⟨hblocked, h₂⟩)
          · exact .inl (h₁.trans h₂)
          · exact .inr ⟨hblocked, h₁.then h₂⟩
        · exact .inr ⟨hblocked, h₁⟩
      · exact .inl (settles_of_untraded (refl_of Untraded s))

/-- A sequence of phases that spend units on calls. -/
theorem settles_bind {A B : Type} {m : Run A} {f : A → Run B}
    (hm : ∀ s, After m (fun _ => Settles s) (fun _ => Spends s) s)
    (hf : ∀ a s, After (f a) (fun _ => Settles s) (fun _ => Spends s) s) (s : RunState) :
    After (m >>= f) (fun _ => Settles s) (fun _ => Spends s) s := by
  rw [after_bind]
  refine (hm s).mono ?_ fun _ _ h => h
  intro a s₁ h₁
  exact (hf a s₁).mono (fun _ _ h₂ => h₁.trans h₂) fun _ _ h₂ => h₁.then h₂

theorem settles_of_idle {A : Type} {m : Run A} (hm : Idle m) (s : RunState) :
    After m (fun _ => Settles s) (fun _ => Spends s) s :=
  (hm s).mono (fun _ _ h => settles_of_untraded h) fun _ _ h => (settles_of_untraded h).spends

theorem after_produceCandidate (s : RunState) :
    After (produceCandidate env options) (fun _ => Settles s) (fun _ => Spends s) s :=
  settles_bind (settles_of_idle (idle_of_calm calm_acceptRun)) (fun _ =>
    settles_bind (settles_of_idle (idle_of_calm calm_requireCapabilities)) fun _ =>
    settles_bind (settles_of_idle (idle_of_calm (calm_parseCobol _))) fun _ =>
    settles_bind (settles_of_idle (idle_of_calm (calm_generateIr _))) fun _ =>
    settles_bind (settles_of_idle (idle_generateJava _)) fun _ =>
    settles_bind (settles_of_idle (idle_of_calm calm_recordAssistDecision)) fun _ =>
    settles_bind after_transform fun _ =>
    settles_of_idle (within_bind idle_persistCandidate fun _ => within_pure _)) s

/-- Whether the model guidance is asked for. -/
def AsksGuidance (options : Options) (s : RunState) : Prop :=
  options.modelPrompt ≠ [] ∧ s.locals.blocked = false ∧ options.parityRun = false

/-- Some calls of the model guidance, and nothing else. -/
def Guides (s s' : RunState) : Prop :=
  ∃ calls, Traded (List.replicate calls .guidanceCall) s s'

theorem Guides.idle {s s' s'' : RunState} (h : Guides s s') (h' : Untraded s' s'') :
    Guides s s'' := by
  obtain ⟨calls, h⟩ := h
  exact ⟨calls, h.idle h'⟩

theorem guides_of_untraded {s s' : RunState} (h : Untraded s s') : Guides s s' :=
  ⟨0, traded_nil h⟩

theorem Guides.trans {s s' s'' : RunState} (h : Guides s s') (h' : Guides s' s'') :
    Guides s s'' := by
  obtain ⟨calls, h⟩ := h
  obtain ⟨calls', h'⟩ := h'
  refine ⟨calls' + calls, ?_⟩
  rw [List.replicate_add]
  exact h.trans h'

theorem after_invokeAttempts_guidance (attempts : Nat) (s : RunState) :
    After (invokeAttempts env stepModelGuidance attempts) (fun _ => Guides s) (fun _ => Guides s)
      s := by
  induction attempts generalizing s with
  | zero => exact guides_of_untraded (refl_of Untraded s)
  | succ attempts ih =>
      simp only [invokeAttempts, if_true]
      rw [after_bind, noteGatewayStep, after_modify, after_bind]
      have hcall : Guides s { s with traffic := { s.traffic with
          gatewaySteps := (some GatewayStep.guidanceCall).toList ++ s.traffic.gatewaySteps } } :=
        ⟨1, id, rfl, rfl, rfl, rfl⟩
      refine (idle_of_calm calm_tick _).mono ?_ fun _ _ h => hcall.idle h
      intro t s₁ h₁
      have h := hcall.idle h₁
      split
      · exact h
      · split
        · exact (ih s₁).mono (fun _ _ h₂ => h.trans h₂) fun _ _ h₂ => h.trans h₂
        · exact h

theorem after_invokeStep_guidance (capability : Capability) (s : RunState) :
    After (invokeStep env options stepModelGuidance capability) (fun _ => Guides s)
      (fun _ => Guides s) s := by
  unfold invokeStep
  split
  · exact guides_of_untraded (refl_of Untraded s)
  · exact after_invokeAttempts_guidance _ s

/-- What the phase of the model guidance leads to. -/
def GuidesIfAsked (options : Options) (s s' : RunState) : Prop :=
  Untraded s s' ∨ (AsksGuidance options s ∧ Guides s s')

theorem after_guide (s : RunState) :
    After (guide env options) (fun _ => GuidesIfAsked options s)
      (fun _ => GuidesIfAsked options s) s := by
  unfold guide
  rw [after_bind, after_get]
  split
  · rename_i hasks
    have hasks : AsksGuidance options s :=
      ⟨hasks.1, eq_false_of_ne_true hasks.2.1, eq_false_of_ne_true hasks.2.2⟩
    rw [after_bind]
    refine (idle_of_calm (calm_requireCapability _) s).mono ?_ fun _ _ h => .inl h
    intro capability s₁ h₁
    rw [after_bind]
    have hguides := guides_of_untraded h₁
    refine (after_invokeStep_guidance capability s₁).mono ?_
      fun _ _ h => .inr ⟨hasks, hguides.trans h⟩
    intro _ s₂ h₂
    have hrest : Idle (do
        modify fun s => { s with modelOutput := true }
        outside env
        writeSummary env "updating".toList "model-guidance completed".toList none) :=
      within_bind (within_modify fun _ => ⟨id, rfl, rfl, rfl⟩) fun _ =>
        within_bind idle_outside fun _ => idle_writeSummary _ _ _
    exact (hrest s₂).mono (fun _ _ h => .inr ⟨hasks, (hguides.trans h₂).idle h⟩)
      fun _ _ h => .inr ⟨hasks, (hguides.trans h₂).idle h⟩
  · exact (idle_of_calm calm_persistModelPolicySkipped s).mono (fun _ _ h => .inl h)
      fun _ _ h => .inl h

/-- The steps of a run: the agents' calls with the units spent on them, and
then, if it may be asked for, the calls of the model guidance. -/
inductive Accounted (mayAsk : Prop) : List GatewayStep → Prop
  | spent {steps : List GatewayStep} (h : Spent steps) : Accounted mayAsk steps
  | guided {steps : List GatewayStep} (calls : Nat) (hmay : mayAsk) (h : Paired steps) :
      Accounted mayAsk (List.replicate calls .guidanceCall ++ steps)

/-- Whether the options let the run ask for the model guidance. -/
def MayAskGuidance (options : Options) : Prop :=
  options.modelPrompt ≠ [] ∧ options.parityRun = false

def Accounts (options : Options) (s s' : RunState) : Prop :=
  ∃ steps, Accounted (MayAskGuidance options) steps ∧ Traded steps s s'

theorem Spends.accounts {s s' : RunState} (h : Spends s s') : Accounts options s s' := by
  obtain ⟨steps, hspent, htraded⟩ := h
  exact ⟨steps, .spent hspent, htraded⟩

theorem Settles.then_accounts {s s' s'' : RunState} (h : Settles s s')
    (h' : Accounts options s' s'') : Accounts options s s'' := by
  obtain ⟨steps, hpaired, htraded⟩ := h
  obtain ⟨steps', haccounted, htraded'⟩ := h'
  refine ⟨steps' ++ steps, ?_, htraded.trans htraded'⟩
  cases haccounted with
  | spent hspent => exact .spent (hspent.append hpaired)
  | guided calls hmay hpaired' =>
      rw [List.append_assoc]
      exact .guided calls hmay (hpaired'.append hpaired)

theorem Accounts.idle {s s' s'' : RunState} (h : Accounts options s s') (h' : Untraded s' s'') :
    Accounts options s s'' := by
  obtain ⟨steps, haccounted, htraded⟩ := h
  exact ⟨steps, haccounted, htraded.idle h'⟩

/-- A blocked run asks for no guidance. -/
theorem accounts_of_guidance {s s₁ s₂ s' : RunState}
    (h : Settles s s₁ ∨ (s₁.locals.blocked = true ∧ Spends s s₁)) (h₁ : Undisturbed s₁ s₂)
    (h₂ : GuidesIfAsked options s₂ s') : Accounts options s s' := by
  obtain h₂ | ⟨⟨hprompt, hunblocked, hparity⟩, h₂⟩ := h₂
  · obtain h | ⟨-, h⟩ := h
    · exact ((h.spends.idle h₁.untraded).idle h₂).accounts
    · exact ((h.idle h₁.untraded).idle h₂).accounts
  · obtain h | ⟨hblocked, -⟩ := h
    · obtain ⟨steps, hpaired, htraded⟩ := h
      obtain ⟨calls, h₂⟩ := h₂
      exact ⟨_, .guided calls ⟨hprompt, hparity⟩ hpaired, (htraded.idle h₁.untraded).trans h₂⟩
    · rw [h₁.locals, hblocked] at hunblocked
      contradiction

theorem after_verifyCandidate (capabilities : Capabilities) (s : RunState) :
    After (verifyCandidate env options capabilities) (fun _ => Accounts options s)
      (fun _ => Accounts options s) s := by
  unfold verifyCandidate
  rw [after_bind]
  refine (idle_verify capabilities s).mono ?_
    fun _ _ h => (settles_of_untraded h).spends.accounts
  intro _ s₁ h₁
  have h₁ := settles_of_untraded h₁
  rw [after_bind, repair, after_bind, after_get, after_bind]
  refine (after_repairLoop capabilities _ s₁).mono ?_ fun _ _ h => (h₁.then h).accounts
  intro _ s₂ h₂
  replace h₂ : Settles s s₂ ∨ (s₂.locals.blocked = true ∧ Spends s s₂) :=
    h₂.imp h₁.trans (And.imp_right h₁.then)
  rw [after_pure, after_bind]
  refine (calm_selectFinalJava s₂).mono ?_
    fun _ s₃ h => accounts_of_guidance h₂ h (.inl (refl_of Untraded s₃))
  intro _ s₃ h₃
  rw [after_bind]
  refine (after_guide s₃).mono ?_ fun _ _ h => accounts_of_guidance h₂ h₃ h
  intro _ s₄ h₄
  have h := accounts_of_guidance h₂ h₃ h₄
  exact (within_bind (idle_writeEvidence capabilities) (fun _ => idle_classifyEvidence) s₄).mono
    (fun _ _ h₅ => h.idle h₅) fun _ _ h₅ => h.idle h₅

end Run

/-- What every step leaves alone that does not deal with the model budget. -/
structure Unspent (s s' : RunState) : Prop where
  gatewaySteps : s'.traffic.gatewaySteps = s.traffic.gatewaySteps
  modelInvocationBudget : s'.contract.modelInvocationBudget = s.contract.modelInvocationBudget

instance : IsPreorder RunState Unspent where
  refl _ := ⟨rfl, rfl⟩
  trans _ _ _ h h' :=
    ⟨h'.gatewaySteps.trans h.gatewaySteps,
      h'.modelInvocationBudget.trans h.modelInvocationBudget⟩

section Exits

variable {env : Env} {options : Options} {A : Type}

theorem unspent_of_idle {m : Run A} (h : Idle m) : Within Unspent m :=
  fun s => (h s).mono (fun _ _ hs => ⟨hs.gatewaySteps, hs.modelInvocationBudget⟩)
    fun _ _ hs => ⟨hs.gatewaySteps, hs.modelInvocationBudget⟩

theorem unspent_finalizeRun (classification : Classification) (code : Option FailureCode)
    (message : Option Text) : Within Unspent (finalizeRun env classification code message) := by
  refine within_bind within_get fun given => within_bind (fun s => ?_) fun _ =>
    unspent_of_idle idle_outside
  rw [after_onContract]
  refine (after_finalizeW02 classification code message _).mono ?_ ?_
  · intro _ c h
    exact ⟨rfl, h.modelInvocationBudget⟩
  · rintro _ _ rfl
    exact refl_of Unspent s

theorem unspent_writeSummary (status message : Text) (step : Option Text) :
    Within Unspent (writeSummary env status message step) :=
  unspent_of_idle (idle_writeSummary status message step)

theorem unspent_updateRun (status message : Text) : Within Unspent (updateRun env status message) :=
  unspent_of_idle (idle_of_calm (calm_updateRun status message))

theorem unspent_finishGenerateOnly : Within Unspent (finishGenerateOnly env) :=
  within_bind (unspent_of_idle (idle_advanceW02 (by decide) _ _ _)) fun _ =>
    within_bind (unspent_finalizeRun _ _ _) fun _ =>
    within_bind (unspent_writeSummary _ _ _) fun _ => unspent_updateRun _ _

theorem unspent_conclude : Within Unspent (conclude env) := by
  refine within_bind (unspent_of_idle idle_outside) fun _ => within_bind within_get fun s => ?_
  split
  · exact within_bind (unspent_finalizeRun _ _ _) fun _ =>
      within_bind (unspent_writeSummary _ _ _) fun _ => unspent_updateRun _ _
  · exact within_bind (unspent_finalizeRun _ _ _) fun _ =>
      within_bind (unspent_writeSummary _ _ _) fun _ => unspent_updateRun _ _

theorem unspent_swallowing {m : Run PUnit} (h : Within Unspent m) :
    Within Unspent (swallowing m) :=
  within_tryCatch h fun _ => within_pure _

theorem unspent_swallowingIllegalTransition {m : Run PUnit} (h : Within Unspent m) :
    Within Unspent (swallowingIllegalTransition m) := by
  refine within_tryCatch h fun e => ?_
  split
  · exact within_pure _
  · exact within_throw e

theorem unspent_settleMachine (e : Raised) (current : WorkflowState) (code : FailureCode) :
    Within Unspent (settleMachine env e current code) := by
  unfold settleMachine
  split
  · exact unspent_swallowingIllegalTransition (unspent_of_idle (idle_advanceW02 (by decide) _ _ _))
  · split
    · exact within_pure _
    · exact unspent_swallowingIllegalTransition
        (unspent_of_idle (idle_advanceW02 (by decide) _ _ _))

theorem unspent_finalizeFailure (e : Raised) : Within Unspent (finalizeFailure env e) := by
  refine within_bind within_get fun s => ?_
  dsimp only
  split
  · exact within_pure _
  · exact within_bind (unspent_settleMachine _ _ _) fun _ =>
      within_bind (within_modify fun _ => ⟨rfl, rfl⟩) fun _ =>
      unspent_swallowingIllegalTransition (unspent_finalizeRun _ _ _)

theorem unspent_skipUnaskedModel : Within Unspent (skipUnaskedModel env) := by
  refine within_bind within_get fun s => ?_
  split
  · exact within_pure _
  · exact unspent_of_idle (idle_of_calm calm_persistModelPolicySkipped)

theorem unspent_recordFailure (e : Raised) : Within Unspent (recordFailure env e) :=
  within_bind (unspent_swallowing unspent_skipUnaskedModel) fun _ =>
    within_bind (unspent_swallowing (unspent_finalizeFailure e)) fun _ =>
    within_bind (unspent_swallowing (unspent_updateRun _ _)) fun _ =>
    unspent_swallowing (within_bind within_get fun _ => unspent_writeSummary _ _ _)

end Exits

section Accounts

variable {env : Env} {options : Options}

/-- A run accounts for its steps up to one of its exits. -/
def Concluded (options : Options) (s s' : RunState) : Prop :=
  ∃ s₁, Accounts options s s₁ ∧ Unspent s₁ s'

theorem Accounts.concluded {s s' : RunState} (h : Accounts options s s') :
    Concluded options s s' :=
  ⟨s', h, refl_of Unspent s'⟩

theorem after_body (s : RunState) :
    After (body env options) (fun _ => Concluded options s) (fun _ => Concluded options s) s := by
  unfold body
  rw [after_bind]
  refine (after_produceCandidate s).mono ?_ fun _ _ h => h.accounts.concluded
  intro capabilities s₁ h₁
  rw [after_bind, after_get]
  split
  · exact (unspent_finishGenerateOnly s₁).mono (fun _ _ h => ⟨s₁, h₁.spends.accounts, h⟩)
      fun _ _ h => ⟨s₁, h₁.spends.accounts, h⟩
  · rw [after_bind]
    refine (after_verifyCandidate capabilities s₁).mono ?_
      fun _ _ h => (h₁.then_accounts h).concluded
    intro _ s₂ h₂
    exact (unspent_conclude s₂).mono (fun _ _ h => ⟨s₂, h₁.then_accounts h₂, h⟩)
      fun _ _ h => ⟨s₂, h₁.then_accounts h₂, h⟩

theorem concluded_run (env : Env) (options : Options) (s : RunState) : Concluded options s (stateAfter (run env options) s) := by
  have h : After (run env options) (fun _ => Concluded options s) (fun _ => Concluded options s)
      s := by
    unfold run
    rw [after_tryCatch]
    refine (after_body s).mono (fun _ _ h => h) ?_
    rintro e s₁ ⟨s₀, h₀, h₁⟩
    have hrecord : Within Unspent (do recordFailure env e; throw e : Run PUnit) :=
      within_bind (unspent_recordFailure e) fun _ => within_throw e
    exact (hrecord s₁).mono (fun _ _ h => ⟨s₀, h₀, trans_of Unspent h₁ h⟩)
      fun _ _ h => ⟨s₀, h₀, trans_of Unspent h₁ h⟩
  exact After.result (p := fun _ => Concluded options s) h

/-- The invocations of the Model Gateway made on behalf of the run. -/
def gatewayCalls (steps : List GatewayStep) : Nat :=
  steps.count .agentCall + steps.count .guidanceCall

theorem Paired.gatewayCalls_eq {steps : List GatewayStep} (h : Paired steps) :
    gatewayCalls steps = steps.count .unitSpent := by
  induction h with
  | nil => rfl
  | pair h ih =>
      simp only [gatewayCalls, List.count_cons] at ih ⊢
      simp
      omega

/-- The calls and the units spent agree just when they come in pairs. -/
theorem gatewayCalls_eq_iff {mayAsk : Prop} {steps : List GatewayStep}
    (h : Accounted mayAsk steps) :
    gatewayCalls steps = steps.count .unitSpent ↔ Paired steps := by
  refine ⟨fun hcalls => ?_, Paired.gatewayCalls_eq⟩
  cases h with
  | spent h =>
      cases h with
      | paired h => exact h
      | uncalled h =>
          have := h.gatewayCalls_eq
          simp [gatewayCalls] at hcalls this
          omega
  | guided calls hmay h =>
      have := h.gatewayCalls_eq
      cases calls with
      | zero => exact h
      | succ calls =>
          simp [gatewayCalls, List.count_replicate] at hcalls this
          omega

theorem Spent.not_guidance {steps : List GatewayStep} (h : Spent steps) :
    .guidanceCall ∉ steps := by
  have hpaired {steps : List GatewayStep} (h : Paired steps) : .guidanceCall ∉ steps := by
    induction h with
    | nil => exact List.not_mem_nil
    | pair h ih => simpa using ih
  cases h with
  | paired h => exact hpaired h
  | uncalled h => simpa using hpaired h

theorem Accounted.spent_of_not {mayAsk : Prop} {steps : List GatewayStep}
    (h : Accounted mayAsk steps) (hmay : ¬ mayAsk) : Spent steps := by
  cases h with
  | spent h => exact h
  | guided calls hyes h => exact absurd hyes hmay

theorem accounted_run (env : Env) (options : Options)
    (capabilities : CapabilityName → Option Capability) (now : Timestamp) :
    let s := stateAfter (run env options) (start options capabilities now)
    Accounted (MayAskGuidance options) s.traffic.gatewaySteps ∧
      s.contract.modelInvocationBudget.used = s.traffic.gatewaySteps.count .unitSpent := by
  obtain ⟨s₁, ⟨steps, haccounted, htraded⟩, hunspent⟩ :=
    concluded_run env options (start options capabilities now)
  have hsteps := hunspent.gatewaySteps.trans htraded.gatewaySteps
  have hused := (congrArg Budget.used hunspent.modelInvocationBudget).trans htraded.used
  rw [show (start options capabilities now).traffic.gatewaySteps = [] from rfl,
    List.append_nil] at hsteps
  dsimp only
  rw [hsteps, hused]
  exact ⟨haccounted, Nat.zero_add _⟩

end Accounts

section Samples

/-- The reply to a step of a run whose builds are answered as given. -/
def steadyReply (build : Json) (step : Text) : Json :=
  if step = stepCompileTestJava then build
  else if step = stepGenerateIr then
    .object [("ir".toList, .object [("program".toList, .bool true)])]
  else if step = stepGenerateJava then
    .object [("generatedProject".toList,
      .object [("files".toList, .object [("A.java".toList, .text [])])])]
  else .object []

/-- Services that answer every call; every repair is refused. -/
def steadyEnv (build : Json) : Env where
  now _ := []
  raises _ := none
  landed _ := false
  capability _ := .resolved ⟨"endpoint".toList⟩
  modelGatewayAllowed _ := true
  reply _ step := .ok (steadyReply build step)
  reference _ := some ⟨"urn:artifact".toList, List.replicate 64 'a', 1⟩
  guardAgentInvocationPayload _ := none
  transformation _ := .ok (.declined "failed".toList "java_generation_failed".toList [])
  repair _ := .ok ⟨[], [], .refuse "no_safe_repair".toList⟩
  digest _ := (List.replicate 64 'b', 1)
  filesDigest _ := []

def passedBuild : Json :=
  .object [("status".toList, .text "ok".toList)]

def steadyOptions : Options where
  runId := "run".toList
  workflowId := "workflow".toList
  requester := "requester".toList

/-- The final state of a run that starts with no capability at hand. -/
def finalState (env : Env) (options : Options) : RunState :=
  stateAfter (run env options) (start options (fun _ => none) [])

/-- A run with a model prompt and no model unit. -/
def guidedRun : RunState :=
  finalState (steadyEnv passedBuild)
    { steadyOptions with modelPrompt := "explain".toList, modelInvocationBudgetMax := 0 }

end Samples

end C2c.Orchestrator.RunAccounts
