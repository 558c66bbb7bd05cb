import C2c.Library.Machine
import C2c.Orchestrator.RunContract
import Mathlib.Data.List.Chain

namespace C2c.Orchestrator.ContractRuns

open C2c.Library.JavaText
open C2c.Library.Machine
open C2c.Library.Raising
open C2c.Orchestrator.RunContract

inductive Call
  | advance (target message : Text) (failureCode : Option Text) (now : Timestamp)
  | finalize (classification : Text) (failureCode failureMessage : Option Text) (now : Timestamp)
  | finalizeW02 (classification : Text) (failureCode failureMessage : Option Text)
      (now : Timestamp)

def perform : Call → ContractStep PUnit
  | .advance target message failureCode now => advance target message failureCode now
  | .finalize classification failureCode failureMessage now =>
      finalize classification failureCode failureMessage now
  | .finalizeW02 classification failureCode failureMessage now =>
      finalizeW02 classification failureCode failureMessage now

/-- The contract after a call that returns or raises. -/
def step (contract : W02RunContract) (call : Call) : W02RunContract :=
  stateAfter (perform call) contract

/-- What a call raises. -/
def raises (contract : W02RunContract) (call : Call) : Option ContractError :=
  errorOf (perform call) contract

/-- The classification and the failure code that arguments stand for. -/
def readOutcome (classification : Text) (failureCode : Option Text) :
    Option (Classification × Option FailureCode) :=
  match readClassification classification, failureCode with
  | none, _ => none
  | some .success, none => some (.success, none)
  | some _, none => none
  | some outcome, some code => (readFailureCode code).map fun code => (outcome, some code)

/-- What a call with valid arguments finalises the run as. -/
def Call.outcome : Call → Option (Classification × Option FailureCode)
  | .advance _ _ _ _ => none
  | .finalize classification failureCode _ _ => readOutcome classification failureCode
  | .finalizeW02 classification failureCode _ _ => readOutcome classification failureCode

/-- The contract moved to a state. -/
def moved (contract : W02RunContract) (transition : StateTransition) : W02RunContract :=
  { contract with
    stateMachine := ⟨transition.state, contract.stateMachine.history ++ [transition]⟩ }

/-- The contract with a classification. -/
def classified (contract : W02RunContract) (outcome : Classification × Option FailureCode)
    (message : Option Text) : W02RunContract :=
  { contract with
    finalClassification := some outcome.1
    failureCode := outcome.2
    failureMessage := message }

/-- Whether the state machine may be finalised. -/
def mayFinalize (contract : W02RunContract) : Prop :=
  .finalClassification ∈ allowedTransitions contract.stateMachine.current

/-- Everything a call can do: it is refused and changes nothing, the machine
moves, the run is finalised, or the classification is written without a move,
raising or not. -/
inductive Effect (contract : W02RunContract) :
    Call → Option ContractError → W02RunContract → Prop
  | refused {call : Call} {error : ContractError} (hinvalid : call.outcome = none) :
      Effect contract call (some error) contract
  | advanced {target message : Text} {failureCode : Option Text} {now : Timestamp}
      {transition : StateTransition} (htarget : readState target = some transition.state)
      (hallowed : transition.state ∈ allowedTransitions contract.stateMachine.current) :
      Effect contract (.advance target message failureCode now) none (moved contract transition)
  | finalized {call : Call} {outcome : Classification × Option FailureCode}
      {message : Option Text} {transition : StateTransition} {now : Timestamp}
      (houtcome : call.outcome = some outcome) (hallowed : mayFinalize contract)
      (hfinal : transition.state = .finalClassification) :
      Effect contract call none
        { moved (classified contract outcome message) transition with
          activeStep := none
          updatedAt := now }
  | unmoved {call : Call} {outcome : Classification × Option FailureCode}
      {message : Option Text} {error : ContractError} (houtcome : call.outcome = some outcome)
      (hillegal : ¬ mayFinalize contract) :
      Effect contract call (some error) (classified contract outcome message)
  | recorded {call : Call} {outcome : Classification × Option FailureCode}
      {message : Option Text} {now : Timestamp} (houtcome : call.outcome = some outcome)
      (hillegal : ¬ mayFinalize contract) :
      Effect contract call none { classified contract outcome message with updatedAt := now }

section Steps

variable {contract : W02RunContract}

theorem after_move (target : WorkflowState) (message : Text) (failureCode : Option FailureCode)
    (now : Timestamp) :
    After (move target message failureCode now)
      (fun _ c => target ∈ allowedTransitions contract.stateMachine.current ∧
        c = moved contract ⟨target, now, message, failureCode⟩)
      (fun e c => target ∉ allowedTransitions contract.stateMachine.current ∧
        e = .illegalTransition contract.stateMachine.current target ∧ c = contract) contract := by
  simp only [move, after_bind, after_get]
  split
  · rename_i hallowed
    exact ⟨hallowed, rfl⟩
  · rename_i hillegal
    exact ⟨hillegal, rfl, rfl⟩

theorem after_checkFailureCode (failureCode : Option Text) :
    After (checkFailureCode failureCode)
      (fun code c => c = contract ∧ (failureCode = none ∧ code = none ∨
        ∃ given read, failureCode = some given ∧ readFailureCode given = some read ∧
          code = some read))
      (fun e c => c = contract ∧ ∃ given, e = .unknownFailureCode given ∧
        failureCode = some given ∧ readFailureCode given = none) contract := by
  cases failureCode with
  | none => exact ⟨rfl, .inl ⟨rfl, rfl⟩⟩
  | some given =>
      simp only [checkFailureCode]
      cases hread : readFailureCode given with
      | none => exact ⟨rfl, given, rfl, rfl, hread⟩
      | some read => exact ⟨rfl, .inr ⟨given, read, rfl, hread, rfl⟩⟩

/-- An error that no state machine raises. -/
def ContractError.isInvalidArgument (error : ContractError) : Prop :=
  ∀ current target, error ≠ .illegalTransition current target

theorem after_checkOutcome (classification : Text) (failureCode : Option Text) :
    After (checkOutcome classification failureCode)
      (fun outcome c => c = contract ∧ readOutcome classification failureCode = some outcome)
      (fun e c => c = contract ∧ readOutcome classification failureCode = none ∧
        ContractError.isInvalidArgument e) contract := by
  unfold checkOutcome readOutcome
  cases readClassification classification with
  | none => exact ⟨rfl, rfl, by rintro _ _ ⟨⟩⟩
  | some outcome =>
      dsimp only
      cases failureCode with
      | none =>
          by_cases hsuccess : outcome = .success
          · subst hsuccess
            exact ⟨rfl, rfl⟩
          · rw [if_pos ⟨hsuccess, rfl⟩]
            cases outcome with
            | success => contradiction
            | _ => exact ⟨rfl, rfl, by rintro _ _ ⟨⟩⟩
      | some given =>
          rw [if_neg (by rintro ⟨-, ⟨⟩⟩), after_bind]
          refine (after_checkFailureCode (some given)).mono ?_ ?_
          · rintro code c ⟨rfl, ⟨⟨⟩, -⟩ | ⟨_, read, ⟨⟩, hread, rfl⟩⟩
            cases outcome <;> exact ⟨rfl, by simp [hread]⟩
          · rintro e c ⟨rfl, _, rfl, ⟨⟩, hread⟩
            refine ⟨rfl, ?_, by rintro _ _ ⟨⟩⟩
            cases outcome <;> simp [hread]

/-- What `finalize` does: the classification is written before the machine may
refuse to move. -/
theorem after_finalize (classification : Text) (failureCode failureMessage : Option Text)
    (now : Timestamp) :
    After (finalize classification failureCode failureMessage now)
      (fun _ c => ∃ outcome transition, readOutcome classification failureCode = some outcome ∧
        mayFinalize contract ∧ transition.state = .finalClassification ∧
        c = { moved (classified contract outcome failureMessage) transition with
          activeStep := none
          updatedAt := now })
      (fun e c => (readOutcome classification failureCode = none ∧
          ContractError.isInvalidArgument e ∧ c = contract) ∨
        ∃ outcome, readOutcome classification failureCode = some outcome ∧
          ¬ mayFinalize contract ∧
          e = .illegalTransition contract.stateMachine.current .finalClassification ∧
          c = classified contract outcome failureMessage) contract := by
  unfold finalize
  rw [after_bind]
  refine (after_checkOutcome classification failureCode).mono ?_ ?_
  · rintro ⟨outcome, code⟩ c ⟨rfl, houtcome⟩
    simp only [classify, touch, after_bind, after_modify]
    refine (after_move _ _ _ _).mono ?_ ?_
    · rintro _ _ ⟨hallowed, rfl⟩
      exact ⟨(outcome, code), _, houtcome, hallowed, rfl, rfl⟩
    · rintro e _ ⟨hillegal, rfl, rfl⟩
      exact .inr ⟨(outcome, code), houtcome, hillegal, rfl, rfl⟩
  · rintro e c ⟨rfl, hinvalid, he⟩
    exact .inl ⟨hinvalid, he, rfl⟩

theorem recordClassification_invalid {error : ContractError}
    (h : ContractError.isInvalidArgument error) (classification : Text)
    (failureCode failureMessage : Option Text) (now : Timestamp) :
    recordClassification classification failureCode failureMessage now error = throw error := by
  cases error with
  | illegalTransition current target => exact absurd rfl (h current target)
  | _ => rfl

theorem readOutcome_eq {classification : Text} {failureCode : Option Text}
    {outcome : Classification × Option FailureCode}
    (h : readOutcome classification failureCode = some outcome) :
    readClassification classification = some outcome.1 ∧
      failureCode.bind readFailureCode = outcome.2 := by
  unfold readOutcome at h
  split at h
  · contradiction
  · rename_i hread
    obtain rfl := Option.some.inj h
    exact ⟨hread, rfl⟩
  · contradiction
  · rename_i hread
    obtain ⟨code, hcode, rfl⟩ := Option.map_eq_some_iff.mp h
    exact ⟨hread, hcode⟩

theorem perform_effect (call : Call) :
    After (perform call) (fun _ => Effect contract call none)
      (fun e => Effect contract call (some e)) contract := by
  cases call with
  | advance target message failureCode now =>
      simp only [perform, advance]
      split
      · exact .refused rfl
      · rename_i state htarget
        rw [after_bind]
        refine (after_checkFailureCode failureCode).mono ?_ ?_
        · rintro code c ⟨rfl, -⟩
          refine (after_move state message code now).mono ?_ ?_
          · rintro _ _ ⟨hallowed, rfl⟩
            exact .advanced htarget hallowed
          · rintro e _ ⟨-, -, rfl⟩
            exact .refused rfl
        · rintro e c ⟨rfl, -⟩
          exact .refused rfl
  | finalize classification failureCode failureMessage now =>
      refine (after_finalize classification failureCode failureMessage now).mono ?_ ?_
      · rintro _ _ ⟨outcome, transition, houtcome, hallowed, hfinal, rfl⟩
        exact .finalized houtcome hallowed hfinal
      · rintro e _ (⟨hinvalid, -, rfl⟩ | ⟨outcome, houtcome, hillegal, -, rfl⟩)
        · exact .refused hinvalid
        · exact .unmoved houtcome hillegal
  | finalizeW02 classification failureCode failureMessage now =>
      simp only [perform, finalizeW02, after_tryCatch]
      refine (after_finalize classification failureCode _ now).mono ?_ ?_
      · rintro _ _ ⟨outcome, transition, houtcome, hallowed, hfinal, rfl⟩
        exact .finalized houtcome hallowed hfinal
      · rintro e _ (⟨hinvalid, he, rfl⟩ | ⟨outcome, houtcome, hillegal, rfl, rfl⟩)
        · rw [recordClassification_invalid he]
          exact .refused hinvalid
        · obtain ⟨hclassification, hcode⟩ := readOutcome_eq houtcome
          simp only [recordClassification, touch, after_bind, after_modify, hclassification, hcode]
          exact @Effect.recorded contract _ outcome _ _ houtcome hillegal

theorem step_effect (contract : W02RunContract) (call : Call) :
    Effect contract call (raises contract call) (step contract call) :=
  After.result (perform_effect call)

end Steps

section Invariants

/-- What holds of every contract a sequence of calls leads to. -/
structure Sound (contract : W02RunContract) : Prop where
  started : contract.stateMachine.history.head?.map StateTransition.state = some .runAccepted
  follows : contract.stateMachine.history.IsChain fun before after =>
    after.state ∈ allowedTransitions before.state
  ended : contract.stateMachine.history.getLast?.map StateTransition.state =
    some contract.stateMachine.current
  coded : ∀ classification, contract.finalClassification = some classification →
    classification ≠ .success → ∃ code ∈ failureCodes, contract.failureCode = some code

theorem mem_failureCodes (code : FailureCode) : code ∈ failureCodes := by
  cases code <;> decide

theorem sound_start (runId workflowId requester : Text)
    (repairBudgetLimit assistBudgetLimit modelInvocationBudgetLimit : Int) (now : Timestamp) :
    Sound (newRunContract runId workflowId requester repairBudgetLimit assistBudgetLimit
      modelInvocationBudgetLimit now) where
  started := rfl
  follows := .singleton _
  ended := rfl
  coded := by rintro _ ⟨⟩

theorem readOutcome_coded {classification : Text} {failureCode : Option Text}
    {outcome : Classification × Option FailureCode}
    (h : readOutcome classification failureCode = some outcome) (hne : outcome.1 ≠ .success) :
    ∃ code ∈ failureCodes, outcome.2 = some code := by
  unfold readOutcome at h
  split at h
  · contradiction
  · obtain rfl := Option.some.inj h
    contradiction
  · contradiction
  · obtain ⟨code, -, rfl⟩ := Option.map_eq_some_iff.mp h
    exact ⟨code, mem_failureCodes code, rfl⟩

theorem outcome_coded {call : Call} {outcome : Classification × Option FailureCode}
    (h : call.outcome = some outcome) (hne : outcome.1 ≠ .success) :
    ∃ code ∈ failureCodes, outcome.2 = some code := by
  cases call with
  | advance target message failureCode now => contradiction
  | finalize classification failureCode failureMessage now => exact readOutcome_coded h hne
  | finalizeW02 classification failureCode failureMessage now => exact readOutcome_coded h hne

variable {contract : W02RunContract}

theorem sound_moved (h : Sound contract) {transition : StateTransition}
    (hallowed : transition.state ∈ allowedTransitions contract.stateMachine.current) :
    Sound (moved contract transition) where
  started := by
    have hstarted := h.started
    cases hhistory : contract.stateMachine.history with
    | nil => rw [hhistory] at hstarted; contradiction
    | cons first rest => simpa [moved, hhistory] using hstarted
  follows := by
    refine h.follows.append (.singleton _) ?_
    intro last hlast next hnext
    obtain rfl := Option.some.inj hnext
    have hended := h.ended
    rw [Option.mem_def.mp hlast] at hended
    rw [← Option.some.inj hended] at hallowed
    exact hallowed
  ended := by simp [moved]
  coded := h.coded

theorem sound_classified (h : Sound contract) {call : Call}
    {outcome : Classification × Option FailureCode} (houtcome : call.outcome = some outcome)
    (message : Option Text) : Sound (classified contract outcome message) where
  started := h.started
  follows := h.follows
  ended := h.ended
  coded := by
    rintro _ ⟨⟩ hne
    exact outcome_coded houtcome hne

theorem sound_step (call : Call) (h : Sound contract) : Sound (step contract call) := by
  have heffect := step_effect contract call
  generalize raises contract call = error at heffect
  generalize step contract call = next at heffect
  cases heffect with
  | refused hinvalid => exact h
  | advanced htarget hallowed => exact sound_moved h hallowed
  | finalized houtcome hallowed hfinal =>
      rename_i outcome message transition now
      rw [mayFinalize, ← hfinal] at hallowed
      have hmoved := sound_moved (sound_classified h houtcome message) hallowed
      exact ⟨hmoved.started, hmoved.follows, hmoved.ended, hmoved.coded⟩
  | unmoved houtcome hillegal => exact sound_classified h houtcome _
  | recorded houtcome hillegal =>
      rename_i outcome message now
      have hclassified := sound_classified h houtcome message
      exact ⟨h.started, h.follows, h.ended, hclassified.coded⟩

/-- What every call makes of a contract: a classification that is set stays
set, and a call that raises leaves the state machine alone, and all the rest
unless it asks to finalise the run. -/
structure Guarded (contract : W02RunContract) (call : Call) : Prop where
  staysSet : contract.finalClassification.isSome = true →
    (step contract call).finalClassification.isSome = true
  machine : raises contract call ≠ none →
    (step contract call).stateMachine = contract.stateMachine
  unchanged : raises contract call ≠ none → call.outcome = none → step contract call = contract

theorem guarded_step (contract : W02RunContract) (call : Call) : Guarded contract call := by
  have heffect := step_effect contract call
  refine ⟨?_, ?_, ?_⟩
  · generalize raises contract call = error at heffect
    generalize step contract call = next at heffect
    intro hset
    cases heffect with
    | refused hinvalid => exact hset
    | advanced htarget hallowed => exact hset
    | finalized houtcome hallowed hfinal => rfl
    | unmoved houtcome hillegal => rfl
    | recorded houtcome hillegal => rfl
  · generalize raises contract call = error at heffect
    generalize step contract call = next at heffect
    intro hraises
    cases heffect with
    | refused hinvalid => rfl
    | unmoved houtcome hillegal => rfl
    | _ => contradiction
  · generalize raises contract call = error at heffect
    generalize step contract call = next at heffect
    intro hraises hinvalid
    cases heffect with
    | refused hinvalid => rfl
    | unmoved houtcome hillegal => rw [hinvalid] at houtcome; contradiction
    | _ => contradiction

/-- The machine is finalised by finalisations only, and these are asked for in
states that allow them. -/
def InOrder (contract : W02RunContract) : Call → Prop
  | .advance target _ _ _ => readState target ≠ some .finalClassification
  | call => call.outcome ≠ none → mayFinalize contract

/-- A classification is set exactly in the last state. -/
def SetIffFinal (contract : W02RunContract) : Prop :=
  contract.finalClassification.isSome = true ↔
    contract.stateMachine.current = .finalClassification

/-- The classification, its code and its message. -/
def classificationOf (contract : W02RunContract) :
    Option Classification × Option FailureCode × Option Text :=
  (contract.finalClassification, contract.failureCode, contract.failureMessage)

/-- What a call makes of a contract in an orderly run. -/
structure Orderly (contract : W02RunContract) (call : Call) : Prop where
  before : SetIffFinal contract
  after : SetIffFinal (step contract call)
  kept : contract.finalClassification.isSome = true →
    classificationOf (step contract call) = classificationOf contract
  unchanged : raises contract call ≠ none → step contract call = contract

/-- The last state allows no move. -/
theorem not_mem_allowed_of_final (h : contract.stateMachine.current = .finalClassification)
    (target : WorkflowState) : target ∉ allowedTransitions contract.stateMachine.current := by
  rw [h]
  exact List.not_mem_nil

theorem inOrder_outcome {call : Call} {outcome : Classification × Option FailureCode}
    (hcall : InOrder contract call) (houtcome : call.outcome = some outcome) :
    mayFinalize contract := by
  cases call with
  | advance target message failureCode now => contradiction
  | finalize classification failureCode failureMessage now => exact hcall (by simp [houtcome])
  | finalizeW02 classification failureCode failureMessage now => exact hcall (by simp [houtcome])

theorem orderly_step {call : Call} (h : SetIffFinal contract) (hcall : InOrder contract call) :
    Orderly contract call := by
  have heffect := step_effect contract call
  suffices hall : SetIffFinal (step contract call) ∧ (contract.finalClassification.isSome = true →
      classificationOf (step contract call) = classificationOf contract) ∧
        (raises contract call ≠ none → step contract call = contract) from
    ⟨h, hall.1, hall.2.1, hall.2.2⟩
  generalize raises contract call = error at heffect
  generalize step contract call = next at heffect
  cases heffect with
  | refused hinvalid => exact ⟨h, fun _ => rfl, fun _ => rfl⟩
  | advanced htarget hallowed =>
      rename_i transition
      have hnot : transition.state ≠ .finalClassification := by
        intro hfinal
        exact hcall (htarget.trans (congrArg some hfinal))
      refine ⟨?_, fun _ => rfl, fun hraises => absurd rfl hraises⟩
      constructor
      · intro hset
        exact absurd hallowed (not_mem_allowed_of_final (h.mp hset) _)
      · intro hfinal
        exact absurd hfinal hnot
  | finalized houtcome hallowed hfinal =>
      refine ⟨⟨fun _ => hfinal, fun _ => rfl⟩, ?_, fun hraises => absurd rfl hraises⟩
      intro hset
      exact absurd hallowed (not_mem_allowed_of_final (h.mp hset) _)
  | unmoved houtcome hillegal => exact absurd (inOrder_outcome hcall houtcome) hillegal
  | recorded houtcome hillegal => exact absurd (inOrder_outcome hcall houtcome) hillegal

end Invariants

section Refused

def sampleContract : W02RunContract :=
  newRunContract ['r'] ['w'] ['u'] 1 1 1 ['t']

/-- A success declared before the run has done anything. -/
def earlySuccess : Call :=
  .finalize "success".toList none none ['t']

end Refused

end C2c.Orchestrator.ContractRuns
