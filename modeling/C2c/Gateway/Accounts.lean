import C2c.Gateway.Admission
import C2c.Library.Trimming

/-!
What the ledger, the events and the answer say of an invocation, and of the
providers that are called for it.
-/

namespace C2c.Gateway.Accounts

open C2c.Library.JavaText
open C2c.Library.GoText
open C2c.Library.GoTime
open C2c.Library.GoCollections
open C2c.Library.JsonText (Json)
open C2c.Library.GoJson
open C2c.Library.JsonLines
open C2c.Library.Trimming (trimmed_trimmed)
open C2c.Harness.Events (firstFailing firstFailing_eq_none isHexDigit)
open C2c.Gateway.Ledger
open C2c.Gateway.Policy
open C2c.Gateway.Invocation
open C2c.Gateway.Handler
open C2c.Gateway.Admission

section Records

/-- A reading of the clock that a record can carry. -/
def Stampable (now : Time) : Prop :=
  now.isZero = false ∧ now.marshal.isSome = true

theorem nonneg_ofNat {n : Nat} (h : n < 2 ^ 63) : 0 ≤ Int64.ofNat n := by
  rw [Int64.le_iff_toInt_le, Int64.toInt_ofNat_of_lt h]
  exact Int.natCast_nonneg n

theorem reference_validate_iff {r : DataReference} :
    r.validate = none ↔ trimSpace r.uri ≠ [] ∧ trimSpace r.sha256 ≠ [] ∧
      byteLength r.sha256 = 64 ∧ r.sha256.all isHexDigit = true ∧ 0 ≤ r.byteSize := by
  unfold DataReference.validate
  rw [firstFailing_eq_none]
  simp only [List.forall_mem_cons, decide_eq_true_eq, List.not_mem_nil, false_imp_iff,
    implies_true, and_true]

theorem validate_computeSHA256Ref (payload : Json) :
    (computeSHA256Ref payload).validate = none := by
  have hdigits (c : Char) (hc : c ∈ Library.Sha256.sha256Hex (marshal payload)) :
      isHexDigit c = true ∧ c.toNat < 128 ∧ isSpace c = false := by
    have hmem := Library.Sha256.mem_sha256Hex hc
    revert hmem
    simp only [List.mem_cons, List.not_mem_nil, or_false]
    rintro (rfl | rfl | rfl | rfl | rfl | rfl | rfl | rfl | rfl | rfl | rfl | rfl | rfl | rfl |
      rfl | rfl) <;> decide
  have hlength := Library.Sha256.sha256Hex_length (marshal payload)
  have hbytes : byteLength (Library.Sha256.sha256Hex (marshal payload)) = 64 := by
    rw [byteLength_of_ascii fun c hc => (hdigits c hc).2.1, hlength]
  have hsha : trimSpace (Library.Sha256.sha256Hex (marshal payload)) ≠ [] := by
    cases hhex : Library.Sha256.sha256Hex (marshal payload) with
    | nil => rw [hhex] at hlength; cases hlength
    | cons c t => exact trimSpace_cons_ne_nil (hdigits c (hhex ▸ List.mem_cons_self)).2.2 t
  have hsize : 0 ≤ byteSize (marshal payload) := by
    unfold byteSize
    exact nonneg_ofNat (by omega)
  have huri : trimSpace "urn:model-gateway/payload".toList ≠ [] :=
    trimSpace_cons_ne_nil (by decide) _
  exact reference_validate_iff.mpr
    ⟨huri, hsha, hbytes, List.all_eq_true.mpr fun c hc => (hdigits c hc).1, hsize⟩

theorem nonneg_latencyMs (elapsed : Nat) : 0 ≤ latencyMs elapsed := by
  unfold latencyMs
  exact nonneg_ofNat (by omega)

theorem json_isSome {l : ModelInvocationLedgerV0} :
    l.json.isSome = true ↔ l.createdAt.marshal.isSome = true := by
  unfold ModelInvocationLedgerV0.json timeField
  cases l.createdAt.marshal <;> simp

/-- What a record is valid for, when it holds what the gateway puts in every one. -/
theorem validate_eq_none_iff {l : ModelInvocationLedgerV0}
    (hschema : l.schemaVersion = gatewayEventSchemaVersion)
    (hinvocation : trimSpace l.invocationId ≠ []) (hmodel : trimSpace l.modelId ≠ [])
    (hprovider : trimSpace l.provider ≠ []) (hpolicy : trimSpace l.policyId ≠ [])
    (hdata : trimSpace l.dataClass ≠ []) (htemplate : trimSpace l.promptTemplate ≠ [])
    (hrequest : l.requestRef.validate = none) (houtput : l.outputRef.validate = none)
    (hlatency : 0 ≤ l.latencyMs) (hdecision : trimSpace l.policyDecision ≠ []) :
    l.validate = none ↔ l.createdAt.isZero = false ∧
      l.status ∈ [statusCompleted, statusFailed, statusRejected] := by
  have hnonempty : l.status ∈ [statusCompleted, statusFailed, statusRejected] →
      l.status ≠ [] := by
    intro hmem heq
    rw [heq] at hmem
    revert hmem
    decide
  simp only [ModelInvocationLedgerV0.validate, Option.orElse_eq_or, Option.or_eq_none_iff,
    firstFailing_eq_none, List.forall_mem_cons, decide_eq_true_eq, hschema, hinvocation, hmodel,
    hprovider, hpolicy, hdata, htemplate, hrequest, houtput, hlatency, hdecision, true_and,
    Bool.not_eq_true', ne_eq, not_false_eq_true]
  constructor
  · rintro ⟨⟨hzero, _⟩, _, hstatus, _⟩
    exact ⟨hzero, hstatus⟩
  · rintro ⟨hzero, hstatus⟩
    exact ⟨⟨hzero, nofun⟩, hnonempty hstatus, hstatus, nofun⟩

/-- A ledger that takes writes appends a record that is valid and has a JSON text. -/
theorem appendLedgerRecord_iff {s : ModelGatewayService} {env : Environment}
    (henabled : s.invocationLedgerEnabled = true) (hwritable : env.writable = true)
    (ledger : Log ModelInvocationLedgerV0) (record : ModelInvocationLedgerV0) :
    (∃ next, appendLedgerRecord s env ledger record = .ok next ∧
        next.records = ledger.records ++ [record] ∧ record.validate = none ∧
        record.json.isSome = true) ∨
      (∃ e, appendLedgerRecord s env ledger record = .error e) ∧
        ¬ (record.validate = none ∧ record.json.isSome = true) := by
  unfold appendLedgerRecord append modelInvocationLedger Format.checked
  simp only [henabled, hwritable, Bool.not_true, Bool.false_eq_true, if_false, if_true]
  cases hvalid : record.validate with
  | some e => exact .inr ⟨⟨_, rfl⟩, nofun⟩
  | none =>
      cases hjson : record.json with
      | none => exact .inr ⟨⟨.append .marshal, by simp only [hjson]⟩, by simp⟩
      | some v =>
          refine .inl ⟨⟨ledger.file ++ (marshal v ++ ['\n']), ledger.records ++ [record],
            ledger.seq + 1⟩, ?_, rfl, rfl, rfl⟩
          simp only [hjson]

end Records

section Events

/-- What an event is valid for, when it holds what the gateway puts in every one. -/
theorem event_validate_iff {e : EventEnvelopeV0} (hschema : e.schemaVersion = gatewayEventSchemaVersion)
    (hid : trimSpace e.eventId ≠ [])
    (htype : e.eventType = eventTypeModelInvocationFailed ∨
      e.eventType = eventTypeModelInvocationDone)
    (hstep : 0 < e.stepId) (hactor : e.actor ≠ []) (hcapability : e.capability = actorModelGateway)
    (hdata : e.dataClass = dataClassModelGateway)
    (hprofile : e.redactionProfile = "harness-control-plane".toList) (hstatus : e.status ≠ [])
    (hdecision : trimSpace e.policyDecision ≠ []) (htransition : e.stateTransition ≠ [])
    (hzero : e.createdAt.isZero = false) (hinput : e.inputRef.validate = none)
    (houtput : e.outputRef.validate = none) :
    e.validate = none ↔ trimSpace e.runId ≠ [] := by
  have htypes : trimSpace e.eventType ≠ [] := by
    rcases htype with h | h <;> rw [h] <;> decide
  have hconstants : actorModelGateway ≠ [] ∧
      dataClassModelGateway ∈ Harness.Events.allowedDataClasses ∧
      "harness-control-plane".toList ∈ Harness.Events.allowedRedactionProfiles ∧
      trimSpace "harness-control-plane".toList ≠ [] := by decide
  obtain ⟨hcap, hclass, hredaction, hredacted⟩ := hconstants
  simp only [EventEnvelopeV0.validate, Option.orElse_eq_or, Option.or_eq_none_iff,
    firstFailing_eq_none, List.forall_mem_cons, decide_eq_true_eq, hschema, hid, htypes, hstep,
    hactor, hcapability, hdata, hprofile, hstatus, hdecision, htransition, hzero, hinput, houtput,
    hcap, hclass, hredaction, hredacted, ne_eq, not_false_eq_true, true_and, and_true,
    Bool.not_false]
  exact ⟨fun h => h.1, fun h => ⟨h, nofun⟩⟩

theorem emitEvent_of_valid {s : ModelGatewayService} {event : EventEnvelopeV0}
    (h : event.validate = none) (events : List EventEnvelopeV0) :
    emitEvent s events event =
      events ++ if s.harnessEventEmissionEnabled then [event] else [] := by
  unfold emitEvent
  rw [h]
  cases s.harnessEventEmissionEnabled <;> simp

theorem emitEvent_of_invalid {s : ModelGatewayService} {event : EventEnvelopeV0}
    (h : event.validate ≠ none) (events : List EventEnvelopeV0) :
    emitEvent s events event = events := by
  unfold emitEvent
  rw [Option.isSome_iff_ne_none.mpr h]
  cases s.harnessEventEmissionEnabled <;> rfl

end Events

section Statements

/-- The error code of an answer. -/
def Answer.errorCode : Answer → Text
  | .rejected _ _ errorCode _ _ _ => errorCode
  | .failed _ _ errorCode _ _ _ => errorCode
  | _ => []

/-- A record, the events and the answer of an invocation that completes. -/
structure Completes (record : ModelInvocationLedgerV0) (events : List EventEnvelopeV0)
    (answer : Answer) : Prop where
  stated : record.status = statusCompleted
  answer : ∃ response, answer = .completed response ∧ response.status = statusCompleted
  events : ∀ e ∈ events, e.eventType = eventTypeModelInvocationDone ∧ e.status = statusCompleted

/-- A record, the events and the answer of an invocation that fails or is rejected. -/
structure Fails (record : ModelInvocationLedgerV0) (events : List EventEnvelopeV0)
    (answer : Answer) : Prop where
  stated : record.status = statusFailed ∨ record.status = statusRejected
  coded : record.errorCode ≠ []
  answer : 400 ≤ answer.statusCode ∧ Answer.errorCode answer = record.errorCode
  events : ∀ e ∈ events, e.eventType = eventTypeModelInvocationFailed ∧ e.status = record.status

/-- One record is appended, which names the model of every call; one event is
emitted, if events are; and they agree with the answer. -/
def Accounted (s : ModelGatewayService) (before : GatewayState) (handled : Handled) : Prop :=
  ∃ record events, handled.state.ledger.records = before.ledger.records ++ [record] ∧
    handled.state.events = before.events ++ events ∧
    events.length = (if s.harnessEventEmissionEnabled then 1 else 0) ∧
    (∀ call ∈ handled.calls, call.model.id = record.modelId) ∧
    (Completes record events handled.answer ∨ Fails record events handled.answer)

theorem not_accounted_of_unchanged {s : ModelGatewayService} {before : GatewayState}
    {handled : Handled} (h : handled.state.ledger = before.ledger) :
    ¬ Accounted s before handled := by
  rintro ⟨record, events, hrecords, _⟩
  rw [h] at hrecords
  have hlength := congrArg List.length hrecords
  simp at hlength

/-- The record and the events that are added are all there is to look at. -/
theorem accounted_iff {s : ModelGatewayService} {before : GatewayState} {handled : Handled}
    {record : ModelInvocationLedgerV0} {event : EventEnvelopeV0}
    (hrecords : handled.state.ledger.records = before.ledger.records ++ [record])
    (hevents : handled.state.events =
      before.events ++ if s.harnessEventEmissionEnabled then [event] else []) :
    Accounted s before handled ↔ (∀ call ∈ handled.calls, call.model.id = record.modelId) ∧
      (Completes record (if s.harnessEventEmissionEnabled then [event] else []) handled.answer ∨
        Fails record (if s.harnessEventEmissionEnabled then [event] else []) handled.answer) := by
  constructor
  · rintro ⟨record', events, hrecords', hevents', _, hcalls, hagree⟩
    have hrecord := List.append_cancel_left (hrecords.symm.trans hrecords')
    have hevent := List.append_cancel_left (hevents.symm.trans hevents')
    cases hrecord
    rw [hevent]
    exact ⟨hcalls, hagree⟩
  · rintro ⟨hcalls, hagree⟩
    refine ⟨record, _, hrecords, hevents, ?_, hcalls, hagree⟩
    cases s.harnessEventEmissionEnabled <;> rfl

theorem forall_mem_emitted {s : ModelGatewayService} {event : EventEnvelopeV0}
    {P : EventEnvelopeV0 → Prop} (h : P event) :
    ∀ e ∈ if s.harnessEventEmissionEnabled then [event] else [], P e := by
  cases s.harnessEventEmissionEnabled with
  | false => exact nofun
  | true => exact List.forall_mem_singleton.mpr h

end Statements

section Rejections

variable {quote : Text → Text} {s : ModelGatewayService} {env : Environment}

theorem trimSpace_trimSpace (t : Text) : trimSpace (trimSpace t) = trimSpace t :=
  trimmed_trimmed isSpace t

theorem orElseText_ne (t : Text) {other : Text} (h : trimSpace other ≠ []) :
    trimSpace (orElseText t other) ≠ [] := by
  unfold orElseText
  split
  · exact h
  · assumption

theorem resolvedPolicyID_ne (s : ModelGatewayService) : trimSpace s.resolvedPolicyID ≠ [] := by
  unfold ModelGatewayService.resolvedPolicyID FoundryDevelopmentAllowlist.resolvedPolicyID
  split
  · assumption
  split
  · decide
  · next h => rwa [trimSpace_trimSpace]

theorem invocationID_ne (now : Time) (counter : Nat) :
    trimSpace (newInvocationID now counter) ≠ [] ∧
      trimSpace ("mgv-".toList ++ newInvocationID now counter) ≠ [] :=
  ⟨trimSpace_cons_ne_nil (by decide) _, trimSpace_cons_ne_nil (by decide) _⟩

theorem defaultActor_ne (actor : Text) : defaultActor actor ≠ [] := by
  unfold defaultActor
  split
  · decide
  · assumption

theorem errorCodeForValidationErr_ne (code : ValidationCode) :
    errorCodeForValidationErr code ≠ [] := by
  cases code <;> decide

theorem statusForValidationErr_ge (code : ValidationCode) : 400 ≤ statusForValidationErr code := by
  cases code <;> decide

theorem rejectedRecord_valid_iff (hmode : trimSpace s.allowlist.mode ≠ [])
    (request : ModelInvocationRequest) (counter : Nat) (e : ModelGatewayValidationError)
    (payload output : Json) :
    let record := rejectedRecord s env request (computeSHA256Ref payload)
      (newInvocationID env.now counter) e (computeSHA256Ref output)
    (record.validate = none ∧ record.json.isSome = true) ↔ Stampable env.now := by
  intro record
  have hvalid : record.validate = none ↔ record.createdAt.isZero = false ∧
      record.status ∈ [statusCompleted, statusFailed, statusRejected] :=
    validate_eq_none_iff rfl (invocationID_ne _ _).1
      (show trimSpace "unknown-model".toList ≠ [] by decide) hmode
      (orElseText_ne _ (resolvedPolicyID_ne s)) (orElseText_ne _ (by decide))
      (orElseText_ne _ (by decide)) (validate_computeSHA256Ref _) (validate_computeSHA256Ref _)
      (nonneg_latencyMs _) (show trimSpace policyDecisionDeny ≠ [] by decide)
  have hstatus : record.status ∈ [statusCompleted, statusFailed, statusRejected] :=
    show statusRejected ∈ [statusCompleted, statusFailed, statusRejected] by decide
  rw [hvalid, json_isSome, and_iff_left hstatus]
  exact Iff.rfl

theorem rejectedEvent_valid_iff (hzero : env.now.isZero = false)
    (request : ModelInvocationRequest) {counter : Nat} (hcounter : 0 < counter)
    (e : ModelGatewayValidationError) (payload output : Json) :
    (rejectedEvent s env request (computeSHA256Ref payload) (newInvocationID env.now counter)
      counter e (computeSHA256Ref output)).validate = none ↔ trimSpace request.runID ≠ [] :=
  event_validate_iff rfl (invocationID_ne _ _).2 (.inl rfl) (Int.natCast_pos.mpr hcounter)
    (defaultActor_ne _) rfl rfl rfl (show statusRejected ≠ [] by decide)
    (show trimSpace policyDecisionDeny ≠ [] by decide)
    (show "validate.rejected".toList ≠ [] by decide) hzero (validate_computeSHA256Ref _)
    (validate_computeSHA256Ref _)

/-- A rejection is accounted for if its time can be stamped and its event, if events
are emitted, has a run. -/
theorem reject_accounted_iff (henabled : s.invocationLedgerEnabled = true)
    (hwritable : env.writable = true) (hmode : trimSpace s.allowlist.mode ≠ [])
    (state : GatewayState) (request : ModelInvocationRequest) (payload : Json)
    (e : ModelGatewayValidationError) (hcounter : 0 < state.invocationCounter) :
    Accounted s state (reject s env state request (computeSHA256Ref payload)
        (newInvocationID env.now state.invocationCounter) e) ↔
      Stampable env.now ∧
        (s.harnessEventEmissionEnabled = true → trimSpace request.runID ≠ []) := by
  have hrecord := @rejectedRecord_valid_iff s env hmode request state.invocationCounter e
    payload (rejectedOutput (newInvocationID env.now state.invocationCounter) e).json
  unfold reject
  dsimp only
  rcases appendLedgerRecord_iff henabled hwritable state.ledger (rejectedRecord s env request
      (computeSHA256Ref payload) (newInvocationID env.now state.invocationCounter) e
      (computeSHA256Ref (rejectedOutput (newInvocationID env.now state.invocationCounter) e).json))
    with ⟨next, happend, hrecords, hvalid, hjson⟩ | ⟨⟨failure, happend⟩, hinvalid⟩
  · have hstamp := hrecord.mp ⟨hvalid, hjson⟩
    have hevent := rejectedEvent_valid_iff (s := s) hstamp.1 request hcounter e payload
      (rejectedOutput (newInvocationID env.now state.invocationCounter) e).json
    rw [happend]
    dsimp only
    constructor
    · rintro ⟨record, events, _, hevents, hlength, _⟩
      refine ⟨hstamp, fun hemits => hevent.mp ?_⟩
      by_contra hbad
      rw [emitEvent_of_invalid hbad] at hevents
      have hnone := List.self_eq_append_right.mp hevents
      rw [hnone, if_pos hemits] at hlength
      cases hlength
    · rintro ⟨_, hrun⟩
      by_cases hemits : s.harnessEventEmissionEnabled = true
      · refine ⟨_, _, hrecords, emitEvent_of_valid (hevent.mpr (hrun hemits)) _, ?_, nofun,
          .inr ⟨.inr rfl, errorCodeForValidationErr_ne e.code,
            ⟨statusForValidationErr_ge e.code, rfl⟩, ?_⟩⟩
        · simp [hemits]
        · rw [if_pos hemits]
          exact List.forall_mem_singleton.mpr ⟨rfl, rfl⟩
      · refine ⟨_, [], hrecords, ?_, ?_, nofun, .inr ⟨.inr rfl, errorCodeForValidationErr_ne e.code,
            ⟨statusForValidationErr_ge e.code, rfl⟩, nofun⟩⟩
        · simp [emitEvent, hemits]
        · simp [hemits]
  · rw [happend]
    constructor
    · exact fun h => absurd h (not_accounted_of_unchanged rfl)
    · exact fun h => absurd (hrecord.mpr h.1) hinvalid

end Rejections

section Invocations

variable {quote : Text → Text} {s : ModelGatewayService} {env : Environment}

/-- An invocation that a validation lets through, up to the model it asks for. -/
structure Selected (s : ModelGatewayService) (request : ModelInvocationRequest) (payload : Json)
    (v : ValidatedInvocation) : Prop where
  record : v.record = { ledgerRecord s request (computeSHA256Ref payload) with
    modelId := v.model.id
    policyDecision := policyDecisionAllow }
  decision : v.policyDecision = policyDecisionAllow
  run : v.request.runID = request.runID
  named : trimSpace v.model.id ≠ []
  mode : v.model.provider = s.allowlist.mode
  hasRun : trimSpace request.runID ≠ []
  hasData : trimSpace request.dataClass ≠ []
  hasTemplate : trimSpace request.promptTemplateVersion ≠ []

theorem selected_of_validate {now : Time} {request : ModelInvocationRequest} {modelID : Text}
    {payload : Json} {v : ValidatedInvocation}
    (h : validateInvocation quote s now { request with modelID } (computeSHA256Ref payload) =
      .ok v) : Selected s request payload v ∧ v.model.id = modelID := by
  unfold validateInvocation at h
  split at h
  · cases h
  next hrequest =>
  split at h
  · cases h
  next model hmodel =>
  split at h
  · cases h
  next hchecks =>
  cases h
  have hid : model.id = modelID := get_id hmodel
  simp only [firstRefused_append, Option.or_eq_none_iff, firstRefused_eq_none, accessChecks,
    requestChecks, List.forall_mem_cons, decide_eq_true_eq] at hchecks hrequest
  obtain ⟨hrun, hnamed, hdata, htemplate, _⟩ := hrequest
  exact ⟨⟨rfl, rfl, rfl, hid ▸ hnamed, hchecks.1.2.1, hrun, hdata, htemplate⟩, hid⟩

theorem invokedRecord_valid_iff (hmode : trimSpace s.allowlist.mode ≠ [])
    {request : ModelInvocationRequest} {payload : Json} {v : ValidatedInvocation}
    (hv : Selected s request payload v) (counter : Nat) (result : Result) (output : Json) :
    let record := invokedRecord s env v (newInvocationID env.now counter) result
      (computeSHA256Ref output)
    (record.validate = none ∧ record.json.isSome = true) ↔
      Stampable env.now ∧ result.status ∈ [statusCompleted, statusFailed, statusRejected] := by
  intro record
  have hvalid : record.validate = none ↔ record.createdAt.isZero = false ∧
      record.status ∈ [statusCompleted, statusFailed, statusRejected] := by
    apply validate_eq_none_iff
    · change v.record.schemaVersion = _
      rw [hv.record]
      rfl
    · exact (invocationID_ne _ _).1
    · change trimSpace v.record.modelId ≠ []
      rw [hv.record]
      exact hv.named
    · change trimSpace v.model.provider ≠ []
      rw [hv.mode]
      exact hmode
    · exact orElseText_ne _ (resolvedPolicyID_ne s)
    · change trimSpace v.record.dataClass ≠ []
      rw [hv.record]
      exact hv.hasData
    · change trimSpace v.record.promptTemplate ≠ []
      rw [hv.record]
      exact hv.hasTemplate
    · change v.record.requestRef.validate = none
      rw [hv.record]
      exact validate_computeSHA256Ref payload
    · exact validate_computeSHA256Ref output
    · exact nonneg_latencyMs env.elapsed
    · change trimSpace v.record.policyDecision ≠ []
      rw [hv.record]
      exact show trimSpace policyDecisionAllow ≠ [] by decide
  rw [hvalid, json_isSome, Stampable, and_right_comm]
  exact Iff.rfl

theorem invokedEvent_valid {request : ModelInvocationRequest} {payload : Json}
    {v : ValidatedInvocation} (hv : Selected s request payload v) (hzero : env.now.isZero = false)
    {counter : Nat} (hcounter : 0 < counter) (failed : Bool) {result : Result}
    (hstatus : result.status ≠ []) {record : ModelInvocationLedgerV0}
    (hrecord : record.outputRef.validate = none) :
    (invokedEvent s env v (computeSHA256Ref payload) (newInvocationID env.now counter) counter
      failed result record).validate = none := by
  have hrun : trimSpace v.request.runID ≠ [] := by
    rw [hv.run]
    exact hv.hasRun
  refine (event_validate_iff ?_ ?_ ?_ ?_ ?_ ?_ ?_ ?_ ?_ ?_ ?_ ?_ ?_ ?_).mpr hrun
  · rfl
  · exact (invocationID_ne _ _).2
  · cases failed
    · exact .inr rfl
    · exact .inl rfl
  · exact Int.natCast_pos.mpr hcounter
  · exact defaultActor_ne _
  · rfl
  · rfl
  · rfl
  · exact hstatus
  · change trimSpace v.policyDecision ≠ []
    rw [hv.decision]
    decide
  · cases failed
    · exact show "invoke.completed".toList ≠ [] by decide
    · exact show "invoke.failed".toList ≠ [] by decide
  · exact hzero
  · exact validate_computeSHA256Ref payload
  · exact hrecord

/-- A status that a provider may give with its output: one that stands for itself,
or one that the gateway takes as completed. -/
def PlainStatus (status : Text) : Prop :=
  trimSpace status ∈ [statusCompleted, statusFailed, statusRejected] → status = statusCompleted

theorem normalizeInvocationStatus_iff {status : Text} :
    normalizeInvocationStatus status = statusCompleted ↔ PlainStatus status := by
  unfold normalizeInvocationStatus PlainStatus
  split
  · next h => exact ⟨fun heq _ => heq, fun heq => heq h⟩
  · next h => exact ⟨fun _ hmem => absurd hmem h, fun _ => rfl⟩

theorem resultOf_error (invocationID : Text) (expired deadlineExceeded : Bool) :
    (resultOf invocationID expired (.error deadlineExceeded)).status = statusFailed ∧
      (resultOf invocationID expired (.error deadlineExceeded)).errorCode ≠ [] := by
  refine ⟨rfl, ?_⟩
  simp only [resultOf]
  split <;> decide

/-- What ends an invocation is accounted for if its time can be stamped, the record
names the model of every call, and the status of an output is plain. -/
theorem finish_accounted_iff (henabled : s.invocationLedgerEnabled = true)
    (hwritable : env.writable = true) (hmode : trimSpace s.allowlist.mode ≠ [])
    {state : GatewayState} (hcounter : 0 < state.invocationCounter)
    {request : ModelInvocationRequest} {payload : Json} {attempt : Attempt}
    (hv : Selected s request payload attempt.selected) (calls : List Call) :
    Accounted s state (finish s env state (computeSHA256Ref payload)
        (newInvocationID env.now state.invocationCounter) calls attempt) ↔
      Stampable env.now ∧ (∀ call ∈ calls, call.model.id = attempt.selected.model.id) ∧
        ∀ o, attempt.result = .output o → PlainStatus o.status := by
  have hvalid := fun result output =>
    @invokedRecord_valid_iff s env hmode request payload _ hv state.invocationCounter result output
  have hmodel : attempt.selected.record.modelId = attempt.selected.model.id := by
    rw [hv.record]
  have hunchanged (answer : Answer) : ¬ Accounted s state ⟨state, calls, answer⟩ :=
    not_accounted_of_unchanged rfl
  unfold finish
  extract_lets validated result outputRef record
  have hvalid := hvalid result result.data.json
  have hinvalid (h : ¬ (record.validate = none ∧ record.json.isSome = true)) :
      ¬ (Stampable env.now ∧ (∀ call ∈ calls, call.model.id = attempt.selected.model.id) ∧
        ∀ o, attempt.result = .output o → PlainStatus o.status) := by
    rintro ⟨hstamp, _, hplain⟩
    refine h (hvalid.mpr ⟨hstamp, ?_⟩)
    cases hresult : attempt.result with
    | error deadlineExceeded => simp [result, hresult, resultOf]
    | output o =>
        have hstatus := normalizeInvocationStatus_iff.mpr (hplain o hresult)
        simp [result, hresult, resultOf, hstatus]
  cases hjson : record.json with
  | none =>
      have hnone : ¬ (record.validate = none ∧ record.json.isSome = true) := by simp [hjson]
      exact iff_of_false (hunchanged _) (hinvalid hnone)
  | some recordJson =>
  dsimp only
  rcases appendLedgerRecord_iff henabled hwritable state.ledger record with
    ⟨next, happend, hrecords, hnone, hsome⟩ | ⟨⟨failure, happend⟩, hbad⟩
  · obtain ⟨hstamp, hstatus⟩ := hvalid.mp ⟨hnone, hsome⟩
    have hne : result.status ≠ [] := by
      intro heq
      rw [heq] at hstatus
      revert hstatus
      decide
    have hevent := @invokedEvent_valid s env request payload _ hv hstamp.1 _ hcounter
      attempt.result.failed result hne record (validate_computeSHA256Ref _)
    rw [happend]
    dsimp only
    rw [accounted_iff hrecords (emitEvent_of_valid hevent state.events), and_iff_right hstamp]
    refine and_congr (by rw [← hmodel]; exact Iff.rfl) ?_
    cases hresult : attempt.result with
    | error deadlineExceeded =>
        have hcode := resultOf_error (newInvocationID env.now state.invocationCounter)
          env.expiredAtEnd deadlineExceeded
        rw [← hresult] at hcode
        refine iff_of_true (.inr ⟨.inl hcode.1, hcode.2, ⟨?_, ?_⟩, forall_mem_emitted ⟨rfl, rfl⟩⟩)
          nofun
        · simp only [ProviderResult.failed, if_true, Answer.statusCode]
          split <;> decide
        · rfl
    | output o =>
        have hnormal : result.status = normalizeInvocationStatus o.status := by
          simp [result, hresult, resultOf]
        simp only [ProviderResult.failed, Bool.false_eq_true, if_false]
        constructor
        · rintro (hcompletes | hfails) o' ho'
          · cases ho'
            exact normalizeInvocationStatus_iff.mp (hnormal.symm.trans hcompletes.stated)
          · exact absurd hfails.answer.1 (show ¬ 400 ≤ 200 by decide)
        · intro hplain
          have hcompleted := hnormal.trans (normalizeInvocationStatus_iff.mpr (hplain o rfl))
          exact .inl ⟨hcompleted, ⟨_, rfl, hcompleted⟩, forall_mem_emitted ⟨rfl, hcompleted⟩⟩
  · rw [happend]
    exact iff_of_false (hunchanged _) (hinvalid hbad)

/-- No fallback model of a list passes its validation. -/
def AllRefused (quote : Text → Text) (s : ModelGatewayService) (env : Environment)
    (request : ModelInvocationRequest) (requestRef : DataReference) (first : Nat)
    (modelIDs : List Text) : Prop :=
  ∀ n modelID, modelIDs[n]? = some modelID → ∃ e,
    validateInvocation quote s (env.validatedAt (first + n)) { request with modelID } requestRef =
      .error e

theorem allRefused_cons {request : ModelInvocationRequest} {requestRef : DataReference}
    {first : Nat} {modelID : Text} {modelIDs : List Text} :
    AllRefused quote s env request requestRef first (modelID :: modelIDs) ↔
      (∃ e, validateInvocation quote s (env.validatedAt first) { request with modelID }
        requestRef = .error e) ∧
      AllRefused quote s env request requestRef (first + 1) modelIDs := by
  constructor
  · intro h
    refine ⟨h 0 modelID rfl, fun n later hlater => ?_⟩
    rw [Nat.add_assoc, Nat.add_comm 1 n]
    exact h (n + 1) later hlater
  · rintro ⟨hfirst, hrest⟩ n later hlater
    cases n with
    | zero =>
        cases hlater
        exact hfirst
    | succ n =>
        rw [Nat.add_comm n 1, ← Nat.add_assoc]
        exact hrest n later hlater

/-- The loop over the fallbacks calls none of them, or one of the list at least. -/
theorem callFallbacks_cases {request : ModelInvocationRequest} {payload : Json}
    {selected : ValidatedInvocation} (hselected : Selected s request payload selected)
    (modelIDs : List Text) (deadlineExceeded : Bool) (first : Nat) :
    let called := callFallbacks quote s env request (computeSHA256Ref payload) selected
      deadlineExceeded first modelIDs
    Selected s request payload called.2.selected ∧
      (AllRefused quote s env request (computeSHA256Ref payload) first modelIDs ∧
          called = ([], ⟨selected, .error deadlineExceeded⟩) ∨
        ¬ AllRefused quote s env request (computeSHA256Ref payload) first modelIDs ∧
          ∃ call ∈ called.1, call.model.id ∈ modelIDs) := by
  induction modelIDs generalizing deadlineExceeded first with
  | nil => exact ⟨hselected, .inl ⟨nofun, rfl⟩⟩
  | cons modelID modelIDs ih =>
      rw [allRefused_cons, callFallbacks]
      split
      · next e he =>
          obtain ⟨hlater, hcases⟩ := ih deadlineExceeded (first + 1)
          refine ⟨hlater, hcases.imp (fun h => ⟨⟨⟨e, he⟩, h.1⟩, h.2⟩) fun h => ?_⟩
          obtain ⟨hnot, call, hcall, hid⟩ := h
          exact ⟨fun hall => hnot hall.2, call, hcall, List.mem_cons_of_mem _ hid⟩
      · next fallback he =>
          obtain ⟨hfallback, hid⟩ := selected_of_validate he
          have hnot : ¬ ((∃ e, validateInvocation quote s (env.validatedAt first)
              { request with modelID } (computeSHA256Ref payload) = .error e) ∧
              AllRefused quote s env request (computeSHA256Ref payload) (first + 1) modelIDs) := by
            rintro ⟨⟨e, hrefused⟩, _⟩
            cases he.symm.trans hrefused
          have hmem : fallback.model.id ∈ modelID :: modelIDs := hid ▸ List.mem_cons_self
          dsimp only
          split
          · exact ⟨hfallback, .inr ⟨hnot, _, List.mem_singleton_self _, hmem⟩⟩
          · next later _ =>
              exact ⟨(ih later (first + 1)).1, .inr ⟨hnot, _, List.mem_cons_self, hmem⟩⟩

theorem fallback_ne_current {role current modelID : Text}
    (h : modelID ∈ fallbackModelIDsForRole s role current) : modelID ≠ current := by
  unfold fallbackModelIDsForRole at h
  obtain ⟨more, hmore, hsub, hnew⟩ := takeAllNew_eq_append id [trimSpace current]
    ((s.fallbackModelDeployments.map trimSpace).filter (· ≠ []))
  rw [hmore, List.singleton_append, List.tail_cons] at h
  have hmem := (List.mem_filter.mp h).1
  obtain ⟨written, _, hwritten⟩ := List.mem_map.mp (List.mem_filter.mp (hsub.subset hmem)).1
  rintro rfl
  refine hnew _ hmem ?_
  rw [← hwritten, trimSpace_trimSpace]
  exact List.mem_singleton_self _

/-- An invocation whose statements agree: its time can be stamped; if it is
rejected, its event, if events are emitted, has a run; if a provider gives an output
at once, its status is plain; and if it fails, it fails for its time or leaves no
fallback that may be called. -/
def Agrees (quote : Text → Text) (s : ModelGatewayService) (env : Environment)
    (request : ModelInvocationRequest) : Prop :=
  Stampable env.now ∧
    match validateInvocation quote s (env.validatedAt 0) request
      (computeSHA256Ref request.json) with
    | .error _ => s.harnessEventEmissionEnabled = true → trimSpace request.runID ≠ []
    | .ok v =>
      match env.provider 0 v.request v.model with
      | .output o => PlainStatus o.status
      | .error deadlineExceeded =>
          (deadlineExceeded || env.expiredAfterCall) = true ∨
            AllRefused quote s env request (computeSHA256Ref request.json) 1
              (fallbackModelIDsForRole s request.agentRole v.model.id)

end Invocations

section Handler

/-- On a ledger that takes writes, an invocation is accounted for exactly where its
statements agree. -/
theorem invocation_accounted_iff (absoluteURL : Text → Bool) (quote : Text → Text)
    (registry : ModelRegistry) (allowlist : FoundryDevelopmentAllowlist) (cfg : GatewayConfig)
    (startedAt : Nat → Time) (s : ModelGatewayService)
    (h : configured absoluteURL registry allowlist cfg startedAt = .ok s)
    (env : Environment) (henabled : s.invocationLedgerEnabled = true)
    (hwritable : env.writable = true) (state : GatewayState) (request : ModelInvocationRequest) :
    Accounted s state (invokeHandler quote s env state request) ↔ Agrees quote s env request := by
  have hmode := (configured_ok h).mode
  unfold invokeHandler Agrees
  extract_lets requestRef counted invocationID
  change Accounted s counted _ ↔ _
  have hcounter : 0 < counted.invocationCounter := Nat.succ_pos _
  cases hvalidated : validateInvocation quote s (env.validatedAt 0) request requestRef with
  | error e => exact reject_accounted_iff henabled hwritable hmode counted request _ e hcounter
  | ok v =>
  have hv : Selected s request request.json v :=
    (@selected_of_validate quote s _ request request.modelID _ v hvalidated).1
  have hfinish (attempt : Attempt) (hselected : Selected s request request.json attempt.selected)
      (calls : List Call) := finish_accounted_iff henabled hwritable hmode hcounter hselected calls
  dsimp only
  unfold callProviders
  dsimp only
  cases hcall : env.provider 0 v.request v.model with
  | output o =>
      dsimp only
      rw [hfinish _ hv]
      simp
  | error deadlineExceeded =>
      dsimp only
      split
      · next htimeout =>
          rw [hfinish _ hv]
          simp [htimeout]
      · next htimeout =>
          obtain ⟨hselected, ⟨hall, hcalled⟩ | ⟨hnot, call, hmem, hid⟩⟩ :=
            @callFallbacks_cases quote s env request _ v hv
              (fallbackModelIDsForRole s request.agentRole v.model.id) deadlineExceeded 1
          · rw [hcalled, hfinish _ hv]
            simp [htimeout, hall]
          · rw [hfinish _ hselected]
            refine iff_of_false ?_ ?_
            · rintro ⟨_, hcalls, _⟩
              obtain ⟨hfirst, hrest⟩ := List.forall_mem_cons.mp hcalls
              exact fallback_ne_current hid ((hrest call hmem).trans hfirst.symm)
            · rintro ⟨_, h | h⟩
              · exact htimeout h
              · exact hnot h

def reviewerAllowlist : FoundryDevelopmentAllowlist where
  mode := modelProviderCustomerInternalMock
  allowedModelIDs := ["phi-4".toList]
  roles := [("reviewer".toList, ["phi-4".toList])]
  rolesOnce := List.nodup_singleton _
  customerInternal := ⟨"http://mock".toList, "ref".toList, 1000⟩

def reviewerService : ModelGatewayService :=
  { spacedService with allowlist := reviewerAllowlist }

def review : ModelInvocationRequest where
  runID := "run-1".toList
  modelID := "phi-4".toList
  agentRole := "reviewer".toList
  dataClass := "model".toList
  promptTemplateVersion := "v1".toList
  timeoutMs := 500

/-- A provider that answers with a status. -/
def answering (status : Text) : Environment where
  now := newYear
  validatedAt _ := newYear
  provider _ _ _ := .output ⟨none, status, none⟩
  expiredAfterCall := false
  expiredAtEnd := false
  elapsed := 0
  writable := true

theorem review_is_validated (status : Text) : ∃ v, validateInvocation id reviewerService
    ((answering status).validatedAt 0) review (computeSHA256Ref review.json) = .ok v := by
  change ∃ v, validateInvocation id reviewerService newYear review
    (computeSHA256Ref review.json) = .ok v
  have hok : (validateInvocation id reviewerService newYear review
      (computeSHA256Ref review.json)).isOk = true := by
    decide +kernel
  cases h : validateInvocation id reviewerService newYear review
      (computeSHA256Ref review.json) with
  | ok v => exact ⟨v, rfl⟩
  | error e =>
      rw [h] at hok
      cases hok

theorem completed_review_is_accounted :
    Accounted reviewerService {} (invokeHandler id reviewerService
      (answering "completed".toList) {} review) := by
  refine (invocation_accounted_iff (fun _ => true) id ⟨[approvedModel]⟩ reviewerAllowlist {}
    (fun _ => newYear) reviewerService rfl (answering "completed".toList) rfl rfl {} review).mpr
    ⟨⟨by decide, by decide⟩, ?_⟩
  obtain ⟨v, hv⟩ := review_is_validated "completed".toList
  rw [hv]
  exact show PlainStatus "completed".toList from fun _ => rfl

/-- A status with blanks around it: the provider is called, and nothing is recorded. -/
theorem blank_status_is_unaccounted :
    configured (fun _ => true) ⟨[approvedModel]⟩ reviewerAllowlist {} (fun _ => newYear) =
      .ok reviewerService ∧
    ¬ Accounted reviewerService {} (invokeHandler id reviewerService
      (answering " completed ".toList) {} review) := by
  refine ⟨rfl, fun h => ?_⟩
  obtain ⟨record, events, hrecords, _⟩ := h
  have hnone : (invokeHandler id reviewerService (answering " completed ".toList) {}
      review).state.ledger.records.length = 0 := by
    decide +kernel
  rw [hrecords] at hnone
  simp at hnone

end Handler

end C2c.Gateway.Accounts
