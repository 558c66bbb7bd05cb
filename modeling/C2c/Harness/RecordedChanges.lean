import C2c.Harness.Histories
import C2c.Harness.Requests

/-!
The changes the harness accepts and their events in the log.
-/

namespace C2c.Harness.RecordedChanges

open C2c.Library.JavaText
open C2c.Library.GoJson
open C2c.Library.Machine
open C2c.Harness.Events
open C2c.Harness.Service (Principal RunStatus Transition Documents stateEvent completed policyAllow
  runIdOf)
open C2c.Harness.Histories (completed_refs update_eq_ok)
open C2c.Harness.Requests

section Events

/-- An event as the harness makes it itself, before it is emitted. -/
structure Complete (event : EventEnvelopeV0) : Prop where
  schemaVersion : event.schemaVersion = []
  eventType : event.eventType ≠ []
  runId : event.runId ≠ []
  stepId : event.stepId = 0
  actor : event.actor ≠ []
  capability : event.capability ≠ []
  dataClass : event.dataClass ∈ allowedDataClasses
  policyDecision : event.policyDecision ≠ []
  status : event.status ≠ []
  stateTransition : event.stateTransition ≠ []
  unmeasured : event.latencyMs = none ∧ event.costAmount = none
  inputRef : ∃ uri document, uri ≠ [] ∧ event.inputRef = newEventReference uri document
  outputRef : ∃ uri document, uri ≠ [] ∧ event.outputRef = newEventReference uri document

/-- Only its redaction profile can make such an event invalid. -/
theorem validate_completed_iff {event : EventEnvelopeV0} (h : Complete event) (n now : Nat) :
    (completed { event with stepId := n + 1 } now).validate = none ↔
      event.redactionProfile ∈ allowedRedactionProfiles := by
  obtain ⟨inputUri, input, hinputUri, hinput⟩ := h.inputRef
  obtain ⟨outputUri, output, houtputUri, houtput⟩ := h.outputRef
  obtain ⟨e, hinputRef, houtputRef⟩ := completed_refs { event with stepId := (n : Int) + 1 } now
  constructor
  · intro hvalid
    have hhead : firstFailing
        (completed { event with stepId := (n : Int) + 1 } now).headChecks = none := by
      by_contra hne
      obtain ⟨error, herror⟩ := Option.ne_none_iff_exists'.mp hne
      rw [EventEnvelopeV0.validate, herror] at hvalid
      cases hvalid
    have hprofile := firstFailing_eq_none.mp hhead
      (event.redactionProfile ∈ allowedRedactionProfiles, "redactionProfile",
        "unsupported redactionProfile")
      (by simp [EventEnvelopeV0.headChecks, completed, enrichEventRefs])
    exact of_decide_eq_true hprofile
  · intro hprofile
    refine validate_eq_none ?_ (hinputRef ▸ hinput ▸ validate_enrichRef e hinputUri input "/input")
      (houtputRef ▸ houtput ▸ validate_enrichRef e houtputUri output "/output") ?_
    · simp only [EventEnvelopeV0.headChecks, completed, enrichEventRefs, h.schemaVersion,
        List.forall_mem_cons, List.not_mem_nil, if_true, ne_eq, decide_eq_true_eq, decide_not,
        Bool.not_eq_true', decide_eq_false_iff_not]
      have hservice : ¬ (if event.service = [] then actorSystem else event.service) = [] := by
        split
        · decide
        · assumption
      have hid : ¬ (if event.eventId = [] then
          "hev-".toList ++ natText now ++ '-' :: intText ((n : Int) + 1) else event.eventId) = [] := by
        split
        · simp
        · assumption
      exact ⟨by decide, trivial, hid, h.eventType, hservice, h.runId, by omega, h.actor,
        h.capability, h.dataClass, hprofile, h.policyDecision, h.status, h.stateTransition,
        by simp, fun _ h => h.elim⟩
    · simp only [EventEnvelopeV0.tailChecks, completed, enrichEventRefs, h.unmeasured.1,
        h.unmeasured.2, List.mem_cons, List.not_mem_nil, or_false]
      rintro check (rfl | rfl) <;> rfl

theorem complete_stateEvent (principal : Principal) {runId requestUri : Text} (hrun : runId ≠ [])
    (huri : requestUri ≠ []) (documents : Documents) (transition : Transition) :
    Complete (stateEvent principal runId requestUri documents transition) where
  schemaVersion := rfl
  eventType := by
    show transition.eventType ≠ []
    unfold Transition.eventType
    split <;> decide
  runId := hrun
  stepId := rfl
  actor := principal.named.1
  capability := by
    show "agentic-harness-core".toList ≠ []
    decide
  dataClass := by
    show dataClassOther ∈ allowedDataClasses
    decide
  policyDecision := by
    show policyAllow ≠ []
    decide
  status := by
    show transition.next.text ≠ []
    cases transition.next <;> decide
  stateTransition := by
    show transition.text ≠ []
    unfold Transition.text
    split
    · decide
    · simp
  unmeasured := ⟨rfl, rfl⟩
  inputRef := ⟨requestUri, documents.request, huri, rfl⟩
  outputRef := ⟨_, documents.state, by simp, rfl⟩

theorem complete_registryEvent (principal : Principal) {eventType : String} {dataClass : Text}
    (htype : eventType.toList ≠ []) (hclass : dataClass ∈ allowedDataClasses) (profile : Text)
    {inputUri outputUri : Text} (hinput : inputUri ≠ []) (houtput : outputUri ≠ [])
    (input output : Text) (payload : Library.JsonText.Json) :
    Complete (registryEvent principal eventType dataClass profile policyAllow
      (newEventReference inputUri input) (newEventReference outputUri output) payload) where
  schemaVersion := rfl
  eventType := htype
  runId := by
    show systemRunId ≠ []
    decide
  stepId := rfl
  actor := principal.named.1
  capability := by
    show "agentic-harness-core".toList ≠ []
    decide
  dataClass := hclass
  policyDecision := by
    show policyAllow ≠ []
    decide
  status := by
    show "ok".toList ≠ []
    decide
  stateTransition := by
    show "registry.registered".toList ≠ []
    decide
  unmeasured := ⟨rfl, rfl⟩
  inputRef := ⟨inputUri, input, hinput, rfl⟩
  outputRef := ⟨outputUri, output, houtput, rfl⟩

end Events

section Recorded

/-- What the event of a change shows of it. -/
def Describes (event : EventEnvelopeV0) : Change → Prop
  | .capability cap => event.eventType = "capability.registered".toList ∧
      event.payload = marshal (capabilityPayload cap)
  | .mcpServer server => event.eventType = "mcp-server.registered".toList ∧
      event.payload = marshal (mcpServerPayload server)
  | .run runId transition => event.eventType = transition.eventType ∧ event.runId = runId ∧
      event.stateTransition = transition.text

/-- Each accepted change has one event in the log, which describes it. -/
def Recorded (s : ServiceState) : Prop :=
  ∀ i change, s.changes[i]? = some change →
    ∃ entry, s.log.filter (fun entry => entry.change == some i) = [entry] ∧
      Describes entry.event change

/-- Whether the event of a change is valid. -/
def Allowed : Change → Prop
  | .capability cap => cap.policyProfile ∈ allowedRedactionProfiles
  | _ => True

/-- What a request does to the accepted changes and the log: it may only add an
event, or it is accepted and adds its event where that is allowed. -/
inductive Handled (s s' : ServiceState) : Prop
  | posted (events : List EventEnvelopeV0) (hchanges : s'.changes = s.changes)
      (hlog : s'.log = s.log ++ events.map fun event => ⟨event, none⟩)
  | recorded (change : Change) (event : EventEnvelopeV0)
      (hchanges : s'.changes = s.changes ++ [change]) (hdescribes : Describes event change)
      (hallowed : Allowed change → s'.log = s.log ++ [⟨event, some s.changes.length⟩])
      (hrefused : ¬ Allowed change → s'.log = s.log)

theorem handled_refl (s : ServiceState) : Handled s s :=
  .posted [] rfl (List.append_nil _).symm

theorem handled_emitEvent (s : ServiceState) (event : EventEnvelopeV0) (now : Nat) :
    Handled s (s.emitEvent event now none) := by
  by_cases hvalid : (completed (if event.stepId = 0 then
      { event with stepId := s.steps event.runId + 1 } else event) now).validate = none
  · exact .posted [_] rfl (if_pos hvalid)
  · exact .posted [] rfl ((if_neg hvalid).trans (List.append_nil _).symm)

theorem handled_record {s s' : ServiceState} (hs : s'.changes = s.changes) (hlog : s'.log = s.log)
    {change : Change} {event : EventEnvelopeV0} (h : Complete event)
    (hallowed : Allowed change ↔ event.redactionProfile ∈ allowedRedactionProfiles)
    (hdescribes : ∀ stepId now, Describes (completed { event with stepId := stepId } now) change)
    (now : Nat) : Handled s (s'.record change event now) := by
  have hvalid := validate_completed_iff h (s'.steps event.runId) now
  rw [← hallowed] at hvalid
  refine .recorded change (completed { event with stepId := s'.steps event.runId + 1 } now) ?_
    (hdescribes _ now) ?_ ?_
  · rw [← hs]
    rfl
  · intro ha
    simp only [ServiceState.record, ServiceState.emitEvent, h.stepId, if_true, hvalid.mpr ha, hs,
      hlog]
  · intro ha
    have hinvalid := mt hvalid.mp ha
    simp only [ServiceState.record, ServiceState.emitEvent, h.stepId, if_true, if_neg hinvalid,
      hlog]

theorem decideRegistration_eq_ok {role dataClass reason : Text}
    (h : decideRegistration role dataClass = .ok reason) : reason = policyAllow := by
  unfold decideRegistration at h
  dsimp only at h
  generalize (if role = [] then "agent".toList else role) = role at h
  split at h
  · cases h
  · exact (Except.ok.inj h).symm

variable (isURL : Text → Bool)

theorem validateCapabilityFields_eq_none {cap : Capability}
    (h : validateCapabilityFields isURL cap = none) :
    cap.dataClass ∈ allowedDataClasses ∧ cap.policyProfile ≠ [] := by
  have hchecks := List.find?_eq_none.mp (Option.map_eq_none_iff.mp h)
  simp only [List.forall_mem_cons, List.not_mem_nil, Bool.not_eq_eq_eq_not, Bool.not_true,
    Bool.not_eq_false, decide_eq_true_eq, ne_eq] at hchecks
  exact ⟨hchecks.2.2.2.2.2.1, hchecks.2.2.2.2.2.2.1⟩

theorem handled_postCapability (s : ServiceState) (principal : Principal) (cap : Capability)
    (now : Nat) : Handled s (postCapability isURL s principal cap now) := by
  unfold postCapability
  split
  · exact handled_refl s
  next reason hreason =>
  split
  · exact handled_refl s
  next capabilities hregister =>
  rw [decideRegistration_eq_ok hreason]
  have hvalid : validateCapabilityFields isURL cap = none := by
    unfold registerCapability at hregister
    split at hregister
    · cases hregister
    · assumption
  obtain ⟨hclass, hprofile⟩ := validateCapabilityFields_eq_none isURL hvalid
  refine handled_record ?_ ?_ ?_ ?_ ?_ now
  · rfl
  · rfl
  · exact complete_registryEvent principal (by decide) hclass _ (by decide) (by decide) _ _ _
  · show cap.policyProfile ∈ _ ↔ cap.policyProfileOrDefault ∈ _
    rw [Capability.policyProfileOrDefault, if_neg hprofile]
  · exact fun _ _ => ⟨rfl, rfl⟩

theorem handled_postMcpServer (s : ServiceState) (principal : Principal) (server : McpServer)
    (now : Nat) : Handled s (postMcpServer s principal server now) := by
  unfold postMcpServer
  split
  · exact handled_refl s
  next reason hreason =>
  split
  · exact handled_refl s
  · rw [decideRegistration_eq_ok hreason]
    refine handled_record ?_ ?_ ?_ ?_ ?_ now
    · rfl
    · rfl
    · exact complete_registryEvent principal (by decide) (by decide) _ (by decide) (by decide) _ _ _
    · exact iff_of_true trivial (by show profileControlledByHarness ∈ _; decide)
    · exact fun _ _ => ⟨rfl, rfl⟩

theorem handled_run {s : ServiceState} {store : Service.RunStore} (principal : Principal)
    {runId requestUri : Text} (hrun : runId ≠ []) (huri : requestUri ≠ []) (documents : Documents)
    (transition : Transition) (now : Nat) :
    Handled s ({ s with store }.record (.run runId transition)
      (stateEvent principal runId requestUri documents transition) now) := by
  refine handled_record ?_ ?_ ?_ ?_ ?_ now
  · rfl
  · rfl
  · exact complete_stateEvent principal hrun huri documents transition
  · exact iff_of_true trivial (by show profileControlledByHarness ∈ _; decide)
  · exact fun _ _ => ⟨rfl, rfl, rfl⟩

/-- A run with a status has an id. -/
def RunsNamed (s : ServiceState) : Prop :=
  s.store.runs [] = none

theorem handled_handle (s : ServiceState) (request : Request) (hnamed : RunsNamed s) :
    Handled s (handle isURL s request) := by
  cases request with
  | postCapability principal cap now => exact handled_postCapability isURL s principal cap now
  | postMcpServer principal server now => exact handled_postMcpServer s principal server now
  | postRun principal workflowId documents now =>
      show Handled s (postRun s principal workflowId documents now)
      unfold postRun
      split
      · exact handled_refl s
      · exact handled_run principal (by simp [runIdOf]) (by decide) documents _ now
  | patchRun principal runId status documents now =>
      show Handled s (patchRun s principal runId status documents now)
      unfold patchRun
      split
      · exact handled_refl s
      next store previous next hupdate =>
      have hrun : runId ≠ [] := by
        rintro rfl
        have hfound := (update_eq_ok hupdate).1
        rw [hnamed] at hfound
        cases hfound
      exact handled_run principal hrun (by simp) documents _ now
  | postEvent principal event now =>
      show Handled s (postEvent s principal event now)
      unfold postEvent
      split
      · exact handled_refl s
      split
      · exact handled_refl s
      split
      · exact handled_refl s
      split
      · exact handled_refl s
      · exact handled_emitEvent s _ now

theorem runsNamed_handle {s : ServiceState} (h : RunsNamed s) (request : Request) :
    RunsNamed (handle isURL s request) := by
  cases request with
  | postCapability principal cap now =>
      show RunsNamed (postCapability isURL s principal cap now)
      unfold postCapability
      split
      · exact h
      split <;> exact h
  | postMcpServer principal server now =>
      show RunsNamed (postMcpServer s principal server now)
      unfold postMcpServer
      split
      · exact h
      split <;> exact h
  | postRun principal workflowId documents now =>
      show RunsNamed (postRun s principal workflowId documents now)
      unfold postRun
      split
      · exact h
      · have hid : runIdOf (s.store.seq + 1) ≠ [] := by simp [runIdOf]
        show Function.update s.store.runs (runIdOf (s.store.seq + 1)) (some .starting) [] = none
        rw [Function.update_of_ne hid.symm]
        exact h
  | patchRun principal runId status documents now =>
      show RunsNamed (patchRun s principal runId status documents now)
      unfold patchRun
      split
      · exact h
      next store previous next hupdate =>
      obtain ⟨hfound, _, rfl⟩ := update_eq_ok hupdate
      have hrun : runId ≠ [] := by
        rintro rfl
        rw [h] at hfound
        cases hfound
      show Function.update s.store.runs runId (some next) [] = none
      rw [Function.update_of_ne hrun.symm]
      exact h
  | postEvent principal event now =>
      show RunsNamed (postEvent s principal event now)
      unfold postEvent
      split
      · exact h
      split
      · exact h
      split
      · exact h
      split <;> exact h

/-- The log names accepted changes only. -/
def Placed (s : ServiceState) : Prop :=
  ∀ entry ∈ s.log, ∀ i, entry.change = some i → i < s.changes.length

theorem placed_handled {s s' : ServiceState} (h : Placed s) (hhandled : Handled s s') : Placed s' := by
  cases hhandled with
  | posted events hchanges hlog =>
      intro entry hentry i hi
      rw [hlog, List.mem_append] at hentry
      rw [hchanges]
      rcases hentry with hentry | hentry
      · exact h entry hentry i hi
      · obtain ⟨event, _, rfl⟩ := List.mem_map.mp hentry
        cases hi
  | recorded change event hchanges _ hallowed hrefused =>
      intro entry hentry i hi
      rw [hchanges, List.length_append, List.length_singleton]
      by_cases ha : Allowed change
      · rw [hallowed ha, List.mem_append, List.mem_singleton] at hentry
        rcases hentry with hentry | rfl
        · exact Nat.lt_succ_of_lt (h entry hentry i hi)
        · cases hi
          exact Nat.lt_succ_self _
      · rw [hrefused ha] at hentry
        exact Nat.lt_succ_of_lt (h entry hentry i hi)

theorem filter_change_eq_nil {s : ServiceState} (h : Placed s) :
    s.log.filter (fun entry => entry.change == some s.changes.length) = [] := by
  rw [List.filter_eq_nil_iff]
  intro entry hentry hchange
  exact absurd (h entry hentry _ (eq_of_beq hchange)) (Nat.lt_irrefl _)

/-- A request keeps every change recorded if and only if it accepts no change
whose event is not allowed. -/
theorem recorded_handled_iff {s s' : ServiceState} (hplaced : Placed s) (h : Handled s s') :
    Recorded s' ↔ Recorded s ∧ ∀ change ∈ s'.changes.drop s.changes.length, Allowed change := by
  cases h with
  | posted events hchanges hlog =>
      have hfilter : ∀ i, s'.log.filter (fun entry => entry.change == some i) =
          s.log.filter fun entry => entry.change == some i := by
        intro i
        have hposted : (events.map fun event => (⟨event, none⟩ : Logged)).filter
            (fun entry => entry.change == some i) = [] := by
          rw [List.filter_eq_nil_iff]
          intro entry hentry
          obtain ⟨event, _, rfl⟩ := List.mem_map.mp hentry
          exact Bool.false_ne_true
        rw [hlog, List.filter_append, hposted, List.append_nil]
      simp [Recorded, hchanges, hfilter]
  | recorded change event hchanges hdescribes hallowed hrefused =>
      have hlast : s'.changes[s.changes.length]? = some change := by
        rw [hchanges, List.getElem?_concat_length]
      have hearlier : ∀ i, i < s.changes.length → s'.changes[i]? = s.changes[i]? := by
        intro i hi
        rw [hchanges, List.getElem?_append_left hi]
      have hdrop : s'.changes.drop s.changes.length = [change] := by
        rw [hchanges, List.drop_left]
      rw [hdrop, List.forall_mem_singleton]
      by_cases ha : Allowed change
      · simp only [ha, and_true]
        have hfilter : ∀ i, i ≠ s.changes.length →
            s'.log.filter (fun entry => entry.change == some i) =
              s.log.filter fun entry => entry.change == some i := by
          intro i hi
          rw [hallowed ha, List.filter_append, List.filter_cons_of_neg (by simpa using hi.symm),
            List.filter_nil, List.append_nil]
        constructor
        · intro hrecorded i earlier hi
          have hlt := (List.getElem?_eq_some_iff.mp hi).1
          have hfound := hrecorded i earlier ((hearlier i hlt).trans hi)
          rwa [hfilter i hlt.ne] at hfound
        · intro hrecorded i earlier hi
          rcases Nat.lt_trichotomy i s.changes.length with hlt | rfl | hgt
          · rw [hfilter i hlt.ne]
            exact hrecorded i earlier ((hearlier i hlt).symm.trans hi)
          · obtain rfl : change = earlier := Option.some.inj (hlast.symm.trans hi)
            refine ⟨⟨event, some s.changes.length⟩, ?_, hdescribes⟩
            rw [hallowed ha, List.filter_append, filter_change_eq_nil hplaced, List.nil_append,
              List.filter_cons_of_pos (by simp), List.filter_nil]
          · have hlt := (List.getElem?_eq_some_iff.mp hi).1
            rw [hchanges, List.length_append, List.length_singleton] at hlt
            omega
      · simp only [ha, and_false, iff_false]
        intro hrecorded
        obtain ⟨entry, hentry, _⟩ := hrecorded _ change hlast
        rw [hrefused ha, filter_change_eq_nil hplaced] at hentry
        cases hentry

/-- The changes a request accepts are added to the earlier ones. -/
theorem changes_handled {s s' : ServiceState} (h : Handled s s') :
    s'.changes = s.changes ++ s'.changes.drop s.changes.length := by
  cases h with
  | posted _ hchanges => rw [hchanges, List.drop_length, List.append_nil]
  | recorded _ _ hchanges => rw [hchanges, List.drop_left]

/-- What holds of the log after every run of requests. -/
structure Kept (s : ServiceState) : Prop where
  runsNamed : RunsNamed s
  placed : Placed s
  recorded_iff : Recorded s ↔ ∀ change ∈ s.changes, Allowed change

theorem kept_handle {s : ServiceState} (h : Kept s) (request : Request) :
    Kept (handle isURL s request) := by
  have hhandled := handled_handle isURL s request h.runsNamed
  refine ⟨runsNamed_handle isURL h.runsNamed request, placed_handled h.placed hhandled, ?_⟩
  rw [recorded_handled_iff h.placed hhandled, h.recorded_iff, changes_handled hhandled,
    List.forall_mem_append, List.drop_left]

/-- Every accepted capability registration, MCP registration, run creation and
run update has exactly one event in the log, which describes it, if and only if
the accepted capabilities have redaction profiles for policy profiles. -/
theorem changes_recorded_iff (requests : List Request) :
    Recorded (run (handle isURL) {} requests) ↔
      ∀ cap, .capability cap ∈ (run (handle isURL) {} requests).changes →
        cap.policyProfile ∈ allowedRedactionProfiles := by
  have hstep (s : ServiceState) (request : Request) (h : Kept s) : Kept (handle isURL s request) :=
    kept_handle isURL h request
  have hinit : Kept {} := by
    refine ⟨rfl, nofun, ?_⟩
    simp [Recorded]
  rw [(run_invariant hstep hinit requests).recorded_iff]
  constructor
  · exact fun h cap hcap => h _ hcap
  · intro h change hchange
    cases change with
    | capability cap => exact h cap hchange
    | mcpServer server => exact trivial
    | run runId transition => exact trivial

end Recorded

def operator : Principal :=
  ⟨"operator".toList, "orchestrator".toList, by decide⟩

/-- A capability whose policy profile is not the name of a redaction profile. -/
def strictCapability : Capability where
  id := "cobol-parser".toList
  name := "Parser".toList
  owner := "platform".toList
  endpoint := "http://cobol-parser:8080".toList
  dataClass := "parser".toList
  policyProfile := "strict".toList
  version := "1.0.0".toList

/-- The registration is accepted and leaves no event. -/
theorem strict_capability_unrecorded :
    (run (handle fun _ => true) {} [.postCapability operator strictCapability 1]).changes =
        [.capability strictCapability] ∧
      (run (handle fun _ => true) {} [.postCapability operator strictCapability 1]).log = [] := by
  constructor <;> rfl

end C2c.Harness.RecordedChanges
