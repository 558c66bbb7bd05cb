import C2c.Harness.RecordedChanges

/-!
The trajectory ledgers of the harness, and its processes one after the other on
one event log file.
-/

namespace C2c.Harness.Restarts

open C2c.Library.JavaText
open C2c.Library.Machine
open C2c.Harness.Events
open C2c.Harness.Service (Principal Documents RunStatus completed stateEvent runIdOf withDefaults)
open C2c.Harness.Histories (completed_runId update_eq_ok)
open C2c.Harness.Requests
open C2c.Harness.RecordedChanges

section Ledgers

structure AgentTrajectoryEntry where
  eventId : Text
  stepId : Int
  actor : Text
  capability : Text
  dataClass : Text
  eventType : Text
  stateTransition : Text
  status : Text
  inputRef : EventReference
  outputRef : EventReference
  createdAt : Option Nat

/-- The entry of an event, under a step id of the ledger. -/
def entryOf (event : EventEnvelopeV0) (stepId : Int) : AgentTrajectoryEntry where
  eventId := event.eventId
  stepId := stepId
  actor := event.actor
  capability := event.capability
  dataClass := event.dataClass
  eventType := event.eventType
  stateTransition := event.stateTransition
  status := event.status
  inputRef := event.inputRef
  outputRef := event.outputRef
  createdAt := event.createdAt

/-- The entries of events in their order, with step ids from a number on. -/
def entriesFrom (stepId : Int) : List EventEnvelopeV0 → List AgentTrajectoryEntry
  | [] => []
  | event :: events => entryOf event stepId :: entriesFrom (stepId + 1) events

structure AgentTrajectoryLedgerV0 where
  schemaVersion : Text
  runId : Text
  status : Text
  startedAt : Option Nat
  completedAt : Option Nat
  capturedAt : Option Nat
  steps : List AgentTrajectoryEntry

/-- The checks of the steps from an index on, after steps of the given ids. -/
def validateSteps (seen : List Int) (index : Nat) :
    List AgentTrajectoryEntry → Option SchemaValidationError
  | [] => none
  | step :: steps =>
      (firstFailing
        [(step.eventId ≠ [], "steps.eventId", s!"step[{index}] eventId is required"),
          (0 < step.stepId, "steps.stepId", s!"step[{index}].stepId must be > 0"),
          (!seen.contains step.stepId, "steps.stepId", s!"step[{index}] has duplicate stepId"),
          (step.actor ≠ [], "steps.actor", s!"step[{index}] actor is required"),
          (step.dataClass ∈ allowedDataClasses, "steps.dataClass",
            s!"step[{index}] has unsupported dataClass")]).orElse fun _ =>
      step.inputRef.validate.orElse fun _ =>
      step.outputRef.validate.orElse fun _ =>
      validateSteps (step.stepId :: seen) (index + 1) steps

/-- `AgentTrajectoryLedgerV0.Validate`. -/
def AgentTrajectoryLedgerV0.validate (l : AgentTrajectoryLedgerV0) : Option SchemaValidationError :=
  (firstFailing
    [(l.schemaVersion ≠ [], "schemaVersion", "schemaVersion is required"),
      (l.schemaVersion = eventSchemaVersionV0, "schemaVersion", "schemaVersion must be v0"),
      (l.runId ≠ [], "runId", "runId is required"),
      (l.status ≠ [], "status", "status is required"),
      (l.capturedAt ≠ none, "capturedAt", "capturedAt is required")]).orElse fun _ =>
  validateSteps [] 0 l.steps

/-- Whether an event may stand before another in a ledger. -/
def standsBefore (a b : EventEnvelopeV0) : Bool :=
  if a.createdAt = b.createdAt then decide (a.stepId ≤ b.stepId)
  else
    match a.createdAt, b.createdAt with
    | none, _ => true
    | some _, none => false
    | some m, some n => decide (m < n)

/-- `BuildAgentTrajectoryLedger`. -/
def buildAgentTrajectoryLedger (runId : Text) (events : List EventEnvelopeV0) (now : Nat) :
    Except SchemaValidationError AgentTrajectoryLedgerV0 :=
  if runId = [] then .error ⟨"runId".toList, "runId is required".toList⟩
  else
    let filtered := (events.filter fun event => event.runId == runId).mergeSort standsBefore
    match filtered.head?, filtered.getLast? with
    | some first, some latest =>
        let ledger : AgentTrajectoryLedgerV0 := {
          schemaVersion := eventSchemaVersionV0
          runId := runId
          status := latest.status
          startedAt := first.createdAt
          completedAt := ((filtered.filter Service.endsRun).getLast?.map
            EventEnvelopeV0.createdAt).getD none
          capturedAt := some now
          steps := entriesFrom 1 filtered }
        match ledger.validate with
        | some e => .error e
        | none => .ok ledger
    | _, _ => .error ⟨"events".toList, "no events for run".toList⟩

/-- `GET /v0/runs/\x7bid\x7d/ledger`, where the run is found. -/
def serveLedger (s : ServiceState) (runId : Text) (now : Nat) :
    Option (Except SchemaValidationError AgentTrajectoryLedgerV0) :=
  (s.store.runs runId).map fun status =>
    (buildAgentTrajectoryLedger runId (s.log.map Logged.event) now).map fun ledger =>
      { ledger with status := status.text }

end Ledgers

section Processes

/-- An event with the run it was emitted for, by the order of creation of all
runs of all processes. -/
structure Emitted where
  event : EventEnvelopeV0
  run : Option Nat

/-- The process, the file it writes unless it had to fall back to memory, and
what all processes have done. -/
structure Deployment where
  service : ServiceState := {}
  persisted : Bool := true
  file : List EventEnvelopeV0 := []
  emitted : List Emitted := []
  created : Nat := 0
  instanceOf : Text → Option Nat := fun _ => none

inductive Operation
  | request (request : Request)
  | restart (readable : Bool)

variable (isURL : Text → Bool)

/-- The run of each id after a request: the store gives a new run the next
number. -/
def instancesAfter (d : Deployment) (next : ServiceState) : Text → Option Nat :=
  if next.store.seq = d.service.store.seq then d.instanceOf
  else Function.update d.instanceOf (runIdOf next.store.seq) (some d.created)

def serve (d : Deployment) (request : Request) : Deployment :=
  let next := handle isURL d.service request
  let events := (next.log.drop d.service.log.length).map Logged.event
  let instances := instancesAfter d next
  { d with
    service := next
    file := if d.persisted then d.file ++ events else d.file
    emitted := d.emitted ++ events.map fun event => ⟨event, instances event.runId⟩
    created := if next.store.seq = d.service.store.seq then d.created else d.created + 1
    instanceOf := instances }

/-- `NewHarnessService` on the file, which may turn out not to be readable. -/
def restart (d : Deployment) (readable : Bool) : Deployment :=
  { d with
    service := { log := if readable then d.file.map fun event => ⟨event, none⟩ else [] }
    persisted := readable
    instanceOf := fun _ => none }

def perform (d : Deployment) : Operation → Deployment
  | .request request => serve isURL d request
  | .restart readable => restart d readable

/-- The id `emitEvent` generates. -/
def generatedId (s : ServiceState) (runId : Text) (stepId : Int) (now : Nat) : Text :=
  "hev-".toList ++ natText now ++ '-' :: intText (if stepId = 0 then s.steps runId + 1 else stepId)

/-- The run id and the event id of the event a request emits, if it emits one. -/
def identityOf (s : ServiceState) : Request → Text × Text
  | .postCapability _ _ now | .postMcpServer _ _ now =>
      (systemRunId, generatedId s systemRunId 0 now)
  | .postRun _ _ _ now =>
      (runIdOf (s.store.seq + 1), generatedId s (runIdOf (s.store.seq + 1)) 0 now)
  | .patchRun _ runId _ _ now => (runId, generatedId s runId 0 now)
  | .postEvent _ event now =>
      (event.runId, if event.eventId = [] then generatedId s event.runId event.stepId now
        else event.eventId)

/-- A request creates a run only under an id no event carries yet, and the id of
an event it emits is not that of an event of another run. -/
def Fresh (d : Deployment) : Operation → Prop
  | .restart _ => True
  | .request request =>
      let next := handle isURL d.service request
      (next.store.seq ≠ d.service.store.seq →
        ∀ e ∈ d.emitted, e.event.runId ≠ runIdOf (d.service.store.seq + 1)) ∧
      (next.log ≠ d.service.log → ∀ e ∈ d.emitted, e.run ≠ none →
        e.run ≠ d.instanceOf (identityOf d.service request).1 →
        e.event.eventId ≠ (identityOf d.service request).2)

end Processes

section Effects

/-- What a request does to the log and the runs. -/
inductive Effect (s s' : ServiceState) (identity : Text × Text) : Prop
  | quiet (hlog : s'.log = s.log) (hseq : s'.store.seq = s.store.seq)
      (hruns : ∀ r, (s'.store.runs r).isSome = (s.store.runs r).isSome)
  | emitted (entry : Logged) (hlog : s'.log = s.log ++ [entry])
      (hvalid : entry.event.validate = none)
      (hidentity : identity = (entry.event.runId, entry.event.eventId))
      (hseq : s'.store.seq = s.store.seq)
      (hruns : ∀ r, (s'.store.runs r).isSome = (s.store.runs r).isSome)
      (hrun : (s.store.runs entry.event.runId).isSome ∨ entry.event.runId = systemRunId)
  | created (entry : Logged) (hlog : s'.log = s.log ++ [entry])
      (hvalid : entry.event.validate = none)
      (hidentity : identity = (entry.event.runId, entry.event.eventId))
      (hrun : entry.event.runId = runIdOf (s.store.seq + 1)) (hstore : s'.store = s.store.create)

theorem completed_eventId (event : EventEnvelopeV0) (now : Nat) :
    (completed event now).eventId = if event.eventId = [] then
      "hev-".toList ++ natText now ++ '-' :: intText event.stepId else event.eventId :=
  rfl

/-- The event that is emitted is the one that is expected. -/
theorem emitEvent_cases (s : ServiceState) (event : EventEnvelopeV0) (now : Nat)
    (change : Option Nat) :
    (s.emitEvent event now change).log = s.log ∨
      ∃ entry, (s.emitEvent event now change).log = s.log ++ [entry] ∧
        entry.event.validate = none ∧ entry.event.runId = event.runId ∧
        entry.event.eventId = if event.eventId = [] then
          generatedId s event.runId event.stepId now else event.eventId := by
  by_cases hvalid : (completed (if event.stepId = 0 then
      { event with stepId := s.steps event.runId + 1 } else event) now).validate = none
  · right
    refine ⟨⟨_, change⟩, if_pos hvalid, hvalid, ?_, ?_⟩
    · show (completed (if event.stepId = 0 then _ else _) now).runId = _
      rw [completed_runId]
      split <;> rfl
    · show (completed (if event.stepId = 0 then _ else _) now).eventId = _
      rw [completed_eventId]
      unfold generatedId
      split <;> rfl
  · exact .inl (if_neg hvalid)

/-- An event the harness makes itself is emitted. -/
theorem emitEvent_complete (s : ServiceState) {event : EventEnvelopeV0} (h : Complete event)
    (hallowed : event.redactionProfile ∈ allowedRedactionProfiles) (now : Nat)
    (change : Option Nat) :
    ∃ entry, (s.emitEvent event now change).log = s.log ++ [entry] ∧
      entry.event.validate = none ∧ entry.event.runId = event.runId ∧
      entry.event.eventId = if event.eventId = [] then
        generatedId s event.runId event.stepId now else event.eventId := by
  rcases emitEvent_cases s event now change with hquiet | hemitted
  · have hvalid := (validate_completed_iff h (s.steps event.runId) now).mpr hallowed
    simp [ServiceState.emitEvent, h.stepId, hvalid] at hquiet
  · exact hemitted

theorem effect_refl (s : ServiceState) (identity : Text × Text) : Effect s s identity :=
  .quiet rfl rfl fun _ => rfl

/-- The effect of an emission after which the store has the same runs. -/
theorem effect_emitEvent (s s' : ServiceState) (hlog : s'.log = s.log) (hsteps : s'.steps = s.steps)
    (hseq : s'.store.seq = s.store.seq)
    (hruns : ∀ r, (s'.store.runs r).isSome = (s.store.runs r).isSome) (event : EventEnvelopeV0)
    (hrun : (s.store.runs event.runId).isSome ∨ event.runId = systemRunId) (now : Nat)
    (change : Option Nat) :
    Effect s (s'.emitEvent event now change) (event.runId, if event.eventId = [] then
      generatedId s event.runId event.stepId now else event.eventId) := by
  rcases emitEvent_cases s' event now change with hquiet | ⟨entry, hentry, hvalid, hid, heventId⟩
  · exact .quiet (hquiet.trans hlog) hseq hruns
  · rw [hlog] at hentry
    refine .emitted entry hentry hvalid ?_ hseq hruns (hid ▸ hrun)
    rw [hid, heventId]
    simp only [generatedId, hsteps]

variable (isURL : Text → Bool)

theorem effect_postRun (s : ServiceState) (principal : Principal) (workflowId : Text)
    (documents : Documents) (now : Nat) :
    Effect s (postRun s principal workflowId documents now)
      (identityOf s (.postRun principal workflowId documents now)) := by
  unfold postRun
  split
  · exact effect_refl s _
  have hcomplete : Complete (stateEvent principal (runIdOf (s.store.seq + 1))
      "urn:harness/run/request".toList documents ⟨none, .starting⟩) :=
    complete_stateEvent principal (by simp [runIdOf]) (by decide) documents _
  have hallowed : (stateEvent principal (runIdOf (s.store.seq + 1))
      "urn:harness/run/request".toList documents ⟨none, .starting⟩).redactionProfile ∈
        allowedRedactionProfiles := by
    show profileControlledByHarness ∈ _
    decide
  obtain ⟨entry, hentry, hvalid, hid, heventId⟩ := emitEvent_complete
    { s with
      store := s.store.create
      changes := s.changes ++ [.run (runIdOf (s.store.seq + 1)) ⟨none, .starting⟩] }
    hcomplete hallowed now (some s.changes.length)
  refine .created entry hentry hvalid ?_ hid rfl
  rw [hid, heventId]
  rfl

theorem effect_patchRun (s : ServiceState) (principal : Principal) (runId status : Text)
    (documents : Documents) (now : Nat) :
    Effect s (patchRun s principal runId status documents now)
      (identityOf s (.patchRun principal runId status documents now)) := by
  unfold patchRun
  split
  · exact effect_refl s _
  next store previous next hupdate =>
  obtain ⟨hfound, _, rfl⟩ := update_eq_ok hupdate
  have hsome : (s.store.runs runId).isSome := by
    rw [hfound]
    rfl
  have hruns : ∀ r, (Function.update s.store.runs runId (some next) r).isSome =
      (s.store.runs r).isSome := by
    intro r
    by_cases hr : r = runId
    · rw [hr, Function.update_self, hsome]
      rfl
    · rw [Function.update_of_ne hr]
  exact effect_emitEvent s
    { s with
      store := { s.store with runs := Function.update s.store.runs runId (some next) }
      changes := s.changes ++ [.run runId ⟨some previous, next⟩] }
    rfl rfl rfl hruns (stateEvent principal runId _ documents _) (.inl hsome) now _

theorem effect_handle (s : ServiceState) (request : Request) :
    Effect s (handle isURL s request) (identityOf s request) := by
  cases request with
  | postCapability principal cap now =>
      show Effect s (postCapability isURL s principal cap now) _
      unfold postCapability
      split
      · exact effect_refl s _
      next reason _ =>
      split
      · exact effect_refl s _
      next capabilities _ =>
      exact effect_emitEvent s { s with capabilities, changes := s.changes ++ [.capability cap] }
        rfl rfl rfl (fun _ => rfl) (capabilityEvent principal cap reason) (.inr rfl) now _
  | postMcpServer principal server now =>
      show Effect s (postMcpServer s principal server now) _
      unfold postMcpServer
      split
      · exact effect_refl s _
      next reason _ =>
      split
      · exact effect_refl s _
      next mcpServers _ =>
      exact effect_emitEvent s { s with mcpServers, changes := s.changes ++ [.mcpServer server] }
        rfl rfl rfl (fun _ => rfl) (mcpServerEvent principal server reason) (.inr rfl) now _
  | postRun principal workflowId documents now =>
      exact effect_postRun s principal workflowId documents now
  | patchRun principal runId status documents now =>
      exact effect_patchRun s principal runId status documents now
  | postEvent principal event now =>
      show Effect s (postEvent s principal event now) _
      unfold postEvent
      split
      · exact effect_refl s _
      split
      · exact effect_refl s _
      next status hfound =>
      split
      · exact effect_refl s _
      split
      · exact effect_refl s _
      · exact effect_emitEvent s s rfl rfl rfl (fun _ => rfl) (withDefaults principal event now)
          (.inl (Option.isSome_iff_exists.mpr ⟨status, hfound⟩)) now _

end Effects

section Instances

/-- What every fresh operation keeps: the runs of the process have their own
instances, under whose ids no other instance has events, and the log has the
events of each. -/
structure Sound (d : Deployment) : Prop where
  valid : ∀ e ∈ d.emitted, e.event.validate = none
  fileEmitted : ∀ event ∈ d.file, ∃ e ∈ d.emitted, e.event = event
  logEmitted : ∀ entry ∈ d.service.log, ∃ e ∈ d.emitted, e.event = entry.event
  tagged : ∀ e ∈ d.emitted, ∀ n, e.run = some n → n < d.created
  running : ∀ r, (d.instanceOf r).isSome = (d.service.store.runs r).isSome
  numbered : ∀ r n, d.instanceOf r = some n →
    n < d.created ∧ ∃ k, k ≤ d.service.store.seq ∧ r = runIdOf k
  injective : ∀ r r' n, d.instanceOf r = some n → d.instanceOf r' = some n → r = r'
  owned : ∀ r n, d.instanceOf r = some n → ∀ e ∈ d.emitted,
    (e.event.runId = r ↔ e.run = some n)
  served : ∀ r n, d.instanceOf r = some n →
    (d.service.log.map Logged.event).filter (fun event => event.runId == r) =
      (d.emitted.filter fun e => e.run == some n).map Emitted.event
  apart : ∀ a ∈ d.emitted, ∀ b ∈ d.emitted, ∀ m n, a.run = some m → b.run = some n → m ≠ n →
    a.event.runId ≠ b.event.runId ∧ a.event.eventId ≠ b.event.eventId

/-- The sink takes an event. -/
def Deployment.emit (d : Deployment) (entry : Logged) : Deployment :=
  { d with
    service := { d.service with log := d.service.log ++ [entry] }
    file := if d.persisted then d.file ++ [entry.event] else d.file
    emitted := d.emitted ++ [⟨entry.event, d.instanceOf entry.event.runId⟩] }

theorem sound_emit {d : Deployment} (h : Sound d) {entry : Logged}
    (hvalid : entry.event.validate = none)
    (hfresh : ∀ e ∈ d.emitted, e.run ≠ none → e.run ≠ d.instanceOf entry.event.runId →
      e.event.eventId ≠ entry.event.eventId) : Sound (d.emit entry) where
  valid := by
    intro e he
    rcases List.mem_append.mp he with he | he
    · exact h.valid e he
    · rw [List.mem_singleton.mp he]
      exact hvalid
  fileEmitted := by
    intro event hevent
    have hold : event ∈ d.file ∨ event = entry.event := by
      unfold Deployment.emit at hevent
      dsimp only at hevent
      split at hevent
      · simpa using hevent
      · exact .inl hevent
    rcases hold with hold | rfl
    · obtain ⟨e, he, heq⟩ := h.fileEmitted event hold
      exact ⟨e, List.mem_append_left _ he, heq⟩
    · exact ⟨_, List.mem_append_right _ (List.mem_singleton_self _), rfl⟩
  logEmitted := by
    intro logged hlogged
    rcases List.mem_append.mp hlogged with hlogged | hlogged
    · obtain ⟨e, he, heq⟩ := h.logEmitted logged hlogged
      exact ⟨e, List.mem_append_left _ he, heq⟩
    · rw [List.mem_singleton.mp hlogged]
      exact ⟨_, List.mem_append_right _ (List.mem_singleton_self _), rfl⟩
  tagged := by
    intro e he n hn
    rcases List.mem_append.mp he with he | he
    · exact h.tagged e he n hn
    · rw [List.mem_singleton.mp he] at hn
      exact (h.numbered _ n hn).1
  running := h.running
  numbered := h.numbered
  injective := h.injective
  owned := by
    intro r n hr e he
    rcases List.mem_append.mp he with he | he
    · exact h.owned r n hr e he
    · rw [List.mem_singleton.mp he]
      refine ⟨fun heq => ?_, fun hn => h.injective _ r n hn hr⟩
      have heq : entry.event.runId = r := heq
      show d.instanceOf entry.event.runId = some n
      rw [heq]
      exact hr
  served := by
    intro r n hr
    have hr : d.instanceOf r = some n := hr
    have hold := h.served r n hr
    by_cases heq : entry.event.runId = r
    · simp [Deployment.emit, List.filter_append, hold, heq, hr]
    · have hne : d.instanceOf entry.event.runId ≠ some n := fun hn => heq (h.injective _ r n hn hr)
      simp [Deployment.emit, List.filter_append, hold, heq, hne]
  apart := by
    have hnew : ∀ b ∈ d.emitted, ∀ m n, d.instanceOf entry.event.runId = some m → b.run = some n →
        m ≠ n → entry.event.runId ≠ b.event.runId ∧ entry.event.eventId ≠ b.event.eventId := by
      intro b hb m n hm hn hne
      constructor
      · intro heq
        have hrun := (h.owned _ m hm b hb).mp heq.symm
        exact hne (Option.some.inj (hrun.symm.trans hn))
      · refine (hfresh b hb (by rw [hn]; exact Option.some_ne_none n) ?_).symm
        rw [hm, hn]
        exact fun heq => hne (Option.some.inj heq).symm
    intro a ha b hb m n hm hn hne
    rcases List.mem_append.mp ha with ha | ha <;> rcases List.mem_append.mp hb with hb | hb
    · exact h.apart a ha b hb m n hm hn hne
    · rw [List.mem_singleton.mp hb] at hn ⊢
      exact (hnew a ha n m hn hm hne.symm).imp Ne.symm Ne.symm
    · rw [List.mem_singleton.mp ha] at hm ⊢
      exact hnew b hb m n hm hn hne
    · rw [List.mem_singleton.mp ha] at hm
      rw [List.mem_singleton.mp hb] at hn
      exact absurd (Option.some.inj (hm.symm.trans hn)) hne

/-- The store has created the next run. -/
def Deployment.create (d : Deployment) : Deployment :=
  { d with
    service := { d.service with store := d.service.store.create }
    created := d.created + 1
    instanceOf := Function.update d.instanceOf (runIdOf (d.service.store.seq + 1)) (some d.created) }

theorem instanceOf_create {d : Deployment} {r : Text} {n : Nat}
    (h : d.create.instanceOf r = some n) :
    (r = runIdOf (d.service.store.seq + 1) ∧ n = d.created) ∨
      (r ≠ runIdOf (d.service.store.seq + 1) ∧ d.instanceOf r = some n) := by
  by_cases hr : r = runIdOf (d.service.store.seq + 1)
  · subst hr
    simp only [Deployment.create, Function.update_self] at h
    exact .inl ⟨rfl, (Option.some.inj h).symm⟩
  · simp only [Deployment.create, Function.update_of_ne hr] at h
    exact .inr ⟨hr, h⟩

theorem sound_create {d : Deployment} (h : Sound d)
    (hfresh : ∀ e ∈ d.emitted, e.event.runId ≠ runIdOf (d.service.store.seq + 1)) :
    Sound d.create where
  valid := h.valid
  fileEmitted := h.fileEmitted
  logEmitted := h.logEmitted
  tagged := fun e he n hn => Nat.lt_succ_of_lt (h.tagged e he n hn)
  running := by
    intro r
    show (Function.update d.instanceOf _ _ r).isSome = (Function.update d.service.store.runs _ _ r).isSome
    by_cases hr : r = runIdOf (d.service.store.seq + 1)
    · rw [hr, Function.update_self, Function.update_self]
      rfl
    · rw [Function.update_of_ne hr, Function.update_of_ne hr]
      exact h.running r
  numbered := by
    intro r n hn
    rcases instanceOf_create hn with ⟨rfl, rfl⟩ | ⟨_, hold⟩
    · exact ⟨Nat.lt_succ_self _, _, Nat.le_refl _, rfl⟩
    · obtain ⟨hlt, k, hk, hid⟩ := h.numbered r n hold
      exact ⟨Nat.lt_succ_of_lt hlt, k, Nat.le_succ_of_le hk, hid⟩
  injective := by
    intro r r' n hr hr'
    rcases instanceOf_create hr with ⟨rfl, rfl⟩ | ⟨_, hold⟩ <;>
      rcases instanceOf_create hr' with ⟨hid, hn⟩ | ⟨_, hold'⟩
    · exact hid.symm
    · exact absurd (h.numbered r' _ hold').1 (Nat.lt_irrefl _)
    · exact absurd (h.numbered r n hold).1 (hn ▸ Nat.lt_irrefl _)
    · exact h.injective r r' n hold hold'
  owned := by
    intro r n hr e he
    rcases instanceOf_create hr with ⟨rfl, rfl⟩ | ⟨_, hold⟩
    · refine iff_of_false (hfresh e he) fun hn => ?_
      exact absurd (h.tagged e he _ hn) (Nat.lt_irrefl _)
    · exact h.owned r n hold e he
  served := by
    intro r n hr
    rcases instanceOf_create hr with ⟨rfl, rfl⟩ | ⟨_, hold⟩
    · have hlog : (d.service.log.map Logged.event).filter
          (fun event => event.runId == runIdOf (d.service.store.seq + 1)) = [] := by
        rw [List.filter_eq_nil_iff]
        intro event hevent heq
        obtain ⟨entry, hentry, rfl⟩ := List.mem_map.mp hevent
        obtain ⟨e, he, heq'⟩ := h.logEmitted entry hentry
        exact hfresh e he (heq' ▸ eq_of_beq heq)
      have hemitted : d.emitted.filter (fun e => e.run == some d.created) = [] := by
        rw [List.filter_eq_nil_iff]
        intro e he hn
        exact absurd (h.tagged e he _ (eq_of_beq hn)) (Nat.lt_irrefl _)
      show (d.service.log.map Logged.event).filter _ = (d.emitted.filter _).map _
      rw [hlog, hemitted]
      rfl
    · exact h.served r n hold
  apart := h.apart

theorem sound_restart {d : Deployment} (h : Sound d) (readable : Bool) :
    Sound (restart d readable) where
  valid := h.valid
  fileEmitted := h.fileEmitted
  logEmitted := by
    intro entry hentry
    unfold restart at hentry
    cases readable with
    | false => cases hentry
    | true =>
        obtain ⟨event, hevent, rfl⟩ := List.mem_map.mp hentry
        exact h.fileEmitted event hevent
  tagged := h.tagged
  running := fun _ => rfl
  numbered := nofun
  injective := nofun
  owned := nofun
  served := nofun
  apart := h.apart

/-- A run of the process has had an event. -/
def Shown (d : Deployment) : Prop :=
  ∀ r n, d.instanceOf r = some n → ∃ e ∈ d.emitted, e.run = some n

variable (isURL : Text → Bool)

theorem serve_quiet {d : Deployment} {request : Request}
    (hlog : (handle isURL d.service request).log = d.service.log)
    (hseq : (handle isURL d.service request).store.seq = d.service.store.seq) :
    serve isURL d request = { d with service := handle isURL d.service request } := by
  unfold serve instancesAfter
  simp only [hlog, hseq, List.drop_length, List.map_nil, List.append_nil, if_true, ite_self]

theorem serve_emitted {d : Deployment} {request : Request} {entry : Logged}
    (hlog : (handle isURL d.service request).log = d.service.log ++ [entry])
    (hseq : (handle isURL d.service request).store.seq = d.service.store.seq) :
    serve isURL d request = Deployment.emit
      { d with service := { handle isURL d.service request with log := d.service.log } } entry := by
  unfold serve instancesAfter Deployment.emit
  simp only [hlog, hseq, List.drop_left, List.map_cons, List.map_nil, if_true]
  rw [← hlog]

theorem serve_created {d : Deployment} {request : Request} {entry : Logged}
    (hlog : (handle isURL d.service request).log = d.service.log ++ [entry])
    (hstore : (handle isURL d.service request).store = d.service.store.create) :
    serve isURL d request = Deployment.emit
      { d.create with service := { handle isURL d.service request with log := d.service.log } }
      entry := by
  have hseq : (handle isURL d.service request).store.seq = d.service.store.seq + 1 := by
    rw [hstore]
    rfl
  unfold serve instancesAfter Deployment.emit
  simp only [hlog, hseq, List.drop_left, List.map_cons, List.map_nil, Nat.succ_ne_self, if_false]
  rw [← hlog]
  rfl

/-- A sound deployment stays sound when its process changes without its log, its
numbering and the ids of its runs. -/
theorem Sound.withService {d : Deployment} (h : Sound d) {service : ServiceState}
    (hlog : service.log = d.service.log) (hseq : service.store.seq = d.service.store.seq)
    (hruns : ∀ r, (service.store.runs r).isSome = (d.service.store.runs r).isSome) :
    Sound { d with service } where
  valid := h.valid
  fileEmitted := h.fileEmitted
  logEmitted := fun entry hentry => h.logEmitted entry (hlog ▸ hentry)
  tagged := h.tagged
  running := fun r => (h.running r).trans (hruns r).symm
  numbered := fun r n hn => hseq.symm ▸ h.numbered r n hn
  injective := h.injective
  owned := h.owned
  served := fun r n hn => hlog.symm ▸ h.served r n hn
  apart := h.apart

theorem sound_serve {d : Deployment} (h : Sound d) (hshown : Shown d) {request : Request}
    (hfresh : Fresh isURL d (.request request)) :
    Sound (serve isURL d request) ∧ Shown (serve isURL d request) := by
  obtain ⟨hcreates, hemits⟩ := hfresh
  cases effect_handle isURL d.service request with
  | quiet hlog hseq hruns =>
      rw [serve_quiet isURL hlog hseq]
      exact ⟨h.withService hlog hseq hruns, hshown⟩
  | emitted entry hlog hvalid hidentity hseq hruns hrun =>
      have hgrows : (handle isURL d.service request).log ≠ d.service.log := by
        rw [hlog]
        simp
      rw [serve_emitted isURL hlog hseq]
      constructor
      · apply sound_emit _ hvalid
        · intro e he hsome hne
          rw [hidentity] at hemits
          exact hemits hgrows e he hsome hne
        · exact Sound.withService h rfl hseq hruns
      · intro r n hr
        obtain ⟨e, he, hn⟩ := hshown r n hr
        exact ⟨e, List.mem_append_left _ he, hn⟩
  | created entry hlog hvalid hidentity hrun hstore =>
      have hgrows : (handle isURL d.service request).log ≠ d.service.log := by
        rw [hlog]
        simp
      have hseq : (handle isURL d.service request).store.seq ≠ d.service.store.seq := by
        rw [hstore]
        exact Nat.succ_ne_self _
      have hnone : d.instanceOf entry.event.runId = none := by
        rw [hrun, Option.eq_none_iff_forall_ne_some]
        intro n hn
        obtain ⟨k, hk, hid⟩ := (h.numbered _ n hn).2
        have := Histories.runIdOf_injective hid
        omega
      rw [serve_created isURL hlog hstore]
      constructor
      · apply sound_emit _ hvalid
        · intro e he hsome _
          rw [hidentity] at hemits
          exact hemits hgrows e he hsome (by rw [hnone]; exact hsome)
        · have hcreate := sound_create h (hcreates hseq)
          exact Sound.withService hcreate rfl (by rw [hstore]; rfl) (by rw [hstore]; exact fun _ => rfl)
      · intro r n hr
        rcases instanceOf_create hr with ⟨rfl, rfl⟩ | ⟨_, hold⟩
        · refine ⟨_, List.mem_append_right _ (List.mem_singleton_self _), ?_⟩
          show Function.update d.instanceOf _ _ entry.event.runId = _
          rw [hrun, Function.update_self]
        · obtain ⟨e, he, hn⟩ := hshown r n hold
          exact ⟨e, List.mem_append_left _ he, hn⟩

end Instances

section Served

theorem orElse_eq_none {A : Type*} {x : Option A} {f : Unit → Option A}
    (h : x.orElse f = none) : x = none ∧ f () = none := by
  cases x with
  | none => exact ⟨rfl, h⟩
  | some a => cases h

/-- What a valid event has for its entry in a ledger. -/
structure Enters (e : EventEnvelopeV0) : Prop where
  eventId : e.eventId ≠ []
  actor : e.actor ≠ []
  dataClass : e.dataClass ∈ allowedDataClasses
  status : e.status ≠ []
  inputRef : e.inputRef.validate = none
  outputRef : e.outputRef.validate = none

theorem enters_of_valid {e : EventEnvelopeV0} (h : e.validate = none) : Enters e := by
  obtain ⟨hhead, h⟩ := orElse_eq_none h
  obtain ⟨hinput, h⟩ := orElse_eq_none h
  obtain ⟨houtput, _⟩ := orElse_eq_none h
  have hchecks := firstFailing_eq_none.mp hhead
  simp only [EventEnvelopeV0.headChecks, List.forall_mem_cons, decide_eq_true_eq, ne_eq] at hchecks
  obtain ⟨_, _, hid, _, _, _, _, hactor, _, hclass, _, _, hstatus, _⟩ := hchecks
  exact ⟨hid, hactor, hclass, hstatus, hinput, houtput⟩

theorem validateSteps_entriesFrom {events : List EventEnvelopeV0} (h : ∀ e ∈ events, Enters e)
    {stepId : Int} (hpos : 0 < stepId) {seen : List Int} (hseen : ∀ k ∈ seen, k < stepId)
    (index : Nat) : validateSteps seen index (entriesFrom stepId events) = none := by
  induction events generalizing stepId seen index with
  | nil => rfl
  | cons event events ih =>
      have henters := h event List.mem_cons_self
      have hnew : stepId ∉ seen := fun hmem => absurd (hseen stepId hmem) (Int.lt_irrefl _)
      have hchecks : firstFailing
          [(decide ((entryOf event stepId).eventId ≠ []), "steps.eventId",
              s!"step[{index}] eventId is required"),
            (0 < (entryOf event stepId).stepId, "steps.stepId", s!"step[{index}].stepId must be > 0"),
            (!seen.contains (entryOf event stepId).stepId, "steps.stepId",
              s!"step[{index}] has duplicate stepId"),
            ((entryOf event stepId).actor ≠ [], "steps.actor", s!"step[{index}] actor is required"),
            ((entryOf event stepId).dataClass ∈ allowedDataClasses, "steps.dataClass",
              s!"step[{index}] has unsupported dataClass")] = none := by
        rw [firstFailing_eq_none]
        simp [entryOf, henters.eventId, hpos, hnew, henters.actor, henters.dataClass]
      have hinput : (entryOf event stepId).inputRef.validate = none := henters.inputRef
      have houtput : (entryOf event stepId).outputRef.validate = none := henters.outputRef
      have hseen' : ∀ k ∈ stepId :: seen, k < stepId + 1 := by
        intro k hk
        rcases List.mem_cons.mp hk with rfl | hk
        · omega
        · have := hseen k hk
          omega
      rw [entriesFrom, validateSteps, hchecks, hinput, houtput]
      exact ih (fun e he => h e (List.mem_cons_of_mem _ he)) (by omega) hseen' (index + 1)

theorem length_entriesFrom (stepId : Int) (events : List EventEnvelopeV0) :
    (entriesFrom stepId events).length = events.length := by
  induction events generalizing stepId with
  | nil => rfl
  | cons event events ih => exact congrArg (· + 1) (ih (stepId + 1))

/-- A run with valid events has a ledger of exactly these. -/
theorem buildAgentTrajectoryLedger_ok {runId : Text} (hid : runId ≠ []) {events : List EventEnvelopeV0}
    (hvalid : ∀ e ∈ events, e.validate = none)
    (hsome : events.filter (fun event => event.runId == runId) ≠ []) (now : Nat) :
    ∃ ledger sorted, buildAgentTrajectoryLedger runId events now = .ok ledger ∧
      sorted.Perm (events.filter fun event => event.runId == runId) ∧
      ledger.steps = entriesFrom 1 sorted := by
  have hperm := List.mergeSort_perm (events.filter fun event => event.runId == runId) standsBefore
  generalize hsorted : (events.filter fun event => event.runId == runId).mergeSort standsBefore =
    sorted at hperm
  have henters : ∀ e ∈ sorted, Enters e := fun e he =>
    enters_of_valid (hvalid e (List.mem_of_mem_filter (hperm.mem_iff.mp he)))
  have hne : sorted ≠ [] := fun h => hsome (h ▸ hperm).nil_eq.symm
  obtain ⟨first, hfirst⟩ : ∃ first, sorted.head? = some first :=
    Option.ne_none_iff_exists'.mp (by simpa using hne)
  obtain ⟨latest, hlatest⟩ : ∃ latest, sorted.getLast? = some latest :=
    Option.ne_none_iff_exists'.mp (by simpa using hne)
  have hsteps : validateSteps [] 0 (entriesFrom 1 sorted) = none := by
    apply validateSteps_entriesFrom henters (by decide)
    intro k hk
    cases hk
  have hstatus : latest.status ≠ [] := (henters latest (List.mem_of_getLast? hlatest)).status
  have hledger : ∀ startedAt completedAt, AgentTrajectoryLedgerV0.validate
      ⟨eventSchemaVersionV0, runId, latest.status, startedAt, completedAt, some now,
        entriesFrom 1 sorted⟩ = none := by
    intro startedAt completedAt
    have hhead : firstFailing
        [(eventSchemaVersionV0 ≠ [], "schemaVersion", "schemaVersion is required"),
          (eventSchemaVersionV0 = eventSchemaVersionV0, "schemaVersion", "schemaVersion must be v0"),
          (runId ≠ [], "runId", "runId is required"),
          (latest.status ≠ [], "status", "status is required"),
          (some now ≠ none, "capturedAt", "capturedAt is required")] = none := by
      rw [firstFailing_eq_none]
      simp [hid, hstatus, eventSchemaVersionV0]
    unfold AgentTrajectoryLedgerV0.validate
    rw [hhead]
    exact hsteps
  unfold buildAgentTrajectoryLedger
  simp only [hid, if_false, hsorted, hfirst, hlatest, hledger]
  exact ⟨_, sorted, rfl, hperm, rfl⟩

/-- Every run of the process has a ledger of exactly the events emitted for it. -/
theorem serves_ledger {d : Deployment} (h : Sound d) (hshown : Shown d) {r : Text} {n : Nat}
    (hr : d.instanceOf r = some n) (now : Nat) :
    ∃ ledger events, serveLedger d.service r now = some (.ok ledger) ∧
      events.Perm ((d.emitted.filter fun e => e.run == some n).map Emitted.event) ∧
      ledger.steps = entriesFrom 1 events := by
  obtain ⟨_, k, _, rfl⟩ := h.numbered r n hr
  obtain ⟨status, hstatus⟩ : ∃ status, d.service.store.runs (runIdOf k) = some status := by
    rw [← Option.isSome_iff_exists, ← h.running, hr]
    rfl
  have hvalid : ∀ event ∈ d.service.log.map Logged.event, event.validate = none := by
    intro event hevent
    obtain ⟨entry, hentry, rfl⟩ := List.mem_map.mp hevent
    obtain ⟨e, he, heq⟩ := h.logEmitted entry hentry
    exact heq ▸ h.valid e he
  have hserved := h.served (runIdOf k) n hr
  have hsome : (d.service.log.map Logged.event).filter (fun event => event.runId == runIdOf k) ≠
      [] := by
    obtain ⟨e, he, hn⟩ := hshown (runIdOf k) n hr
    rw [hserved]
    exact List.ne_nil_of_mem
      (List.mem_map_of_mem (List.mem_filter.mpr ⟨he, by rw [hn]; exact beq_self_eq_true _⟩))
  obtain ⟨ledger, events, hledger, hperm, hsteps⟩ :=
    buildAgentTrajectoryLedger_ok (by simp [runIdOf]) hvalid hsome now
  refine ⟨{ ledger with status := status.text }, events, ?_, hserved ▸ hperm, hsteps⟩
  unfold serveLedger
  rw [hstatus, hledger]
  rfl

end Served

section Main

variable (isURL : Text → Bool)

theorem sound_init : Sound {} where
  valid := nofun
  fileEmitted := nofun
  logEmitted := nofun
  tagged := nofun
  running := fun _ => rfl
  numbered := nofun
  injective := nofun
  owned := nofun
  served := nofun
  apart := nofun

theorem sound_perform {d : Deployment} (h : Sound d ∧ Shown d) {operation : Operation}
    (hfresh : Fresh isURL d operation) :
    Sound (perform isURL d operation) ∧ Shown (perform isURL d operation) := by
  cases operation with
  | request request => exact sound_serve isURL h.1 h.2 hfresh
  | restart readable => exact ⟨sound_restart h.1 readable, nofun⟩

/-- Two processes on one file, each of which creates a run. -/
def restarted : List Operation :=
  [.request (.postRun operator "workflow".toList Histories.noDocuments 1), .restart true,
    .request (.postRun operator "workflow".toList Histories.noDocuments 2)]

end Main

end C2c.Harness.Restarts
