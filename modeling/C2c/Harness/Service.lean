import C2c.Harness.Events
import C2c.Library.Machine

namespace C2c.Harness.Service

open C2c.Library.JavaText
open C2c.Library.GoText
open C2c.Library.Sha256
open C2c.Library.Machine
open C2c.Harness.Events

section Store

inductive RunStatus
  | starting
  | updating
  | completed
  | failed
deriving DecidableEq

namespace RunStatus

def text : RunStatus → Text
  | starting => "starting".toList
  | updating => "updating".toList
  | completed => "completed".toList
  | failed => "failed".toList

def isTerminal : RunStatus → Bool
  | completed | failed => true
  | starting | updating => false

end RunStatus

/-- The statuses a run may be moved to. -/
def readNext (next : Text) : Option RunStatus :=
  [RunStatus.updating, .completed, .failed].find? fun status => status.text == next

/-- `validateRunTransition`: the status the run moves to, or the error. -/
def validateRunTransition (current : RunStatus) (next : Text) : Except Text RunStatus :=
  if current.isTerminal then .error ("run is already terminal: ".toList ++ current.text)
  else
    match readNext next with
    | some status => .ok status
    | none => .error ("invalid run transition ".toList ++ current.text ++ " -> ".toList ++ next)

/-- A `RunStore`, with what it keeps of a run that the events show. -/
structure RunStore where
  seq : Nat := 0
  runs : Text → Option RunStatus := fun _ => none

/-- The id of the run a sequence number is given to. -/
def runIdOf (n : Nat) : Text :=
  "run-".toList ++ natText n

def RunStore.create (store : RunStore) : RunStore where
  seq := store.seq + 1
  runs := Function.update store.runs (runIdOf (store.seq + 1)) (some .starting)

/-- `Update`: the store with the run moved, and the states it moved between. -/
def RunStore.update (store : RunStore) (runId status : Text) :
    Except Text (RunStore × RunStatus × RunStatus) :=
  if status = [] then .error "status is required".toList
  else
    match store.runs runId with
    | none => .error ("run ".toList ++ runId ++ " not found".toList)
    | some previous =>
        match validateRunTransition previous status with
        | .error e => .error e
        | .ok next =>
            .ok ({ store with runs := Function.update store.runs runId (some next) },
              previous, next)

end Store

section Principals

/-- A character of `cleanPrincipalPart`. -/
def cleanChar (c : Char) : Char :=
  if ('a' ≤ c ∧ c ≤ 'z') ∨ isDigitAscii c ∨ c = '.' ∨ c = '_' ∨ c = '-' then c else '-'

def isSeparator (c : Char) : Bool :=
  c == '.' || c == '-' || c == '_'

/-- `cleanPrincipalPart`; a rune the cut to 80 bytes splits leaves dashes that
are trimmed. -/
def cleanPrincipalPart (raw fallback : Text) : Text :=
  let value := trimSpace raw
  let cleaned := (((toLower (takeBytes 80 value)).map cleanChar).dropWhile
    isSeparator).rdropWhile isSeparator
  if value = [] ∨ cleaned = [] then fallback else cleaned

/-- A `Principal`: `Require` gives neither part empty. -/
structure Principal where
  actor : Text
  role : Text
  named : actor ≠ [] ∧ role ≠ []

/-- `Require`, past the check of the token. -/
def requirePrincipal (roleHeader actorHeader : Text) : Principal where
  role := cleanPrincipalPart roleHeader "agent".toList
  actor := cleanPrincipalPart actorHeader (cleanPrincipalPart roleHeader "agent".toList)
  named := by
    have hnonempty (raw fallback : Text) (h : fallback ≠ []) :
        cleanPrincipalPart raw fallback ≠ [] := by
      unfold cleanPrincipalPart
      dsimp only
      split
      · exact h
      · rename_i hcleaned
        exact fun h => hcleaned (.inr h)
    have hrole := hnonempty roleHeader "agent".toList (by decide)
    exact ⟨hnonempty actorHeader _ hrole, hrole⟩

/-- What `authorizeEventProducer` reads of a registered capability. -/
structure RegisteredCapability where
  owner : Text
  dataClass : Text

/-- `authorizeEventProducer`: the error, if the event is refused. -/
def authorizeEventProducer (principal : Principal)
    (capabilities : Text → Option RegisteredCapability) (event : EventEnvelopeV0) :
    Option Text :=
  let registered := capabilities event.capability
  let mismatched := registered.any fun capability => capability.dataClass != event.dataClass
  if principal.role = "orchestrator".toList then
    if mismatched then some "event dataClass must match registered capability".toList else none
  else if cleanPrincipalPart event.actor [] ≠ principal.actor then
    some "event actor must match authenticated harness actor".toList
  else if cleanPrincipalPart event.service [] ≠ [] ∧
      cleanPrincipalPart event.service [] ≠ principal.actor then
    some "event service must match authenticated harness actor".toList
  else if registered.any fun capability =>
      cleanPrincipalPart capability.owner [] != principal.actor then
    some "authenticated actor does not own event capability".toList
  else if mismatched then some "event dataClass must match registered capability".toList
  else none

end Principals

section Handlers

/-- A transition of a run; the first one has no state before it. -/
structure Transition where
  previous : Option RunStatus
  next : RunStatus
deriving DecidableEq

/-- The `stateTransition` of the event of a transition. -/
def Transition.text (transition : Transition) : Text :=
  match transition.previous with
  | none => "created".toList
  | some previous => previous.text ++ "->".toList ++ transition.next.text

/-- The event type of a transition; `runEventType` for an update. -/
def Transition.eventType (transition : Transition) : Text :=
  match transition.previous, transition.next with
  | none, _ => "run.started".toList
  | some _, .completed => "run.completed".toList
  | some _, .failed => "run.failed".toList
  | some _, _ => "run.updated".toList

/-- Whether an event ends its run. -/
def endsRun (event : EventEnvelopeV0) : Bool :=
  event.eventType == "run.completed".toList || event.eventType == "run.failed".toList

/-- The JSON texts a handler makes references of. -/
structure Documents where
  request : Text
  state : Text
  payload : Text

def policyAllow : Text := "policy allow".toList

/-- The event of a transition. -/
def stateEvent (principal : Principal) (runId requestUri : Text) (documents : Documents)
    (transition : Transition) : EventEnvelopeV0 where
  runId := runId
  eventType := transition.eventType
  actor := principal.actor
  capability := "agentic-harness-core".toList
  dataClass := dataClassOther
  redactionProfile := profileControlledByHarness
  policyDecision := policyAllow
  status := transition.next.text
  stateTransition := transition.text
  inputRef := newEventReference requestUri documents.request
  outputRef := newEventReference ("urn:harness/run/".toList ++ runId ++ "/state".toList)
    documents.state
  payload := documents.payload

/-- A handler that is about to emit: the event, the place of its transition in
the history of the run, if it is the event of one, and whether it has its step
id. -/
structure Pending where
  event : EventEnvelopeV0
  place : Option Nat := none
  numbered : Bool := false
deriving DecidableEq

/-- An event of the log, with the place of its transition. -/
structure Entry where
  event : EventEnvelopeV0
  place : Option Nat := none
deriving DecidableEq

/-- The service; `history` holds the transitions the store has performed. -/
structure HarnessService where
  store : RunStore := {}
  steps : Text → Nat := fun _ => 0
  log : List Entry := []
  pending : List Pending := []
  history : Text → List Transition := fun _ => []

/-- The atomic operations of the handlers. -/
inductive Action
  | postRun (principal : Principal) (workflowId : Text) (documents : Documents)
  | patchRun (principal : Principal) (runId status : Text) (documents : Documents)
  | postEvent (principal : Principal) (capabilities : Text → Option RegisteredCapability)
      (event : EventEnvelopeV0) (now : Nat)
  | proceed (thread now : Nat)

/-- The store has performed a transition, whose event is to be emitted. -/
def HarnessService.transition (s : HarnessService) (store : RunStore) (runId : Text) (transition : Transition)
    (event : EventEnvelopeV0) : HarnessService :=
  { s with
    store := store
    history := Function.update s.history runId (s.history runId ++ [transition])
    pending := s.pending ++ [{ event := event, place := some (s.history runId).length }] }

/-- `POST /v0/runs` up to its store operation. -/
def postRun (s : HarnessService) (principal : Principal) (workflowId : Text) (documents : Documents) :
    HarnessService :=
  if workflowId = [] then s
  else
    let runId := runIdOf (s.store.seq + 1)
    s.transition s.store.create runId ⟨none, .starting⟩
      (stateEvent principal runId "urn:harness/run/request".toList documents ⟨none, .starting⟩)

/-- `PATCH /v0/runs/\x7bid\x7d` up to its store operation. -/
def patchRun (s : HarnessService) (principal : Principal) (runId status : Text)
    (documents : Documents) : HarnessService :=
  match s.store.update runId (toLower status) with
  | .error _ => s
  | .ok (store, previous, next) =>
      s.transition store runId ⟨some previous, next⟩
        (stateEvent principal runId
          ("urn:harness/run/".toList ++ runId ++ "/request".toList) documents
          ⟨some previous, next⟩)

/-- A posted event with the defaults of the handler. -/
def withDefaults (principal : Principal) (event : EventEnvelopeV0) (now : Nat) :
    EventEnvelopeV0 :=
  { event with
    schemaVersion := if event.schemaVersion = [] then eventSchemaVersionV0
      else event.schemaVersion
    actor := if event.actor = [] then principal.actor else event.actor
    service := if event.service = [] then principal.actor else event.service
    createdAt := some (event.createdAt.getD now) }

/-- `POST /v0/events` up to its check of the run. -/
def postEvent (s : HarnessService) (principal : Principal)
    (capabilities : Text → Option RegisteredCapability) (event : EventEnvelopeV0) (now : Nat) :
    HarnessService :=
  if event.runId = [] then s
  else
    match s.store.runs event.runId with
    | none => s
    | some status =>
        if status.isTerminal then s
        else if (authorizeEventProducer principal capabilities
            (withDefaults principal event now)).isSome then s
        else { s with pending := s.pending ++ [{ event := withDefaults principal event now }] }

/-- `emitEvent` up to its call of the sink. -/
def completed (event : EventEnvelopeV0) (now : Nat) : EventEnvelopeV0 :=
  enrichEventRefs { event with
    schemaVersion := if event.schemaVersion = [] then eventSchemaVersionV0
      else event.schemaVersion
    eventId := if event.eventId = [] then
        "hev-".toList ++ natText now ++ '-' :: intText event.stepId
      else event.eventId
    service := if event.service = [] then actorSystem else event.service
    createdAt := some (event.createdAt.getD now) }

/-- The handler takes its step id from the tracker. -/
def numberStep (s : HarnessService) (thread : Nat) (p : Pending) : HarnessService :=
  if p.event.stepId = 0 then
    { s with
      steps := Function.update s.steps p.event.runId (s.steps p.event.runId + 1)
      pending := s.pending.set thread { p with
        event := { p.event with stepId := s.steps p.event.runId + 1 }
        numbered := true } }
  else { s with pending := s.pending.set thread { p with numbered := true } }

/-- The handler emits its event, if it is valid, and ends. -/
def emitStep (s : HarnessService) (thread : Nat) (p : Pending) (now : Nat) : HarnessService :=
  { s with
    pending := s.pending.eraseIdx thread
    log := if (completed p.event now).validate = none then
        s.log ++ [⟨completed p.event now, p.place⟩]
      else s.log }

/-- A handler that is about to emit goes on. -/
def proceed (s : HarnessService) (thread now : Nat) : HarnessService :=
  match s.pending[thread]? with
  | none => s
  | some p => if p.numbered then emitStep s thread p now else numberStep s thread p

def step (s : HarnessService) : Action → HarnessService
  | .postRun principal workflowId documents => postRun s principal workflowId documents
  | .patchRun principal runId status documents => patchRun s principal runId status documents
  | .postEvent principal capabilities event now => postEvent s principal capabilities event now
  | .proceed thread now => proceed s thread now

end Handlers

end C2c.Harness.Service
