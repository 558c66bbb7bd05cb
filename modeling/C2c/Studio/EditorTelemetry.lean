import C2c.Library.Machine

/-!
The telemetry queue of the editor: events are emitted into a queue that is flushed
in batches, by a timer or when it is full, one request at a time.
-/

namespace C2c.Studio.EditorTelemetry

/-- `EDITOR_TELEMETRY_MAX_BATCH_SIZE`. -/
def maxBatchSize : Nat := 20

/-- `EDITOR_TELEMETRY_MAX_QUEUE_SIZE`. -/
@[irreducible] def maxQueueSize : Nat := 200

/-- `EDITOR_TELEMETRY_MAX_RETRY_ATTEMPTS`. -/
def maxRetryAttempts : Nat := 1

/-- The contract of the inputs, and the envelope of one at a time in a session. -/
structure Contract (Input Event : Type) where
  /-- `isEditorTelemetryEventInput`. -/
  isInput : Input → Bool
  toEnvelope : Input → (occurredAt sessionId : String) → Event

/-- An envelope in the queue, with the number of its emission. -/
structure Queued (Event : Type) where
  number : Nat
  envelope : Event
deriving DecidableEq

abbrev Batch (Event : Type) := List (Queued Event)

/-- The promise `flushInFlight`. -/
inductive Flight (Event : Type)
  | none
  /-- `sendBatch` is awaited, `attempts` have failed. -/
  | sending (batch : Batch Event) (attempts : Nat) (fetching : Bool)
  /-- The batch is done with, the `finally` block has not run yet. -/
  | settled

structure Telemetry (Event : Type) where
  queue : Batch Event := []
  /-- Whether `flushTimer` is set. -/
  timer : Bool := false
  flushInFlight : Flight Event := .none
  /-- Whether `resolveBaseUrl` finds the address of the intake. -/
  baseUrl : Bool := true
  /-- All events that were queued, in order. -/
  emitted : Batch Event := []
  /-- The events that were dropped from a full queue. -/
  overflowed : Batch Event := []
  /-- The batches that were taken from the queue, in order. -/
  taken : List (Batch Event) := []
  /-- What `fetch` was called with, in order. -/
  fetched : List (Batch Event) := []
  /-- The attempts to send a batch, with their results. -/
  attempts : List (Batch Event × Bool) := []

/-- What happens to the module: a call, a timer, the end of a request. -/
inductive Action (Input : Type)
  | emit (input : Input) (occurredAt sessionId : String)
  | timerFires
  | requestEnds (ok : Bool)
  | finallyRuns
  | baseUrlResolves (ok : Bool)

section Steps

variable {Input Event : Type}

def scheduleFlush (s : Telemetry Event) : Telemetry Event :=
  { s with timer := true }

def cancelFlushTimer (s : Telemetry Event) : Telemetry Event :=
  { s with timer := false }

/-- The call of `sendBatch`, up to its `await`. -/
def sendBatch (s : Telemetry Event) (batch : Batch Event) (attempts : Nat) : Telemetry Event :=
  { s with
    flushInFlight := .sending batch attempts s.baseUrl
    fetched := if s.baseUrl then s.fetched ++ [batch] else s.fetched }

def flush (s : Telemetry Event) : Telemetry Event :=
  match s.flushInFlight with
  | .none =>
      let s := cancelFlushTimer s
      if s.queue = [] then { s with flushInFlight := .settled }
      else sendBatch { s with queue := [], taken := s.taken ++ [s.queue] } s.queue 0
  | _ => s

/-- The `finally` block of `flush`. -/
def afterFlight (s : Telemetry Event) : Telemetry Event :=
  let s := { s with flushInFlight := .none }
  if maxBatchSize ≤ s.queue.length then flush s
  else if 0 < s.queue.length then scheduleFlush s
  else s

/-- `queue.push`, and the `splice` of a full queue. -/
def push (s : Telemetry Event) (envelope : Event) : Telemetry Event :=
  let queued : Queued Event := ⟨s.emitted.length, envelope⟩
  let queue := s.queue ++ [queued]
  let surplus := queue.length - maxQueueSize
  { s with
    queue := queue.drop surplus
    overflowed := s.overflowed ++ queue.take surplus
    emitted := s.emitted ++ [queued] }

def emit (c : Contract Input Event) (s : Telemetry Event) (input : Input)
    (occurredAt sessionId : String) : Telemetry Event :=
  if c.isInput input then
    let s := push s (c.toEnvelope input occurredAt sessionId)
    if maxBatchSize ≤ s.queue.length then flush s else scheduleFlush s
  else s

/-- What `flush` does when `sendBatch` returns. -/
def requestEnds (s : Telemetry Event) (ok : Bool) : Telemetry Event :=
  match s.flushInFlight with
  | .sending batch attempts fetching =>
      let result := fetching && ok
      let s := { s with attempts := s.attempts ++ [(batch, result)] }
      if result then { s with flushInFlight := .settled }
      else if attempts + 1 ≤ maxRetryAttempts then sendBatch s batch (attempts + 1)
      else { s with flushInFlight := .settled }
  | _ => s

def step (c : Contract Input Event) (s : Telemetry Event) : Action Input → Telemetry Event
  | .emit input occurredAt sessionId => emit c s input occurredAt sessionId
  | .timerFires => if s.timer then flush { s with timer := false } else s
  | .requestEnds ok => requestEnds s ok
  | .finallyRuns =>
      match s.flushInFlight with
      | .settled => afterFlight s
      | _ => s
  | .baseUrlResolves ok => { s with baseUrl := ok }

end Steps

end C2c.Studio.EditorTelemetry
