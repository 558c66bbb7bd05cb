import C2c.Learning.Summaries

/-!
The posts of harness events and of trajectory ledgers: what a posted array
leaves in the logs, and the answer to it.
-/

namespace C2c.Learning.Ingestion

open C2c.Library.JavaText
open C2c.Library.GoText
open C2c.Library.GoTime
open C2c.Library.JsonText
open C2c.Library.GoJson
open C2c.Library.JsonLines
open C2c.Library.GoCollections
open C2c.Library.Machine
open C2c.Library.Sha256 (sha256Hex)
open C2c.Harness.Events (SchemaValidationError)
open C2c.Learning.Records
open C2c.Learning.Analyzer
open C2c.Learning.Findings
open C2c.Learning.Summaries

section Requests

/-- A posted event, with its payload as `json.Marshal` writes it. -/
structure PostedEvent where
  event : EventEnvelopeV0
  payload : Json := .null

def PostedEvent.ofJson (v : Json) : Option PostedEvent := do
  let event ← EventEnvelopeV0.ofJson v
  match v with
  | .object members =>
      match member members "payload" with
      | .null => some { event }
      | _ => some { event, payload := event.payload.json }
  | _ => some { event }

inductive DecodeError
  | bodyRequired
  | invalidArray
  | invalidObject
deriving DecidableEq

/-- The items of a body, which is an array or a single item. -/
def readItems {Item : Type} (ofJson : Json → Option Item) (body : Text) :
    Except DecodeError (List Item) :=
  match trimSpace body with
  | [] => .error .bodyRequired
  | '[' :: _ =>
      match unmarshal body with
      | some (.array items) =>
          match items.mapM ofJson with
          | some posted => .ok posted
          | none => .error .invalidArray
      | _ => .error .invalidArray
  | _ =>
      match (unmarshal body).bind ofJson with
      | some posted => .ok [posted]
      | none => .error .invalidObject

inductive IngestError
  | decode (e : DecodeError)
  | statusRequired
  | runIdRequired
  | reference (e : SchemaValidationError)
  | store (e : AppendError SchemaValidationError)

inductive Answer
  | created (ingested : Nat) (runIds : List Text)
  | badRequest (e : IngestError)
  | internalServerError (e : SummaryError)

def Answer.status : Answer → Nat
  | .created _ _ => 201
  | .badRequest _ => 400
  | .internalServerError _ => 500

end Requests

section Events

variable (parses : Text → Bool)

/-- `NewEventReference`. -/
def newEventReference (uri : Text) (payload : Json) :
    Except SchemaValidationError EventReference :=
  let raw := marshal payload
  if trimSpace uri = [] then .error ⟨"uri".toList, "required".toList⟩
  else if !parses uri && contains uri "://".toList then .error ⟨"uri".toList, "invalid URI".toList⟩
  else .ok ⟨uri, sha256Hex raw, Int64.ofNat (byteLength raw)⟩

def inputUri : Text := "urn:experience-learning/input".toList

def outputUri : Text := "urn:experience-learning/output".toList

/-- The reference an event keeps, or the one that is made for it. -/
def referenceOr (r : EventReference) (uri : Text) (payload : Json) :
    Except IngestError EventReference :=
  if trimSpace r.uri = [] then (newEventReference parses uri payload).mapError .reference
  else .ok r

/-- What the loop of `ingestHarnessEvents` makes of the event at an index. -/
def completeEvent (now : StartTime) (i : Nat) (posted : PostedEvent) :
    Except IngestError EventEnvelopeV0 := do
  let e := posted.event
  let schemaVersion :=
    if trimSpace e.schemaVersion = [] then experienceSchemaVersion else e.schemaVersion
  let service := if e.service = [] then "experience-learning-service".toList else e.service
  let createdAt := if e.createdAt.isZero then now.toTime else e.createdAt
  let stepId := if e.stepId = 0 then Int64.ofNat (i + 1) else e.stepId
  let policyDecision :=
    if e.policyDecision = [] then "policy allow".toList else e.policyDecision
  let status := if e.status = [] then "completed".toList else e.status
  if trimSpace status = [] then throw .statusRequired
  if e.runId = [] then throw .runIdRequired
  let inputRef ← referenceOr parses e.inputRef inputUri (.object
    [("eventId".toList, .string e.eventId), ("payload".toList, posted.payload),
      ("runId".toList, .string e.runId)])
  let outputRef ← referenceOr parses e.outputRef outputUri (.object
    [("captured".toList, .string now.toTime.format), ("eventId".toList, .string e.eventId),
      ("payload".toList, posted.payload), ("runId".toList, .string e.runId),
      ("status".toList, .string status)])
  return { e with
    schemaVersion, service, createdAt, stepId, policyDecision, status, inputRef, outputRef }

/-- One turn of the loop of `ingestHarnessEvents`. -/
def ingestHarnessEvent (s : ExperienceLearningService) (item : PostedEvent × Nat) :
    ExperienceLearningService × Option IngestError :=
  match completeEvent parses s.now item.2 item.1 with
  | .error e => (s, some e)
  | .ok event =>
      match append (harnessEventStore parses) s.harnessEvents event with
      | (harnessEvents, .error e) => ({ s with harnessEvents }, some (.store e))
      | (harnessEvents, .ok _) => ({ s with harnessEvents }, none)

/-- The sorted names of a set. -/
def sortedNames (names : List Text) : List Text :=
  names.dedup.mergeSort fun a b => a ≤ b

/-- `ingestHarnessEvents`. -/
def ingestHarnessEvents (s : ExperienceLearningService) (events : List PostedEvent) :
    ExperienceLearningService × Except IngestError (List Text) :=
  match takeEach (ingestHarnessEvent parses) s events.zipIdx with
  | (s, some e) => (s, .error e)
  | (s, none) => (s, .ok (sortedNames (events.map fun posted => posted.event.runId)))

end Events

section Handlers

-- Whether the service analyses what it ingests, and the orders of the maps in
-- the analysis of each run.
variable (parses : Text → Bool) (policy : LearningPolicy) (sorting : SliceSort stepsBefore)
  (autoAnalyzeOnIngest : Bool)

/-- `RunLearningSummary` for one run of a post. -/
def summarizeRun (s : ExperienceLearningService) (run : Text × Orders) :
    ExperienceLearningService × Option SummaryError :=
  match runLearningSummary policy sorting s run.1 run.2 with
  | (s, .error e) => (s, some e)
  | (s, .ok _) => (s, none)

/-- `ingestHarnessEventsHandler`, for a post. -/
def ingestHarnessEventsHandler (s : ExperienceLearningService) (body : Text)
    (orders : Nat → Orders) : ExperienceLearningService × Answer :=
  match readItems PostedEvent.ofJson body with
  | .error e => (s, .badRequest (.decode e))
  | .ok events =>
      match ingestHarnessEvents parses s events with
      | (s, .error e) => (s, .badRequest e)
      | (s, .ok runIds) =>
          if autoAnalyzeOnIngest then
            match takeEach (summarizeRun policy sorting) s
              (runIds.zipIdx.map fun (runId, i) => (runId, orders i)) with
            | (s, some e) => (s, .internalServerError e)
            | (s, none) => (s, .created events.length runIds)
          else (s, .created events.length runIds)

/-- What the loop over the ledgers makes of one. -/
def completeLedger (now : StartTime) (l : AgentTrajectoryLedgerV0) : AgentTrajectoryLedgerV0 :=
  { l with
    schemaVersion := if l.schemaVersion = [] then experienceSchemaVersion else l.schemaVersion
    capturedAt := if l.capturedAt.isZero then now.toTime else l.capturedAt }

/-- One turn of the loop over the ledgers. -/
def ingestTrajectoryLedger (s : ExperienceLearningService)
    (item : AgentTrajectoryLedgerV0 × Orders) : ExperienceLearningService × Option Answer :=
  let ledger := completeLedger s.now item.1
  match append trajectoryLedgerStore s.ledgers ledger with
  | (ledgers, .error e) => ({ s with ledgers }, some (.badRequest (.store e)))
  | (ledgers, .ok _) =>
      if autoAnalyzeOnIngest then
        match summarizeRun policy sorting { s with ledgers } (ledger.runId, item.2) with
        | (s, some e) => (s, some (.internalServerError e))
        | (s, none) => (s, none)
      else ({ s with ledgers }, none)

/-- `ingestTrajectoryLedgersHandler`, for a post. -/
def ingestTrajectoryLedgersHandler (s : ExperienceLearningService) (body : Text)
    (orders : Nat → Orders) : ExperienceLearningService × Answer :=
  match readItems AgentTrajectoryLedgerV0.ofJson body with
  | .error e => (s, .badRequest (.decode e))
  | .ok payload =>
      match takeEach (ingestTrajectoryLedger policy sorting autoAnalyzeOnIngest) s
        (payload.zipIdx.map fun (ledger, i) => (ledger, orders i)) with
      | (s, some answer) => (s, answer)
      | (s, none) => (s, .created payload.length [])

inductive Kind
  | harnessEvents
  | trajectoryLedgers

/-- A post, and the orders of the maps in the analyses it may lead to. -/
structure Posting where
  kind : Kind
  body : Text
  orders : Nat → Orders

def answerPost (s : ExperienceLearningService) (p : Posting) :
    ExperienceLearningService × Answer :=
  match p.kind with
  | .harnessEvents =>
      ingestHarnessEventsHandler parses policy sorting autoAnalyzeOnIngest s p.body p.orders
  | .trajectoryLedgers =>
      ingestTrajectoryLedgersHandler policy sorting autoAnalyzeOnIngest s p.body p.orders

/-- The requests that write: posts, and calls for the analysis of a run. -/
inductive Request
  | post (p : Posting)
  | summarize (runId : Text) (orders : Orders)

def serve (s : ExperienceLearningService) : Request → ExperienceLearningService
  | .post p => (answerPost parses policy sorting autoAnalyzeOnIngest s p).1
  | .summarize runId orders => (runLearningSummary policy sorting s runId orders).1

end Handlers

section Statement

variable (parses : Text → Bool) (policy : LearningPolicy) (sorting : SliceSort stepsBefore)
  (autoAnalyzeOnIngest : Bool)

/-- The record an event or ledger is stored as, unless the store refuses it. -/
def stored {Record : Type} (validate : Record → Option SchemaValidationError)
    (json : Record → Option Json) (r : Record) : Option Record :=
  if validate r = none ∧ (json r).isSome then some r else none

def storedEvent (now : StartTime) (item : PostedEvent × Nat) : Option EventEnvelopeV0 :=
  match completeEvent parses now item.2 item.1 with
  | .error _ => none
  | .ok event => stored (EventEnvelopeV0.validate parses) EventEnvelopeV0.json event

def storedLedger (now : StartTime) (l : AgentTrajectoryLedgerV0) : Option AgentTrajectoryLedgerV0 :=
  stored AgentTrajectoryLedgerV0.validate AgentTrajectoryLedgerV0.json (completeLedger now l)

/-- The records of a log and its file. -/
def contents {Record : Type} (log : Log Record) : List Record × Text :=
  (log.records, log.file)

/-- What the service has stored. -/
def logs (s : ExperienceLearningService) : (List EventEnvelopeV0 × Text) ×
    (List AgentTrajectoryLedgerV0 × Text) × (List ExperienceEventV0 × Text) :=
  (contents s.harnessEvents, contents s.ledgers, contents s.experienceEvents)

/-- The contents of a log after further records. -/
def withRecords {Record : Type} (json : Record → Option Json) (m : List Record × Text)
    (records : List Record) : List Record × Text :=
  (m.1 ++ records, m.2 ++ records.flatMap fun r => marshal ((json r).getD .null) ++ ['\n'])

/-- All items of a post are appended in order, and the other log is left alone. -/
def Posting.AllAppended (s s' : ExperienceLearningService) (p : Posting) : Prop :=
  match p.kind with
  | .harnessEvents => ∃ posted events, readItems PostedEvent.ofJson p.body = .ok posted ∧
      List.Forall₂ (fun item event => completeEvent parses s.now item.2 item.1 = .ok event)
        posted.zipIdx events ∧
      contents s'.harnessEvents =
        withRecords EventEnvelopeV0.json (contents s.harnessEvents) events ∧
      contents s'.ledgers = contents s.ledgers
  | .trajectoryLedgers => ∃ payload,
      readItems AgentTrajectoryLedgerV0.ofJson p.body = .ok payload ∧
      contents s'.ledgers = withRecords AgentTrajectoryLedgerV0.json (contents s.ledgers)
        (payload.map (completeLedger s.now)) ∧
      contents s'.harnessEvents = contents s.harnessEvents

/-- A post is answered 201 and all its items are appended, or it is answered
with a client error and nothing is stored. -/
def Posting.Atomic (s : ExperienceLearningService) (p : Posting) : Prop :=
  let result := answerPost parses policy sorting autoAnalyzeOnIngest s p
  result.2.status = 201 ∧ p.AllAppended parses s result.1 ∨
    (400 ≤ result.2.status ∧ result.2.status < 500) ∧ logs result.1 = logs s

/-- All items are stored, or already the first is refused. -/
def Settles {Item Record : Type} (stored : Item → Option Record) (items : List Item) : Prop :=
  (∀ item ∈ items, (stored item).isSome) ∨ ∃ item, items.head? = some item ∧ stored item = none

/-- No item of a post is refused behind one that is stored. -/
def Posting.Settled (now : StartTime) (p : Posting) : Prop :=
  match p.kind with
  | .harnessEvents => ∀ posted, readItems PostedEvent.ofJson p.body = .ok posted →
      Settles (storedEvent parses now) posted.zipIdx
  | .trajectoryLedgers => ∀ payload, readItems AgentTrajectoryLedgerV0.ofJson p.body = .ok payload →
      Settles (storedLedger now) payload

/-- The events of a post none of whose events is refused. -/
def Posting.acceptedEvents (now : StartTime) (p : Posting) : List EventEnvelopeV0 :=
  match p.kind, readItems PostedEvent.ofJson p.body with
  | .harnessEvents, .ok posted =>
      if ∀ item ∈ posted.zipIdx, (storedEvent parses now item).isSome then
        posted.zipIdx.filterMap (storedEvent parses now)
      else []
  | _, _ => []

def Request.acceptedEvents (now : StartTime) : Request → List EventEnvelopeV0
  | .post p => p.acceptedEvents parses now
  | .summarize _ _ => []

end Statement

section Stores

variable {Record : Type} {validate : Record → Option SchemaValidationError}
  {json : Record → Option Json} (ofJson : Json → Option Record)

/-- What storing a record adds to the contents of a log. -/
def addStored {Item Record : Type} (json : Record → Option Json) (stored : Item → Option Record)
    (m : List Record × Text) (item : Item) : List Record × Text :=
  withRecords json m (stored item).toList

theorem stored_isSome_iff {r : Record} :
    (stored validate json r).isSome ↔ validate r = none ∧ (json r).isSome := by
  unfold stored
  split <;> simp [*]

theorem stored_eq_some {r r' : Record} (h : stored validate json r = some r') :
    r' = r ∧ validate r = none ∧ ∃ v, json r = some v := by
  unfold stored at h
  split at h
  · next hr => exact ⟨(Option.some.inj h).symm, hr.1, Option.isSome_iff_exists.mp hr.2⟩
  · cases h

theorem append_stored (log : Log Record) {r : Record} (h : (stored validate json r).isSome) :
    ∃ next, append (.checked validate json ofJson) log r = (next, .ok r) ∧
      contents next = withRecords json (contents log) [r] := by
  obtain ⟨hvalid, hjson⟩ := stored_isSome_iff.mp h
  obtain ⟨v, hv⟩ := Option.isSome_iff_exists.mp hjson
  refine ⟨_, append_checked_ok log hvalid hv, ?_⟩
  simp [contents, withRecords, hv]

theorem append_refused (log : Log Record) {r : Record} (h : ¬ (stored validate json r).isSome) :
    ∃ next e, append (.checked validate json ofJson) log r = (next, .error e) ∧
      contents next = contents log := by
  have herror : validate r = none → json r = none := by
    intro hvalid
    by_contra hjson
    exact h (stored_isSome_iff.mpr ⟨hvalid, Option.isSome_iff_ne_none.mpr hjson⟩)
  obtain ⟨e, he⟩ := @append_checked_error _ _ _ _ ofJson log _ herror
  exact ⟨_, e, he, rfl⟩

theorem foldl_addStored {Item : Type} (f : Item → Option Record) {items : List Item}
    {records : List Record} (h : List.Forall₂ (fun item r => f item = some r) items records)
    (m : List Record × Text) : items.foldl (addStored json f) m = withRecords json m records := by
  induction h generalizing m with
  | nil => simp [withRecords]
  | cons hitem _ ih =>
      rw [List.foldl_cons, ih, addStored, hitem]
      simp [withRecords]

/-- A fold over first components that builds up a second one. -/
theorem foldl_snd {A B C : Type} {D : Type 1} (f : B → A → B) (m : C × B) (items : List (A × D)) :
    items.foldl (fun m item => (m.1, f m.2 item.1)) m =
      (m.1, (items.map Prod.fst).foldl f m.2) := by
  induction items generalizing m with
  | nil => rfl
  | cons item items ih => exact ih _

theorem forall₂_stored {Item : Type} {f : Item → Option Record} {items : List Item}
    (h : ∀ item ∈ items, (f item).isSome) :
    List.Forall₂ (fun item r => f item = some r) items (items.filterMap f) := by
  induction items with
  | nil => exact .nil
  | cons item items ih =>
      obtain ⟨hitem, hrest⟩ := List.forall_mem_cons.mp h
      obtain ⟨r, hr⟩ := Option.isSome_iff_exists.mp hitem
      rw [List.filterMap_cons_some hr]
      exact .cons hr (ih hrest)

end Stores

section Turns

variable (parses : Text → Bool) {policy : LearningPolicy} (sorting : SliceSort stepsBefore)
  (autoAnalyzeOnIngest : Bool)

/-- A turn stores the event of an accepted item, and a refused one leaves no trace. -/
theorem takes_ingestHarnessEvent (now : StartTime) :
    Takes (ingestHarnessEvent parses) (fun s => s.now = now)
      (fun item => (storedEvent parses now item).isSome) logs Prod.fst
      (addStored EventEnvelopeV0.json (storedEvent parses now)) where
  keeps s item hs := by
    unfold ingestHarnessEvent
    split
    · exact hs
    · split <;> exact hs
  accepts s item hs hitem := by
    subst hs
    unfold ingestHarnessEvent addStored
    unfold storedEvent at hitem ⊢
    cases hcomplete : completeEvent parses s.now item.2 item.1 with
    | error e =>
        rw [hcomplete] at hitem
        cases hitem
    | ok event =>
        simp only [hcomplete] at hitem ⊢
        obtain ⟨r, hr⟩ := Option.isSome_iff_exists.mp hitem
        obtain ⟨rfl, _, _⟩ := stored_eq_some hr
        obtain ⟨next, happend, hnext⟩ := append_stored EventEnvelopeV0.ofJson
          s.harnessEvents hitem
        simp only [harnessEventStore, happend, hr, logs, hnext, Option.toList, true_and]
  refuses s item hs hitem := by
    subst hs
    unfold ingestHarnessEvent
    unfold storedEvent at hitem
    cases hcomplete : completeEvent parses s.now item.2 item.1 with
    | error e => exact ⟨nofun, rfl⟩
    | ok event =>
        simp only [hcomplete] at hitem ⊢
        obtain ⟨next, e, happend, hnext⟩ := append_refused EventEnvelopeV0.ofJson
          s.harnessEvents hitem
        simp only [harnessEventStore, happend, logs, hnext]
        exact ⟨nofun, trivial⟩

/-- What the analyses of a post rely on. -/
structure Ready (now : StartTime) (s : ExperienceLearningService) : Prop where
  sound : Sound s
  room : Summaries.Countable s
  now : s.now = now

theorem summarizeRun_eq_step (s : ExperienceLearningService) (run : Text × Orders) :
    (summarizeRun policy sorting s run).1 =
      step (fun _ => true) policy sorting s (.summarize run.1 run.2) := by
  unfold summarizeRun step
  dsimp only
  rcases runLearningSummary policy sorting s run.1 run.2 with ⟨next, e | summary⟩ <;> rfl

theorem ready_summarizeRun (hpolicy : Bounded policy) {now : StartTime}
    {s : ExperienceLearningService} (h : Ready now s) (run : Text × Orders) :
    Ready now (summarizeRun policy sorting s run).1 ∧
      (summarizeRun policy sorting s run).1.harnessEvents = s.harnessEvents ∧
      (summarizeRun policy sorting s run).1.ledgers = s.ledgers := by
  obtain ⟨hevents, hledgers, hnow⟩ := @input_summarize (fun _ => true) policy sorting s run.1 run.2
  have hroom : Summaries.Countable (step (fun _ => true) policy sorting s (.summarize run.1 run.2)) := by
    unfold Summaries.Countable
    rw [hevents]
    exact h.room
  rw [summarizeRun_eq_step]
  exact ⟨⟨sound_step (fun _ => true) sorting h.sound hpolicy _ hroom, hroom, hnow.trans h.now⟩,
    hevents, hledgers⟩

theorem summarizeRun_answers (hpolicy : Bounded policy) {now : StartTime}
    {s : ExperienceLearningService} (h : Ready now s) {run : Text × Orders}
    (hrun : trimSpace run.1 ≠ []) : (summarizeRun policy sorting s run).2 = none := by
  obtain ⟨⟨summary, hsummary⟩, _⟩ :=
    summarize_spec (fun _ => true) sorting run.2 h.sound h.room hpolicy hrun
  unfold summarizeRun
  rcases hcall : runLearningSummary policy sorting s run.1 run.2 with ⟨next, e | summary'⟩
  · rw [hcall] at hsummary
    cases hsummary
  · rfl

/-- The analyses of runs that have names all end well. -/
theorem takeEach_summarizeRun (hpolicy : Bounded policy) {now : StartTime}
    {s : ExperienceLearningService} (h : Ready now s) {runs : List (Text × Orders)}
    (hruns : ∀ run ∈ runs, trimSpace run.1 ≠ []) :
    (takeEach (summarizeRun policy sorting) s runs).2 = none ∧
      Ready now (takeEach (summarizeRun policy sorting) s runs).1 ∧
      (takeEach (summarizeRun policy sorting) s runs).1.harnessEvents = s.harnessEvents ∧
      (takeEach (summarizeRun policy sorting) s runs).1.ledgers = s.ledgers := by
  induction runs generalizing s with
  | nil => exact ⟨rfl, h, rfl, rfl⟩
  | cons run runs ih =>
      obtain ⟨hrun, hrest⟩ := List.forall_mem_cons.mp hruns
      obtain ⟨hready, hevents, hledgers⟩ := ready_summarizeRun sorting hpolicy h run
      rw [takeEach_cons_none (summarizeRun_answers sorting hpolicy h hrun), ← hevents,
        ← hledgers]
      exact ih hready hrest

theorem harnessEvents_summarizeRuns (s : ExperienceLearningService) (runs : List (Text × Orders)) :
    (takeEach (summarizeRun policy sorting) s runs).1.harnessEvents = s.harnessEvents := by
  apply @takeEach_invariant _ _ _ (summarizeRun policy sorting)
    fun s' => s'.harnessEvents = s.harnessEvents
  · intro s' run hs
    rw [summarizeRun_eq_step, (@input_summarize (fun _ => true) policy sorting s' run.1 run.2).1]
    exact hs
  · rfl

theorem runId_of_valid {l : AgentTrajectoryLedgerV0} (h : l.validate = none) :
    trimSpace l.runId ≠ [] := by
  unfold AgentTrajectoryLedgerV0.validate at h
  simp only [Option.orElse_eq_or, Option.or_eq_none_iff] at h
  obtain ⟨hhead, _⟩ := h
  rw [Harness.Events.firstFailing_eq_none] at hhead
  simp only [List.forall_mem_cons, decide_eq_true_eq] at hhead
  exact hhead.2.2.1

theorem ready_ledgers {now : StartTime} {s : ExperienceLearningService} (h : Ready now s)
    (l : AgentTrajectoryLedgerV0) :
    Ready now { s with ledgers := (append trajectoryLedgerStore s.ledgers l).1 } where
  sound := by
    refine ⟨h.sound.events, fun l' hl => ?_, h.sound.stored, h.sound.distinct⟩
    rcases mem_append_checked hl with hl | hvalid
    · exact h.sound.ledgers l' hl
    · exact stepSourced_of_valid hvalid
  room := h.room
  now := h.now

theorem ingestTrajectoryLedger_accepted (hpolicy : Bounded policy) {now : StartTime}
    {s : ExperienceLearningService} (h : Ready now s) {item : AgentTrajectoryLedgerV0 × Orders}
    (hitem : (storedLedger now item.1).isSome) :
    Ready now (ingestTrajectoryLedger policy sorting autoAnalyzeOnIngest s item).1 ∧
      (ingestTrajectoryLedger policy sorting autoAnalyzeOnIngest s item).2 = none ∧
      (contents (ingestTrajectoryLedger policy sorting autoAnalyzeOnIngest s item).1.harnessEvents,
        contents (ingestTrajectoryLedger policy sorting autoAnalyzeOnIngest s item).1.ledgers) =
      (contents s.harnessEvents, addStored AgentTrajectoryLedgerV0.json (storedLedger now)
        (contents s.ledgers) item.1) := by
  obtain rfl := h.now
  obtain ⟨r, hr⟩ := Option.isSome_iff_exists.mp hitem
  obtain ⟨rfl, hvalid, _⟩ := stored_eq_some hr
  obtain ⟨next, happend, hnext⟩ := append_stored AgentTrajectoryLedgerV0.ofJson
    s.ledgers hitem
  have hready := ready_ledgers h (completeLedger s.now item.1)
  unfold ingestTrajectoryLedger addStored
  rw [trajectoryLedgerStore, happend] at hready
  simp only [trajectoryLedgerStore, happend, hr, Option.toList, ← hnext]
  cases autoAnalyzeOnIngest with
  | false => exact ⟨hready, rfl, rfl⟩
  | true =>
      have hnone := @summarizeRun_answers _ sorting hpolicy _ _ hready
        ((completeLedger s.now item.1).runId, item.2) (runId_of_valid hvalid)
      obtain ⟨hnextReady, hevents, hledgers⟩ := ready_summarizeRun sorting hpolicy hready
        ((completeLedger s.now item.1).runId, item.2)
      rcases hcall : summarizeRun policy sorting { s with ledgers := next }
        ((completeLedger s.now item.1).runId, item.2) with ⟨final, _ | e⟩
      · rw [hcall] at hnextReady hevents hledgers
        simp only [if_true]
        exact ⟨hnextReady, trivial, by rw [hevents, hledgers]⟩
      · rw [hcall] at hnone
        cases hnone

theorem ingestTrajectoryLedger_refused {now : StartTime} {s : ExperienceLearningService}
    (h : Ready now s) {item : AgentTrajectoryLedgerV0 × Orders}
    (hitem : ¬ (storedLedger now item.1).isSome) :
    Ready now (ingestTrajectoryLedger policy sorting autoAnalyzeOnIngest s item).1 ∧
      (∃ e, (ingestTrajectoryLedger policy sorting autoAnalyzeOnIngest s item).2 =
        some (.badRequest e)) ∧
      logs (ingestTrajectoryLedger policy sorting autoAnalyzeOnIngest s item).1 = logs s := by
  obtain rfl := h.now
  obtain ⟨next, e, happend, hnext⟩ := append_refused AgentTrajectoryLedgerV0.ofJson
    s.ledgers hitem
  have hready := ready_ledgers h (completeLedger s.now item.1)
  unfold ingestTrajectoryLedger
  rw [trajectoryLedgerStore, happend] at hready
  simp only [trajectoryLedgerStore, happend, logs, hnext]
  exact ⟨hready, ⟨_, rfl⟩, trivial⟩

/-- A turn stores an accepted ledger, and a refused one leaves no trace. -/
theorem takes_ingestTrajectoryLedger (hpolicy : Bounded policy) (now : StartTime) :
    Takes (ingestTrajectoryLedger policy sorting autoAnalyzeOnIngest) (Ready now)
      (fun item => (storedLedger now item.1).isSome) logs (fun l => (l.1, l.2.1))
      (fun m item => (m.1, addStored AgentTrajectoryLedgerV0.json (storedLedger now) m.2 item.1))
      where
  keeps s item hs := by
    by_cases hitem : (storedLedger now item.1).isSome
    · exact (ingestTrajectoryLedger_accepted sorting autoAnalyzeOnIngest hpolicy hs hitem).1
    · exact (ingestTrajectoryLedger_refused sorting autoAnalyzeOnIngest hs hitem).1
  accepts s item hs hitem :=
    (ingestTrajectoryLedger_accepted sorting autoAnalyzeOnIngest hpolicy hs hitem).2
  refuses s item hs hitem := by
    obtain ⟨_, ⟨e, he⟩, hlogs⟩ :=
      ingestTrajectoryLedger_refused sorting autoAnalyzeOnIngest hs hitem
    rw [he]
    exact ⟨nofun, hlogs⟩

end Turns

section Posts

variable (parses : Text → Bool) {policy : LearningPolicy} (sorting : SliceSort stepsBefore)
  (autoAnalyzeOnIngest : Bool)

theorem runId_completeEvent {now : StartTime} {i : Nat} {posted : PostedEvent}
    {event : EventEnvelopeV0} (h : completeEvent parses now i posted = .ok event) :
    event.runId = posted.event.runId := by
  unfold completeEvent at h
  simp only [bind, Except.bind, pure, Except.pure, throw, throwThe, MonadExceptOf.throw] at h
  repeat' split at h
  all_goals first | cases h; rfl | cases h

theorem runId_of_storedEvent {now : StartTime} {item : PostedEvent × Nat}
    (h : (storedEvent parses now item).isSome) : trimSpace item.1.event.runId ≠ [] := by
  unfold storedEvent at h
  cases hcomplete : completeEvent parses now item.2 item.1 with
  | error e =>
      rw [hcomplete] at h
      cases h
  | ok event =>
      simp only [hcomplete] at h
      obtain ⟨hvalid, _⟩ := stored_isSome_iff.mp h
      unfold EventEnvelopeV0.validate at hvalid
      simp only [Option.orElse_eq_or, Option.or_eq_none_iff] at hvalid
      obtain ⟨hhead, _⟩ := hvalid
      rw [Harness.Events.firstFailing_eq_none] at hhead
      simp only [List.forall_mem_cons, decide_eq_true_eq] at hhead
      rw [← runId_completeEvent parses hcomplete]
      exact hhead.2.2.2.2.2.1

/-- What the loop over posted events leaves for the analyses. -/
theorem sound_events {now : StartTime} {s : ExperienceLearningService} (h : Ready now s)
    (items : List (PostedEvent × Nat)) :
    Sound (takeEach (ingestHarnessEvent parses) s items).1 ∧
      (takeEach (ingestHarnessEvent parses) s items).1.now = now ∧
      (takeEach (ingestHarnessEvent parses) s items).1.ledgers = s.ledgers := by
  apply @takeEach_invariant _ _ _ (ingestHarnessEvent parses)
    fun s' => Sound s' ∧ s'.now = now ∧ s'.ledgers = s.ledgers
  · rintro s' item ⟨hsound, hnow, hledgers⟩
    unfold ingestHarnessEvent
    split
    · exact ⟨hsound, hnow, hledgers⟩
    next event hevent =>
    have hnext : Sound { s' with
        harnessEvents := (append (harnessEventStore parses) s'.harnessEvents event).1 } := by
      refine ⟨fun e he => ?_, hsound.ledgers, hsound.stored, hsound.distinct⟩
      rcases mem_append_checked he with he | hvalid
      · exact hsound.events e he
      · exact sourced_of_valid hvalid
    split
    · next happend =>
        rw [happend] at hnext
        exact ⟨hnext, hnow, hledgers⟩
    · next happend =>
        rw [happend] at hnext
        exact ⟨hnext, hnow, hledgers⟩
  · exact ⟨h.sound, h.now, rfl⟩

theorem size_addStored {Item Record : Type} {json : Record → Option Json}
    {f : Item → Option Record} (m : List Record × Text) {item : Item} (h : (f item).isSome) :
    (addStored json f m item).1.length = m.1.length + 1 := by
  obtain ⟨r, hr⟩ := Option.isSome_iff_exists.mp h
  simp [addStored, withRecords, hr]

theorem storedEvent_eq_some {now : StartTime} {item : PostedEvent × Nat} {event : EventEnvelopeV0}
    (h : storedEvent parses now item = some event) :
    completeEvent parses now item.2 item.1 = .ok event := by
  unfold storedEvent at h
  split at h
  · cases h
  · next event' hevent =>
      obtain ⟨rfl, _, _⟩ := stored_eq_some h
      exact hevent

theorem mem_sortedNames {names : List Text} {name : Text} :
    name ∈ sortedNames names ↔ name ∈ names := by
  rw [sortedNames, List.mem_mergeSort, List.mem_dedup]

/-- A post of events of which none is refused is answered 201. -/
theorem answer_events (hpolicy : Bounded policy) {now : StartTime} {s : ExperienceLearningService}
    (h : Ready now s) {body : Text} (orders : Nat → Orders) {posted : List PostedEvent}
    (hread : readItems PostedEvent.ofJson body = .ok posted)
    (hall : ∀ item ∈ posted.zipIdx, (storedEvent parses now item).isSome)
    (hroom : Summaries.Countable (ingestHarnessEventsHandler parses policy sorting
      autoAnalyzeOnIngest s body orders).1) :
    (ingestHarnessEventsHandler parses policy sorting autoAnalyzeOnIngest s body orders).2.status =
        201 ∧
      Ready now (ingestHarnessEventsHandler parses policy sorting autoAnalyzeOnIngest s body
        orders).1 ∧
      contents (ingestHarnessEventsHandler parses policy sorting autoAnalyzeOnIngest s body
        orders).1.harnessEvents = withRecords EventEnvelopeV0.json (contents s.harnessEvents)
          (posted.zipIdx.filterMap (storedEvent parses now)) ∧
      (ingestHarnessEventsHandler parses policy sorting autoAnalyzeOnIngest s body
        orders).1.ledgers = s.ledgers := by
  obtain ⟨hnone, hheld⟩ := takeEach_accepted (takes_ingestHarnessEvent parses now) h.now hall
  obtain ⟨hsound, hnow, hledgers⟩ := sound_events parses h posted.zipIdx
  rw [foldl_addStored _ (forall₂_stored hall)] at hheld
  unfold ingestHarnessEventsHandler ingestHarnessEvents at hroom ⊢
  rcases hloop : takeEach (ingestHarnessEvent parses) s posted.zipIdx with ⟨next, _ | e⟩
  · rw [hloop] at hsound hnow hledgers hheld
    simp only [hread, hloop] at hroom ⊢
    cases autoAnalyzeOnIngest with
    | false => exact ⟨rfl, ⟨hsound, hroom, hnow⟩, hheld, hledgers⟩
    | true =>
        have hruns : ∀ run ∈ (sortedNames (posted.map fun p => p.event.runId)).zipIdx.map
            (fun (runId, i) => (runId, orders i)), trimSpace run.1 ≠ [] := by
          intro run hrun
          obtain ⟨⟨runId, i⟩, hmem, rfl⟩ := List.mem_map.mp hrun
          obtain ⟨p, hp, rfl⟩ := List.mem_map.mp
            (mem_sortedNames.mp (List.fst_mem_of_mem_zipIdx hmem))
          obtain ⟨j, hj⟩ := List.mem_iff_getElem?.mp hp
          exact runId_of_storedEvent parses (hall _ (List.mk_mem_zipIdx_iff_getElem?.mpr hj))
        have hevents := @harnessEvents_summarizeRuns policy sorting next
          ((sortedNames (posted.map fun p => p.event.runId)).zipIdx.map
            fun (runId, i) => (runId, orders i))
        simp only [if_true] at hroom ⊢
        have hready : Ready now next := by
          refine ⟨hsound, ?_, hnow⟩
          unfold Summaries.Countable at hroom ⊢
          rw [← hevents]
          split at hroom <;> next hcall => simpa only [hcall] using hroom
        obtain ⟨hanswer, hfinal, hsame, hsameLedgers⟩ :=
          takeEach_summarizeRun sorting hpolicy hready hruns
        rcases hcall : takeEach (summarizeRun policy sorting) next
          ((sortedNames (posted.map fun p => p.event.runId)).zipIdx.map
            fun (runId, i) => (runId, orders i)) with ⟨final, _ | e⟩
        · rw [hcall] at hfinal hsame hsameLedgers
          simp only [hcall]
          refine ⟨rfl, hfinal, ?_, hsameLedgers.trans hledgers⟩
          rw [hsame]
          exact hheld
        · rw [hcall] at hanswer
          cases hanswer
  · rw [hloop] at hnone
    cases hnone

/-- A post of events of which one is refused is answered 400. -/
theorem refuse_events {now : StartTime} {s : ExperienceLearningService} (hnow : s.now = now)
    {body : Text} (orders : Nat → Orders) {posted : List PostedEvent}
    (hread : readItems PostedEvent.ofJson body = .ok posted)
    (hall : ¬ ∀ item ∈ posted.zipIdx, (storedEvent parses now item).isSome) :
    ∃ e, ingestHarnessEventsHandler parses policy sorting autoAnalyzeOnIngest s body orders =
      ((takeEach (ingestHarnessEvent parses) s posted.zipIdx).1, .badRequest e) := by
  obtain ⟨hsome, _⟩ := takeEach_refused (takes_ingestHarnessEvent parses now)
    (fun m => m.1.length) (fun m _ => size_addStored m) hnow hall
  unfold ingestHarnessEventsHandler ingestHarnessEvents
  rcases hloop : takeEach (ingestHarnessEvent parses) s posted.zipIdx with ⟨next, _ | e⟩
  · rw [hloop] at hsome
    exact absurd rfl hsome
  · simp only [hread, hloop]
    exact ⟨e, rfl⟩

theorem atomic_events (hpolicy : Bounded policy) {now : StartTime} {s : ExperienceLearningService}
    (h : Ready now s) (body : Text) (orders : Nat → Orders)
    (hroom : Summaries.Countable (ingestHarnessEventsHandler parses policy sorting
      autoAnalyzeOnIngest s body orders).1) :
    (⟨.harnessEvents, body, orders⟩ : Posting).Atomic parses policy sorting autoAnalyzeOnIngest s ↔
      (⟨.harnessEvents, body, orders⟩ : Posting).Settled parses now := by
  have htakes := takes_ingestHarnessEvent parses now
  unfold Posting.Atomic Posting.Settled
  simp only [answerPost]
  cases hread : readItems PostedEvent.ofJson body with
  | error e =>
      have hanswer : ingestHarnessEventsHandler parses policy sorting autoAnalyzeOnIngest s body
          orders = (s, .badRequest (.decode e)) := by
        unfold ingestHarnessEventsHandler
        rw [hread]
      rw [hanswer]
      exact iff_of_true (.inr ⟨by simp [Answer.status], rfl⟩) nofun
  | ok posted =>
      simp only [Except.ok.injEq, forall_eq']
      by_cases hall : ∀ item ∈ posted.zipIdx, (storedEvent parses now item).isSome
      · obtain ⟨hstatus, _, hcontents, hledgers⟩ := answer_events parses sorting
          autoAnalyzeOnIngest hpolicy h orders hread hall hroom
        refine iff_of_true (.inl ⟨hstatus, posted, _, hread, ?_, hcontents, ?_⟩) (.inl hall)
        · rw [h.now]
          exact (forall₂_stored hall).imp fun _ _ hitem => storedEvent_eq_some parses hitem
        · rw [hledgers]
      · obtain ⟨e, hanswer⟩ :=
          refuse_events parses sorting autoAnalyzeOnIngest h.now orders hread hall
        obtain ⟨hsome, _⟩ := takeEach_refused htakes (fun m => m.1.length)
          (fun m _ => size_addStored m) h.now hall
        have hiff := takeEach_atomic_iff htakes (fun m => m.1.length)
          (fun m _ => size_addStored m) h.now posted.zipIdx
        simp only [hsome, hall, false_and, false_or, ne_eq, not_false_eq_true, true_and] at hiff
        have hstatus : ¬ (400 : Nat) = 201 := by decide
        rw [hanswer]
        simp only [Answer.status, hstatus, false_and, false_or, Nat.le_refl, true_and, Settles,
          hall, Option.not_isSome_iff_eq_none] at hiff ⊢
        simpa using hiff

/-- A post of ledgers, as its loop leaves it. -/
theorem atomic_ledgers (hpolicy : Bounded policy) {now : StartTime} {s : ExperienceLearningService}
    (h : Ready now s) (body : Text) (orders : Nat → Orders) :
    (⟨.trajectoryLedgers, body, orders⟩ : Posting).Atomic parses policy sorting autoAnalyzeOnIngest
        s ↔
      (⟨.trajectoryLedgers, body, orders⟩ : Posting).Settled parses now := by
  have htakes := takes_ingestTrajectoryLedger sorting autoAnalyzeOnIngest hpolicy now
  unfold Posting.Atomic Posting.Settled
  simp only [answerPost]
  unfold ingestTrajectoryLedgersHandler
  cases hread : readItems AgentTrajectoryLedgerV0.ofJson body with
  | error e => exact iff_of_true (.inr ⟨by simp [Answer.status], rfl⟩) nofun
  | ok payload =>
      simp only [Except.ok.injEq, forall_eq']
      obtain ⟨items, hfirst, hitems⟩ : ∃ items : List (AgentTrajectoryLedgerV0 × Orders),
          items.map Prod.fst = payload ∧
            payload.zipIdx.map (fun (ledger, i) => (ledger, orders i)) = items :=
        ⟨_, by simp [List.map_map, Function.comp_def, List.zipIdx_map_fst], rfl⟩
      have hiff := takeEach_atomic_iff htakes (fun m => m.2.1.length)
        (fun m _ => size_addStored m.2) h items
      have hstored : (∀ item ∈ items, (storedLedger now item.1).isSome) ↔
          ∀ l ∈ payload, (storedLedger now l).isSome := by
        rw [← hfirst, List.forall_mem_map]
      have hhead : (∃ item, items.head? = some item ∧ ¬ (storedLedger now item.1).isSome) ↔
          ∃ l, payload.head? = some l ∧ storedLedger now l = none := by
        cases items with
        | nil => simp [← hfirst]
        | cons item items => simp [← hfirst]
      rw [hitems]
      rcases hloop :
        takeEach (ingestTrajectoryLedger policy sorting autoAnalyzeOnIngest) s items with
        ⟨next, _ | answer⟩
      · have hall : ∀ item ∈ items, (storedLedger now item.1).isSome := by
          by_contra hall
          have hrefused := takeEach_refused htakes (fun m => m.2.1.length)
            (fun m _ => size_addStored m.2) h hall
          rw [hloop] at hrefused
          exact hrefused.1 rfl
        obtain ⟨_, hheld⟩ := takeEach_accepted htakes h hall
        rw [hloop] at hheld
        have hrecords : List.Forall₂ (fun l r => storedLedger now l = some r) payload
            (payload.map (completeLedger now)) := by
          rw [List.forall₂_map_right_iff, List.forall₂_same]
          intro l hl
          obtain ⟨r, hr⟩ := Option.isSome_iff_exists.mp (hstored.mp hall l hl)
          rw [hr, (stored_eq_some hr).1]
        rw [foldl_snd (addStored AgentTrajectoryLedgerV0.json (storedLedger now)), hfirst,
          foldl_addStored _ hrecords] at hheld
        refine iff_of_true (.inl ⟨rfl, payload, hread, ?_⟩) (.inl (hstored.mp hall))
        rw [h.now]
        exact ⟨congrArg Prod.snd hheld, congrArg Prod.fst hheld⟩
      · have hbad : ∃ e, answer = .badRequest e := by
          apply @takeEach_error _ _ _ (ingestTrajectoryLedger policy sorting autoAnalyzeOnIngest)
            (Ready now) (fun answer => ∃ e, answer = .badRequest e) htakes.keeps ?_ _ h items _
            (by rw [hloop])
          intro s' item answer hready hanswer
          by_cases hitem : (storedLedger now item.1).isSome
          · rw [(htakes.accepts s' item hready hitem).1] at hanswer
            cases hanswer
          · obtain ⟨_, ⟨e, he⟩, _⟩ :=
              ingestTrajectoryLedger_refused sorting autoAnalyzeOnIngest hready hitem
            rw [he] at hanswer
            exact ⟨e, (Option.some.inj hanswer).symm⟩
        obtain ⟨e, rfl⟩ := hbad
        rw [hloop, hstored, hhead] at hiff
        have hstatus : ¬ (400 : Nat) = 201 := by decide
        simp only [Answer.status, hstatus, false_and, false_or, Nat.le_refl, true_and, Settles,
          reduceCtorEq, ne_eq, not_false_eq_true] at hiff ⊢
        simpa using hiff

end Posts

section Runs

variable (parses : Text → Bool) {policy : LearningPolicy} (sorting : SliceSort stepsBefore)
  (autoAnalyzeOnIngest : Bool)

theorem events_ingestTrajectoryLedger (s : ExperienceLearningService)
    (item : AgentTrajectoryLedgerV0 × Orders) :
    (ingestTrajectoryLedger policy sorting autoAnalyzeOnIngest s item).1.harnessEvents =
      s.harnessEvents := by
  have hsummary (s : ExperienceLearningService) (run : Text × Orders) :
      (summarizeRun policy sorting s run).1.harnessEvents = s.harnessEvents := by
    rw [summarizeRun_eq_step, (@input_summarize (fun _ => true) policy sorting s run.1 run.2).1]
  unfold ingestTrajectoryLedger
  dsimp only
  split
  · rfl
  split
  · next ledgers _ _ _ =>
    have hevents := hsummary { s with ledgers } ((completeLedger s.now item.1).runId, item.2)
    split <;> next hcall => rwa [hcall] at hevents
  · rfl

theorem events_ledgers (s : ExperienceLearningService)
    (items : List (AgentTrajectoryLedgerV0 × Orders)) :
    (takeEach (ingestTrajectoryLedger policy sorting autoAnalyzeOnIngest) s
      items).1.harnessEvents = s.harnessEvents := by
  apply @takeEach_invariant _ _ _ (ingestTrajectoryLedger policy sorting autoAnalyzeOnIngest)
    fun s' => s'.harnessEvents = s.harnessEvents
  · intro s' item hs
    rw [events_ingestTrajectoryLedger]
    exact hs
  · rfl

theorem state_ledgersHandler (s : ExperienceLearningService) (body : Text)
    (orders : Nat → Orders) : ∃ items,
      (ingestTrajectoryLedgersHandler policy sorting autoAnalyzeOnIngest s body orders).1 =
        (takeEach (ingestTrajectoryLedger policy sorting autoAnalyzeOnIngest) s items).1 := by
  unfold ingestTrajectoryLedgersHandler
  cases hread : readItems AgentTrajectoryLedgerV0.ofJson body with
  | error e => exact ⟨[], rfl⟩
  | ok payload =>
      refine ⟨payload.zipIdx.map fun (ledger, i) => (ledger, orders i), ?_⟩
      dsimp only
      split <;> next hloop => rw [hloop]

/-- What a post of events leaves in the log of events. -/
theorem events_eventsHandler (s : ExperienceLearningService) (body : Text)
    (orders : Nat → Orders) : ∃ items,
      (ingestHarnessEventsHandler parses policy sorting autoAnalyzeOnIngest s body
        orders).1.harnessEvents =
        (takeEach (ingestHarnessEvent parses) s items).1.harnessEvents := by
  unfold ingestHarnessEventsHandler ingestHarnessEvents
  cases hread : readItems PostedEvent.ofJson body with
  | error e => exact ⟨[], rfl⟩
  | ok posted =>
      refine ⟨posted.zipIdx, ?_⟩
      rcases hloop : takeEach (ingestHarnessEvent parses) s posted.zipIdx with ⟨next, _ | e⟩
      · simp only [hloop]
        cases autoAnalyzeOnIngest with
        | false => rfl
        | true =>
            have hevents := @harnessEvents_summarizeRuns policy sorting next
              ((sortedNames (posted.map fun p => p.event.runId)).zipIdx.map
                fun (runId, i) => (runId, orders i))
            rw [← hevents]
            simp only [if_true]
            split <;> next hcall => simp only [hcall]
      · simp only [hloop]

theorem events_grow (s : ExperienceLearningService) (items : List (PostedEvent × Nat)) :
    s.harnessEvents.records.length ≤
      (takeEach (ingestHarnessEvent parses) s items).1.harnessEvents.records.length := by
  apply @takeEach_invariant _ _ _ (ingestHarnessEvent parses)
    fun s' => s.harnessEvents.records.length ≤ s'.harnessEvents.records.length
  · intro s' item hs
    unfold ingestHarnessEvent
    split
    · exact hs
    next event hevent =>
    have hprefix := (@prefix_append _ _ _ (harnessEventStore parses) s'.harnessEvents event).length_le
    split
    · next happend =>
        rw [happend] at hprefix
        exact hs.trans hprefix
    · next happend =>
        rw [happend] at hprefix
        exact hs.trans hprefix
  · exact Nat.le_refl _

/-- What a request leaves, when the process was ready for its analyses. -/
theorem ready_serve (hpolicy : Bounded policy) {now : StartTime} {s : ExperienceLearningService}
    (h : Ready now s) (request : Request)
    (hroom : Summaries.Countable (serve parses policy sorting autoAnalyzeOnIngest s request)) :
    Ready now (serve parses policy sorting autoAnalyzeOnIngest s request) := by
  rcases request with ⟨⟨⟩ | ⟨⟩, body, orders⟩ | ⟨runId, orders⟩
  · change Summaries.Countable (ingestHarnessEventsHandler parses policy sorting
      autoAnalyzeOnIngest s body orders).1 at hroom
    change Ready now (ingestHarnessEventsHandler parses policy sorting
      autoAnalyzeOnIngest s body orders).1
    cases hread : readItems PostedEvent.ofJson body with
    | error e =>
        unfold ingestHarnessEventsHandler
        rw [hread]
        exact h
    | ok posted =>
        by_cases hall : ∀ item ∈ posted.zipIdx, (storedEvent parses now item).isSome
        · exact (answer_events parses sorting autoAnalyzeOnIngest hpolicy h orders hread hall
            hroom).2.1
        · obtain ⟨e, hanswer⟩ :=
            refuse_events parses sorting autoAnalyzeOnIngest h.now orders hread hall
          obtain ⟨hsound, hnow, _⟩ := sound_events parses h posted.zipIdx
          rw [hanswer] at hroom ⊢
          exact ⟨hsound, hroom, hnow⟩
  · obtain ⟨items, hitems⟩ :=
      @state_ledgersHandler policy sorting autoAnalyzeOnIngest s body orders
    change Ready now (ingestTrajectoryLedgersHandler policy sorting autoAnalyzeOnIngest s body
      orders).1
    rw [hitems]
    exact takeEach_invariant
      (takes_ingestTrajectoryLedger sorting autoAnalyzeOnIngest hpolicy now).keeps h items
  · have hready := (ready_summarizeRun sorting hpolicy h (runId, orders)).1
    rw [summarizeRun_eq_step] at hready
    exact hready

/-- The log of events never shrinks. -/
theorem serve_grows (s : ExperienceLearningService) (request : Request) :
    s.harnessEvents.records.length ≤ (serve parses policy sorting autoAnalyzeOnIngest s
      request).harnessEvents.records.length := by
  rcases request with ⟨⟨⟩ | ⟨⟩, body, orders⟩ | ⟨runId, orders⟩
  · obtain ⟨items, hitems⟩ :=
      @events_eventsHandler parses policy sorting autoAnalyzeOnIngest s body orders
    simp only [serve, answerPost, hitems]
    exact events_grow parses s items
  · obtain ⟨items, hitems⟩ :=
      @state_ledgersHandler policy sorting autoAnalyzeOnIngest s body orders
    simp only [serve, answerPost, hitems, events_ledgers]
    exact Nat.le_refl _
  · obtain ⟨hevents, _⟩ := @input_summarize (fun _ => true) policy sorting s runId orders
    exact (congrArg (fun log => log.records.length) hevents).ge

/-- A settled request adds the events it is accepted with, and no others. -/
theorem events_serve (hpolicy : Bounded policy) {now : StartTime} {s : ExperienceLearningService}
    (h : Ready now s) {request : Request}
    (hroom : Summaries.Countable (serve parses policy sorting autoAnalyzeOnIngest s request))
    (hsettled : ∀ p, request = .post p → p.Settled parses now) :
    (serve parses policy sorting autoAnalyzeOnIngest s request).harnessEvents.records =
      s.harnessEvents.records ++ request.acceptedEvents parses now := by
  rcases request with ⟨⟨⟩ | ⟨⟩, body, orders⟩ | ⟨runId, orders⟩
  · have hsettled := hsettled _ rfl
    change Summaries.Countable (ingestHarnessEventsHandler parses policy sorting
      autoAnalyzeOnIngest s body orders).1 at hroom
    change (ingestHarnessEventsHandler parses policy sorting
      autoAnalyzeOnIngest s body orders).1.harnessEvents.records = _
    unfold Request.acceptedEvents Posting.acceptedEvents
    unfold Posting.Settled at hsettled
    cases hread : readItems PostedEvent.ofJson body with
    | error e =>
        unfold ingestHarnessEventsHandler
        simp only [hread, List.append_nil]
    | ok posted =>
        simp only [hread]
        by_cases hall : ∀ item ∈ posted.zipIdx, (storedEvent parses now item).isSome
        · obtain ⟨_, _, hcontents, _⟩ := answer_events parses sorting autoAnalyzeOnIngest hpolicy h
            orders hread hall hroom
          rw [if_pos hall]
          exact congrArg Prod.fst hcontents
        · obtain ⟨e, hanswer⟩ :=
            refuse_events parses sorting autoAnalyzeOnIngest h.now orders hread hall
          obtain ⟨item, hhead, hitem⟩ := (hsettled posted hread).resolve_left hall
          obtain ⟨rest, hrest⟩ := List.head?_eq_some_iff.mp hhead
          obtain ⟨hsome, hlogs⟩ := (takes_ingestHarnessEvent parses now).refuses s item h.now
            (by rw [hitem]; decide)
          rw [if_neg hall, List.append_nil, hanswer, hrest, takeEach_cons_some hsome]
          exact congrArg (fun l => l.1.1) hlogs
  · obtain ⟨items, hitems⟩ :=
      @state_ledgersHandler policy sorting autoAnalyzeOnIngest s body orders
    simp only [serve, answerPost, hitems, events_ledgers, Request.acceptedEvents,
      Posting.acceptedEvents, List.append_nil]
  · obtain ⟨hevents, _⟩ := @input_summarize (fun _ => true) policy sorting s runId orders
    rw [Request.acceptedEvents, List.append_nil]
    exact congrArg Log.records hevents

theorem ready_run (hpolicy : Bounded policy) {now : StartTime} {s : ExperienceLearningService}
    (h : Ready now s) {requests : List Request} (hroom : Summaries.Countable
      (run (serve parses policy sorting autoAnalyzeOnIngest) s requests)) :
    Ready now (run (serve parses policy sorting autoAnalyzeOnIngest) s requests) ∧
      ((∀ p, .post p ∈ requests → p.Settled parses now) →
        (run (serve parses policy sorting autoAnalyzeOnIngest) s requests).harnessEvents.records =
          s.harnessEvents.records ++ requests.flatMap (Request.acceptedEvents parses now)) := by
  induction requests using List.reverseRecOn with
  | nil => exact ⟨h, fun _ => (List.append_nil _).symm⟩
  | append_singleton requests request ih =>
      rw [run_append, run_cons, run_nil] at hroom ⊢
      obtain ⟨hready, hevents⟩ :=
        ih ((serve_grows parses sorting autoAnalyzeOnIngest _ request).trans_lt hroom)
      refine ⟨ready_serve parses sorting autoAnalyzeOnIngest hpolicy hready request hroom, ?_⟩
      intro hsettled
      have hlast : ∀ p, request = .post p → p.Settled parses now :=
        fun p hp => hsettled p (by simp [hp])
      have hbefore : ∀ p, .post p ∈ requests → p.Settled parses now :=
        fun p hp => hsettled p (List.mem_append_left _ hp)
      rw [events_serve parses sorting autoAnalyzeOnIngest hpolicy hready hroom hlast,
        hevents hbefore, List.append_assoc, List.flatMap_append, List.flatMap_singleton]

end Runs

section Main

variable (parses : Text → Bool) (sorting : SliceSort stepsBefore) (autoAnalyzeOnIngest : Bool)

theorem ready_start (now : StartTime) : Ready now { now } :=
  ⟨sound_start now, Nat.two_pow_pos 63, rfl⟩

/-- After any requests, as long as the events can be counted: a post is answered
201 with all its items appended, or with a client error and no trace, exactly if
no item is refused behind one that is stored; and where all posts were like that,
the log holds the events of the accepted posts, each once for each such post. -/
theorem posts_atomic_iff (read : Option LearningPolicy) (now : StartTime) (requests : List Request)
    (p : Posting) :
    let policy := loadLearningPolicyWithDefault read
    let s := run (serve parses policy sorting autoAnalyzeOnIngest) { now } requests
    (answerPost parses policy sorting autoAnalyzeOnIngest s p).1.harnessEvents.records.length <
      2 ^ 63 →
    (p.Atomic parses policy sorting autoAnalyzeOnIngest s ↔ p.Settled parses now) ∧
      ((∀ q, .post q ∈ requests → q.Settled parses now) →
        s.harnessEvents.records = requests.flatMap (Request.acceptedEvents parses now)) := by
  intro policy s hroom
  have hpolicy : Bounded policy := bounded_load read
  have hgrows := @serve_grows parses policy sorting autoAnalyzeOnIngest s (.post p)
  obtain ⟨hready, hevents⟩ := ready_run parses sorting autoAnalyzeOnIngest hpolicy
    (ready_start now) (hgrows.trans_lt hroom)
  refine ⟨?_, hevents⟩
  rcases p with ⟨⟨⟩ | ⟨⟩, body, orders⟩
  · exact atomic_events parses sorting autoAnalyzeOnIngest hpolicy hready body orders hroom
  · exact atomic_ledgers parses sorting autoAnalyzeOnIngest hpolicy hready body orders

/-- A post of a single item is settled. -/
theorem settles_of_length_le_one {Item Record : Type} (f : Item → Option Record)
    {items : List Item} (h : items.length ≤ 1) : Settles f items := by
  rcases items with _ | ⟨item, _ | ⟨_, _⟩⟩
  · exact .inl nofun
  · cases hitem : f item with
    | none => exact .inr ⟨item, rfl, hitem⟩
    | some r => exact .inl (by simp [hitem])
  · simp at h

end Main

section Sample

def arrayOf (events : List EventEnvelopeV0) : Posting where
  kind := .harnessEvents
  body := marshal (.array (events.map fun e => e.json.getD .null))
  orders _ := listed

/-- An action whose run has been forgotten. -/
def unnamed : EventEnvelopeV0 :=
  { action 2 with runId := [] }

def samplePost : ExperienceLearningService → Posting → ExperienceLearningService × Answer :=
  answerPost (fun _ => true) defaultLearningPolicy insertion true

theorem settled_actions : (arrayOf [action 1, action 2]).Settled (fun _ => true) start := by
  intro posted hread
  have hstored : (match readItems PostedEvent.ofJson (arrayOf [action 1, action 2]).body with
      | .ok posted => posted.zipIdx.all fun item => (storedEvent (fun _ => true) start item).isSome
      | .error _ => true) = true := by
    decide +kernel
  rw [hread] at hstored
  exact .inl (List.all_eq_true.mp hstored)

theorem settled_unnamed : (arrayOf [unnamed]).Settled (fun _ => true) start := by
  intro posted hread
  have hlength : (match readItems PostedEvent.ofJson (arrayOf [unnamed]).body with
      | .ok posted => posted.length
      | .error _ => 0) ≤ 1 := by
    decide +kernel
  rw [hread] at hlength
  exact settles_of_length_le_one _ (by rwa [List.length_zipIdx])

/-- Two actions, after a post that was refused as a whole. -/
theorem two_actions_counted :
    (arrayOf [action 1, action 2]).Atomic (fun _ => true) (loadLearningPolicyWithDefault none)
        insertion true
        (run (serve (fun _ => true) (loadLearningPolicyWithDefault none) insertion true)
          { now := start } [.post (arrayOf [unnamed])]) ∧
      (run (serve (fun _ => true) (loadLearningPolicyWithDefault none) insertion true)
          { now := start } [.post (arrayOf [unnamed])]).harnessEvents.records =
        [Request.post (arrayOf [unnamed])].flatMap
          (Request.acceptedEvents (fun _ => true) start) := by
  have hmain := posts_atomic_iff (fun _ => true) insertion true none start
    [.post (arrayOf [unnamed])] (arrayOf [action 1, action 2]) (by decide +kernel)
  have hbefore : ∀ q, Request.post q ∈ [Request.post (arrayOf [unnamed])] →
      q.Settled (fun _ => true) start := by
    intro q hq
    cases List.mem_singleton.mp hq
    exact settled_unnamed
  exact ⟨hmain.1.mpr settled_actions, hmain.2 hbefore⟩

/-- The patterns that are found after posts, with their counts. -/
def countsAfter (posts : List Posting) : List (Text × Int64) :=
  (run (fun s p => (samplePost s p).1) { now := start } posts).experienceEvents.records.map
    fun e => (e.pattern, e.occurrences)

/-- A post that is refused for its second event keeps the first: when it is
corrected and sent again, that event counts twice. -/
theorem refused_post_counts_twice :
    ¬ (arrayOf [action 1, unnamed]).Atomic (fun _ => true) defaultLearningPolicy insertion true
        { now := start } ∧
      (samplePost { now := start } (arrayOf [action 1, unnamed])).2.status = 400 ∧
      countsAfter [arrayOf [action 1, action 2]] =
        [(patternRepeatAction, 2), (patternUnchangedOutput, 2)] ∧
      countsAfter [arrayOf [action 1, unnamed], arrayOf [action 1, action 2]] =
        [(patternRepeatAction, 3), (patternUnchangedOutput, 3)] := by
  have hstatus : (samplePost { now := start } (arrayOf [action 1, unnamed])).2.status = 400 := by
    decide +kernel
  have hlength : (samplePost { now := start }
      (arrayOf [action 1, unnamed])).1.harnessEvents.records.length = 1 := by
    decide +kernel
  refine ⟨?_, hstatus, by decide +kernel, by decide +kernel⟩
  unfold samplePost at hstatus hlength
  rintro (⟨hcreated, _⟩ | ⟨_, hlogs⟩)
  · rw [hstatus] at hcreated
    cases hcreated
  · simp only [logs, contents, Prod.mk.injEq] at hlogs
    rw [hlogs.1.1] at hlength
    cases hlength

end Sample

end C2c.Learning.Ingestion
