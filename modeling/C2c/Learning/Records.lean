import C2c.Harness.Events
import C2c.Library.JsonLines

/-!
The records of the experience learning service: harness events, trajectory
ledgers and experience events, their checks and their JSON.
-/

namespace C2c.Learning.Records

open C2c.Library.JavaText
open C2c.Library.GoText
open C2c.Library.GoTime
open C2c.Library.JsonText
open C2c.Library.GoJson
open C2c.Library.JsonLines
open C2c.Harness.Events (SchemaValidationError firstFailing isHexDigit allowedDataClasses
  allowedRedactionProfiles)

def experienceSchemaVersion : Text := "v0".toList

structure EventReference where
  uri : Text := []
  sha256 : Text := []
  byteSize : Int64 := 0
deriving DecidableEq

namespace EventReference

section Validation

-- Whether `url.Parse` reads a text.
variable (parses : Text → Bool)

/-- `EventReference.Validate`. -/
def validate (r : EventReference) : Option SchemaValidationError :=
  firstFailing
    [(trimSpace r.uri ≠ [], "uri", "required"),
      (parses r.uri || !contains r.uri "://".toList, "uri", "invalid URI"),
      (trimSpace r.sha256 ≠ [], "sha256", "required"),
      (byteLength r.sha256 = 64, "sha256", "must be 64 hex chars"),
      (r.sha256.all isHexDigit, "sha256", "must be valid hex"),
      (0 ≤ r.byteSize, "byteSize", "must be >= 0")]

end Validation

def table (r : EventReference) : List (String × Option Json) :=
  [("uri", textField r.uri), ("sha256", textField r.sha256), ("byteSize", int64Field r.byteSize)]

def json (r : EventReference) : Json :=
  .object (present r.table)

def ofJson : Json → Option EventReference
  | .null => some {}
  | .object members => do
      some {
        uri := ← readText (member members "uri")
        sha256 := ← readText (member members "sha256")
        byteSize := ← readInt64 (member members "byteSize") }
  | _ => none

theorem table_names (r : EventReference) : namesDistinct (r.table.map Prod.fst) = true := by
  simp only [table, List.map_cons, List.map_nil]
  decide +kernel

theorem ofJson_json (r : EventReference) : ofJson r.json = some r := by
  have hmember := fun name => @member_table r.table r.table_names name
  simp only [table, List.map_cons, List.map_nil] at hmember
  simp [ofJson, json, table, hmember, entry]

end EventReference

/-- `EventEnvelopeV0`; `payload`, under `omitempty`, does not tell an empty map
from none. -/
structure EventEnvelopeV0 where
  schemaVersion : Text := []
  eventId : Text := []
  eventType : Text := []
  service : Text := []
  runId : Text := []
  stepId : Int64 := 0
  actor : Text := []
  capability : Text := []
  dataClass : Text := []
  redactionProfile : Text := []
  policyDecision : Text := []
  status : Text := []
  stateTransition : Text := []
  errorClass : Text := []
  latencyMs : Option Int64 := none
  inputRef : EventReference := {}
  outputRef : EventReference := {}
  createdAt : Time := .zero
  payload : AnyMap := .empty
  relatedRecords : List Text := []

namespace EventEnvelopeV0

/-- `EventEnvelopeV0.Validate`. -/
def validate (parses : Text → Bool) (e : EventEnvelopeV0) : Option SchemaValidationError :=
  (firstFailing
    [(trimSpace e.schemaVersion ≠ [], "schemaVersion", "required"),
      (e.schemaVersion = experienceSchemaVersion, "schemaVersion", "must be v0"),
      (trimSpace e.eventId ≠ [], "eventId", "required"),
      (trimSpace e.eventType ≠ [], "eventType", "required"),
      (trimSpace e.service ≠ [], "service", "required"),
      (trimSpace e.runId ≠ [], "runId", "required"),
      (0 < e.stepId, "stepId", "must be > 0"),
      (trimSpace e.actor ≠ [], "actor", "required"),
      (trimSpace e.capability ≠ [], "capability", "required"),
      (e.dataClass ∈ allowedDataClasses, "dataClass", "unsupported"),
      (e.redactionProfile ∈ allowedRedactionProfiles, "redactionProfile", "unsupported"),
      (trimSpace e.policyDecision ≠ [], "policyDecision", "required"),
      (trimSpace e.status ≠ [], "status", "required"),
      (trimSpace e.stateTransition ≠ [], "stateTransition", "required"),
      (!e.createdAt.isZero, "createdAt", "required")]).orElse fun _ =>
  (e.inputRef.validate parses).orElse fun _ =>
  (e.outputRef.validate parses).orElse fun _ =>
  firstFailing [(e.latencyMs.all (0 ≤ ·), "latencyMs", "must be >= 0")]

def table (e : EventEnvelopeV0) (createdAt : Json) : List (String × Option Json) :=
  [("schemaVersion", textField e.schemaVersion),
    ("eventId", textField e.eventId),
    ("eventType", textField e.eventType),
    ("service", textField e.service),
    ("runId", textField e.runId),
    ("stepId", int64Field e.stepId),
    ("actor", textField e.actor),
    ("capability", textField e.capability),
    ("dataClass", textField e.dataClass),
    ("redactionProfile", textField e.redactionProfile),
    ("policyDecision", textField e.policyDecision),
    ("status", textField e.status),
    ("stateTransition", textField e.stateTransition),
    ("errorClass", textOmitEmpty e.errorClass),
    ("latencyMs", int64Pointer e.latencyMs),
    ("inputRef", some e.inputRef.json),
    ("outputRef", some e.outputRef.json),
    ("createdAt", some createdAt),
    ("payload", mapOmitEmpty e.payload),
    ("relatedRecords", textsOmitEmpty e.relatedRecords)]

def json (e : EventEnvelopeV0) : Option Json := do
  let createdAt ← timeField e.createdAt
  some (.object (present (e.table createdAt)))

def ofJson : Json → Option EventEnvelopeV0
  | .null => some {}
  | .object members => do
      some {
        schemaVersion := ← readText (member members "schemaVersion")
        eventId := ← readText (member members "eventId")
        eventType := ← readText (member members "eventType")
        service := ← readText (member members "service")
        runId := ← readText (member members "runId")
        stepId := ← readInt64 (member members "stepId")
        actor := ← readText (member members "actor")
        capability := ← readText (member members "capability")
        dataClass := ← readText (member members "dataClass")
        redactionProfile := ← readText (member members "redactionProfile")
        policyDecision := ← readText (member members "policyDecision")
        status := ← readText (member members "status")
        stateTransition := ← readText (member members "stateTransition")
        errorClass := ← readText (member members "errorClass")
        latencyMs := ← readInt64Pointer (member members "latencyMs")
        inputRef := ← EventReference.ofJson (member members "inputRef")
        outputRef := ← EventReference.ofJson (member members "outputRef")
        createdAt := ← readTime (member members "createdAt")
        payload := ← readMapOrEmpty (member members "payload")
        relatedRecords := ← readTexts (member members "relatedRecords") }
  | _ => none

theorem table_names (e : EventEnvelopeV0) (createdAt : Json) :
    namesDistinct ((e.table createdAt).map Prod.fst) = true := by
  simp only [table, List.map_cons, List.map_nil]
  decide +kernel

theorem ofJson_json {e : EventEnvelopeV0} {v : Json} (h : e.json = some v) :
    (∃ members, v = .object members) ∧ ofJson v = some e := by
  obtain ⟨createdAt, htime, hv⟩ := Option.bind_eq_some_iff.mp h
  cases hv
  refine ⟨⟨_, rfl⟩, ?_⟩
  have hmember := fun name => @member_table _ (e.table_names createdAt) name
  simp only [table, List.map_cons, List.map_nil] at hmember
  simp [ofJson, table, hmember, entry, EventReference.ofJson_json, readTime_timeField htime]

end EventEnvelopeV0

structure AgentTrajectoryEntry where
  eventId : Text := []
  stepId : Int64 := 0
  actor : Text := []
  capability : Text := []
  dataClass : Text := []
  eventType : Text := []
  stateTransition : Text := []
  status : Text := []
  createdAt : Time := .zero

namespace AgentTrajectoryEntry

def table (e : AgentTrajectoryEntry) (createdAt : Json) : List (String × Option Json) :=
  [("eventId", textField e.eventId),
    ("stepId", int64Field e.stepId),
    ("actor", textField e.actor),
    ("capability", textField e.capability),
    ("dataClass", textField e.dataClass),
    ("eventType", textField e.eventType),
    ("stateTransition", textField e.stateTransition),
    ("status", textField e.status),
    ("createdAt", some createdAt)]

def json (e : AgentTrajectoryEntry) : Option Json := do
  let createdAt ← timeField e.createdAt
  some (.object (present (e.table createdAt)))

def ofJson : Json → Option AgentTrajectoryEntry
  | .null => some {}
  | .object members => do
      some {
        eventId := ← readText (member members "eventId")
        stepId := ← readInt64 (member members "stepId")
        actor := ← readText (member members "actor")
        capability := ← readText (member members "capability")
        dataClass := ← readText (member members "dataClass")
        eventType := ← readText (member members "eventType")
        stateTransition := ← readText (member members "stateTransition")
        status := ← readText (member members "status")
        createdAt := ← readTime (member members "createdAt") }
  | _ => none

theorem table_names (e : AgentTrajectoryEntry) (createdAt : Json) :
    namesDistinct ((e.table createdAt).map Prod.fst) = true := by
  simp only [table, List.map_cons, List.map_nil]
  decide +kernel

theorem ofJson_json {e : AgentTrajectoryEntry} {v : Json} (h : e.json = some v) :
    ofJson v = some e := by
  obtain ⟨createdAt, htime, hv⟩ := Option.bind_eq_some_iff.mp h
  cases hv
  have hmember := fun name => @member_table _ (e.table_names createdAt) name
  simp only [table, List.map_cons, List.map_nil] at hmember
  simp [ofJson, table, hmember, entry, readTime_timeField htime]

end AgentTrajectoryEntry

/-- `AgentTrajectoryLedgerV0`; `steps` may be `nil`, and `omitempty` does not
leave out a time. -/
structure AgentTrajectoryLedgerV0 where
  schemaVersion : Text := []
  runId : Text := []
  status : Text := []
  workflowId : Text := []
  startedAt : Time := .zero
  completedAt : Time := .zero
  capturedAt : Time := .zero
  steps : Option (List AgentTrajectoryEntry) := none

namespace AgentTrajectoryLedgerV0

/-- The checks of the steps from an index on, after steps of the given ids. -/
def validateSteps (seen : List Int64) (index : Nat) :
    List AgentTrajectoryEntry → Option SchemaValidationError
  | [] => none
  | step :: steps =>
      (firstFailing
        [(trimSpace step.eventId ≠ [], s!"steps[{index}].eventId", "required"),
          (0 < step.stepId, s!"steps[{index}].stepId", "must be > 0"),
          (!seen.contains step.stepId, s!"steps[{index}].stepId", "duplicate step id"),
          (trimSpace step.actor ≠ [], s!"steps[{index}].actor", "required"),
          (trimSpace step.capability ≠ [], s!"steps[{index}].capability", "required"),
          (step.dataClass ∈ allowedDataClasses, s!"steps[{index}].dataClass", "unsupported"),
          (trimSpace step.eventType ≠ [], s!"steps[{index}].eventType", "required"),
          (trimSpace step.stateTransition ≠ [], s!"steps[{index}].stateTransition", "required"),
          (trimSpace step.status ≠ [], s!"steps[{index}].status", "required"),
          (!step.createdAt.isZero, s!"steps[{index}].createdAt", "required")]).orElse fun _ =>
      validateSteps (step.stepId :: seen) (index + 1) steps

/-- `AgentTrajectoryLedgerV0.Validate`. -/
def validate (l : AgentTrajectoryLedgerV0) : Option SchemaValidationError :=
  (firstFailing
    [(trimSpace l.schemaVersion ≠ [], "schemaVersion", "required"),
      (l.schemaVersion = experienceSchemaVersion, "schemaVersion", "must be v0"),
      (trimSpace l.runId ≠ [], "runId", "required"),
      (trimSpace l.status ≠ [], "status", "required"),
      (!l.capturedAt.isZero, "capturedAt", "required")]).orElse fun _ =>
  validateSteps [] 0 (l.steps.getD [])

def stepsJson : Option (List AgentTrajectoryEntry) → Option Json
  | none => some .null
  | some steps => (steps.mapM AgentTrajectoryEntry.json).map .array

def readSteps : Json → Option (Option (List AgentTrajectoryEntry))
  | .null => some none
  | .array items => (items.mapM AgentTrajectoryEntry.ofJson).map some
  | _ => none

theorem mapM_ofJson {steps : List AgentTrajectoryEntry} {items : List Json}
    (h : steps.mapM AgentTrajectoryEntry.json = some items) :
    items.mapM AgentTrajectoryEntry.ofJson = some steps := by
  induction steps generalizing items with
  | nil =>
      cases h
      rfl
  | cons step steps ih =>
      rw [List.mapM_cons] at h
      obtain ⟨item, hitem, h⟩ := Option.bind_eq_some_iff.mp h
      obtain ⟨rest, hrest, h⟩ := Option.bind_eq_some_iff.mp h
      cases h
      simp [AgentTrajectoryEntry.ofJson_json hitem, ih hrest]

theorem readSteps_json {steps : Option (List AgentTrajectoryEntry)} {v : Json}
    (h : stepsJson steps = some v) : readSteps v = some steps := by
  cases steps with
  | none =>
      cases h
      rfl
  | some steps =>
      obtain ⟨items, hitems, rfl⟩ := Option.map_eq_some_iff.mp h
      rw [readSteps, mapM_ofJson hitems]
      rfl

def table (l : AgentTrajectoryLedgerV0) (startedAt completedAt capturedAt steps : Json) :
    List (String × Option Json) :=
  [("schemaVersion", textField l.schemaVersion),
    ("runId", textField l.runId),
    ("status", textField l.status),
    ("workflowId", textOmitEmpty l.workflowId),
    ("startedAt", some startedAt),
    ("completedAt", some completedAt),
    ("capturedAt", some capturedAt),
    ("steps", some steps)]

def json (l : AgentTrajectoryLedgerV0) : Option Json := do
  let startedAt ← timeField l.startedAt
  let completedAt ← timeField l.completedAt
  let capturedAt ← timeField l.capturedAt
  let steps ← stepsJson l.steps
  some (.object (present (l.table startedAt completedAt capturedAt steps)))

def ofJson : Json → Option AgentTrajectoryLedgerV0
  | .null => some {}
  | .object members => do
      some {
        schemaVersion := ← readText (member members "schemaVersion")
        runId := ← readText (member members "runId")
        status := ← readText (member members "status")
        workflowId := ← readText (member members "workflowId")
        startedAt := ← readTime (member members "startedAt")
        completedAt := ← readTime (member members "completedAt")
        capturedAt := ← readTime (member members "capturedAt")
        steps := ← readSteps (member members "steps") }
  | _ => none

theorem table_names (l : AgentTrajectoryLedgerV0) (startedAt completedAt capturedAt steps : Json) :
    namesDistinct ((l.table startedAt completedAt capturedAt steps).map Prod.fst) = true := by
  simp only [table, List.map_cons, List.map_nil]
  decide +kernel

theorem ofJson_json {l : AgentTrajectoryLedgerV0} {v : Json} (h : l.json = some v) :
    (∃ members, v = .object members) ∧ ofJson v = some l := by
  obtain ⟨startedAt, hstarted, h⟩ := Option.bind_eq_some_iff.mp h
  obtain ⟨completedAt, hcompleted, h⟩ := Option.bind_eq_some_iff.mp h
  obtain ⟨capturedAt, hcaptured, h⟩ := Option.bind_eq_some_iff.mp h
  obtain ⟨steps, hsteps, h⟩ := Option.bind_eq_some_iff.mp h
  cases h
  refine ⟨⟨_, rfl⟩, ?_⟩
  have hmember := fun name =>
    @member_table _ (l.table_names startedAt completedAt capturedAt steps) name
  simp only [table, List.map_cons, List.map_nil] at hmember
  simp [ofJson, table, hmember, entry, readTime_timeField hstarted, readTime_timeField hcompleted,
    readTime_timeField hcaptured, readSteps_json hsteps]

end AgentTrajectoryLedgerV0

def statusObserved : Text := "observed".toList

def statusIgnored : Text := "ignored".toList

structure ExperienceEventV0 where
  schemaVersion : Text := []
  eventId : Text := []
  eventType : Text := []
  service : Text := []
  runId : Text := []
  actor : Text := []
  capability : Text := []
  dataClass : Text := []
  redactionProfile : Text := []
  policyDecision : Text := []
  status : Text := []
  stateTransition : Text := []
  inputHash : Text := []
  outputHash : Text := []
  pattern : Text := []
  patternFingerprint : Text := []
  buildTestOutcome : Text := []
  occurrences : Int64 := 0
  confidence : Numeral := zeroNumeral
  firstStepId : Int64 := 0
  lastStepId : Int64 := 0
  relatedRecords : List Text := []
  evidenceRefs : List Text := []
  observationOnly : Bool := false
  policyVersion : Text := []
  payload : AnyMap := .empty
  createdAt : Time := .zero
  observedAt : Time := .zero

namespace ExperienceEventV0

/-- The checks of a hash, which may be missing. -/
def hashChecks (hash : Text) (path : String) : List (Bool × String × String) :=
  [(trimSpace hash = [] || byteLength hash = 64, path, "must be 64 hex chars"),
    (trimSpace hash = [] || hash.all isHexDigit, path, "must be valid hex")]

/-- `ExperienceEventV0.Validate`. -/
def validate (e : ExperienceEventV0) : Option SchemaValidationError :=
  firstFailing
    ([(decide (trimSpace e.schemaVersion ≠ []), "schemaVersion", "required"),
      (e.schemaVersion = experienceSchemaVersion, "schemaVersion", "must be v0"),
      (trimSpace e.eventId ≠ [], "eventId", "required"),
      (trimSpace e.eventType ≠ [], "eventType", "required"),
      (trimSpace e.service ≠ [], "service", "required"),
      (trimSpace e.runId ≠ [], "runId", "required"),
      (trimSpace e.actor ≠ [], "actor", "required"),
      (trimSpace e.capability ≠ [], "capability", "required"),
      (e.dataClass ∈ allowedDataClasses, "dataClass", "unsupported"),
      (e.redactionProfile ∈ allowedRedactionProfiles, "redactionProfile", "unsupported"),
      (trimSpace e.policyDecision ≠ [], "policyDecision", "required"),
      (trimSpace e.status ≠ [], "status", "required"),
      (e.status ∈ [statusObserved, statusIgnored], "status", "unsupported"),
      (trimSpace e.stateTransition ≠ [], "stateTransition", "required"),
      (0 < e.occurrences, "occurrences", "must be > 0"),
      (0 ≤ e.confidence.value && e.confidence.value ≤ 1, "confidence", "must be in [0,1]")] ++
      hashChecks e.inputHash "inputHash" ++ hashChecks e.outputHash "outputHash" ++
      [(!e.createdAt.isZero, "createdAt", "required"),
        (!e.observedAt.isZero, "observedAt", "required")])

def table (e : ExperienceEventV0) (createdAt observedAt : Json) : List (String × Option Json) :=
  [("schemaVersion", textField e.schemaVersion),
    ("eventId", textField e.eventId),
    ("eventType", textField e.eventType),
    ("service", textField e.service),
    ("runId", textField e.runId),
    ("actor", textField e.actor),
    ("capability", textField e.capability),
    ("dataClass", textField e.dataClass),
    ("redactionProfile", textField e.redactionProfile),
    ("policyDecision", textField e.policyDecision),
    ("status", textField e.status),
    ("stateTransition", textField e.stateTransition),
    ("inputHash", textField e.inputHash),
    ("outputHash", textField e.outputHash),
    ("pattern", textField e.pattern),
    ("patternFingerprint", textField e.patternFingerprint),
    ("buildTestOutcome", textOmitEmpty e.buildTestOutcome),
    ("occurrences", int64Field e.occurrences),
    ("confidence", floatField e.confidence),
    ("firstStepId", int64OmitEmpty e.firstStepId),
    ("lastStepId", int64OmitEmpty e.lastStepId),
    ("relatedRecords", textsOmitEmpty e.relatedRecords),
    ("evidenceRefs", textsOmitEmpty e.evidenceRefs),
    ("observationOnly", boolField e.observationOnly),
    ("policyVersion", textField e.policyVersion),
    ("payload", mapOmitEmpty e.payload),
    ("createdAt", some createdAt),
    ("observedAt", some observedAt)]

def json (e : ExperienceEventV0) : Option Json := do
  let createdAt ← timeField e.createdAt
  let observedAt ← timeField e.observedAt
  some (.object (present (e.table createdAt observedAt)))

def ofJson : Json → Option ExperienceEventV0
  | .null => some {}
  | .object members => do
      some {
        schemaVersion := ← readText (member members "schemaVersion")
        eventId := ← readText (member members "eventId")
        eventType := ← readText (member members "eventType")
        service := ← readText (member members "service")
        runId := ← readText (member members "runId")
        actor := ← readText (member members "actor")
        capability := ← readText (member members "capability")
        dataClass := ← readText (member members "dataClass")
        redactionProfile := ← readText (member members "redactionProfile")
        policyDecision := ← readText (member members "policyDecision")
        status := ← readText (member members "status")
        stateTransition := ← readText (member members "stateTransition")
        inputHash := ← readText (member members "inputHash")
        outputHash := ← readText (member members "outputHash")
        pattern := ← readText (member members "pattern")
        patternFingerprint := ← readText (member members "patternFingerprint")
        buildTestOutcome := ← readText (member members "buildTestOutcome")
        occurrences := ← readInt64 (member members "occurrences")
        confidence := ← readFloat (member members "confidence")
        firstStepId := ← readInt64 (member members "firstStepId")
        lastStepId := ← readInt64 (member members "lastStepId")
        relatedRecords := ← readTexts (member members "relatedRecords")
        evidenceRefs := ← readTexts (member members "evidenceRefs")
        observationOnly := ← readBool (member members "observationOnly")
        policyVersion := ← readText (member members "policyVersion")
        payload := ← readMapOrEmpty (member members "payload")
        createdAt := ← readTime (member members "createdAt")
        observedAt := ← readTime (member members "observedAt") }
  | _ => none

theorem table_names (e : ExperienceEventV0) (createdAt observedAt : Json) :
    namesDistinct ((e.table createdAt observedAt).map Prod.fst) = true := by
  simp only [table, List.map_cons, List.map_nil]
  decide +kernel

theorem ofJson_json {e : ExperienceEventV0} {v : Json} (h : e.json = some v) :
    (∃ members, v = .object members) ∧ ofJson v = some e := by
  obtain ⟨createdAt, hcreated, h⟩ := Option.bind_eq_some_iff.mp h
  obtain ⟨observedAt, hobserved, h⟩ := Option.bind_eq_some_iff.mp h
  cases h
  refine ⟨⟨_, rfl⟩, ?_⟩
  have hmember := fun name => @member_table _ (e.table_names createdAt observedAt) name
  simp only [table, List.map_cons, List.map_nil] at hmember
  simp [ofJson, table, hmember, entry, readTime_timeField hcreated, readTime_timeField hobserved]

end ExperienceEventV0

/-- `JSONLHarnessEventStore`. -/
def harnessEventStore (parses : Text → Bool) :
    Format EventEnvelopeV0 EventEnvelopeV0 SchemaValidationError :=
  .checked (EventEnvelopeV0.validate parses) EventEnvelopeV0.json EventEnvelopeV0.ofJson

/-- `JSONLTrajectoryLedgerStore`. -/
def trajectoryLedgerStore :
    Format AgentTrajectoryLedgerV0 AgentTrajectoryLedgerV0 SchemaValidationError :=
  .checked AgentTrajectoryLedgerV0.validate AgentTrajectoryLedgerV0.json
    AgentTrajectoryLedgerV0.ofJson

/-- `JSONLExperienceEventStore`. -/
def experienceEventStore : Format ExperienceEventV0 ExperienceEventV0 SchemaValidationError :=
  .checked ExperienceEventV0.validate ExperienceEventV0.json ExperienceEventV0.ofJson

end C2c.Learning.Records
