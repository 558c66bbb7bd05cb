import C2c.Harness.Events
import C2c.Library.JsonLines

/-!
The event log file of the harness: the JSON of an event and the sink that
writes it.
-/

namespace C2c.Harness.StoredEvents

open C2c.Library.JavaText
open C2c.Library.GoTime
open C2c.Library.JsonText
open C2c.Library.GoJson
open C2c.Library.JsonLines
open C2c.Harness.Events (eventSchemaVersionV0 actorSystem)

structure EventReference where
  uri : Text := []
  sha256 : Text := []
  byteSize : Int64 := 0
  mimeType : Text := []
  kind : Text := []
deriving DecidableEq

namespace EventReference

def table (r : EventReference) : List (String × Option Json) :=
  [("uri", textField r.uri),
    ("sha256", textField r.sha256),
    ("byteSize", int64Field r.byteSize),
    ("mimeType", textOmitEmpty r.mimeType),
    ("kind", textOmitEmpty r.kind)]

def json (r : EventReference) : Json :=
  .object (present r.table)

def ofJson : Json → Option EventReference
  | .null => some {}
  | .object members => do
      some {
        uri := ← readText (member members "uri")
        sha256 := ← readText (member members "sha256")
        byteSize := ← readInt64 (member members "byteSize")
        mimeType := ← readText (member members "mimeType")
        kind := ← readText (member members "kind") }
  | _ => none

theorem table_names (r : EventReference) : namesDistinct (r.table.map Prod.fst) = true := by
  simp only [table, List.map_cons, List.map_nil]
  decide +kernel

theorem ofJson_json (r : EventReference) : ofJson r.json = some r := by
  have hmember := fun name => @member_table r.table r.table_names name
  simp only [table, List.map_cons, List.map_nil] at hmember
  simp [ofJson, json, table, hmember, entry]

end EventReference

structure EventCost where
  currency : Text := []
  amount : Numeral := zeroNumeral
  unit : Text := []
deriving DecidableEq

namespace EventCost

def table (c : EventCost) : List (String × Option Json) :=
  [("currency", textOmitEmpty c.currency),
    ("amount", floatField c.amount),
    ("unit", textOmitEmpty c.unit)]

def json (c : EventCost) : Json :=
  .object (present c.table)

/-- A `*EventCost`. -/
def ofJson : Json → Option (Option EventCost)
  | .null => some none
  | .object members => do
      some (some {
        currency := ← readText (member members "currency")
        amount := ← readFloat (member members "amount")
        unit := ← readText (member members "unit") })
  | _ => none

theorem table_names (c : EventCost) : namesDistinct (c.table.map Prod.fst) = true := by
  simp only [table, List.map_cons, List.map_nil]
  decide +kernel

theorem ofJson_json (c : Option EventCost) : ofJson ((c.map json).getD .null) = some c := by
  cases c with
  | none => rfl
  | some c =>
      have hmember := fun name => @member_table c.table c.table_names name
      simp only [table, List.map_cons, List.map_nil] at hmember
      simp [ofJson, json, table, hmember, entry]

end EventCost

/-- `EventEnvelopeV0`; `payload`, under `omitempty`, does not tell an empty map
from none. -/
structure EventEnvelopeV0 where
  schemaVersion : Text := []
  eventId : Text := []
  eventType : Text := []
  service : Text := []
  runId : Text := []
  stepId : Int64 := 0
  actor : Text := []
  capability : Text := []
  dataClass : Text := []
  redactionProfile : Text := []
  policyDecision : Text := []
  status : Text := []
  stateTransition : Text := []
  errorClass : Text := []
  latencyMs : Option Int64 := none
  cost : Option EventCost := none
  inputRef : EventReference := {}
  outputRef : EventReference := {}
  createdAt : Time := .zero
  payload : AnyMap := .empty
  relatedRecords : List Text := []

namespace EventEnvelopeV0

def table (e : EventEnvelopeV0) (createdAt : Json) : List (String × Option Json) :=
  [("schemaVersion", textField e.schemaVersion),
    ("eventId", textField e.eventId),
    ("eventType", textField e.eventType),
    ("service", textField e.service),
    ("runId", textField e.runId),
    ("stepId", int64Field e.stepId),
    ("actor", textField e.actor),
    ("capability", textField e.capability),
    ("dataClass", textField e.dataClass),
    ("redactionProfile", textField e.redactionProfile),
    ("policyDecision", textField e.policyDecision),
    ("status", textField e.status),
    ("stateTransition", textField e.stateTransition),
    ("errorClass", textOmitEmpty e.errorClass),
    ("latencyMs", int64Pointer e.latencyMs),
    ("cost", e.cost.map EventCost.json),
    ("inputRef", some e.inputRef.json),
    ("outputRef", some e.outputRef.json),
    ("createdAt", some createdAt),
    ("payload", mapOmitEmpty e.payload),
    ("relatedRecords", textsOmitEmpty e.relatedRecords)]

def json (e : EventEnvelopeV0) : Option Json := do
  let createdAt ← timeField e.createdAt
  some (.object (present (e.table createdAt)))

def ofJson : Json → Option EventEnvelopeV0
  | .null => some {}
  | .object members => do
      some {
        schemaVersion := ← readText (member members "schemaVersion")
        eventId := ← readText (member members "eventId")
        eventType := ← readText (member members "eventType")
        service := ← readText (member members "service")
        runId := ← readText (member members "runId")
        stepId := ← readInt64 (member members "stepId")
        actor := ← readText (member members "actor")
        capability := ← readText (member members "capability")
        dataClass := ← readText (member members "dataClass")
        redactionProfile := ← readText (member members "redactionProfile")
        policyDecision := ← readText (member members "policyDecision")
        status := ← readText (member members "status")
        stateTransition := ← readText (member members "stateTransition")
        errorClass := ← readText (member members "errorClass")
        latencyMs := ← readInt64Pointer (member members "latencyMs")
        cost := ← EventCost.ofJson (member members "cost")
        inputRef := ← EventReference.ofJson (member members "inputRef")
        outputRef := ← EventReference.ofJson (member members "outputRef")
        createdAt := ← readTime (member members "createdAt")
        payload := ← readMapOrEmpty (member members "payload")
        relatedRecords := ← readTexts (member members "relatedRecords") }
  | _ => none

theorem table_names (e : EventEnvelopeV0) (createdAt : Json) :
    namesDistinct ((e.table createdAt).map Prod.fst) = true := by
  simp only [table, List.map_cons, List.map_nil]
  decide +kernel

theorem ofJson_json {e : EventEnvelopeV0} {v : Json} (h : e.json = some v) :
    (∃ members, v = .object members) ∧ ofJson v = some e := by
  obtain ⟨createdAt, htime, hv⟩ := Option.bind_eq_some_iff.mp h
  cases hv
  refine ⟨⟨_, rfl⟩, ?_⟩
  have hmember := fun name => @member_table _ (e.table_names createdAt) name
  simp only [table, List.map_cons, List.map_nil] at hmember
  simp [ofJson, table, hmember, entry, EventReference.ofJson_json, EventCost.ofJson_json,
    readTime_timeField htime]

end EventEnvelopeV0

def orElse (value fallback : Text) : Text :=
  if value = [] then fallback else value

/-- `normalizeEvent`. -/
def normalizeEvent (event : EventEnvelopeV0) (nextId : UInt64) (now : Time) : EventEnvelopeV0 :=
  { event with
    schemaVersion := orElse event.schemaVersion eventSchemaVersionV0
    eventId := orElse event.eventId
      ("hev-".toList ++ now.dateText ++ '-' :: natText nextId.toNat)
    service := orElse event.service actorSystem
    createdAt := if event.createdAt.isZero then now else event.createdAt }

/-- `JSONLFileEventSink`, whose calls are events at times. -/
def eventSink : Format (EventEnvelopeV0 × Time) EventEnvelopeV0 Empty where
  prepare seq call := .ok (normalizeEvent call.1 seq call.2)
  json := EventEnvelopeV0.json
  ofJson := EventEnvelopeV0.ofJson

end C2c.Harness.StoredEvents
