import C2c.Gateway.Ledger
import C2c.Harness.StoredEvents
import C2c.Learning.Records

/-!
The append-only stores of the services over their files, and what a service
starts with after a restart.
-/

namespace C2c.Ledgers.Restores

open C2c.Library.JavaText
open C2c.Library.GoText
open C2c.Library.GoTime
open C2c.Library.JsonText
open C2c.Library.GoJson
open C2c.Library.JsonLines
open C2c.Gateway.Ledger (ModelInvocationLedgerV0)
open C2c.Harness.StoredEvents
open C2c.Learning.Records (AgentTrajectoryLedgerV0 ExperienceEventV0)

/-- The stores, by their types without `JSONL`. -/
inductive Store
  | modelInvocationLedger
  | fileEventSink
  | harnessEventStore
  | trajectoryLedgerStore
  | experienceEventStore

namespace Store

def Record : Store → Type
  | modelInvocationLedger => ModelInvocationLedgerV0
  | fileEventSink => EventEnvelopeV0
  | harnessEventStore => Learning.Records.EventEnvelopeV0
  | trajectoryLedgerStore => AgentTrajectoryLedgerV0
  | experienceEventStore => ExperienceEventV0

/-- What is appended: a record, for the sink of the harness an event at a time. -/
def Call : Store → Type
  | fileEventSink => EventEnvelopeV0 × Time
  | store => store.Record

def Error : Store → Type
  | fileEventSink => Empty
  | _ => Harness.Events.SchemaValidationError

variable (parses : Text → Bool)

def format : (store : Store) → Format store.Call store.Record store.Error
  | modelInvocationLedger => Gateway.Ledger.modelInvocationLedger
  | fileEventSink => eventSink
  | harnessEventStore => Learning.Records.harnessEventStore parses
  | trajectoryLedgerStore => Learning.Records.trajectoryLedgerStore
  | experienceEventStore => Learning.Records.experienceEventStore

/-- What a service does without its store: the harness goes on with an empty
sink in memory, the others do not start. -/
def fallback : (store : Store) → Option (List store.Record)
  | fileEventSink => some []
  | _ => none

/-- The records a service starts with on a file, if it starts. -/
def started (store : Store) (file : Text) : Option (List store.Record) :=
  match restoreFromDisk (store.format parses) file with
  | .ok records => some records
  | .error _ => store.fallback

theorem started_of_error {store : Store} {file : Text} {e : RestoreError}
    (h : restoreFromDisk (store.format parses) file = .error e) :
    store.started parses file = store.fallback := by
  rw [started, h]

theorem lawful (store : Store) : Lawful (store.format parses) := by
  intro record v h
  cases store with
  | modelInvocationLedger => exact ModelInvocationLedgerV0.ofJson_json h
  | fileEventSink => exact EventEnvelopeV0.ofJson_json h
  | harnessEventStore => exact Learning.Records.EventEnvelopeV0.ofJson_json h
  | trajectoryLedgerStore => exact AgentTrajectoryLedgerV0.ofJson_json h
  | experienceEventStore => exact ExperienceEventV0.ofJson_json h

/-- Reopening the file of a store restores the accepted records, and the service
starts with them, if and only if the line of each accepted record is shorter
than the scanner's buffer and nests no deeper than the decoder goes. -/
theorem restores_accepted_iff (store : Store) (calls : List store.Call) :
    (restoreFromDisk (store.format parses) (logAfter (store.format parses) calls).file =
        .ok (accepted (store.format parses) calls) ∧
      store.started parses (logAfter (store.format parses) calls).file =
        some (accepted (store.format parses) calls)) ↔
      ∀ record ∈ accepted (store.format parses) calls, Readable (store.format parses) record := by
  rw [← restore_iff (store.lawful parses)]
  refine ⟨And.left, fun h => ⟨h, ?_⟩⟩
  rw [started, h]

end Store

/-- An event whose payload holds one long text. -/
def longEvent : EventEnvelopeV0 where
  eventType := "agent.note".toList
  runId := "run-1".toList
  payload := {
    entries := [("note".toList, .string (List.replicate 65536 'a'))]
    canonical := ⟨List.pairwise_singleton _ _, trivial, trivial⟩ }

theorem inRange_start : Fields.InRange ⟨2026, 5, 4, 9, 0, 0, 0, 0⟩ := by
  decide

def start : Time :=
  ⟨⟨2026, 5, 4, 9, 0, 0, 0, 0⟩, inRange_start⟩

/-- The line of an event is at least as long as each text of its payload. -/
theorem length_le_marshal_payload {e : EventEnvelopeV0} {v : Json} (h : e.json = some v)
    {m : Text × Json} (hm : m ∈ e.payload.entries) : (marshal m.2).length ≤ (marshal v).length := by
  obtain ⟨createdAt, _, hv⟩ := Option.bind_eq_some_iff.mp h
  cases hv
  have hne : e.payload.entries ≠ [] := List.ne_nil_of_mem hm
  have hpayload : ("payload".toList, e.payload.json) ∈ present (e.table createdAt) := by
    apply List.mem_filterMap.mpr
    refine ⟨("payload", some e.payload.json), ?_, rfl⟩
    simp [EventEnvelopeV0.table, mapOmitEmpty, hne]
  exact (length_le_marshal_object hm).trans (length_le_marshal_object hpayload)

theorem long_payload_loses_log :
    accepted eventSink [(longEvent, start)] = [normalizeEvent longEvent 1 start] ∧
      Store.fileEventSink.started (fun _ => true) (logAfter eventSink [(longEvent, start)]).file =
        some [] := by
  obtain ⟨v, hv⟩ : ∃ v, (normalizeEvent longEvent 1 start).json = some v := ⟨_, rfl⟩
  have happend : append eventSink newLog (longEvent, start) =
      ({ file := marshal v ++ ['\n'], records := [normalizeEvent longEvent 1 start], seq := 1 },
        .ok (normalizeEvent longEvent 1 start)) := by
    have hjson : eventSink.json (normalizeEvent longEvent 1 start) = some v := hv
    have hprepare : eventSink.prepare 1 (longEvent, start) =
      .ok (normalizeEvent longEvent 1 start) := rfl
    rw [append]
    simp only [newLog, UInt64.zero_add, hprepare, hjson, List.nil_append]
  have hlong : maxScanTokenSize ≤ byteLength (marshal v) := by
    have htext := length_le_marshal_string (List.replicate 65536 'a')
    have hpayload := length_le_marshal_payload hv (List.mem_singleton_self _)
    rw [List.length_replicate] at htext
    exact (htext.trans hpayload).trans (length_le_byteLength _)
  have hrestore : restoreFromDisk eventSink (marshal v ++ ['\n']) = .error .tooLong := by
    rw [restoreFromDisk, scanLines_line (newline_notMem_marshal v), restoreLines, if_pos hlong]
  constructor
  · rw [accepted, acceptedFrom, happend]
    rfl
  · rw [logAfter, List.foldl_cons, happend]
    exact Store.started_of_error (fun _ => true) hrestore

end C2c.Ledgers.Restores
