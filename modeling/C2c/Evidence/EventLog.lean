import C2c.Library.JavaText
import C2c.Library.Machine
import Mathlib.Data.List.Nodup

/-!
The event log of the evidence service: the sink that appends events to a file,
and the restarts that rebuild it from the file.
-/

namespace C2c.Evidence.EventLog

open C2c.Library.JavaText
open C2c.Library.Machine

/-- A `time.Time` in UTC, as its day and the nanoseconds of the day. -/
structure Instant where
  year : Nat
  month : Nat
  day : Nat
  nanosecond : Nat := 0
deriving DecidableEq

def Instant.isZero (t : Instant) : Bool :=
  t == ⟨1, 1, 1, 0⟩

def padded (width n : Nat) : Text :=
  List.replicate (width - (natText n).length) '0' ++ natText n

/-- `Format("20060102")`. -/
def Instant.dateText (t : Instant) : Text :=
  padded 4 t.year ++ padded 2 t.month ++ padded 2 t.day

/-- The fields of a `HarnessEvent` that `normalize` fills. -/
structure HarnessEvent where
  schemaVersion : Text := []
  eventId : Text := []
  service : Text := []
  actor : Text := []
  capability : Text := []
  dataClass : Text := []
  redactionProfile : Text := []
  policyDecision : Text := []
  createdAt : Instant := ⟨1, 1, 1, 0⟩
deriving DecidableEq

def generatedIdStart : Text :=
  "hev-evidence-".toList

/-- The id `normalize` generates. -/
def generatedId (now : Instant) (nextId : UInt64) : Text :=
  generatedIdStart ++ now.dateText ++ '-' :: natText nextId.toNat

def orElse (value : Text) (fallback : Text) : Text :=
  if value = [] then fallback else value

def normalize (event : HarnessEvent) (now : Instant) (nextId : UInt64) : HarnessEvent where
  schemaVersion := orElse event.schemaVersion "v0".toList
  eventId := orElse event.eventId (generatedId now nextId)
  service := orElse event.service "evidence-service".toList
  actor := orElse event.actor "evidence-service".toList
  capability := orElse event.capability "evidence.pack".toList
  dataClass := orElse event.dataClass "evidence".toList
  redactionProfile := orElse event.redactionProfile "harness-control-plane".toList
  policyDecision := orElse event.policyDecision "policy allow".toList
  createdAt := if event.createdAt.isZero then now else event.createdAt

/-- `JSONLFileEventSink`. -/
structure Sink where
  events : List HarnessEvent
  seq : UInt64

/-- A line of the file, by the event it encodes; `generated` says that `normalize`
made up the event's id. -/
structure Line where
  event : HarnessEvent
  generated : Bool
deriving DecidableEq

/-- The file, and the sink that appends to it. -/
structure LogState where
  file : List Line
  sink : Sink

/-- `restore`, by which `NewJSONLFileEventSink` builds a sink from a file. -/
def restore (file : List Line) : Sink where
  events := file.map Line.event
  seq := UInt64.ofNat file.length

/-- The sink over a new file. -/
def newEventLog : LogState where
  file := []
  sink := restore []

/-- How far an `Emit` gets; a failed write leaves no partial line. -/
inductive EmitOutcome
  | marshalFailed
  | appendFailed
  | syncFailed
  | emitted
deriving DecidableEq

/-- Whether the line of the event is in the file. -/
def EmitOutcome.written : EmitOutcome → Bool
  | .marshalFailed | .appendFailed => false
  | .syncFailed | .emitted => true

inductive EmitError
  | marshal
  | eventLog (message : Text)

/-- `errEventLog`. -/
def errEventLog (stage : String) : EmitError :=
  .eventLog ("event-log ".toList ++ stage.toList)

/-- `JSONLFileEventSink.Emit`. -/
def emit (s : LogState) (now : Instant) (event : HarnessEvent) (outcome : EmitOutcome) :
    LogState × Except EmitError HarnessEvent :=
  let sink := { s.sink with seq := s.sink.seq + 1 }
  let normalized := normalize event now sink.seq
  let file := s.file ++ [⟨normalized, event.eventId == []⟩]
  match outcome with
  | .marshalFailed => ({ s with sink := sink }, .error .marshal)
  | .appendFailed => ({ s with sink := sink }, .error (errEventLog "append failed"))
  | .syncFailed => (⟨file, sink⟩, .error (errEventLog "sync failed"))
  | .emitted => (⟨file, { sink with events := sink.events ++ [normalized] }⟩, .ok normalized)

inductive Call
  | emit (now : Instant) (event : HarnessEvent) (outcome : EmitOutcome)
  | restart

def step (s : LogState) : Call → LogState
  | .emit now event outcome => (emit s now event outcome).1
  | .restart => { s with sink := restore s.file }

def Call.isEmit : Call → Bool
  | .emit _ _ _ => true
  | .restart => false

/-- Whether a call appends a line to the file. -/
def Call.writes : Call → Bool
  | .emit _ _ outcome => outcome.written
  | .restart => false

/-- The day of a generated id that a call appends to the file. -/
def Call.generatedDay : Call → Option Text
  | .emit now event outcome =>
      if outcome.written && event.eventId == [] then some now.dateText else none
  | .restart => none

/-- The generated ids in the file. -/
def generatedIds (s : LogState) : List Text :=
  (s.file.filter Line.generated).map fun line => line.event.eventId

/-- The calls since the last restart, the latest first. -/
def sinceRestart (calls : List Call) : List Call :=
  calls.reverse.takeWhile Call.isEmit

/-- The number of an `Emit` behind the given calls: the lines in the file at the
last restart, and the `Emit`s since then, failed ones too. -/
def emitNumber (calls : List Call) : Nat :=
  (calls.reverse.dropWhile Call.isEmit).countP Call.writes + (sinceRestart calls).length + 1

/-- The day and the number of each generated id that calls append behind earlier
ones. -/
def stampsFrom (before : List Call) : List Call → List (Text × Nat)
  | [] => []
  | call :: calls =>
      (call.generatedDay.map fun day => (day, emitNumber before % 2 ^ 64)).toList ++
        stampsFrom (before ++ [call]) calls

def stamps (calls : List Call) : List (Text × Nat) :=
  stampsFrom [] calls

/-- After each restart the list in memory is the sequence of events in the file. -/
def RestoresFile (calls : List Call) : Prop :=
  ∀ before after, calls = before ++ .restart :: after →
    (run step newEventLog (before ++ [.restart])).sink.events =
      (run step newEventLog (before ++ [.restart])).file.map Line.event

theorem restoresFile (calls : List Call) : RestoresFile calls := by
  intro before after hcalls
  rw [run_append]
  rfl

section Numbers

variable (before : List Call)

theorem emitNumber_emit (now : Instant) (event : HarnessEvent) (outcome : EmitOutcome) :
    emitNumber (before ++ [.emit now event outcome]) = emitNumber before + 1 := by
  have hemit : Call.isEmit (.emit now event outcome) = true := rfl
  rw [emitNumber, emitNumber, sinceRestart, sinceRestart, List.reverse_append,
    List.reverse_singleton, List.singleton_append, List.dropWhile_cons_of_pos hemit,
    List.takeWhile_cons_of_pos hemit, List.length_cons]
  omega

theorem emitNumber_restart :
    emitNumber (before ++ [.restart]) = before.countP Call.writes + 1 := by
  simp [emitNumber, sinceRestart, Call.isEmit, Call.writes]

/-- What the file and the counter are behind calls. -/
structure Behind (s : LogState) : Prop where
  file : s.file.length = before.countP Call.writes
  seq : s.sink.seq + 1 = UInt64.ofNat (emitNumber before)

theorem file_emit (s : LogState) (now : Instant) (event : HarnessEvent) (outcome : EmitOutcome) :
    (emit s now event outcome).1.file =
      if outcome.written then
        s.file ++ [⟨normalize event now (s.sink.seq + 1), event.eventId == []⟩]
      else s.file := by
  cases outcome <;> rfl

theorem seq_emit (s : LogState) (now : Instant) (event : HarnessEvent) (outcome : EmitOutcome) :
    (emit s now event outcome).1.sink.seq = s.sink.seq + 1 := by
  cases outcome <;> rfl

variable {before}

theorem behind_step {s : LogState} (h : Behind before s) (call : Call) :
    Behind (before ++ [call]) (step s call) := by
  cases call with
  | emit now event outcome =>
      refine ⟨?_, ?_⟩
      · rw [step, file_emit, List.countP_append, List.countP_singleton, ← h.file]
        change _ = s.file.length + if outcome.written = true then 1 else 0
        split
        · exact List.length_append
        · rfl
      · rw [step, seq_emit, emitNumber_emit, UInt64.ofNat_add, h.seq]
        rfl
  | restart =>
      refine ⟨?_, ?_⟩
      · rw [List.countP_append, ← h.file]
        rfl
      · rw [emitNumber_restart, UInt64.ofNat_add, ← h.file]
        rfl

/-- The ids a stamp stands for. -/
def stampId (stamp : Text × Nat) : Text :=
  generatedIdStart ++ stamp.1 ++ '-' :: natText stamp.2

theorem generatedIds_step {s : LogState} (h : Behind before s) (call : Call) :
    generatedIds (step s call) = generatedIds s ++
      ((call.generatedDay.map fun day => (day, emitNumber before % 2 ^ 64)).toList.map
        stampId) := by
  cases call with
  | restart => exact (List.append_nil _).symm
  | emit now event outcome =>
      have hnumber : (s.sink.seq + 1).toNat = emitNumber before % 2 ^ 64 := by
        rw [h.seq, UInt64.toNat_ofNat']
      rw [← hnumber, generatedIds, step, file_emit, Call.generatedDay]
      cases outcome.written with
      | false => exact (List.append_nil _).symm
      | true =>
          rw [if_pos rfl, List.filter_append, List.map_append, Bool.true_and, generatedIds]
          congr 1
          cases hid : event.eventId == [] with
          | false => rfl
          | true =>
              have hgenerated : (normalize event now (s.sink.seq + 1)).eventId =
                  generatedId now (s.sink.seq + 1) := if_pos (beq_iff_eq.mp hid)
              change [(normalize event now (s.sink.seq + 1)).eventId] = [_]
              rw [hgenerated]
              rfl

theorem generatedIds_run {s : LogState} (h : Behind before s) (calls : List Call) :
    generatedIds (run step s calls) =
      generatedIds s ++ (stampsFrom before calls).map stampId := by
  induction calls generalizing before s with
  | nil => simp [stampsFrom]
  | cons call calls ih =>
      rw [run_cons, ih (behind_step h call), generatedIds_step h, stampsFrom, List.map_append,
        List.append_assoc]

theorem behind_new : Behind [] newEventLog :=
  ⟨rfl, by decide⟩

theorem reverse_stampId (stamp : Text × Nat) :
    (stampId stamp).reverse =
      (natText stamp.2).reverse ++ '-' :: (generatedIdStart ++ stamp.1).reverse := by
  simp [stampId]

theorem stampId_injective : Function.Injective stampId := by
  intro stamp stamp' heq
  have hyphen : ∀ n, '-' ∉ (natText n).reverse := by
    intro n hmem
    exact absurd (isDigitAscii_of_mem_natText (List.mem_reverse.mp hmem)) (by decide)
  have hreverse := congrArg List.reverse heq
  rw [reverse_stampId, reverse_stampId] at hreverse
  obtain ⟨hnumber, hday⟩ := append_cons_inj (hyphen stamp.2) (hyphen stamp'.2) hreverse
  have hn : stamp.2 = stamp'.2 := by
    rw [← digitsValue_natText stamp.2, List.reverse_injective hnumber, digitsValue_natText]
  have hdays : stamp.1 = stamp'.1 := List.append_cancel_left (List.reverse_injective hday)
  exact Prod.ext hdays hn

theorem generatedIds_new (calls : List Call) :
    generatedIds (run step newEventLog calls) = (stamps calls).map stampId :=
  generatedIds_run behind_new calls

theorem stampsFrom_append (before calls later : List Call) :
    stampsFrom before (calls ++ later) =
      stampsFrom before calls ++ stampsFrom (before ++ calls) later := by
  induction calls generalizing before with
  | nil => simp [stampsFrom]
  | cons call calls ih => simp [stampsFrom, ih]

end Numbers

/-- The ids generated along a run are distinct, and each restart restores the
file, exactly if no two of them have one day and one number. -/
theorem distinct_iff_stamps (calls : List Call) :
    ((∀ n, (generatedIds (run step newEventLog (calls.take n))).Nodup) ∧ RestoresFile calls) ↔
      (stamps calls).Nodup := by
  constructor
  · rintro ⟨hdistinct, -⟩
    have hall := hdistinct calls.length
    rw [List.take_length, generatedIds_new] at hall
    exact List.Nodup.of_map stampId hall
  · intro hstamps
    refine ⟨?_, restoresFile calls⟩
    intro n
    rw [generatedIds_new]
    apply List.Nodup.map stampId_injective
    have hsplit : stamps calls = stamps (calls.take n) ++ stampsFrom (calls.take n) (calls.drop n) := by
      conv_lhs => rw [← List.take_append_drop n calls]
      exact stampsFrom_append [] _ _
    rw [hsplit] at hstamps
    exact hstamps.of_append_left

def sampleEmit : EmitOutcome → Call :=
  .emit ⟨2026, 1, 2, 0⟩ {}

/-- A failed write, a success, a restart and a success: both lines carry the
number 2. -/
def repeatedNumber : List Call :=
  [sampleEmit .appendFailed, sampleEmit .emitted, .restart, sampleEmit .emitted]

theorem repeatedNumber_not_distinct :
    ¬ (generatedIds (run step newEventLog repeatedNumber)).Nodup := by
  decide +kernel

end C2c.Evidence.EventLog
