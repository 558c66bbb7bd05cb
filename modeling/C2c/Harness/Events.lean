import C2c.Library.GoText

/-!
The events of the harness: their envelope, its validation and the references
it is filled with.
-/

namespace C2c.Harness.Events

open C2c.Library.JavaText
open C2c.Library.GoText
open C2c.Library.Sha256

structure EventReference where
  uri : Text := []
  sha256 : Text := []
  byteSize : Int := 0
deriving DecidableEq

/-- `EventEnvelopeV0`; the payload is kept as its JSON text, a time as its
nanoseconds, with none for the zero time. -/
structure EventEnvelopeV0 where
  schemaVersion : Text := []
  eventId : Text := []
  eventType : Text := []
  service : Text := []
  runId : Text := []
  stepId : Int := 0
  actor : Text := []
  capability : Text := []
  dataClass : Text := []
  redactionProfile : Text := []
  policyDecision : Text := []
  status : Text := []
  stateTransition : Text := []
  latencyMs : Option Int := none
  costAmount : Option Rat := none
  inputRef : EventReference := {}
  outputRef : EventReference := {}
  createdAt : Option Nat := none
  payload : Text := "\x7b\x7d".toList
deriving DecidableEq

structure SchemaValidationError where
  path : Text
  reason : Text
deriving DecidableEq

def eventSchemaVersionV0 : Text := "v0".toList

def actorSystem : Text := "harness-core".toList

def dataClassOther : Text := "other".toList

def profileControlledByHarness : Text := "harness-control-plane".toList

/-- `allowedDataClasses`. -/
def allowedDataClasses : List Text :=
  ["model".toList, "evidence".toList, "rag".toList, "graph".toList, "parser".toList,
    "generator".toList, "build-test".toList, "test".toList, "model-gateway".toList,
    dataClassOther]

/-- `allowedRedactionProfiles`. -/
def allowedRedactionProfiles : List Text :=
  [profileControlledByHarness, "agent-managed".toList, "none".toList]

def isHexDigit (c : Char) : Bool :=
  isDigitAscii c || ('a' ≤ c && c ≤ 'f') || ('A' ≤ c && c ≤ 'F')

/-- The first check that fails. -/
def firstFailing (checks : List (Bool × String × String)) : Option SchemaValidationError :=
  (checks.find? fun check => !check.1).map fun check => ⟨check.2.1.toList, check.2.2.toList⟩

/-- `EventReference.Validate`. -/
def EventReference.validate (r : EventReference) : Option SchemaValidationError :=
  firstFailing
    [(r.uri ≠ [], "ref.uri", "uri is required"),
      (r.sha256 ≠ [], "ref.sha256", "sha256 is required"),
      (byteLength r.sha256 = 64, "ref.sha256", "sha256 must be 64 hex chars"),
      (r.sha256.all isHexDigit, "ref.sha256", "sha256 must be valid hex"),
      (0 ≤ r.byteSize, "ref.byteSize", "byteSize must be non-negative")]

/-- The checks of `EventEnvelopeV0.Validate` before the references. -/
def EventEnvelopeV0.headChecks (e : EventEnvelopeV0) : List (Bool × String × String) :=
  [(e.schemaVersion ≠ [], "schemaVersion", "schemaVersion is required"),
    (e.schemaVersion = eventSchemaVersionV0, "schemaVersion", "schemaVersion must be v0"),
    (e.eventId ≠ [], "eventId", "eventId is required"),
    (e.eventType ≠ [], "eventType", "eventType is required"),
    (e.service ≠ [], "service", "service is required"),
    (e.runId ≠ [], "runId", "runId is required"),
    (0 < e.stepId, "stepId", "stepId must be > 0"),
    (e.actor ≠ [], "actor", "actor is required"),
    (e.capability ≠ [], "capability", "capability is required"),
    (e.dataClass ∈ allowedDataClasses, "dataClass", "unsupported dataClass"),
    (e.redactionProfile ∈ allowedRedactionProfiles, "redactionProfile",
      "unsupported redactionProfile"),
    (e.policyDecision ≠ [], "policyDecision", "policyDecision is required"),
    (e.status ≠ [], "status", "status is required"),
    (e.stateTransition ≠ [], "stateTransition", "stateTransition is required"),
    (e.createdAt ≠ none, "createdAt", "createdAt is required")]

/-- The checks after the references. -/
def EventEnvelopeV0.tailChecks (e : EventEnvelopeV0) : List (Bool × String × String) :=
  [(e.latencyMs.all (0 ≤ ·), "latencyMs", "latencyMs must be >= 0"),
    (e.costAmount.all (0 ≤ ·), "cost.amount", "amount must be >= 0")]

/-- `EventEnvelopeV0.Validate`. -/
def EventEnvelopeV0.validate (e : EventEnvelopeV0) : Option SchemaValidationError :=
  (firstFailing e.headChecks).orElse fun _ => e.inputRef.validate.orElse fun _ =>
    e.outputRef.validate.orElse fun _ => firstFailing e.tailChecks

/-- `NewEventReference`, of a payload's JSON text. -/
def newEventReference (uri payload : Text) : EventReference :=
  ⟨uri, sha256Hex payload, byteLength payload⟩

/-- One reference of `enrichEventRefs`. -/
def enrichRef (e : EventEnvelopeV0) (ref : EventReference) (side : String) : EventReference :=
  if ref.uri = [] then
    newEventReference ("urn:harness/".toList ++ e.eventType ++ '/' :: e.runId ++ side.toList)
      e.payload
  else if ref.sha256 = [] then newEventReference ref.uri e.payload
  else ref

/-- `enrichEventRefs`. -/
def enrichEventRefs (e : EventEnvelopeV0) : EventEnvelopeV0 :=
  { e with
    inputRef := enrichRef e e.inputRef "/input"
    outputRef := enrichRef e e.outputRef "/output" }

theorem firstFailing_eq_none {checks : List (Bool × String × String)} :
    firstFailing checks = none ↔ ∀ check ∈ checks, check.1 = true := by
  simp [firstFailing]

theorem sha256Hex_ne_nil (payload : Text) : sha256Hex payload ≠ [] := by
  rw [← List.length_pos_iff, sha256Hex_length]
  decide

/-- A reference that is made is not filled in again. -/
theorem enrichRef_newEventReference (e : EventEnvelopeV0) {uri : Text} (huri : uri ≠ [])
    (payload : Text) (side : String) :
    enrichRef e (newEventReference uri payload) side = newEventReference uri payload := by
  unfold enrichRef
  rw [if_neg (show (newEventReference uri payload).uri ≠ [] from huri),
    if_neg (show (newEventReference uri payload).sha256 ≠ [] from sha256Hex_ne_nil payload)]

theorem validate_eq_none {e : EventEnvelopeV0} (hhead : ∀ check ∈ e.headChecks, check.1 = true)
    (hinput : e.inputRef.validate = none) (houtput : e.outputRef.validate = none)
    (htail : ∀ check ∈ e.tailChecks, check.1 = true) : e.validate = none := by
  unfold EventEnvelopeV0.validate
  rw [firstFailing_eq_none.mpr hhead, hinput, houtput, firstFailing_eq_none.mpr htail]
  rfl

/-- A reference the harness makes itself is valid. -/
theorem validate_newEventReference {uri : Text} (huri : uri ≠ []) (payload : Text) :
    (newEventReference uri payload).validate = none := by
  have hdigits (c : Char) (hc : c ∈ sha256Hex payload) : isHexDigit c = true ∧ c.toNat < 128 := by
    have hmem := mem_sha256Hex hc
    revert hmem
    simp only [List.mem_cons, List.not_mem_nil, or_false]
    rintro (rfl | rfl | rfl | rfl | rfl | rfl | rfl | rfl | rfl | rfl | rfl | rfl | rfl | rfl |
      rfl | rfl) <;> decide
  have hlength : byteLength (sha256Hex payload) = 64 := by
    rw [byteLength_of_ascii fun c hc => (hdigits c hc).2, sha256Hex_length]
  unfold EventReference.validate
  rw [firstFailing_eq_none]
  simp only [newEventReference, List.mem_cons, List.not_mem_nil, or_false]
  rintro check (rfl | rfl | rfl | rfl | rfl)
  · exact decide_eq_true huri
  · exact decide_eq_true (sha256Hex_ne_nil payload)
  · exact decide_eq_true hlength
  · exact List.all_eq_true.mpr fun c hc => (hdigits c hc).1
  · exact decide_eq_true (Int.natCast_nonneg (byteLength payload))

theorem validate_enrichRef (e : EventEnvelopeV0) {uri : Text} (huri : uri ≠ []) (payload : Text)
    (side : String) : (enrichRef e (newEventReference uri payload) side).validate = none := by
  rw [enrichRef_newEventReference e huri]
  exact validate_newEventReference huri payload

end C2c.Harness.Events
