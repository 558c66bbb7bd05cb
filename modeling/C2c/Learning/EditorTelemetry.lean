import Mathlib
import C2c.Learning.Records
import C2c.Library.JsonStrings

/-!
The editor telemetry of the experience learning service: the closed payloads of
the event types, and the handler that validates and stores a batch.
-/

namespace C2c.Learning.EditorTelemetry

open C2c.Library.JavaText
open C2c.Library.GoText
open C2c.Library.GoTime
open C2c.Library.JsonText
open C2c.Library.GoJson
open C2c.Harness.Events (SchemaValidationError firstFailing)

section Payloads

/-- What a field of a payload holds. -/
inductive Kind
  | oneOf (allowed : List String)
  | boolean
  | count
  | code
  | counts (names : List String)

/-- A check of a field, perhaps of one that is there only. -/
structure Check where
  key : String
  kind : Kind
  ifPresent : Bool := false

/-- The fields of an event type, and their checks in the order they are made. -/
structure PayloadSpec where
  required : List String
  optional : List String := []
  checks : List Check

def sourceKinds : List String := ["cobol", "java"]

def mappingClasses : List String := ["direct", "aggregated", "synthesized", "agent_originated"]

def constructKinds : List String :=
  ["pic", "comp3", "usage", "occurs", "redefines", "value", "section", "paragraph",
    "fixed-format-zone"]

def markerNavigate : PayloadSpec where
  required := ["direction", "sourceKind", "severity"]
  optional := ["irCodeOrIRNodeKind"]
  checks := [⟨"direction", .oneOf ["next", "prev"], false⟩,
    ⟨"sourceKind", .oneOf sourceKinds, false⟩,
    ⟨"severity", .oneOf ["error", "warning", "info", "hint"], false⟩,
    ⟨"irCodeOrIRNodeKind", .code, true⟩]

def hover : PayloadSpec where
  required := ["constructKind"]
  checks := [⟨"constructKind", .oneOf constructKinds, false⟩]

def lineageNavigate : PayloadSpec where
  required := ["direction", "resolved"]
  optional := ["mappingClass", "unresolvedReason"]
  checks := [⟨"direction", .oneOf ["java_to_cobol", "cobol_to_java"], false⟩,
    ⟨"resolved", .boolean, false⟩,
    ⟨"mappingClass", .oneOf mappingClasses, true⟩,
    ⟨"unresolvedReason", .oneOf ["no_mapping", "stale_manual_edit", "manual_only"], true⟩]

def stacktraceFrameClick : PayloadSpec where
  required := ["resolved"]
  checks := [⟨"resolved", .boolean, false⟩]

def diffOpen : PayloadSpec where
  required := ["hasPrevious", "lineageAvailable"]
  checks := [⟨"hasPrevious", .boolean, false⟩, ⟨"lineageAvailable", .boolean, false⟩]

def assistInvoked : PayloadSpec where
  required := ["sourceKind", "regionLineCount", "redactionApplied"]
  checks := [⟨"sourceKind", .oneOf sourceKinds, false⟩, ⟨"regionLineCount", .count, false⟩,
    ⟨"redactionApplied", .count, false⟩]

def assistResult : PayloadSpec where
  required := ["outcome"]
  checks := [⟨"outcome", .oneOf ["success", "budget_exhausted", "policy_denied",
    "gateway_unavailable", "timeout", "invalid_region"], false⟩]

def saveLocal : PayloadSpec where
  required := ["kind", "encrypted"]
  checks := [⟨"kind", .oneOf sourceKinds, false⟩, ⟨"encrypted", .boolean, false⟩]

def draftsCleared : PayloadSpec where
  required := ["purgedCountBucket"]
  checks := [⟨"purgedCountBucket", .oneOf ["zero", "lt_10", "lt_100", "ge_100"], false⟩]

def conflictResolved : PayloadSpec where
  required := ["kind", "pick"]
  checks := [⟨"kind", .oneOf sourceKinds, false⟩,
    ⟨"pick", .oneOf ["backend_sample", "local_draft", "last_run_input"], false⟩]

def generateInvoked : PayloadSpec where
  required := ["trigger", "hadManualEdits"]
  checks := [⟨"trigger", .oneOf ["generate", "regenerate", "generate_and_verify"], false⟩,
    ⟨"hadManualEdits", .boolean, false⟩]

def generateResult : PayloadSpec where
  required := ["outcome", "latencyBucket"]
  checks := [⟨"outcome", .oneOf ["success", "merge_required", "failed", "cancelled"], false⟩,
    ⟨"latencyBucket", .oneOf ["lt_2s", "lt_10s", "lt_60s", "ge_60s"], false⟩]

def compileCheckInvoked : PayloadSpec where
  required := ["trigger"]
  checks := [⟨"trigger", .oneOf ["toolbar", "shortcut"], false⟩]

def compileCheckResult : PayloadSpec where
  required := ["outcome", "diagnosticCountBucket", "latencyBucket"]
  checks := [⟨"outcome", .oneOf ["ok", "errors", "gateway_unavailable", "timeout"], false⟩,
    ⟨"diagnosticCountBucket", .oneOf ["zero", "lt_10", "lt_100", "ge_100"], false⟩,
    ⟨"latencyBucket", .oneOf ["lt_1s", "lt_5s", "ge_5s"], false⟩]

def verifyInvoked : PayloadSpec where
  required := ["trigger", "hadManualEdits"]
  checks := [⟨"trigger", .oneOf ["toolbar", "shortcut"], false⟩,
    ⟨"hadManualEdits", .boolean, false⟩]

def verifyResult : PayloadSpec where
  required := ["outcome"]
  checks := [⟨"outcome", .oneOf ["success", "compile_failed", "run_failed", "output_divergence",
    "blocked", "cancelled", "gateway_unavailable"], false⟩]

def threeWayMergeOpened : PayloadSpec where
  required := ["regionCountBucket"]
  checks := [⟨"regionCountBucket", .oneOf ["lt_5", "lt_20", "ge_20"], false⟩]

def threeWayMergeResolved : PayloadSpec where
  required := ["regionsPickedPerSource", "cancelled"]
  checks := [⟨"cancelled", .boolean, false⟩,
    ⟨"regionsPickedPerSource", .counts ["manual", "new_generator", "baseline"], false⟩]

def manualEditRegionClassified : PayloadSpec where
  required := ["originClass"]
  optional := ["mappingClass"]
  checks := [⟨"originClass", .oneOf ["manual_modified", "manual_edit"], false⟩,
    ⟨"mappingClass", .oneOf mappingClasses, true⟩]

def formatInvoked : PayloadSpec where
  required := ["trigger", "fileLineCountBucket"]
  checks := [⟨"trigger", .oneOf ["shortcut", "on_save"], false⟩,
    ⟨"fileLineCountBucket", .oneOf ["lt_100", "lt_1000", "ge_1000"], false⟩]

def formatResult : PayloadSpec where
  required := ["outcome", "latencyBucket"]
  checks := [⟨"outcome", .oneOf ["success", "unavailable", "timeout", "noop"], false⟩,
    ⟨"latencyBucket", .oneOf ["lt_500ms", "lt_1500ms", "ge_1500ms"], false⟩]

def lintMarkersChanged : PayloadSpec where
  required := ["countBucket"]
  checks := [⟨"countBucket", .oneOf ["zero", "lt_10", "lt_50", "ge_50"], false⟩]

/-- `allowedEditorTelemetryEventTypes`, with the branches of the validator. -/
def eventTypes : List (String × PayloadSpec) :=
  [("marker.navigate", markerNavigate), ("hover.opened", hover), ("hover.expanded", hover),
    ("lineage.navigate", lineageNavigate), ("stacktrace.frame_click", stacktraceFrameClick),
    ("diff.open", diffOpen), ("assist.invoked", assistInvoked), ("assist.result", assistResult),
    ("save.local", saveLocal), ("drafts.cleared", draftsCleared),
    ("conflict.resolved", conflictResolved), ("generate.invoked", generateInvoked),
    ("generate.result", generateResult), ("compile_check.invoked", compileCheckInvoked),
    ("compile_check.result", compileCheckResult), ("verify.invoked", verifyInvoked),
    ("verify.result", verifyResult), ("three_way_merge.opened", threeWayMergeOpened),
    ("three_way_merge.resolved", threeWayMergeResolved),
    ("manual_edit.region_classified", manualEditRegionClassified),
    ("format.invoked", formatInvoked), ("format.result", formatResult),
    ("lint.markers_changed", lintMarkersChanged)]

def specOf (eventType : Text) : Option PayloadSpec :=
  (eventTypes.find? fun entry => entry.1.toList == eventType).map Prod.snd

end Payloads

section Validation

/-- The errors of a payload; their keys stand in their texts. -/
inductive PayloadError
  | notAnObject
  | unsupportedEventType (eventType : Text)
  | unknownProperty (key : Text)
  | missingRequired (key : String)
  | mustBeString (key : String)
  | mustBeOneOf (key : String) (allowed : List String)
  | mustBeBoolean (key : String)
  | mustBeNumber (key : String)
  | mustBeNonNegativeInteger (key : String)
  | mustBeScreamingSnake (key : String)
  | mustBeObject (key : String)
deriving DecidableEq

/-- `irCodeOrKindPattern`. -/
def irCodeOrKindPattern (t : Text) : Bool :=
  match t with
  | [] => false
  | c :: rest =>
      ('A' ≤ c && c ≤ 'Z') && rest.length ≤ 63 &&
        rest.all fun d => ('A' ≤ d && d ≤ 'Z') || isDigitAscii d || d == '_'

-- The values of a conversion to `int64` and back for numbers that `int64` does
-- not hold, which Go leaves to the platform.
variable (outside : Rat → Rat)

/-- `float64(int64(raw))`. -/
def throughInt64 (raw : Rat) : Rat :=
  if -2 ^ 63 ≤ raw ∧ raw < 2 ^ 63 then
    if 0 ≤ raw then raw.floor else raw.ceil
  else outside raw

/-- `requireNonNegativeInt`. -/
def requireNonNegativeInt (key : String) : Option Json → Option PayloadError
  | some (.number n) =>
      match n.double with
      | some raw =>
          if raw < 0 ∨ raw ≠ throughInt64 outside raw then some (.mustBeNonNegativeInteger key)
          else none
      | none => some (.mustBeNumber key)
  | _ => some (.mustBeNumber key)

def requireEnum (key : String) (allowed : List String) : Option Json → Option PayloadError
  | some (.string t) =>
      if allowed.any (fun a => a.toList == t) then none else some (.mustBeOneOf key allowed)
  | _ => some (.mustBeString key)

def requireBool (key : String) : Option Json → Option PayloadError
  | some (.bool _) => none
  | _ => some (.mustBeBoolean key)

/-- The properties of a map: no unknown one, of which a map gives any first, and
all required ones. -/
def ensureFields (required optional : List String) (entries : List (Text × Json)) :
    Option PayloadError :=
  match entries.find? fun entry =>
      !(required ++ optional).any fun key => key.toList == entry.1 with
  | some entry => some (.unknownProperty entry.1)
  | none =>
      (required.find? fun key => (entries.lookup key.toList).isNone).map .missingRequired

/-- The first error of some checks. -/
def firstError {A : Type} (check : A → Option PayloadError) : List A → Option PayloadError
  | [] => none
  | a :: rest => (check a).orElse fun _ => firstError check rest

def checkValue (key : String) (value : Option Json) : Kind → Option PayloadError
  | .oneOf allowed => requireEnum key allowed value
  | .boolean => requireBool key value
  | .count => requireNonNegativeInt outside key value
  | .code =>
      match value with
      | some (.string t) =>
          if irCodeOrKindPattern t then none else some (.mustBeScreamingSnake key)
      | _ => some (.mustBeScreamingSnake key)
  | .counts names =>
      match value with
      | some (.object regions) =>
          (ensureFields names [] regions).orElse fun _ =>
            firstError (fun name => requireNonNegativeInt outside name (regions.lookup name.toList))
              names
      | _ => some (.mustBeObject key)

def Check.run (entries : List (Text × Json)) (c : Check) : Option PayloadError :=
  let value := entries.lookup c.key.toList
  if c.ifPresent && value.isNone then none else checkValue outside c.key value c.kind

/-- `json.Unmarshal` into a `map[string]any`, which reads `null` as no map. -/
def payloadMap (raw : Text) : Option (List (Text × Json)) :=
  match unmarshal raw with
  | some .null => some []
  | some (.object members) => if finiteMembers members then some (toAnyMembers members []) else none
  | _ => none

/-- `validateEditorTelemetryPayload`. -/
def validateEditorTelemetryPayload (eventType raw : Text) : Option PayloadError :=
  match payloadMap raw with
  | none => some .notAnObject
  | some entries =>
    match specOf eventType with
    | none => some (.unsupportedEventType eventType)
    | some spec =>
        (ensureFields spec.required spec.optional entries).orElse fun _ =>
          firstError (Check.run outside entries) spec.checks

def editorTelemetrySchemaVersion : Text := "v0".toList

/-- `safeIDPattern`. -/
def safeIDPattern (t : Text) : Bool :=
  1 ≤ t.length && t.length ≤ 128 && t.all fun c =>
    ('A' ≤ c && c ≤ 'Z') || ('a' ≤ c && c ≤ 'z') || isDigitAscii c || ['.', '_', '-'].contains c

/-- `EditorTelemetryEventV0`, with its payload as the raw message. -/
structure EditorTelemetryEventV0 where
  schemaVersion : Text := []
  eventType : Text := []
  occurredAt : Time := .zero
  receivedAt : Time := .zero
  sessionId : Text := []
  tenantId : Text := []
  userId : Text := []
  payload : Text := []

inductive EventError
  | field (e : SchemaValidationError)
  | payload (e : PayloadError)
deriving DecidableEq

def safeIDReason : String := "must match ^[A-Za-z0-9._-]\x7b1,128\x7d$"

/-- `EditorTelemetryEventV0.Validate`. -/
def EditorTelemetryEventV0.validate (e : EditorTelemetryEventV0) : Option EventError :=
  ((firstFailing
    [(trimSpace e.schemaVersion ≠ [], "schemaVersion", "required"),
      (e.schemaVersion = editorTelemetrySchemaVersion, "schemaVersion", "must be v0"),
      ((specOf e.eventType).isSome, "eventType", "unsupported editor-telemetry event type"),
      (!e.occurredAt.isZero, "occurredAt", "required"),
      (!e.receivedAt.isZero, "receivedAt", "required"),
      (safeIDPattern e.sessionId, "sessionId", safeIDReason),
      (safeIDPattern e.tenantId, "tenantId", safeIDReason),
      (safeIDPattern e.userId, "userId", safeIDReason),
      (e.payload ≠ [], "payload", "required")]).map EventError.field).orElse fun _ =>
  (validateEditorTelemetryPayload outside e.eventType e.payload).map EventError.payload

end Validation

section Handler

/-- The JSON of an event; `Marshal` writes a raw message as it is, up to white
space and the escapes of `<`, `>` and `&`. -/
def EditorTelemetryEventV0.json (e : EditorTelemetryEventV0) : Option Json := do
  let occurredAt ← timeField e.occurredAt
  let receivedAt ← timeField e.receivedAt
  let payload ← unmarshal e.payload
  some (.object (present
    [("schemaVersion", textField e.schemaVersion),
      ("eventType", textField e.eventType),
      ("occurredAt", some occurredAt),
      ("receivedAt", some receivedAt),
      ("sessionId", textField e.sessionId),
      ("tenantId", textField e.tenantId),
      ("userId", textField e.userId),
      ("payload", some payload)]))

structure EditorTelemetryIngestRequest where
  schemaVersion : Text
  events : List EditorTelemetryEventV0

/-- `JSONLEditorTelemetryStore`: the events it serves, and the values of the
lines of its file. -/
structure EditorTelemetryStore where
  events : List EditorTelemetryEventV0 := []
  lines : List Json := []

inductive Answer
  | created (accepted : Nat)
  | badRequest (error : String)
  | badEvent (index : Nat) (e : EventError)
  | tooLarge (error : String)
  | internalError (error : String)
deriving DecidableEq

def maxEditorTelemetryLen : Nat := 100 * 1024

def maxEditorBatchEvents : Nat := 100

-- The decoder of a request, which refuses unknown fields and further values.
variable (decode : Text → Option EditorTelemetryIngestRequest) (outside : Rat → Rat)

/-- The first event with an error. -/
def firstInvalid (index : Nat) : List EditorTelemetryEventV0 → Option (Nat × EventError)
  | [] => none
  | e :: events =>
      match e.validate outside with
      | some error => some (index, error)
      | none => firstInvalid (index + 1) events

/-- `AppendBatch`, after the validation. -/
def appendBatch (store : EditorTelemetryStore) (events : List EditorTelemetryEventV0) :
    Option EditorTelemetryStore := do
  let lines ← events.mapM EditorTelemetryEventV0.json
  some { events := store.events ++ events, lines := store.lines ++ lines }

/-- `editorTelemetryHandler`, for a `POST`. -/
def editorTelemetryHandler (store : EditorTelemetryStore) (body : Text) :
    EditorTelemetryStore × Answer :=
  if maxEditorTelemetryLen < byteLength body then (store, .tooLarge "request too large")
  else if trimSpace body = [] then (store, .badRequest "request body required")
  else
    match decode body with
    | none => (store, .badRequest "invalid telemetry batch")
    | some request =>
        if request.schemaVersion ≠ editorTelemetrySchemaVersion then
          (store, .badRequest "schemaVersion must be v0")
        else if request.events = [] then
          (store, .badRequest "events must be a non-empty array")
        else if maxEditorBatchEvents < request.events.length then
          (store, .tooLarge "batch exceeds maximum event count")
        else
          match firstInvalid outside 0 request.events with
          | some (index, e) => (store, .badEvent index e)
          | none =>
            match appendBatch store request.events with
            | none => (store, .internalError "append editor telemetry failed")
            | some store => (store, .created request.events.length)

end Handler

end C2c.Learning.EditorTelemetry
