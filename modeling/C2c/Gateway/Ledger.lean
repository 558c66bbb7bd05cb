import C2c.Harness.Events
import C2c.Library.JsonLines

/-!
The ledger records of the model gateway and their JSON.
-/

namespace C2c.Gateway.Ledger

open C2c.Library.JavaText
open C2c.Library.GoText
open C2c.Library.GoTime
open C2c.Library.JsonText
open C2c.Library.GoJson
open C2c.Library.JsonLines
open C2c.Harness.Events (SchemaValidationError firstFailing isHexDigit)

structure DataReference where
  uri : Text := []
  sha256 : Text := []
  byteSize : Int64 := 0
deriving DecidableEq

namespace DataReference

/-- `DataReference.Validate`. -/
def validate (r : DataReference) : Option SchemaValidationError :=
  firstFailing
    [(trimSpace r.uri ≠ [], "uri", "uri is required"),
      (trimSpace r.sha256 ≠ [], "sha256", "sha256 is required"),
      (byteLength r.sha256 = 64, "sha256", "sha256 must be 64 hex chars"),
      (r.sha256.all isHexDigit, "sha256", "sha256 must be valid hex"),
      (0 ≤ r.byteSize, "byteSize", "byteSize must be non-negative")]

def table (r : DataReference) : List (String × Option Json) :=
  [("uri", textField r.uri), ("sha256", textField r.sha256), ("byteSize", int64Field r.byteSize)]

def json (r : DataReference) : Json :=
  .object (present r.table)

def ofJson : Json → Option DataReference
  | .null => some {}
  | .object members => do
      some {
        uri := ← readText (member members "uri")
        sha256 := ← readText (member members "sha256")
        byteSize := ← readInt64 (member members "byteSize") }
  | _ => none

theorem table_names (r : DataReference) : namesDistinct (r.table.map Prod.fst) = true := by
  simp only [table, List.map_cons, List.map_nil]
  decide +kernel

theorem ofJson_json (r : DataReference) : ofJson r.json = some r := by
  have hmember := fun name => @member_table r.table r.table_names name
  simp only [table, List.map_cons, List.map_nil] at hmember
  simp [ofJson, json, table, hmember, entry]

end DataReference

/-- `ModelInvocationLedgerV0`; `usage`, under `omitempty`, does not tell an
empty map from none. -/
structure ModelInvocationLedgerV0 where
  schemaVersion : Text := []
  invocationId : Text := []
  runId : Text := []
  modelId : Text := []
  provider : Text := []
  policyId : Text := []
  agentRole : Text := []
  dataClass : Text := []
  promptTemplate : Text := []
  policyDecision : Text := []
  status : Text := []
  latencyMs : Int64 := 0
  usage : AnyMap := .empty
  requestRef : DataReference := {}
  outputRef : DataReference := {}
  errorCode : Text := []
  errorClass : Text := []
  errorMessage : Text := []
  parameters : Option AnyMap := none
  structuredOutput : Bool := false
  createdAt : Time := .zero

def gatewayEventSchemaVersion : Text := "v0".toList

def statusCompleted : Text := "completed".toList

def statusFailed : Text := "failed".toList

def statusRejected : Text := "rejected".toList

namespace ModelInvocationLedgerV0

/-- `ModelInvocationLedgerV0.Validate`. -/
def validate (l : ModelInvocationLedgerV0) : Option SchemaValidationError :=
  (firstFailing
    [(l.schemaVersion = gatewayEventSchemaVersion, "schemaVersion", "must be v0"),
      (trimSpace l.invocationId ≠ [], "invocationId", "required"),
      (trimSpace l.modelId ≠ [], "modelId", "required"),
      (trimSpace l.provider ≠ [], "provider", "required"),
      (trimSpace l.policyId ≠ [], "policyId", "required"),
      (trimSpace l.dataClass ≠ [], "dataClass", "required"),
      (trimSpace l.promptTemplate ≠ [], "promptTemplateVersion", "required"),
      (!l.createdAt.isZero, "createdAt", "required")]).orElse fun _ =>
  l.requestRef.validate.orElse fun _ =>
  l.outputRef.validate.orElse fun _ =>
  firstFailing
    [(0 ≤ l.latencyMs, "latencyMs", "must be >= 0"),
      (l.status ≠ [], "status", "required"),
      (l.status ∈ [statusCompleted, statusFailed, statusRejected], "status",
        "must be completed, failed, or rejected"),
      (trimSpace l.policyDecision ≠ [], "policyDecision", "required")]

def table (l : ModelInvocationLedgerV0) (createdAt : Json) : List (String × Option Json) :=
  [("schemaVersion", textField l.schemaVersion),
    ("invocationId", textField l.invocationId),
    ("runId", textField l.runId),
    ("modelId", textField l.modelId),
    ("provider", textField l.provider),
    ("policyId", textField l.policyId),
    ("agentRole", textOmitEmpty l.agentRole),
    ("dataClass", textField l.dataClass),
    ("promptTemplateVersion", textField l.promptTemplate),
    ("policyDecision", textField l.policyDecision),
    ("status", textField l.status),
    ("latencyMs", int64Field l.latencyMs),
    ("usage", mapOmitEmpty l.usage),
    ("requestRef", some l.requestRef.json),
    ("outputRef", some l.outputRef.json),
    ("errorCode", textOmitEmpty l.errorCode),
    ("errorClass", textOmitEmpty l.errorClass),
    ("errorMessage", textOmitEmpty l.errorMessage),
    ("parameters", mapField l.parameters),
    ("structuredOutput", boolField l.structuredOutput),
    ("createdAt", some createdAt)]

def json (l : ModelInvocationLedgerV0) : Option Json := do
  let createdAt ← timeField l.createdAt
  some (.object (present (l.table createdAt)))

def ofJson : Json → Option ModelInvocationLedgerV0
  | .null => some {}
  | .object members => do
      some {
        schemaVersion := ← readText (member members "schemaVersion")
        invocationId := ← readText (member members "invocationId")
        runId := ← readText (member members "runId")
        modelId := ← readText (member members "modelId")
        provider := ← readText (member members "provider")
        policyId := ← readText (member members "policyId")
        agentRole := ← readText (member members "agentRole")
        dataClass := ← readText (member members "dataClass")
        promptTemplate := ← readText (member members "promptTemplateVersion")
        policyDecision := ← readText (member members "policyDecision")
        status := ← readText (member members "status")
        latencyMs := ← readInt64 (member members "latencyMs")
        usage := ← readMapOrEmpty (member members "usage")
        requestRef := ← DataReference.ofJson (member members "requestRef")
        outputRef := ← DataReference.ofJson (member members "outputRef")
        errorCode := ← readText (member members "errorCode")
        errorClass := ← readText (member members "errorClass")
        errorMessage := ← readText (member members "errorMessage")
        parameters := ← readMap (member members "parameters")
        structuredOutput := ← readBool (member members "structuredOutput")
        createdAt := ← readTime (member members "createdAt") }
  | _ => none

theorem table_names (l : ModelInvocationLedgerV0) (createdAt : Json) :
    namesDistinct ((l.table createdAt).map Prod.fst) = true := by
  simp only [table, List.map_cons, List.map_nil]
  decide +kernel

theorem ofJson_json {l : ModelInvocationLedgerV0} {v : Json} (h : l.json = some v) :
    (∃ members, v = .object members) ∧ ofJson v = some l := by
  obtain ⟨createdAt, htime, hv⟩ := Option.bind_eq_some_iff.mp h
  cases hv
  refine ⟨⟨_, rfl⟩, ?_⟩
  have hmember := fun name => @member_table _ (l.table_names createdAt) name
  simp only [table, List.map_cons, List.map_nil] at hmember
  simp [ofJson, table, hmember, entry, DataReference.ofJson_json, readTime_timeField htime]

end ModelInvocationLedgerV0

/-- `JSONLModelInvocationLedger`. -/
def modelInvocationLedger :
    Format ModelInvocationLedgerV0 ModelInvocationLedgerV0 SchemaValidationError :=
  .checked ModelInvocationLedgerV0.validate ModelInvocationLedgerV0.json
    ModelInvocationLedgerV0.ofJson

end C2c.Gateway.Ledger
