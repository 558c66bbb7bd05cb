import C2c.Bff.AssistBudget
import C2c.Library.RegExp

/-!
The requests of the editor assistant, and the references under which they are
written to the ledger.
-/

namespace C2c.Bff.EditorExplain

open C2c.Library.JavaText
open C2c.Library.RegExp (CodeUnits isDigit isUpper isLower oneOf)
open C2c.Bff.AssistBudget (BudgetSnapshot)

inductive EditorRegionSourceKind
  | cobol
  | java
deriving DecidableEq

structure EditorRegion where
  filePath : Text
  sourceKind : EditorRegionSourceKind
  startLine : Nat
  endLine : Nat
deriving DecidableEq

inductive EditorExplainErrorCode
  | budgetExhausted
  | policyDenied
  | gatewayUnavailable
  | timeout
  | invalidRegion
deriving DecidableEq

/-- The ids are the code units that the studio reports. -/
structure StudioRedactionMetadata where
  studioRedactionProfileVersion : Text
  matchedPatternIds : List CodeUnits
deriving DecidableEq

/-- The parts of a request that its ledger entry is made of. -/
structure EditorExplainRequest where
  sessionId : Text
  runId : Option Text
  region : EditorRegion
  byteHash : Text
  studioRedactionMetadata : StudioRedactionMetadata

structure EditorExplainValidationError where
  errorCode : EditorExplainErrorCode
  message : Text
deriving DecidableEq

section Validation

def rejectInvalidRegion (message : String) : EditorExplainValidationError :=
  ⟨.invalidRegion, message.toList⟩

/-- `SAFE_ID_PATTERN`. -/
def isSafeId (value : Text) : Bool :=
  decide (1 ≤ value.length) &&
    value.all fun c => c.isAlphanum || c == '.' || c == '_' || c == '-'

/-- `SAFE_REDACTION_ID_PATTERN`. -/
def isSafeRedactionPatternId : CodeUnits → Bool
  | [] => false
  | c :: rest =>
      (isUpper c || isLower c) && decide (rest.length ≤ 127) &&
        rest.all fun c => isUpper c || isLower c || isDigit c || oneOf "_:-" c

/-- `validateRedactionMetadata` of a record with these two fields. -/
def validateRedactionMetadata (metadata : StudioRedactionMetadata) :
    Except EditorExplainValidationError StudioRedactionMetadata :=
  if metadata.studioRedactionProfileVersion = [] then
    .error (rejectInvalidRegion
      "studioRedactionMetadata.studioRedactionProfileVersion must be a non-empty string")
  else
    match metadata.matchedPatternIds.find? fun id => !isSafeRedactionPatternId id with
    | some _ =>
        .error (rejectInvalidRegion
          "studioRedactionMetadata.matchedPatternIds must contain opaque redaction pattern ids")
    | none => .ok metadata

end Validation

section References

def buildEditorAssistRef (tenantId sessionId : Text) (seq : Nat) : Text :=
  "eai-".toList ++ (tenantId ++ '-' :: (sessionId ++ '-' :: natText seq))

def buildLocalLedgerRef (tenantId sessionId : Text) (seq : Nat) : Text :=
  "urn:c2c/editor-assist/".toList ++ (tenantId ++ '/' :: (sessionId ++ '/' :: natText seq))

/-- The key of a counter. -/
def counterKey (tenantId sessionId : Text) : Text :=
  tenantId ++ '\x00' :: sessionId

/-- The counters, where a key that is not in the map counts as 0. -/
abbrev Counters := Text → Nat

/-- `next` of the sequence counter. -/
def next (counters : Counters) (tenantId sessionId : Text) : Nat × Counters :=
  let key := counterKey tenantId sessionId
  (counters key + 1, Function.update counters key (counters key + 1))

end References

section Ledger

/-- `union.add` for the safe ids of a list. -/
def addSafeIds (union ids : List CodeUnits) : List CodeUnits :=
  ids.foldl (fun union id =>
    if isSafeRedactionPatternId id ∧ id ∉ union then union ++ [id] else union) union

def normaliseGatewayRedactedFields (studioMatchedPatternIds : List CodeUnits)
    (gatewayRedactedFields : Option (List CodeUnits)) : List CodeUnits :=
  addSafeIds (addSafeIds [] studioMatchedPatternIds) (gatewayRedactedFields.getD [])

/-- What `mapGatewayResponse` makes of the gateway's answer. -/
inductive GatewayMapping
  | error (errorCode : EditorExplainErrorCode)
  | ok (invocationId gatewayLedgerRef : Option Text) (gatewayRedactedFields : List CodeUnits)

inductive EditorAssistLedgerStatus
  | success
  | failed
deriving DecidableEq

structure RequestRegion extends EditorRegion where
  byteHash : Text
deriving DecidableEq

structure EditorAssistLedgerEntry where
  ledgerEntryId : Text
  invocationId : Option Text
  tenantId : Text
  userId : Text
  sessionId : Text
  requestRegion : RequestRegion
  redactedFields : List CodeUnits
  ledgerRef : Text
  editorAssistRef : Text
  budgetSnapshot : BudgetSnapshot
  startedAt : Nat
  endedAt : Nat
  status : EditorAssistLedgerStatus
  failureCode : Option EditorExplainErrorCode
  runIdRef : Option Text
deriving DecidableEq

/-- What an entry holds whatever the gateway has answered. -/
structure EntryContext where
  tenantId : Text
  userId : Text
  request : EditorExplainRequest
  seq : Nat
  budgetSnapshot : BudgetSnapshot
  startedAt : Nat
  endedAt : Nat

def buildLedgerEntry (context : EntryContext) (invocationId : Option Text) (ledgerRef : Text)
    (redactionApplied : List CodeUnits) (status : EditorAssistLedgerStatus)
    (failureCode : Option EditorExplainErrorCode) : EditorAssistLedgerEntry :=
  let request := context.request
  let editorAssistRef := buildEditorAssistRef context.tenantId request.sessionId context.seq
  { ledgerEntryId := editorAssistRef
    invocationId := invocationId
    tenantId := context.tenantId
    userId := context.userId
    sessionId := request.sessionId
    requestRegion :=
      { request.region with byteHash := "sha256:".toList ++ request.byteHash }
    redactedFields := redactionApplied
    ledgerRef := ledgerRef
    editorAssistRef := editorAssistRef
    budgetSnapshot := context.budgetSnapshot
    startedAt := context.startedAt
    endedAt := context.endedAt
    status := status
    failureCode := failureCode
    runIdRef := request.runId }

/-- The entry that `handleEditorExplain` hands to the sink. -/
def entryOf (context : EntryContext) (mapped : GatewayMapping) : EditorAssistLedgerEntry :=
  let request := context.request
  let localLedgerRef := buildLocalLedgerRef context.tenantId request.sessionId context.seq
  let matchedPatternIds := request.studioRedactionMetadata.matchedPatternIds
  match mapped with
  | .error errorCode =>
      buildLedgerEntry context none localLedgerRef matchedPatternIds .failed (some errorCode)
  | .ok invocationId gatewayLedgerRef gatewayRedactedFields =>
      let ledgerRef := match gatewayLedgerRef with
        | some ref => if ref.length > 0 then ref else localLedgerRef
        | none => localLedgerRef
      buildLedgerEntry context invocationId ledgerRef
        (normaliseGatewayRedactedFields matchedPatternIds (some gatewayRedactedFields)) .success
        none

end Ledger

end C2c.Bff.EditorExplain
