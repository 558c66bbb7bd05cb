import C2c.Library.PythonNumbers
import C2c.Library.PythonTime

/-!
Documented approvals of an intentional parity mismatch.
-/

namespace C2c.Orchestrator.DivergenceDecisions

open C2c.Library
open C2c.Library.JavaText
open C2c.Library.PythonText
open C2c.Library.PythonJson
open C2c.Library.PythonNumbers
open C2c.Library.PythonTime

section Values

/-- `_non_empty_text`. -/
def nonEmptyText (value : Json) (field : String) : Except PythonError Text :=
  let t := strip (strOrEmpty value)
  if t = [] then .error (.valueError (field.toList ++ " is required".toList)) else .ok t

/-- A text that is not blank, without the blanks around it. -/
def strippedText : Json → Option Text
  | .text t => if strip t = [] then none else some (strip t)
  | _ => none

def isHexDigit (c : Char) : Bool :=
  "0123456789abcdefABCDEF".toList.contains c

/-- The payload of a reference: its address and the optional texts it has. -/
structure ArtifactReference where
  uri : Text
  sha256 : Text
  byteSize : Nat
  optional : List (Text × Text)
deriving DecidableEq

def optionalKeys : List String :=
  ["mimeType", "kind", "path", "name", "createdBy", "createdAt"]

/-- The object the payload is. -/
def ArtifactReference.toJson (ref : ArtifactReference) : Json :=
  .object (("uri".toList, .text ref.uri) :: ("sha256".toList, .text ref.sha256) ::
    ("byteSize".toList, .number (natText ref.byteSize)) ::
    ref.optional.map fun member => (member.1, .text member.2))

variable (whole : Text → Int)

/-- The size of a reference, which is an integer that is not negative. -/
def byteSizeOf (value : Json) (field : String) : Except PythonError Nat :=
  match intOf whole (get value "byteSize") with
  | .error .overflowError => .error .overflowError
  | .error _ => .error (.valueError (field.toList ++ ".byteSize must be an integer".toList))
  | .ok byteSize =>
      if byteSize < 0 then
        .error (.valueError (field.toList ++ ".byteSize must be non-negative".toList))
      else .ok byteSize.toNat

/-- `_artifact_reference_payload`. -/
def artifactReferencePayload (value : Json) (field : String) :
    Except PythonError ArtifactReference :=
  if isMapping value then do
    let uri ← nonEmptyText (get value "uri") (field ++ ".uri")
    let sha256 ← nonEmptyText (get value "sha256") (field ++ ".sha256")
    if sha256.length = 64 ∧ sha256.all isHexDigit = true then do
      let byteSize ← byteSizeOf whole value field
      pure
        { uri := uri
          sha256 := sha256
          byteSize := byteSize
          optional := optionalKeys.filterMap fun key =>
            (strippedText (get value key)).map fun t => (key.toList, t) }
    else throw (.valueError (field.toList ++ ".sha256 must be a SHA-256 hex digest".toList))
  else throw (.valueError (field.toList ++ " must be an object".toList))

/-- `int(ref.get("byteSize") or 0)`. -/
def signatureSize (ref : Json) : Except PythonError Int :=
  if truthy (get ref "byteSize") then intOf whole (get ref "byteSize") else .ok 0

/-- `_artifact_ref_signature`. -/
def artifactRefSignature (ref : Json) : Except PythonError (Text × Text × Int) := do
  let uri ← nonEmptyText (get ref "uri") "ref.uri"
  let sha256 ← nonEmptyText (get ref "sha256") "ref.sha256"
  let byteSize ← signatureSize whole ref
  pure (uri, sha256, byteSize)

/-- `_refs_match`, which takes no difference from a `ValueError` alone. -/
def refsMatch (left right : Json) : Except PythonError Bool :=
  let signatures : Except PythonError Bool := do
    let first ← artifactRefSignature whole left
    let second ← artifactRefSignature whole right
    pure (first == second)
  match signatures with
  | .error (.valueError _) => .ok false
  | signatures => signatures

end Values

section Decisions

structure Reviewer where
  reviewerId : Text
  displayName : Text
  role : Text
deriving DecidableEq

def Reviewer.toJson (reviewer : Reviewer) : Json :=
  .object [("reviewerId".toList, .text reviewer.reviewerId),
    ("displayName".toList, .text reviewer.displayName), ("role".toList, .text reviewer.role)]

structure Rationale where
  summary : Text
  technicalBasis : Text
  businessImpact : Text
  followUp : Option Text
deriving DecidableEq

def Rationale.toJson (rationale : Rationale) : Json :=
  .object ([("summary".toList, .text rationale.summary),
    ("technicalBasis".toList, .text rationale.technicalBasis),
    ("businessImpact".toList, .text rationale.businessImpact)] ++
    (rationale.followUp.map fun t => ("followUp".toList, Json.text t)).toList)

/-- `IntentionalDivergenceDecision`. -/
structure IntentionalDivergenceDecision where
  decisionId : Text
  runId : Text
  workflowId : Text
  comparisonResultRef : ArtifactReference
  reviewer : Reviewer
  rationale : Rationale
  linkedEvidenceRefs : List ArtifactReference
  affectedOutputs : List Text
  invalidationTriggers : List Text
  decidedAt : Text
  expiresAt : Option Text
  updatedAt : Option Text
deriving DecidableEq

/-- `INTENTIONAL_DIVERGENCE_AFFECTED_OUTPUTS`. -/
def affectedOutputs : List Text :=
  ["java_output".toList, "normalized_output".toList, "stderr".toList, "exit_code".toList,
    "evidence_summary".toList]

def evidenceChanged : Text := "linked_evidence_changed".toList

def outputsChanged : Text := "affected_outputs_changed".toList

/-- `INTENTIONAL_DIVERGENCE_INVALIDATION_TRIGGERS`. -/
def invalidationTriggers : List Text :=
  ["comparison_result_changed".toList, outputsChanged, evidenceChanged,
    "expires_at_reached".toList]

/-- `_validate_reviewer`. -/
def validateReviewer (value : Json) : Except PythonError Reviewer :=
  if isMapping value then do
    let reviewerId ← nonEmptyText (get value "reviewerId") "reviewer.reviewerId"
    let displayName ← nonEmptyText (get value "displayName") "reviewer.displayName"
    let role ← nonEmptyText (get value "role") "reviewer.role"
    pure { reviewerId := reviewerId, displayName := displayName, role := role }
  else throw (.valueError "reviewer must be an object".toList)

/-- `_validate_rationale`. -/
def validateRationale (value : Json) : Except PythonError Rationale :=
  if isMapping value then do
    let summary ← nonEmptyText (get value "summary") "rationale.summary"
    let technicalBasis ← nonEmptyText (get value "technicalBasis") "rationale.technicalBasis"
    let businessImpact ← nonEmptyText (get value "businessImpact") "rationale.businessImpact"
    pure
      { summary := summary
        technicalBasis := technicalBasis
        businessImpact := businessImpact
        followUp := strippedText (get value "followUp") }
  else throw (.valueError "rationale must be an object".toList)

/-- A name that is one of the allowed ones, which the message lists in order. -/
def requireKnown (what : String) (allowed sorted : List Text) (name : Text) :
    Except PythonError Unit :=
  if name ∈ allowed then .ok ()
  else .error (.valueError ("unknown ".toList ++ what.toList ++ ": ".toList ++ reprText name ++
    "; allowed: ".toList ++ PythonJson.repr (.array (sorted.map .text))))

def requireOutput : Text → Except PythonError Unit :=
  requireKnown "affected output" affectedOutputs
    ["evidence_summary".toList, "exit_code".toList, "java_output".toList,
      "normalized_output".toList, "stderr".toList]

def requireTrigger : Text → Except PythonError Unit :=
  requireKnown "invalidation trigger" invalidationTriggers
    [outputsChanged, "comparison_result_changed".toList, "expires_at_reached".toList,
      evidenceChanged]

def requireFilled {A : Type} (message : String) (l : List A) : Except PythonError Unit :=
  if l.isEmpty then .error (.valueError message.toList) else .ok ()

variable (whole : Text → Int)

/-- `__post_init__`. -/
def postInit (d : IntentionalDivergenceDecision) : Except PythonError Unit := do
  requireFilled "decision_id is required" d.decisionId
  requireFilled "run_id is required" d.runId
  requireFilled "workflow_id is required" d.workflowId
  requireFilled "linked_evidence_refs must not be empty" d.linkedEvidenceRefs
  requireFilled "affected_outputs must not be empty" d.affectedOutputs
  requireFilled "invalidation_triggers must not be empty" d.invalidationTriggers
  let _ ← nonEmptyText (.text d.decidedAt) "decided_at"
  let _ ← d.expiresAt.mapM fun expiresAt => nonEmptyText (.text expiresAt) "expires_at"
  let _ ← artifactReferencePayload whole d.comparisonResultRef.toJson "comparison_result_ref"
  let _ ← validateReviewer d.reviewer.toJson
  let _ ← validateRationale d.rationale.toJson
  let _ ← d.linkedEvidenceRefs.mapM fun ref =>
    artifactReferencePayload whole ref.toJson "divergence decision artifact ref"
  let _ ← d.affectedOutputs.mapM requireOutput
  let _ ← d.invalidationTriggers.mapM requireTrigger
  pure ()

/-- The items of a field that must be an array. -/
def arrayItems (payload : Json) (field : String) : Except PythonError (List Json) :=
  match get payload field with
  | .array items => .ok items
  | _ => .error (.valueError (field.toList ++ " must be an array".toList))

/-- A text that may be absent. -/
def optionalText (payload : Json) (field : String) : Except PythonError (Option Text) :=
  match get payload field with
  | .null => .ok none
  | value => (nonEmptyText value field).map some

/-- `from_mapping`. -/
def fromMapping (payload : Json) : Except PythonError IntentionalDivergenceDecision := do
  let linkedEvidenceRefsRaw ← arrayItems payload "linkedEvidenceRefs"
  let affectedOutputsRaw ← arrayItems payload "affectedOutputs"
  let invalidationTriggersRaw ← arrayItems payload "invalidationTriggers"
  let decisionId ← nonEmptyText (get payload "decisionId") "decisionId"
  let runId ← nonEmptyText (get payload "runId") "runId"
  let workflowId ← nonEmptyText (get payload "workflowId") "workflowId"
  let comparisonResultRef ←
    artifactReferencePayload whole (get payload "comparisonResultRef") "comparisonResultRef"
  let reviewer ← validateReviewer (get payload "reviewer")
  let rationale ← validateRationale (get payload "rationale")
  let linkedEvidenceRefs ← linkedEvidenceRefsRaw.mapM fun ref =>
    artifactReferencePayload whole ref "linkedEvidenceRefs[]"
  let affectedOutputs ← affectedOutputsRaw.mapM fun output =>
    nonEmptyText output "affectedOutputs[]"
  let invalidationTriggers ← invalidationTriggersRaw.mapM fun trigger =>
    nonEmptyText trigger "invalidationTriggers[]"
  let decidedAt ← nonEmptyText (get payload "decidedAt") "decidedAt"
  let expiresAt ← optionalText payload "expiresAt"
  let updatedAt ← optionalText payload "updatedAt"
  let d : IntentionalDivergenceDecision :=
    { decisionId := decisionId
      runId := runId
      workflowId := workflowId
      comparisonResultRef := comparisonResultRef
      reviewer := reviewer
      rationale := rationale
      linkedEvidenceRefs := linkedEvidenceRefs
      affectedOutputs := affectedOutputs
      invalidationTriggers := invalidationTriggers
      decidedAt := decidedAt
      expiresAt := expiresAt
      updatedAt := updatedAt }
  postInit whole d
  pure d

/-- `to_dict`. -/
def IntentionalDivergenceDecision.toDict (d : IntentionalDivergenceDecision) : Json :=
  .object
    ([("schemaVersion".toList, .text "v0".toList),
      ("decisionType".toList, .text "intentional_divergence".toList),
      ("decisionId".toList, .text d.decisionId),
      ("runId".toList, .text d.runId),
      ("workflowId".toList, .text d.workflowId),
      ("comparisonResultRef".toList, d.comparisonResultRef.toJson),
      ("reviewer".toList, d.reviewer.toJson),
      ("rationale".toList, d.rationale.toJson),
      ("linkedEvidenceRefs".toList, .array (d.linkedEvidenceRefs.map (·.toJson))),
      ("affectedOutputs".toList, .array (d.affectedOutputs.map .text)),
      ("invalidationTriggers".toList, .array (d.invalidationTriggers.map .text)),
      ("decidedAt".toList, .text d.decidedAt)] ++
      (d.expiresAt.map fun t => ("expiresAt".toList, Json.text t)).toList ++
      (d.updatedAt.map fun t => ("updatedAt".toList, Json.text t)).toList)

end Decisions

section Status

/-- The statuses of a decision. -/
inductive DivergenceStatus
  | active
  | expired
  | stale
  | invalid
deriving DecidableEq

variable (whole : Text → Int)

/-- `t.replace("Z", "+00:00")`. -/
def replaceZ (t : Text) : Text :=
  t.flatMap fun c => if c = 'Z' then "+00:00".toList else [c]

/-- A stamp as it is read. -/
def readStamp (t : Text) : Option DateTime :=
  fromisoformat (replaceZ t)

/-- `now or _iso_now()`. -/
def currentTime (clock : Text) : Option Text → Text
  | some now => if now = [] then clock else now
  | none => clock

/-- What the expiry date settles, if it settles anything. -/
def expiryStatus (d : IntentionalDivergenceDecision) (currentTime : Text) :
    Except PythonError (Option DivergenceStatus) :=
  match d.expiresAt with
  | none => .ok none
  | some expiresAt =>
      match readStamp expiresAt, readStamp currentTime with
      | some expires, some current =>
          match current.atLeast expires with
          | some true => .ok (some .expired)
          | some false => .ok none
          | none => .error .typeError
      | _, _ => .ok (some .invalid)

/-- `_output_is_available`. -/
def outputIsAvailable (trustSummary : Json) (output : Text) : Bool :=
  let comparisonResult := get trustSummary "comparisonResult"
  let cobolResult := get trustSummary "cobolResult"
  let javaResult := get trustSummary "javaResult"
  let evidence := get trustSummary "evidence"
  if ¬ isMapping trustSummary then true
  else if output = "java_output".toList then
    truthy (get javaResult "executionResultRef") || truthy (get javaResult "normalizedOutputRef")
  else if output = "normalized_output".toList then
    truthy (get cobolResult "normalizedOutputRef") && truthy (get javaResult "normalizedOutputRef")
  else if output = "stderr".toList then truthy (get comparisonResult "diffRef")
  else if output = "exit_code".toList then
    truthy (get javaResult "executionResultRef") ||
      truthy (get comparisonResult "comparisonResultRef")
  else if output = "evidence_summary".toList then truthy (get evidence "packRef")
  else true

/-- The status of the evidence in a trust summary. -/
def evidenceStatus (evidence : Json) : Text :=
  match get evidence "status" with
  | .null => []
  | status => strip (str status)

/-- Whether the trust summary makes a decision stale. -/
def trustStale (d : IntentionalDivergenceDecision) (trustSummary : Json) : Bool :=
  let evidence := get trustSummary "evidence"
  isMapping trustSummary &&
    ((d.invalidationTriggers.contains evidenceChanged && isMapping evidence &&
        evidenceStatus evidence != "current".toList) ||
      (d.invalidationTriggers.contains outputsChanged &&
        d.affectedOutputs.any fun output => !outputIsAvailable trustSummary output))

/-- `parity_comparison.get("matched") is True`. -/
def isMatched (parityComparison : Json) : Bool :=
  match get parityComparison "matched" with
  | .bool matched => matched
  | _ => false

/-- What the comparison and the trust summary make of a decision that has not
expired. -/
def comparisonStatus (d : IntentionalDivergenceDecision) (parityComparison trustSummary : Json) :
    Except PythonError DivergenceStatus :=
  if ¬ isMapping parityComparison ∨ ¬ truthy parityComparison then .ok .invalid
  else if isMatched parityComparison then .ok .invalid
  else if ¬ isMapping (get parityComparison "comparisonResultRef") then .ok .stale
  else do
    if ← refsMatch whole (get parityComparison "comparisonResultRef")
        d.comparisonResultRef.toJson then
      if trustStale d trustSummary then pure .stale else pure .active
    else pure .stale

/-- `status_for`; an absent comparison or summary is `null`. -/
def statusFor (clock : Text) (d : IntentionalDivergenceDecision)
    (parityComparison trustSummary : Json) (now : Option Text) :
    Except PythonError DivergenceStatus := do
  match ← expiryStatus d (currentTime clock now) with
  | some status => pure status
  | none => comparisonStatus whole d parityComparison trustSummary

end Status

end C2c.Orchestrator.DivergenceDecisions
