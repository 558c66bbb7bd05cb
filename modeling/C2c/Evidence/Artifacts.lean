import C2c.Evidence.FieldErrors

namespace C2c.Evidence.Artifacts

open C2c.Library.JavaText
open C2c.Evidence.FieldErrors

/-- What `DataReference.Validate` reads of a parsed `url.URL`. -/
structure Url where
  scheme : Text
  rawQuery : Text

/-- `url.Parse` of the Go library, `none` for an error. -/
abbrev UrlParser := Text → Option Url

structure DataReference where
  uri : Text
  sha256 : Text
  byteSize : Int
  mimeType : Text := []
  kind : Text := []
deriving DecidableEq

def DataReference.isZero (r : DataReference) : Bool :=
  r.uri == [] && r.sha256 == [] && r.byteSize == 0

def isHexDigit (c : Char) : Bool :=
  isDigitAscii c || ('a' ≤ c && c ≤ 'f') || ('A' ≤ c && c ≤ 'F')

/-- `sha256Pattern`; what it accepts `hex.DecodeString` decodes. -/
def matchesSha256 (t : Text) : Bool :=
  t.length == 64 && t.all isHexDigit

def hasHttpQuery (parseUrl : UrlParser) (uri : Text) : Bool :=
  match parseUrl uri with
  | some parsed =>
      let scheme := parsed.scheme.map Char.toLower
      (scheme == "http".toList || scheme == "https".toList) && parsed.rawQuery != []
  | none => false

def DataReference.validate (parseUrl : UrlParser) (path : Text) (r : DataReference) :
    Option FieldError :=
  firstError
    [checkMember (r.uri == []) path "uri" "uri is required",
      checkMember (containsSecretLike r.uri) path "uri"
        "uri appears to contain a secret or credential and was rejected by evidence-service",
      checkMember (hasHttpQuery parseUrl r.uri) path "uri"
        "http artifact uri must not contain query parameters",
      checkMember (r.sha256 == []) path "sha256" "sha256 is required",
      checkMember (!matchesSha256 r.sha256) path "sha256" "sha256 must be 64 hex chars",
      checkMember (decide (r.byteSize < 0)) path "byteSize" "byteSize must be non-negative"]

structure TransformationPass where
  name : Text
  order : Int := 0
  inputRef : Option DataReference := none
  outputRef : DataReference
  policyDecision : Text := []

def TransformationPass.validate (parseUrl : UrlParser) (path : Text) (p : TransformationPass) :
    Option FieldError :=
  firstError
    [checkMember (p.name == []) path "name" "name is required",
      p.outputRef.validate parseUrl (member path "outputRef"),
      validateOptional (DataReference.validate parseUrl (member path "inputRef")) p.inputRef]

structure ModelInvocationRef where
  invocationId : Text
  modelId : Text
  provider : Text := []
  promptTemplateVersion : Text := []
  promptTemplateId : Text := []
  policyDecision : Text := []
  status : Text := []
  reason : Text := []
  policyVersion : Text := []
  policyId : Text := []
  agentRole : Text := []
  latencyMs : Int := 0
  errorCode : Text := []
  errorClass : Text := []
  timestamp : Text := []
  ledgerRef : DataReference

/-- The string fields of an invocation that are scanned for secrets.  The
source walks them as a map, in no fixed order. -/
def ModelInvocationRef.scannedFields (m : ModelInvocationRef) : List (String × Text) :=
  [("invocationId", m.invocationId), ("modelId", m.modelId), ("provider", m.provider),
    ("promptTemplateVersion", m.promptTemplateVersion), ("promptTemplateId", m.promptTemplateId),
    ("policyDecision", m.policyDecision), ("status", m.status), ("reason", m.reason),
    ("policyVersion", m.policyVersion), ("policyId", m.policyId), ("agentRole", m.agentRole),
    ("errorCode", m.errorCode), ("errorClass", m.errorClass), ("timestamp", m.timestamp)]

def ModelInvocationRef.validate (parseUrl : UrlParser) (path : Text) (m : ModelInvocationRef) :
    Option FieldError :=
  firstError
    ([checkMember (m.invocationId == []) path "invocationId" "invocationId is required",
      checkMember (m.modelId == []) path "modelId" "modelId is required",
      m.ledgerRef.validate parseUrl (member path "ledgerRef")] ++
      m.scannedFields.map fun field => checkMember (containsSecretLike field.2) path field.1
        "value appears to contain a secret or credential and was rejected by evidence-service")

structure JavaCandidateRef where
  uri : Text
  sha256 : Text
  byteSize : Int
  mimeType : Text := []
  kind : Text := []
  origin : Text
  attemptNumber : Int
  selected : Bool := false
deriving DecidableEq

def JavaCandidateRef.isZero (c : JavaCandidateRef) : Bool :=
  c.uri == [] && c.sha256 == [] && c.byteSize == 0 && c.origin == []

def JavaCandidateRef.asDataReference (c : JavaCandidateRef) : DataReference :=
  ⟨c.uri, c.sha256, c.byteSize, c.mimeType, c.kind⟩

/-- Whether a text is one of an enumeration's. -/
def isOneOf (values : List String) (t : Text) : Bool :=
  values.any fun value => value.toList == t

def candidateOrigins : List String :=
  ["deterministic-baseline", "transformation-agent", "verification-repair-agent"]

def JavaCandidateRef.validate (parseUrl : UrlParser) (path : Text) (c : JavaCandidateRef) :
    Option FieldError :=
  firstError
    [c.asDataReference.validate parseUrl path,
      checkMember (!isOneOf candidateOrigins c.origin) path "origin"
        "origin must be deterministic-baseline|transformation-agent|verification-repair-agent",
      checkMember (decide (c.attemptNumber < 0)) path "attemptNumber"
        "attemptNumber must be non-negative"]

structure RepairAttempt where
  attemptNumber : Int
  decision : Text
  decisionRef : Option DataReference := none
  modelInvocationRef : Option ModelInvocationRef := none
  newJavaCandidateRef : Option JavaCandidateRef := none
  buildTestResultRef : DataReference
  refusalCode : Text := []
  noChange : Bool := false

def repairDecisions : List String :=
  ["propose_candidate", "refuse", "escalate", "no_change"]

def RepairAttempt.validate (parseUrl : UrlParser) (path : Text) (r : RepairAttempt) :
    Option FieldError :=
  firstError
    [checkMember (decide (r.attemptNumber ≤ 0)) path "attemptNumber" "attemptNumber must be > 0",
      checkMember (!isOneOf repairDecisions r.decision) path "decision"
        "decision must be propose_candidate|refuse|escalate|no_change",
      r.buildTestResultRef.validate parseUrl (member path "buildTestResultRef"),
      validateOptional (DataReference.validate parseUrl (member path "decisionRef")) r.decisionRef,
      validateOptional (ModelInvocationRef.validate parseUrl (member path "modelInvocationRef"))
        r.modelInvocationRef,
      validateOptional (JavaCandidateRef.validate parseUrl (member path "newJavaCandidateRef"))
        r.newJavaCandidateRef,
      checkMember (r.decision == "propose_candidate".toList && r.newJavaCandidateRef.isNone) path
        "newJavaCandidateRef" "propose_candidate decisions must reference the new Java candidate",
      checkMember (isOneOf ["refuse", "escalate"] r.decision && r.refusalCode == []) path
        "refusalCode" "refuse/escalate decisions must include a refusalCode"]

structure AgentTrajectoryRef where
  agentRole : Text
  ledgerRef : DataReference

def transformationRole : Text :=
  "transformation".toList

def verificationRepairRole : Text :=
  "verification-repair".toList

def AgentTrajectoryRef.validate (parseUrl : UrlParser) (path : Text) (t : AgentTrajectoryRef) :
    Option FieldError :=
  firstError
    [checkMember (!isOneOf ["orchestrator", "transformation", "verification-repair"] t.agentRole)
        path "agentRole" "agentRole must be orchestrator|transformation|verification-repair",
      t.ledgerRef.validate parseUrl (member path "ledgerRef")]

structure OracleComparison where
  matched : Bool
  oracleKind : Text := []
  expectedRef : Option DataReference := none
  actualRef : Option DataReference := none
  expectedSha256 : Text := []
  actualSha256 : Text := []
  buildTestResultRef : Option DataReference := none
  comparisonResultRef : Option DataReference := none
  comparisonPolicyRef : Option DataReference := none
  diffRef : Option DataReference := none
  normalizedDiffRef : Option DataReference := none
  classification : Text := []
  status : Text := []
  comparisonPolicyVersion : Text := []
  mismatchClassification : Text := []
  sourceExitCode : Option Int := none
  targetExitCode : Option Int := none
  sourceStdoutRef : Option DataReference := none
  sourceStderrRef : Option DataReference := none
  targetStdoutRef : Option DataReference := none
  targetStderrRef : Option DataReference := none
  sourceNormalizedRef : Option DataReference := none
  sourceNormalizedStderrRef : Option DataReference := none
  targetNormalizedRef : Option DataReference := none
  targetNormalizedStderrRef : Option DataReference := none
  sourceOutputRef : Option DataReference := none
  sourceNormalizedOutputRef : Option DataReference := none
  javaOutputRef : Option DataReference := none
  javaNormalizedOutputRef : Option DataReference := none
  diffSummary : Text := []
  summary : Text := []

/-- The references of a comparison the source walks as a map. -/
def OracleComparison.furtherRefs (o : OracleComparison) :
    List (String × Option DataReference) :=
  [("comparisonResultRef", o.comparisonResultRef), ("comparisonPolicyRef", o.comparisonPolicyRef),
    ("diffRef", o.diffRef), ("normalizedDiffRef", o.normalizedDiffRef),
    ("sourceStdoutRef", o.sourceStdoutRef), ("sourceStderrRef", o.sourceStderrRef),
    ("targetStdoutRef", o.targetStdoutRef), ("targetStderrRef", o.targetStderrRef),
    ("sourceNormalizedRef", o.sourceNormalizedRef),
    ("sourceNormalizedStderrRef", o.sourceNormalizedStderrRef),
    ("targetNormalizedRef", o.targetNormalizedRef),
    ("targetNormalizedStderrRef", o.targetNormalizedStderrRef),
    ("sourceOutputRef", o.sourceOutputRef),
    ("sourceNormalizedOutputRef", o.sourceNormalizedOutputRef),
    ("javaOutputRef", o.javaOutputRef), ("javaNormalizedOutputRef", o.javaNormalizedOutputRef)]

def OracleComparison.isZero (o : OracleComparison) : Bool :=
  !o.matched &&
    [o.oracleKind, o.expectedSha256, o.actualSha256, o.classification, o.status,
      o.comparisonPolicyVersion, o.mismatchClassification, o.diffSummary, o.summary].all
        (fun text => text == []) &&
    o.expectedRef.isNone && o.actualRef.isNone && o.buildTestResultRef.isNone &&
    o.furtherRefs.all (fun field => field.2.isNone) &&
    o.sourceExitCode.isNone && o.targetExitCode.isNone

def oracleKinds : List String :=
  ["cobol-runtime", "synthetic", "true-golden-master", "user-provided", "absent"]

def maxOracleComparisonTextLength : Nat :=
  4000

def OracleComparison.validate (parseUrl : UrlParser) (path : Text) (o : OracleComparison) :
    Option FieldError :=
  firstError
    ([checkMember (o.oracleKind != [] && !isOneOf oracleKinds o.oracleKind) path "oracleKind"
        "oracleKind must be cobol-runtime|synthetic|true-golden-master|user-provided|absent",
      checkMember (o.expectedSha256 != [] && !matchesSha256 o.expectedSha256) path
        "expectedSha256" "expectedSha256 must be 64 hex chars",
      checkMember (o.actualSha256 != [] && !matchesSha256 o.actualSha256) path
        "actualSha256" "actualSha256 must be 64 hex chars",
      validateOptional (DataReference.validate parseUrl (member path "expectedRef")) o.expectedRef,
      validateOptional (DataReference.validate parseUrl (member path "actualRef")) o.actualRef,
      validateOptional (DataReference.validate parseUrl (member path "buildTestResultRef"))
        o.buildTestResultRef] ++
      (o.furtherRefs.map fun field =>
        validateOptional (DataReference.validate parseUrl (member path field.1)) field.2) ++
      [checkMember (o.status != [] && !isOneOf ["passed", "failed", "blocked"] o.status) path
        "status" "status must be passed|failed|blocked",
      checkMember (decide (maxOracleComparisonTextLength < o.diffSummary.length)) path
        "diffSummary" "diffSummary must not exceed 4000 characters",
      checkMember (decide (maxOracleComparisonTextLength < o.summary.length)) path
        "summary" "summary must not exceed 4000 characters"])

structure RuntimeVersion where
  id : Text
  ref : Option DataReference := none

def RuntimeVersion.isZero (version : RuntimeVersion) : Bool :=
  version.id == [] && version.ref.all DataReference.isZero

def RuntimeVersion.validate (parseUrl : UrlParser) (path : Text) (version : RuntimeVersion) :
    Option FieldError :=
  firstError
    [checkMember (version.id == []) path "id" "id is required",
      validateOptional (DataReference.validate parseUrl (member path "ref")) version.ref]

structure BudgetSnapshot where
  limit : Int
  used : Int
  remaining : Int

def BudgetSnapshot.isZero (b : BudgetSnapshot) : Bool :=
  b.limit == 0 && b.used == 0 && b.remaining == 0

def BudgetSnapshot.validate (path : Text) (b : BudgetSnapshot) : Option FieldError :=
  firstError
    [checkMember (decide (b.limit < 0)) path "limit" "limit must be non-negative",
      checkMember (decide (b.used < 0)) path "used" "used must be non-negative",
      checkMember (decide (b.remaining < 0)) path "remaining" "remaining must be non-negative",
      checkMember (b.remaining != max 0 (b.limit - b.used)) path "remaining"
        "remaining must equal max(0, limit - used)"]

structure BudgetSummary where
  repair : BudgetSnapshot
  assist : BudgetSnapshot
  modelInvocation : BudgetSnapshot

def BudgetSummary.isZero (b : BudgetSummary) : Bool :=
  b.repair.isZero && b.assist.isZero && b.modelInvocation.isZero

def BudgetSummary.validate (path : Text) (b : BudgetSummary) : Option FieldError :=
  firstError
    [b.repair.validate (member path "repair"), b.assist.validate (member path "assist"),
      b.modelInvocation.validate (member path "modelInvocation")]

structure AssistDecisionLineage where
  outcome : Text
  reasonCode : Text
  decidedAt : Text
  selectedAgentRole : Text := []
  rationale : Text := []
  repairBudgetSnapshot : Option BudgetSnapshot := none
  assistBudgetSnapshot : Option BudgetSnapshot := none
  modelInvocationBudgetSnapshot : Option BudgetSnapshot := none
  affectedArtifactRefs : List DataReference := []

def AssistDecisionLineage.isZero (a : AssistDecisionLineage) : Bool :=
  a.outcome == [] && a.reasonCode == [] && a.decidedAt == []

def assistRequired : Text :=
  "assist_required".toList

def assistNotRequired : Text :=
  "assist_not_required".toList

def assistAgentRoleTransformation : Text :=
  "transformation_agent".toList

def assistReasons : List String :=
  ["semantic_ir_bounded_ambiguity", "translation_unsupported_repairable",
    "baseline_open_assumptions", "deterministic_candidate_low_confidence",
    "caller_explicit_opt_in", "caller_did_not_opt_in", "assist_budget_exhausted"]

/-- A gate-time snapshot: required, and well formed. -/
def validateSnapshot (path : Text) : Option BudgetSnapshot → Option FieldError
  | none => check true path
      "gate-time budget snapshot is required on every recorded assist-decision"
  | some snapshot => snapshot.validate path

def AssistDecisionLineage.validate (parseUrl : UrlParser) (path : Text)
    (a : AssistDecisionLineage) : Option FieldError :=
  firstError
    [checkMember (a.outcome != assistRequired && a.outcome != assistNotRequired) path "outcome"
        "outcome must be assist_required|assist_not_required",
      checkMember (!isOneOf assistReasons a.reasonCode) path "reasonCode"
        "reasonCode must be one of the closed W0.3 assist-decision reason codes",
      checkMember (a.decidedAt == []) path "decidedAt" "decidedAt is required",
      checkMember (a.selectedAgentRole != [] &&
          a.selectedAgentRole != assistAgentRoleTransformation) path "selectedAgentRole"
        "selectedAgentRole must be transformation_agent when set",
      checkMember (a.outcome == assistRequired && a.selectedAgentRole == []) path
        "selectedAgentRole" "assist_required outcome requires a selectedAgentRole",
      checkMember (a.outcome == assistNotRequired && a.selectedAgentRole != []) path
        "selectedAgentRole" "assist_not_required outcome must not carry a selectedAgentRole",
      checkMember (a.reasonCode == "assist_budget_exhausted".toList &&
          a.outcome != assistNotRequired) path "outcome"
        "assist_budget_exhausted reason requires outcome=assist_not_required",
      validateSnapshot (member path "repairBudgetSnapshot") a.repairBudgetSnapshot,
      validateSnapshot (member path "assistBudgetSnapshot") a.assistBudgetSnapshot,
      validateSnapshot (member path "modelInvocationBudgetSnapshot")
        a.modelInvocationBudgetSnapshot,
      validateEach (DataReference.validate parseUrl) (member path "affectedArtifactRefs")
        a.affectedArtifactRefs,
      checkMember (containsSecretLike a.rationale) path "rationale"
        "rationale appears to contain a secret or credential and was rejected by evidence-service"]

structure ManualEditOverlayRef where
  uri : Text
  sha256 : Text
  byteSize : Int
  mimeType : Text := []
  kind : Text := []
  schemaVersion : Text := []
  regionCount : Int

def ManualEditOverlayRef.isZero (r : ManualEditOverlayRef) : Bool :=
  r.uri == [] && r.sha256 == [] && r.byteSize == 0 && r.regionCount == 0

def ManualEditOverlayRef.asDataReference (r : ManualEditOverlayRef) : DataReference :=
  ⟨r.uri, r.sha256, r.byteSize, r.mimeType, r.kind⟩

def schemaVersionV0 : Text :=
  "v0".toList

def ManualEditOverlayRef.validate (parseUrl : UrlParser) (path : Text)
    (r : ManualEditOverlayRef) : Option FieldError :=
  firstError
    [r.asDataReference.validate parseUrl path,
      checkMember (r.schemaVersion != [] && r.schemaVersion != schemaVersionV0) path
        "schemaVersion" "schemaVersion must be v0 when set",
      checkMember (decide (r.regionCount ≤ 0)) path "regionCount"
        "regionCount must be > 0 when the overlay is persisted"]

end C2c.Evidence.Artifacts

namespace C2c.Evidence

open C2c.Library.JavaText
open C2c.Evidence.FieldErrors
open C2c.Evidence.Artifacts

/-- `Artifacts`. -/
structure Artifacts where
  sourceCobol : List DataReference := []
  sourceMetadata : Option DataReference := none
  corpusMetadata : Option DataReference := none
  parseOutput : Option DataReference := none
  semanticIr : Option DataReference := none
  transformationPasses : List TransformationPass := []
  generatedJava : Option DataReference := none
  generatedJavaArtifacts : List JavaCandidateRef := []
  finalJavaArtifact : Option JavaCandidateRef := none
  repairAttempts : List RepairAttempt := []
  agentTrajectories : List AgentTrajectoryRef := []
  oracleComparison : Option OracleComparison := none
  runtimeVersion : Option RuntimeVersion := none
  modelInvocations : List ModelInvocationRef := []
  buildTestResults : List DataReference := []
  sbom : List DataReference := []
  licenseReports : List DataReference := []
  harnessEvents : Option DataReference := none
  trajectoryLedger : Option DataReference := none
  experienceEvents : List DataReference := []
  assistDecision : Option AssistDecisionLineage := none
  budgetSummary : Option BudgetSummary := none
  manualEditOverlay : Option ManualEditOverlayRef := none

namespace Artifacts

def artifactPath (name : String) : Text :=
  member "artifacts".toList name

/-- A zero assist decision or budget summary is not validated. -/
def nonZero {α : Type} (isZero : α → Bool) (value : Option α) : Option α :=
  value.filter fun a => !isZero a

/-- `validateArtifactsShape`. -/
def validateShape (parseUrl : UrlParser) (a : Artifacts) : Option FieldError :=
  let reference (name : String) (value : Option DataReference) :=
    validateOptional (DataReference.validate parseUrl (artifactPath name)) value
  let references (name : String) (values : List DataReference) :=
    validateEach (DataReference.validate parseUrl) (artifactPath name) values
  firstError
    [references "sourceCobol" a.sourceCobol,
      reference "sourceMetadata" a.sourceMetadata,
      reference "corpusMetadata" a.corpusMetadata,
      reference "parseOutput" a.parseOutput,
      reference "semanticIr" a.semanticIr,
      validateEach (TransformationPass.validate parseUrl) (artifactPath "transformationPasses")
        a.transformationPasses,
      reference "generatedJava" a.generatedJava,
      validateEach (JavaCandidateRef.validate parseUrl) (artifactPath "generatedJavaArtifacts")
        a.generatedJavaArtifacts,
      validateOptional (JavaCandidateRef.validate parseUrl (artifactPath "finalJavaArtifact"))
        a.finalJavaArtifact,
      validateEach (RepairAttempt.validate parseUrl) (artifactPath "repairAttempts")
        a.repairAttempts,
      validateEach (AgentTrajectoryRef.validate parseUrl) (artifactPath "agentTrajectories")
        a.agentTrajectories,
      validateOptional (OracleComparison.validate parseUrl (artifactPath "oracleComparison"))
        a.oracleComparison,
      validateOptional (RuntimeVersion.validate parseUrl (artifactPath "runtimeVersion"))
        a.runtimeVersion,
      validateEach (ModelInvocationRef.validate parseUrl) (artifactPath "modelInvocations")
        a.modelInvocations,
      references "buildTestResults" a.buildTestResults,
      references "sbom" a.sbom,
      references "licenseReports" a.licenseReports,
      reference "harnessEvents" a.harnessEvents,
      reference "trajectoryLedger" a.trajectoryLedger,
      references "experienceEvents" a.experienceEvents,
      validateOptional (AssistDecisionLineage.validate parseUrl (artifactPath "assistDecision"))
        (nonZero AssistDecisionLineage.isZero a.assistDecision),
      validateOptional (BudgetSummary.validate (artifactPath "budgetSummary"))
        (nonZero BudgetSummary.isZero a.budgetSummary),
      validateOptional (ManualEditOverlayRef.validate parseUrl (artifactPath "manualEditOverlay"))
        a.manualEditOverlay]

end Artifacts

end C2c.Evidence
