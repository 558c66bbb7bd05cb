import C2c.Learning.Records
import C2c.Library.GoCollections

/-!
The pattern analyzer of the experience learning service: the candidates it finds
in the events and ledgers of a run.
-/

namespace C2c.Learning.Analyzer

open C2c.Library.JavaText
open C2c.Library.Sha256
open C2c.Library.GoText
open C2c.Library.GoTime
open C2c.Library.JsonText
open C2c.Library.GoJson
open C2c.Library.GoCollections
open C2c.Harness.Events (allowedDataClasses dataClassOther profileControlledByHarness)
open C2c.Learning.Records

section Policy

structure DetectionPolicy where
  minOccurrencesRepeatAction : Int := 0
  minOccurrencesRepeatedFail : Int := 0
  minConfidence : Numeral := zeroNumeral
  minConfidenceRepeatAction : Numeral := zeroNumeral
  minConfidenceFailure : Numeral := zeroNumeral
  includeBuildTestFailures : Bool := false

structure LearningPolicy where
  schemaVersion : Text := []
  policyVersion : Text := []
  mode : Text := []
  observationOnly : Bool := false
  blockPromptChanges : Bool := false
  blockModelChanges : Bool := false
  blockGeneratorChanges : Bool := false
  blockRuntimeChanges : Bool := false
  blockPolicyChanges : Bool := false
  detection : DetectionPolicy := {}

def defaultPolicyMode : Text := "observation".toList

def numeral (t : String) (h : isNumeral t.toList = true ∧ t.toList.all isNumeralChar = true) :
    Numeral :=
  ⟨t.toList, h⟩

/-- `DefaultLearningPolicy`. -/
def defaultLearningPolicy : LearningPolicy where
  schemaVersion := experienceSchemaVersion
  policyVersion := "v0.1.0".toList
  mode := defaultPolicyMode
  observationOnly := true
  blockPromptChanges := true
  blockModelChanges := true
  blockGeneratorChanges := true
  blockRuntimeChanges := true
  blockPolicyChanges := true
  detection := {
    minOccurrencesRepeatAction := 2
    minOccurrencesRepeatedFail := 2
    minConfidence := numeral "0.80" (by decide)
    minConfidenceRepeatAction := numeral "0.85" (by decide)
    minConfidenceFailure := numeral "0.90" (by decide)
    includeBuildTestFailures := true }

def inUnit (n : Numeral) : Bool :=
  decide (0 ≤ n.value) && decide (n.value ≤ 1)

/-- The first of some checks that fails, by its text. -/
def firstError (checks : List (Bool × String)) : Option String :=
  (checks.find? fun check => !check.1).map Prod.snd

/-- `LearningPolicy.Validate`. -/
def LearningPolicy.validate (p : LearningPolicy) : Option String :=
  firstError
    [(trimSpace p.schemaVersion ≠ [], "policy schemaVersion is required"),
      (p.schemaVersion = experienceSchemaVersion, "policy schemaVersion must be v0"),
      (trimSpace p.policyVersion ≠ [], "policyVersion is required"),
      (p.mode = defaultPolicyMode, "mode must be observation"),
      (p.observationOnly, "observationOnly must be true in v0"),
      (p.blockPromptChanges && p.blockModelChanges && p.blockGeneratorChanges &&
        p.blockRuntimeChanges && p.blockPolicyChanges,
        "all runtime mutation pathways must be blocked in v0"),
      (2 ≤ p.detection.minOccurrencesRepeatAction, "minOccurrencesRepeatAction must be >= 2"),
      (2 ≤ p.detection.minOccurrencesRepeatedFail, "minOccurrencesRepeatedFailure must be >= 2"),
      (inUnit p.detection.minConfidence, "minConfidence must be within [0,1]"),
      (inUnit p.detection.minConfidenceRepeatAction,
        "minConfidenceRepeatAction must be within [0,1]"),
      (inUnit p.detection.minConfidenceFailure, "minConfidenceFailure must be within [0,1]")]

/-- `LoadLearningPolicyWithDefault`, on what the policy file is read as. -/
def loadLearningPolicyWithDefault : Option LearningPolicy → LearningPolicy
  | some policy => if policy.validate = none then policy else defaultLearningPolicy
  | none => defaultLearningPolicy

end Policy

/-- The time a process starts at: `time.Now().UTC`, taken as a function, is bound
to the time at which it is taken, and is the clock of the service. -/
structure StartTime extends Time where
  utc : offset = 0
  nonzero : toTime.isZero = false

structure PatternAnalyzer where
  policy : LearningPolicy
  now : StartTime

section Events

def failedStatuses : List Text :=
  ["output-divergence".toList, "compile-failed".toList, "run-failed".toList,
    "golden-master-reproduction-failed".toList]

def harnessStatusForAnalysis (status : Text) : Text :=
  let lower := toLower (trimSpace status)
  if lower = "starting".toList then "started".toList
  else if lower ∈ failedStatuses then "failed".toList
  else lower

def isFailed (e : EventEnvelopeV0) : Bool :=
  harnessStatusForAnalysis e.status = "failed".toList

def isCompleted (e : EventEnvelopeV0) : Bool :=
  harnessStatusForAnalysis e.status = "completed".toList

/-- The text of the first of some keys that has one. -/
def payloadText (payload : AnyMap) (keys : List String) : Text :=
  (keys.findSome? fun key =>
    match payload.entries.lookup key.toList with
    | some (.string t) => if trimSpace t = [] then none else some (toLower (trimSpace t))
    | _ => none).getD []

/-- `strings.EqualFold` with a text of ASCII letters, of which only `k` and `s`
have a fold that is not ASCII. -/
def equalFold (t ascii : Text) : Bool :=
  let fold := fun c : Char =>
    if c.toNat = 0x212a then 'k' else if c.toNat = 0x17f then 's' else c.toLower
  t.map fold == ascii.map fold

def payloadTextBool (payload : AnyMap) (key : String) : Bool :=
  match payload.entries.lookup key.toList with
  | some (.bool b) => b
  | some (.string t) =>
      equalFold (trimSpace t) "true".toList || equalFold (trimSpace t) "yes".toList
  | _ => false

def compileOutcome : Text := "compile".toList

def testOutcome : Text := "test".toList

def classifyBuildOutcome (e : EventEnvelopeV0) : Text :=
  let eventType := toLower e.eventType
  let dataClass := toLower e.dataClass
  let status := toLower (trimSpace e.status)
  let outcome := toLower (payloadText e.payload ["outcome", "phase", "stage"])
  if status = "compile-failed".toList ∨ outcome = compileOutcome ∨ contains eventType compileOutcome
  then compileOutcome
  else if status = "run-failed".toList ∨ status = "output-divergence".toList ∨
      status = "golden-master-reproduction-failed".toList ∨ outcome = testOutcome ∨
      contains eventType testOutcome ∨ dataClass = "test".toList
  then testOutcome
  else if dataClass = "build-test".toList ∨ contains eventType "build".toList then compileOutcome
  else []

def isAcceptedArtifact (e : EventEnvelopeV0) : Bool :=
  equalFold e.status "accepted".toList || payloadTextBool e.payload "accepted" ||
    contains (toLower e.stateTransition) "accept".toList ||
    contains (toLower e.eventType) "accept".toList

/-- Whether an event has an actor, a capability and the hashes of its references. -/
def isKeyed (e : EventEnvelopeV0) : Bool :=
  trimSpace e.actor ≠ [] && trimSpace e.capability ≠ [] && trimSpace e.inputRef.sha256 ≠ [] &&
    trimSpace e.outputRef.sha256 ≠ []

structure PatternKey where
  actor : Text
  capability : Text
  inputHash : Text
  outputHash : Text
  status : Text
  buildOutcome : Text
deriving DecidableEq

/-- `PatternKey.String`. -/
def PatternKey.text (k : PatternKey) : Text :=
  joinWith ['|'] [k.actor, k.capability, k.inputHash, k.outputHash, k.status, k.buildOutcome]

def PatternKey.json (k : PatternKey) : Json :=
  .object [("Actor".toList, .string k.actor), ("Capability".toList, .string k.capability),
    ("InputHash".toList, .string k.inputHash), ("OutputHash".toList, .string k.outputHash),
    ("Status".toList, .string k.status), ("BuildOutcome".toList, .string k.buildOutcome)]

def PatternKey.fingerprint (k : PatternKey) : Text :=
  sha256Hex (marshal k.json)

def patternKey (e : EventEnvelopeV0) : PatternKey where
  actor := e.actor
  capability := e.capability
  inputHash := e.inputRef.sha256
  outputHash := e.outputRef.sha256
  status := harnessStatusForAnalysis e.status
  buildOutcome := classifyBuildOutcome e

/-- `retrySequenceKey`: the key of a pattern up to the status. -/
structure RetrySequenceKey where
  actor : Text
  capability : Text
  inputHash : Text
  outputHash : Text
  buildOutcome : Text
deriving DecidableEq

def retrySequenceKey (e : EventEnvelopeV0) : RetrySequenceKey where
  actor := e.actor
  capability := e.capability
  inputHash := e.inputRef.sha256
  outputHash := e.outputRef.sha256
  buildOutcome := classifyBuildOutcome e

/-- The order in which the analysis takes events. -/
def stepsBefore (a b : EventEnvelopeV0) : Bool :=
  if a.createdAt.seconds = b.createdAt.seconds ∧ a.createdAt.nanosecond = b.createdAt.nanosecond
  then decide (a.stepId < b.stepId)
  else a.createdAt.before b.createdAt

end Events

section Candidates

variable (a : PatternAnalyzer) (runId : Text)

def serviceName : Text := "experience-learning-service".toList

def eventTypeObservation : Text := "experience.observed".toList

def policyDecisionAllow : Text := "policy allow".toList

def analysisDetected : Text := "analysis.detected".toList

def patternRepeatAction : Text := "repeat_action".toList

def patternUnchangedOutput : Text := "unchanged_output".toList

def patternRepeatedFailure : Text := "repeated_failure".toList

def patternCompileFailure : Text := "compile_failure".toList

def patternTestFailure : Text := "test_failure".toList

def patternRetry : Text := "retry".toList

def patternAbort : Text := "aborted_run".toList

def patternBudgetOverrun : Text := "budget_overrun".toList

def patternAcceptedPattern : Text := "accepted_pattern".toList

def clamp (value min max : Numeral) : Numeral :=
  if value.value < min.value then min else if max.value < value.value then max else value

/-- The confidence of a candidate, at least that of the policy. -/
def PatternAnalyzer.confidence (value : Numeral) : Numeral :=
  clamp value a.policy.detection.minConfidence (numeral "1.0" (by decide))

/-- What all candidates have in common; their ids are drawn as they are built. -/
def observation : ExperienceEventV0 where
  schemaVersion := experienceSchemaVersion
  eventType := eventTypeObservation
  service := serviceName
  runId := runId
  policyDecision := policyDecisionAllow
  status := statusObserved
  stateTransition := analysisDetected
  observationOnly := true
  policyVersion := a.policy.policyVersion
  createdAt := a.now.toTime
  observedAt := a.now.toTime

def payloadOf (pattern : Text) (reason : String) (more : List (Text × Json)) : AnyMap :=
  .ofMembers ([("evidenceRunId".toList, .string runId), ("pattern".toList, .string pattern),
    ("reason".toList, .string reason.toList)] ++ more)

def buildExperienceEvent (e : ExperienceEventV0) : ExperienceEventV0 :=
  { e with
    dataClass := if e.dataClass = [] then dataClassOther else e.dataClass
    pattern := if e.pattern = [] then patternAcceptedPattern else e.pattern }

/-- A candidate over some events of a bucket. -/
def bucketCandidate (key : PatternKey) (first : EventEnvelopeV0) (counted : List EventEnvelopeV0)
    (pattern fingerprint : Text) (confidence : Numeral) (reason : String)
    (more : List (Text × Json)) : ExperienceEventV0 :=
  buildExperienceEvent { observation a runId with
    actor := key.actor
    capability := key.capability
    dataClass := first.dataClass
    redactionProfile := first.redactionProfile
    inputHash := key.inputHash
    outputHash := key.outputHash
    pattern := pattern
    patternFingerprint := fingerprint
    buildTestOutcome := key.buildOutcome
    occurrences := Int64.ofNat counted.length
    confidence := a.confidence confidence
    firstStepId := (counted.head?.map EventEnvelopeV0.stepId).getD 0
    lastStepId := (counted.getLast?.map EventEnvelopeV0.stepId).getD 0
    relatedRecords := counted.map EventEnvelopeV0.eventId
    evidenceRefs := counted.map EventEnvelopeV0.eventId
    payload := payloadOf runId pattern reason (("key".toList, .string key.text) :: more) }

def analyzeBucket (key : PatternKey) : List EventEnvelopeV0 → List ExperienceEventV0
  | [] => []
  | first :: rest =>
      let items := first :: rest
      let detection := a.policy.detection
      let failed := items.filter isFailed
      let repeated := detection.minOccurrencesRepeatAction ≤ (items.length : Int)
      let oneOutput := (items.map fun e => e.outputRef.sha256).dedup.length = 1
      let recovered := (items.dropWhile fun e => !isFailed e).any isCompleted
      let candidate := bucketCandidate a runId key first
      (if repeated then
        [candidate items patternRepeatAction key.fingerprint detection.minConfidenceRepeatAction
          "repeated deterministic action with same actor/capability/input/output context" []]
        else []) ++
      (if repeated ∧ oneOutput then
        [candidate items patternUnchangedOutput key.fingerprint (numeral "0.88" (by decide))
          "stable output for repeated action" []]
        else []) ++
      (if detection.minOccurrencesRepeatedFail ≤ (failed.length : Int) then
        [candidate failed patternRepeatedFailure key.fingerprint detection.minConfidenceFailure
          "deterministic repeated failures in same action context"
          [("outcome".toList, .string key.buildOutcome)]]
        else []) ++
      (if detection.includeBuildTestFailures ∧ key.buildOutcome = compileOutcome ∧ failed ≠ [] then
        [candidate failed patternCompileFailure ("compile:".toList ++ key.fingerprint)
          (numeral "0.93" (by decide)) "deterministic compile failures" []]
        else []) ++
      (if detection.includeBuildTestFailures ∧ key.buildOutcome = testOutcome ∧ failed ≠ [] then
        [candidate failed patternTestFailure ("test:".toList ++ key.fingerprint)
          (numeral "0.93" (by decide)) "deterministic test failures" []]
        else []) ++
      (if recovered then
        [candidate items patternRetry ("retry:".toList ++ key.fingerprint)
          (numeral "0.89" (by decide)) "failure followed by completion in same action context" []]
        else [])

/-- The first failure of a sequence, and the first completion after it. -/
def failedAndRecovered (items : List EventEnvelopeV0) :
    Option (EventEnvelopeV0 × EventEnvelopeV0) :=
  match items.dropWhile fun e => !isFailed e with
  | [] => none
  | failed :: rest => (rest.find? isCompleted).map fun recovered => (failed, recovered)

def RetrySequenceKey.fingerprint (key : RetrySequenceKey) : Text :=
  PatternKey.fingerprint
    { actor := key.actor
      capability := key.capability
      inputHash := key.inputHash
      outputHash := key.outputHash
      status := "retry".toList
      buildOutcome := key.buildOutcome }

def retryCandidate (key : RetrySequenceKey) (failed recovered : EventEnvelopeV0) :
    ExperienceEventV0 :=
  buildExperienceEvent { observation a runId with
    actor := key.actor
    capability := key.capability
    dataClass := failed.dataClass
    redactionProfile := failed.redactionProfile
    inputHash := key.inputHash
    outputHash := key.outputHash
    pattern := patternRetry
    patternFingerprint := "retry:".toList ++ key.fingerprint
    buildTestOutcome := key.buildOutcome
    occurrences := 2
    confidence := a.confidence (numeral "0.89" (by decide))
    firstStepId := failed.stepId
    lastStepId := recovered.stepId
    relatedRecords := [failed.eventId, recovered.eventId]
    evidenceRefs := [failed.eventId, recovered.eventId]
    payload := payloadOf runId patternRetry
      "failure followed by completion in same action context" [] }

def analyzeRetrySequences (order : Iteration) (events : List EventEnvelopeV0) :
    List ExperienceEventV0 :=
  (order.visit (groups retrySequenceKey (events.filter isKeyed))).filterMap fun group =>
    (failedAndRecovered group.2).map fun pair => retryCandidate a runId group.1 pair.1 pair.2

def stepDataClass (dataClass : Text) : Text :=
  if dataClass ∈ allowedDataClasses then dataClass else dataClassOther

/-- A candidate over one step of a ledger. -/
def stepCandidate (ledger : AgentTrajectoryLedgerV0) (step : AgentTrajectoryEntry)
    (pattern tag : Text) (confidence : Numeral) (reason : String) : ExperienceEventV0 :=
  buildExperienceEvent { observation a runId with
    actor := step.actor
    capability := step.capability
    dataClass := stepDataClass step.dataClass
    redactionProfile := profileControlledByHarness
    pattern := pattern
    patternFingerprint := tag ++ ':' :: (ledger.runId ++ ':' :: step.eventId)
    occurrences := 1
    confidence := a.confidence confidence
    firstStepId := step.stepId
    lastStepId := step.stepId
    relatedRecords := [step.eventId]
    evidenceRefs := [step.eventId]
    payload := payloadOf runId pattern reason
      [("stepId".toList, int64Json step.stepId), ("stepEventId".toList, .string step.eventId)] }

def analyzeStep (ledger : AgentTrajectoryLedgerV0) (step : AgentTrajectoryEntry) :
    List ExperienceEventV0 :=
  (if toLower step.status = "aborted".toList then
    [stepCandidate a runId ledger step patternAbort "abort".toList (numeral "0.98" (by decide))
      "trajectory ledger contains aborted step"]
    else []) ++
  (if contains (toLower step.eventType) "budget".toList ∨
      contains (toLower step.stateTransition) "budget".toList ∨
      contains (toLower step.status) "budget".toList then
    [stepCandidate a runId ledger step patternBudgetOverrun "budget".toList
      (numeral "0.95" (by decide)) "budget overrun detected in trajectory state"]
    else [])

def analyzeLedger (ledger : AgentTrajectoryLedgerV0) : List ExperienceEventV0 :=
  (ledger.steps.getD []).flatMap (analyzeStep a runId ledger)

/-- The candidate of an accepted artifact. -/
def acceptedCandidate (e : EventEnvelopeV0) : ExperienceEventV0 :=
  { observation a runId with
    eventType := patternAcceptedPattern
    actor := e.actor
    capability := e.capability
    dataClass := e.dataClass
    redactionProfile := e.redactionProfile
    inputHash := e.inputRef.sha256
    outputHash := e.outputRef.sha256
    pattern := patternAcceptedPattern
    patternFingerprint := (patternKey e).fingerprint
    buildTestOutcome := classifyBuildOutcome e
    occurrences := 1
    confidence := a.confidence a.policy.detection.minConfidenceFailure
    firstStepId := e.stepId
    lastStepId := e.stepId
    relatedRecords := [e.eventId]
    evidenceRefs := [e.eventId]
    payload := payloadOf runId patternAcceptedPattern
      "accepted artifacts are marked as deterministic candidates"
      [("eventId".toList, .string e.eventId)] }

end Candidates

section Analysis

/-- The orders in which an analysis visits its maps. -/
structure Orders where
  buckets : Iteration
  retries : Iteration
  candidates : Iteration

variable (a : PatternAnalyzer) (runId : Text) (orders : Orders)

/-- The candidates over the sorted events and the ledgers of a run, in the order
in which they are built and draw their ids. -/
def drafts (events : List EventEnvelopeV0) (ledgers : List AgentTrajectoryLedgerV0) :
    List ExperienceEventV0 :=
  (orders.buckets.visit (groups patternKey (events.filter isKeyed))).flatMap
    (fun bucket => analyzeBucket a runId bucket.1 bucket.2) ++
  analyzeRetrySequences a runId orders.retries events ++
  ledgers.flatMap (analyzeLedger a runId) ++
  (events.filter isAcceptedArtifact).map (acceptedCandidate a runId)

/-- `nextEventID`, after the counter has been advanced. -/
def eventIdOf (now : StartTime) (seq : UInt64) : Text :=
  "xel-".toList ++ now.dateText ++ '-' :: natText seq.toNat

/-- The candidates with the ids they draw. -/
def withIds (now : StartTime) (seq : UInt64) : List ExperienceEventV0 → List ExperienceEventV0
  | [] => []
  | candidate :: candidates =>
      { candidate with eventId := eventIdOf now (seq + 1) } :: withIds now (seq + 1) candidates

/-- The key under which a candidate is stored once. -/
def candidateKey (c : ExperienceEventV0) : Text :=
  if c.pattern = [] then c.patternFingerprint else c.pattern ++ ':' :: c.patternFingerprint

def dedupeCandidates (candidates : List ExperienceEventV0) : List ExperienceEventV0 :=
  orders.candidates.visit (takeAllNew candidateKey [] candidates)

def applyPolicyGating (policy : LearningPolicy) (candidates : List ExperienceEventV0) :
    List ExperienceEventV0 :=
  if policy.observationOnly then candidates
  else candidates.map fun c => { c with
    status := statusIgnored
    payload := .ofMembers (c.payload.entries ++
      [("blockedByPolicy".toList, .string "policy requires observation-only mode".toList)]) }

/-- `AnalyzeRun`, over all events and ledgers: the candidates and the counter
after them. -/
def analyzeRun (sorting : SliceSort stepsBefore) (seq : UInt64) (events : List EventEnvelopeV0)
    (ledgers : List AgentTrajectoryLedgerV0) : Option (List ExperienceEventV0 × UInt64) :=
  if trimSpace runId = [] then none
  else
    let combined := drafts a runId orders
      (sorting.sort (events.filter fun e => e.runId == runId))
      (ledgers.filter fun l => l.runId == runId)
    some (applyPolicyGating a.policy (dedupeCandidates orders (withIds a.now seq combined)),
      seq + UInt64.ofNat combined.length)

end Analysis

end C2c.Learning.Analyzer
