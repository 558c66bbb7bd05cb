import C2c.Evidence.Artifacts

namespace C2c.Evidence.Validation

open C2c.Library.JavaText
open C2c.Evidence
open C2c.Evidence.Artifacts

inductive Wave
  | w0
  | w02
deriving DecidableEq

/-- The names a validation result reports; the later ones are findings of
`validateW02ReferentialIntegrity`. -/
inductive ArtifactName
  | sourceCobol
  | sourceMetadata
  | parseOutput
  | semanticIr
  | generatedJava
  | generatedJavaArtifacts
  | finalJavaArtifact
  | runtimeVersion
  | buildTestResults
  | oracleComparison
  | harnessEvents
  | modelInvocations
  | agentTrajectories
  | assistDecision
  | budgetSummary
  | manualEditOverlay
  | repairAttempts
  | modelInvocationsTransformation
  | modelInvocationsVerificationRepair
  | generatedJavaArtifactsSelected
  | finalJavaArtifactGeneratedJavaArtifacts
  | generatedJavaFinalJavaArtifact
  | budgetSummaryAssistUsedRegression
  | budgetSummaryRepairUsedRegression
  | budgetSummaryModelInvocationUsedRegression
  | assistDecisionModelInvocationsTransformation
  | repairAttemptBuildTestResultRef (index : Nat)
  | repairAttemptModelInvocationRef (index : Nat)
  | repairAttemptModelInvocationRefAgentRole (index : Nat)
  | repairAttemptNewJavaCandidateRef (index : Nat)
deriving DecidableEq

def repairAttemptText (index : Nat) (field : String) : Text :=
  FieldErrors.member (FieldErrors.item "repairAttempts".toList index) field

def ArtifactName.text : ArtifactName → Text
  | .sourceCobol => "sourceCobol".toList
  | .sourceMetadata => "sourceMetadata".toList
  | .parseOutput => "parseOutput".toList
  | .semanticIr => "semanticIr".toList
  | .generatedJava => "generatedJava".toList
  | .generatedJavaArtifacts => "generatedJavaArtifacts".toList
  | .finalJavaArtifact => "finalJavaArtifact".toList
  | .runtimeVersion => "runtimeVersion".toList
  | .buildTestResults => "buildTestResults".toList
  | .oracleComparison => "oracleComparison".toList
  | .harnessEvents => "harnessEvents".toList
  | .modelInvocations => "modelInvocations".toList
  | .agentTrajectories => "agentTrajectories".toList
  | .assistDecision => "assistDecision".toList
  | .budgetSummary => "budgetSummary".toList
  | .manualEditOverlay => "manualEditOverlay".toList
  | .repairAttempts => "repairAttempts".toList
  | .modelInvocationsTransformation => "modelInvocations.transformation".toList
  | .modelInvocationsVerificationRepair => "modelInvocations.verification-repair".toList
  | .generatedJavaArtifactsSelected => "generatedJavaArtifacts.selected".toList
  | .finalJavaArtifactGeneratedJavaArtifacts =>
      "finalJavaArtifact.generatedJavaArtifacts".toList
  | .generatedJavaFinalJavaArtifact => "generatedJava.finalJavaArtifact".toList
  | .budgetSummaryAssistUsedRegression => "budgetSummary.assist.usedRegression".toList
  | .budgetSummaryRepairUsedRegression => "budgetSummary.repair.usedRegression".toList
  | .budgetSummaryModelInvocationUsedRegression =>
      "budgetSummary.modelInvocation.usedRegression".toList
  | .assistDecisionModelInvocationsTransformation =>
      "assistDecision.modelInvocations.transformation".toList
  | .repairAttemptBuildTestResultRef index => repairAttemptText index "buildTestResultRef"
  | .repairAttemptModelInvocationRef index => repairAttemptText index "modelInvocationRef"
  | .repairAttemptModelInvocationRefAgentRole index =>
      repairAttemptText index "modelInvocationRef.agentRole"
  | .repairAttemptNewJavaCandidateRef index => repairAttemptText index "newJavaCandidateRef"

inductive CompletenessStatus
  | complete
  | evidenceIncomplete
  | blocked
deriving DecidableEq

structure ValidationResult where
  ok : Bool
  requiredArtifacts : List ArtifactName
  missingArtifacts : List ArtifactName
  messages : List Text
  completenessStatus : CompletenessStatus
deriving DecidableEq

def requiredArtifactsW0 : List ArtifactName :=
  [.sourceCobol, .semanticIr, .generatedJava, .buildTestResults, .harnessEvents, .modelInvocations]

def requiredArtifactsW02 : List ArtifactName :=
  [.sourceCobol, .sourceMetadata, .parseOutput, .semanticIr, .generatedJava,
    .generatedJavaArtifacts, .finalJavaArtifact, .runtimeVersion, .buildTestResults,
    .oracleComparison, .harnessEvents, .modelInvocations, .agentTrajectories, .assistDecision,
    .budgetSummary]

def requiredArtifacts : Wave → List ArtifactName
  | .w0 => requiredArtifactsW0
  | .w02 => requiredArtifactsW02

/-- Whether a required artifact is there: not `nil` and not zero, or a list
with an item. -/
def present (a : Artifacts) : ArtifactName → Bool
  | .sourceCobol => !a.sourceCobol.isEmpty
  | .sourceMetadata => a.sourceMetadata.any fun r => !r.isZero
  | .parseOutput => a.parseOutput.any fun r => !r.isZero
  | .semanticIr => a.semanticIr.any fun r => !r.isZero
  | .generatedJava => a.generatedJava.any fun r => !r.isZero
  | .generatedJavaArtifacts => !a.generatedJavaArtifacts.isEmpty
  | .finalJavaArtifact => a.finalJavaArtifact.any fun r => !r.isZero
  | .runtimeVersion => a.runtimeVersion.any fun r => !r.isZero
  | .buildTestResults => !a.buildTestResults.isEmpty
  | .oracleComparison => a.oracleComparison.any fun o => !o.isZero
  | .harnessEvents => a.harnessEvents.any fun r => !r.isZero
  | .modelInvocations => !a.modelInvocations.isEmpty
  | .agentTrajectories => !a.agentTrajectories.isEmpty
  | .assistDecision => a.assistDecision.any fun d => !d.isZero
  | .budgetSummary => a.budgetSummary.any fun b => !b.isZero
  | .manualEditOverlay => a.manualEditOverlay.any fun o => !o.isZero
  | _ => true

/-- The order in which `EvaluateValidationForWave` checks the required
artifacts. -/
def checkedArtifacts : Wave → List ArtifactName
  | .w0 => requiredArtifactsW0
  | .w02 =>
      [.sourceCobol, .sourceMetadata, .parseOutput, .semanticIr, .generatedJava,
        .generatedJavaArtifacts, .finalJavaArtifact, .buildTestResults, .oracleComparison,
        .runtimeVersion, .harnessEvents, .modelInvocations, .agentTrajectories, .assistDecision,
        .budgetSummary]

def hasAgentTrajectoryRole (trajectories : List AgentTrajectoryRef) (role : Text) : Bool :=
  trajectories.any fun trajectory => trajectory.agentRole == role

def hasInvocationRole (invocations : List ModelInvocationRef) (role : Text) : Bool :=
  invocations.any fun invocation => invocation.agentRole == role

def sameJavaCandidate (left right : JavaCandidateRef) : Bool :=
  left.uri == right.uri && left.sha256 == right.sha256

/-- `dataReferenceKey` and `javaCandidateKey`. -/
def referenceKey (uri sha256 : Text) : Text :=
  uri ++ '\x00' :: sha256

def modelInvocationKey (ref : ModelInvocationRef) : Text :=
  ref.invocationId ++ '\x00' :: referenceKey ref.ledgerRef.uri ref.ledgerRef.sha256

/-- The name, unless its condition fails. -/
def missingWhen (missing : Bool) (name : ArtifactName) : List ArtifactName :=
  if missing then [name] else []

/-- The findings about the final candidate and the selected ones. -/
def candidateFindings (a : Artifacts) : List ArtifactName :=
  match a.finalJavaArtifact with
  | some final =>
      if final.isZero || a.generatedJavaArtifacts.isEmpty then []
      else
        let matching := a.generatedJavaArtifacts.filter fun c => sameJavaCandidate c final
        let strayed := a.generatedJavaArtifacts.filter fun c =>
          !sameJavaCandidate c final && c.selected
        let selected := matching.filter fun c => c.selected
        strayed.map (fun _ => .generatedJavaArtifactsSelected) ++
          missingWhen (matching.length != 1) .finalJavaArtifactGeneratedJavaArtifacts ++
          missingWhen (matching.length == 1 && selected.length != 1)
            .generatedJavaArtifactsSelected
  | none => []

def generatedJavaFindings (a : Artifacts) : List ArtifactName :=
  match a.generatedJava, a.finalJavaArtifact with
  | some generated, some final =>
      missingWhen (!generated.isZero && !final.isZero &&
        (generated.uri != final.uri || generated.sha256 != final.sha256))
        .generatedJavaFinalJavaArtifact
  | _, _ => []

/-- Whether a budget's use fell below the snapshot taken at the gate. -/
def usedRegression (now : BudgetSnapshot) (snapshot : Option BudgetSnapshot) : Bool :=
  snapshot.any fun atGate => decide (now.used < atGate.used)

def budgetFindings (a : Artifacts) : List ArtifactName :=
  match a.assistDecision, a.budgetSummary with
  | some decision, some summary =>
      if decision.isZero || summary.isZero then []
      else
        missingWhen (usedRegression summary.assist decision.assistBudgetSnapshot)
            .budgetSummaryAssistUsedRegression ++
          missingWhen (usedRegression summary.repair decision.repairBudgetSnapshot)
            .budgetSummaryRepairUsedRegression ++
          missingWhen
            (usedRegression summary.modelInvocation decision.modelInvocationBudgetSnapshot)
            .budgetSummaryModelInvocationUsedRegression
  | _, _ => []

def assistFindings (a : Artifacts) : List ArtifactName :=
  missingWhen
    ((a.assistDecision.any fun decision => decision.outcome == assistRequired &&
      decision.selectedAgentRole == assistAgentRoleTransformation) &&
        !hasInvocationRole a.modelInvocations transformationRole)
    .assistDecisionModelInvocationsTransformation

/-- The findings about one repair attempt. -/
def attemptFindings (a : Artifacts) (attempt : RepairAttempt) (index : Nat) : List ArtifactName :=
  let invocationKeys := (a.modelInvocations.filter fun invocation =>
    invocation.invocationId != [] && !invocation.ledgerRef.isZero).map modelInvocationKey
  let buildTestKeys := a.buildTestResults.map fun ref => referenceKey ref.uri ref.sha256
  let candidateKeys := a.generatedJavaArtifacts.map fun c => referenceKey c.uri c.sha256
  missingWhen (!buildTestKeys.contains
      (referenceKey attempt.buildTestResultRef.uri attempt.buildTestResultRef.sha256))
    (.repairAttemptBuildTestResultRef index) ++
  (match attempt.modelInvocationRef with
    | none => [.repairAttemptModelInvocationRef index]
    | some ref =>
        if ref.agentRole != verificationRepairRole then
          [.repairAttemptModelInvocationRefAgentRole index]
        else
          missingWhen (!invocationKeys.contains (modelInvocationKey ref))
            (.repairAttemptModelInvocationRef index)) ++
  missingWhen (attempt.newJavaCandidateRef.any fun c =>
      !candidateKeys.contains (referenceKey c.uri c.sha256))
    (.repairAttemptNewJavaCandidateRef index)

/-- `validateW02ReferentialIntegrity`. -/
def validateW02ReferentialIntegrity (a : Artifacts) : List ArtifactName :=
  let trajectoryOf := hasAgentTrajectoryRole a.agentTrajectories
  let invocationOf := hasInvocationRole a.modelInvocations
  missingWhen (trajectoryOf verificationRepairRole && a.repairAttempts.isEmpty) .repairAttempts ++
  missingWhen (trajectoryOf transformationRole && !invocationOf transformationRole)
    .modelInvocationsTransformation ++
  missingWhen (trajectoryOf verificationRepairRole && !invocationOf verificationRepairRole)
    .modelInvocationsVerificationRepair ++
  candidateFindings a ++ generatedJavaFindings a ++ budgetFindings a ++ assistFindings a ++
  a.repairAttempts.zipIdx.flatMap fun entry => attemptFindings a entry.1 entry.2

/-- What `EvaluateValidationForWave` finds missing. -/
def missingArtifacts (a : Artifacts) (wave : Wave) : List ArtifactName :=
  (checkedArtifacts wave).filter (fun name => !present a name) ++
    match wave with
    | .w0 => []
    | .w02 => validateW02ReferentialIntegrity a

/-- The `%v` form of a list of names. -/
def namesText (names : List ArtifactName) : Text :=
  '[' :: joinWith [' '] (names.map ArtifactName.text) ++ [']']

def waveLabel : Wave → Text
  | .w0 => "W0".toList
  | .w02 => "W0.2".toList

def evaluateValidationForWave (a : Artifacts) (wave : Wave) : ValidationResult :=
  let missing := missingArtifacts a wave
  { ok := missing.isEmpty
    requiredArtifacts := requiredArtifacts wave
    missingArtifacts := missing
    messages := if missing.isEmpty then []
      else ["missing required ".toList ++ waveLabel wave ++ " artifacts: ".toList ++
        namesText missing]
    completenessStatus := if missing.isEmpty then .complete else .evidenceIncomplete }

/-- `runReachedAssistGate`. -/
def runReachedAssistGate (a : Artifacts) : Bool :=
  hasAgentTrajectoryRole a.agentTrajectories transformationRole ||
    hasAgentTrajectoryRole a.agentTrajectories verificationRepairRole ||
    !a.repairAttempts.isEmpty ||
    hasInvocationRole a.modelInvocations transformationRole ||
    hasInvocationRole a.modelInvocations verificationRepairRole

def blockedW02PreGateRelaxedRequirements : List ArtifactName :=
  [.generatedJava, .generatedJavaArtifacts, .finalJavaArtifact, .buildTestResults,
    .oracleComparison]

/-- Whether `relaxBlockedW02Validation` drops a missing name. -/
def isRelaxed (a : Artifacts) (name : ArtifactName) : Bool :=
  blockedW02PreGateRelaxedRequirements.contains name ||
    (name == .assistDecision && !runReachedAssistGate a)

def relaxBlockedW02Validation (v : ValidationResult) (a : Artifacts) : ValidationResult :=
  let filtered := v.missingArtifacts.filter fun name => !isRelaxed a name
  if filtered.isEmpty then
    { v with
      missingArtifacts := filtered
      ok := true
      messages := []
      completenessStatus := .complete }
  else { v with missingArtifacts := filtered, ok := false }

theorem mem_missingWhen {missing : Bool} {name other : ArtifactName} :
    other ∈ missingWhen missing name ↔ missing = true ∧ other = name := by
  cases missing <;> simp [missingWhen]

theorem evaluateValidationForWave_ok_iff (a : Artifacts) (wave : Wave) :
    (evaluateValidationForWave a wave).ok = true ↔
      (∀ name ∈ checkedArtifacts wave, present a name = true) ∧
        (wave = .w02 → validateW02ReferentialIntegrity a = []) := by
  cases wave <;> simp [evaluateValidationForWave, missingArtifacts]

theorem mem_checkedArtifacts_iff (wave : Wave) (name : ArtifactName) :
    name ∈ checkedArtifacts wave ↔ name ∈ requiredArtifacts wave := by
  cases wave with
  | w0 => exact Iff.rfl
  | w02 =>
      simp only [checkedArtifacts, requiredArtifacts, requiredArtifactsW02, List.mem_cons,
        List.not_mem_nil, or_false]
      constructor
      · rintro (h | h | h | h | h | h | h | h | h | h | h | h | h | h | h) <;> simp [h]
      · rintro (h | h | h | h | h | h | h | h | h | h | h | h | h | h | h) <;> simp [h]

end C2c.Evidence.Validation
