import C2c.Evidence.Manifest
import C2c.Library.Machine
import Mathlib.Logic.Function.Basic

namespace C2c.Evidence.Store

open C2c.Library.JavaText
open C2c.Library.Machine
open C2c.Evidence
open C2c.Evidence.FieldErrors
open C2c.Evidence.Artifacts
open C2c.Evidence.Validation
open C2c.Evidence.Manifest

structure CreateInput where
  runId : Text
  workflowId : Text := []
  wave : Text := []
  blocked : Bool := false
  summary : Text := []
  createdBy : Text := []
  artifacts : Artifacts := {}
  openAssumptions : List OpenAssumption := []
  unsupportedFeatures : List UnsupportedFeature := []
  manualEditsCarriedOver : Bool := false
  manualDriftRegionCount : Int := 0

structure PatchInput where
  summary : Option Text := none
  blocked : Option Bool := none
  artifacts : Option Artifacts := none
  openAssumptions : List OpenAssumption := []
  unsupportedFeatures : List UnsupportedFeature := []
  manualEditsCarriedOver : Option Bool := none
  manualDriftRegionCount : Option Int := none

/-- The error of `Update` and `RecordExport`. -/
inductive StoreError
  | field (error : FieldError)
  | notFound (packId : Text)
deriving DecidableEq

/-- `PackStore`, the sequence number being a `uint64`. -/
structure PackStore where
  packs : Text → Option EvidencePackManifest
  seq : UInt64

def newPackStore : PackStore where
  packs _ := none
  seq := 0

def PackStore.put (s : PackStore) (packId : Text) (m : EvidencePackManifest) : PackStore :=
  { s with packs := Function.update s.packs packId (some m) }

/-- `fmt.Sprintf("%04d", id)`. -/
def sequenceText (id : UInt64) : Text :=
  let digits := natText id.toNat
  List.replicate (4 - digits.length) '0' ++ digits

def packIdOf (runId : Text) (id : UInt64) : Text :=
  "epk-".toList ++ runId ++ '-' :: sequenceText id

def readWave (t : Text) : Option Wave :=
  if t = [] ∨ t = "w0".toList then some .w0
  else if t = "w0.2".toList then some .w02
  else none

/-- The manifest `Create` builds before it derives the rest. -/
def newManifest (input : CreateInput) (wave : Wave) (id : UInt64) (now : Time) :
    EvidencePackManifest where
  packId := packIdOf input.runId id
  runId := input.runId
  workflowId := input.workflowId
  wave := wave
  status := .incomplete
  completenessStatus := .evidenceIncomplete
  classification := .evidenceIncomplete
  summary := input.summary
  manualEditsCarriedOver := input.manualEditsCarriedOver
  manualDriftRegionCount := input.manualDriftRegionCount
  createdAt := now
  createdBy := input.createdBy
  artifacts := input.artifacts
  openAssumptions := input.openAssumptions
  unsupportedFeatures := input.unsupportedFeatures
  validation := ⟨false, [], [], [], .evidenceIncomplete⟩

/-- `PackStore.Create` at a time the clock shows. -/
def create (parseUrl : UrlParser) (s : PackStore) (now : Time) (input : CreateInput) :
    PackStore × Except StoreError EvidencePackManifest :=
  if input.runId = [] then
    (s, .error (.field ⟨"runId".toList, "runId is required".toList⟩))
  else
    match readWave input.wave with
    | none => (s, .error (.field ⟨"wave".toList, "wave must be w0 or w0.2".toList⟩))
    | some wave =>
        let s := { s with seq := s.seq + 1 }
        let m := derive (newManifest input wave s.seq now) input.blocked
        match rejection parseUrl m input.blocked with
        | some error => (s, .error (.field error))
        | none => (s.put m.packId m, .ok m)

/-- `mergeArtifacts`: lists grow, other fields are replaced when given. -/
def mergeArtifacts (dst src : Artifacts) : Artifacts where
  sourceCobol := dst.sourceCobol ++ src.sourceCobol
  sourceMetadata := src.sourceMetadata <|> dst.sourceMetadata
  corpusMetadata := src.corpusMetadata <|> dst.corpusMetadata
  parseOutput := src.parseOutput <|> dst.parseOutput
  semanticIr := src.semanticIr <|> dst.semanticIr
  transformationPasses := dst.transformationPasses ++ src.transformationPasses
  generatedJava := src.generatedJava <|> dst.generatedJava
  generatedJavaArtifacts := dst.generatedJavaArtifacts ++ src.generatedJavaArtifacts
  finalJavaArtifact := src.finalJavaArtifact <|> dst.finalJavaArtifact
  repairAttempts := dst.repairAttempts ++ src.repairAttempts
  agentTrajectories := dst.agentTrajectories ++ src.agentTrajectories
  oracleComparison := src.oracleComparison <|> dst.oracleComparison
  runtimeVersion := src.runtimeVersion <|> dst.runtimeVersion
  modelInvocations := dst.modelInvocations ++ src.modelInvocations
  buildTestResults := dst.buildTestResults ++ src.buildTestResults
  sbom := dst.sbom ++ src.sbom
  licenseReports := dst.licenseReports ++ src.licenseReports
  harnessEvents := src.harnessEvents <|> dst.harnessEvents
  trajectoryLedger := src.trajectoryLedger <|> dst.trajectoryLedger
  experienceEvents := dst.experienceEvents ++ src.experienceEvents
  assistDecision := src.assistDecision <|> dst.assistDecision
  budgetSummary := src.budgetSummary <|> dst.budgetSummary
  manualEditOverlay := src.manualEditOverlay <|> dst.manualEditOverlay

/-- `normalizeBlockedW02Artifacts`. -/
def normalizeBlockedW02Artifacts (a : Artifacts) : Artifacts :=
  { a with
    generatedJava := none
    finalJavaArtifact := none
    generatedJavaArtifacts := a.generatedJavaArtifacts.map fun c => { c with selected := false } }

/-- A flag flipped back to false takes the overlay and the count with it. -/
def patchManualEdits (m : EvidencePackManifest) : Option Bool → EvidencePackManifest
  | none => m
  | some true => { m with manualEditsCarriedOver := true }
  | some false =>
      { m with
        manualEditsCarriedOver := false
        manualDriftRegionCount := 0
        artifacts := { m.artifacts with manualEditOverlay := none } }

/-- Whether a patched pack is blocked: the hint, or else the classification so
far. -/
def blockedAfter (current : EvidencePackManifest) (patch : PatchInput) : Bool :=
  patch.blocked.getD (current.classification == .blocked)

/-- The manifest `Update` builds before it derives the rest. -/
def patched (current : EvidencePackManifest) (patch : PatchInput) : EvidencePackManifest :=
  let m := { current with
    summary := patch.summary.getD current.summary
    artifacts := match patch.artifacts with
      | some artifacts => mergeArtifacts current.artifacts artifacts
      | none => current.artifacts
    openAssumptions := current.openAssumptions ++ patch.openAssumptions
    unsupportedFeatures := current.unsupportedFeatures ++ patch.unsupportedFeatures }
  let m := patchManualEdits m patch.manualEditsCarriedOver
  let m := { m with
    manualDriftRegionCount := patch.manualDriftRegionCount.getD m.manualDriftRegionCount }
  if patch.blocked = some true ∧ m.wave = .w02 then
    { m with artifacts := normalizeBlockedW02Artifacts m.artifacts }
  else m

/-- `PackStore.Update`. -/
def update (parseUrl : UrlParser) (s : PackStore) (packId : Text) (patch : PatchInput) :
    PackStore × Except StoreError EvidencePackManifest :=
  match s.packs packId with
  | none => (s, .error (.notFound packId))
  | some current =>
      let blocked := blockedAfter current patch
      let m := derive (patched current patch) blocked
      match rejection parseUrl m blocked with
      | some error => (s, .error (.field error))
      | none => (s.put packId m, .ok m)

/-- `PackStore.RecordExport`. -/
def recordExport (s : PackStore) (packId : Text) (record : ExportRecord) :
    PackStore × Except StoreError EvidencePackManifest :=
  match s.packs packId with
  | none => (s, .error (.notFound packId))
  | some m =>
      let m := { m with exports := m.exports ++ [record] }
      (s.put packId m, .ok m)

inductive Call
  | create (now : Time) (input : CreateInput)
  | update (packId : Text) (patch : PatchInput)
  | recordExport (packId : Text) (record : ExportRecord)

def Call.isCreate : Call → Bool
  | .create _ _ => true
  | _ => false

def perform (parseUrl : UrlParser) (s : PackStore) :
    Call → PackStore × Except StoreError EvidencePackManifest
  | .create now input => create parseUrl s now input
  | .update packId patch => update parseUrl s packId patch
  | .recordExport packId record => recordExport s packId record

/-- What a call, accepted or rejected, makes of the store. -/
def step (parseUrl : UrlParser) (s : PackStore) (call : Call) : PackStore :=
  (perform parseUrl s call).1

/-- A store some sequence of calls leads to. -/
def Reachable (parseUrl : UrlParser) (s : PackStore) : Prop :=
  ∃ calls, s = run (step parseUrl) newPackStore calls

/-- The result of the validate handler for a stored pack. -/
def validateHandler (m : EvidencePackManifest) : ValidationResult :=
  let result := evaluateValidationForManifest m
  { result with completenessStatus :=
      deriveCompletenessStatus result (m.classification == .blocked) }

end C2c.Evidence.Store
