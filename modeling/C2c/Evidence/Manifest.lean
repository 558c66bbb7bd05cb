import C2c.Evidence.Validation

namespace C2c.Evidence.Manifest

open C2c.Library.JavaText
open C2c.Evidence
open C2c.Evidence.FieldErrors
open C2c.Evidence.Artifacts
open C2c.Evidence.Validation

inductive Status
  | complete
  | incomplete
deriving DecidableEq

inductive Classification
  | success
  | evidenceIncomplete
  | blocked
deriving DecidableEq

structure OpenAssumption where
  id : Text
  description : Text
  owner : Text := []

structure UnsupportedFeature where
  feature : Text
  context : Text := []
  sourceRef : Option DataReference := none

/-- A `time.Time`, in nanoseconds from its zero value. -/
abbrev Time := Int

structure ExportRecord where
  format : Text
  uri : Text
  sha256 : Text := []
  byteSize : Int := 0
  createdAt : Time

/-- `EvidencePackManifest`.  The schema version, the capability and the service
are the constants `Create` writes. -/
structure EvidencePackManifest where
  packId : Text
  runId : Text
  workflowId : Text
  wave : Wave
  status : Status
  completenessStatus : CompletenessStatus
  classification : Classification
  summary : Text
  manualEditsCarriedOver : Bool
  manualDriftRegionCount : Int
  createdAt : Time
  createdBy : Text
  artifacts : Artifacts
  openAssumptions : List OpenAssumption
  unsupportedFeatures : List UnsupportedFeature
  validation : ValidationResult
  exports : List ExportRecord := []

def isPackIdCharacter (c : Char) : Bool :=
  c.isAlphanum || c == '.' || c == '_' || c == '-'

/-- `packIDPattern`: `epk-` and at least one character of the class. -/
def matchesPackId (t : Text) : Bool :=
  startsWith t "epk-".toList && !(t.drop 4).isEmpty && (t.drop 4).all isPackIdCharacter

/-- `validateManualEditConsistency`. -/
def validateManualEditConsistency (carriedOver : Bool) (driftRegionCount : Int)
    (overlay : Option ManualEditOverlayRef) : Option FieldError :=
  let overlayPresent := overlay.any fun o => !o.isZero
  firstError
    [check (decide (driftRegionCount < 0)) "manualDriftRegionCount".toList
        "manualDriftRegionCount must be non-negative",
      check (carriedOver && driftRegionCount == 0) "manualDriftRegionCount".toList
        "manualEditsCarriedOver=true requires manualDriftRegionCount > 0",
      check (!carriedOver && decide (0 < driftRegionCount)) "manualDriftRegionCount".toList
        "manualDriftRegionCount > 0 requires manualEditsCarriedOver=true",
      check (carriedOver && !overlayPresent) (artifactPath "manualEditOverlay")
        "manualEditsCarriedOver=true requires artifacts.manualEditOverlay",
      check (!carriedOver && overlay.isSome) (artifactPath "manualEditOverlay")
        "manualEditsCarriedOver=false forbids artifacts.manualEditOverlay",
      checkMember (overlay.any fun o => !o.isZero && o.regionCount != driftRegionCount)
        (artifactPath "manualEditOverlay") "regionCount"
        "manualEditOverlay.regionCount must equal manualDriftRegionCount"]

/-- `EvidencePackManifest.Validate`.  The checks that a field holds one of its
constants are left to the types. -/
def validate (parseUrl : UrlParser) (m : EvidencePackManifest) : Option FieldError :=
  firstError
    [check (!matchesPackId m.packId) "packId".toList "packId must match epk-[A-Za-z0-9._-]+",
      check (m.runId == []) "runId".toList "runId is required",
      check (m.validation.completenessStatus != m.completenessStatus)
        "validation.completenessStatus".toList "must match top-level completenessStatus",
      check (m.classification == .success && m.completenessStatus != .complete)
        "classification".toList "success requires completenessStatus=complete",
      check (m.completenessStatus == .blocked && m.classification != .blocked)
        "classification".toList "blocked completenessStatus requires classification=blocked",
      check (m.createdAt == 0) "createdAt".toList "createdAt is required",
      validateManualEditConsistency m.manualEditsCarriedOver m.manualDriftRegionCount
        m.artifacts.manualEditOverlay,
      m.artifacts.validateShape parseUrl]

/-- `EvaluateValidationForManifest`. -/
def evaluateValidationForManifest (m : EvidencePackManifest) : ValidationResult :=
  let result := evaluateValidationForWave m.artifacts m.wave
  if m.manualEditsCarriedOver then
    let result := { result with
      requiredArtifacts := result.requiredArtifacts ++ [.manualEditOverlay] }
    if present m.artifacts .manualEditOverlay then result
    else
      { result with
        missingArtifacts := result.missingArtifacts ++ [.manualEditOverlay]
        ok := false
        completenessStatus := .evidenceIncomplete
        messages := result.messages ++
          ["manualEditsCarriedOver=true requires the manualEditOverlay artifact".toList] }
  else result

def deriveStatus (v : ValidationResult) : Status :=
  if v.ok then .complete else .incomplete

def deriveCompletenessStatus (v : ValidationResult) (blocked : Bool) : CompletenessStatus :=
  if blocked then .blocked else if v.ok then .complete else .evidenceIncomplete

def deriveClassification (v : ValidationResult) (blocked : Bool) : Classification :=
  if blocked then .blocked else if v.ok then .success else .evidenceIncomplete

/-- `validateBlockedW02Artifacts`. -/
def validateBlockedW02Artifacts (a : Artifacts) : Option FieldError :=
  firstError
    [check (a.generatedJava.any fun r => !r.isZero) (artifactPath "generatedJava")
        "blocked W0.2 packs must not declare generatedJava",
      check (a.finalJavaArtifact.any fun c => !c.isZero) (artifactPath "finalJavaArtifact")
        "blocked W0.2 packs must not declare finalJavaArtifact",
      validateEach (fun path (c : JavaCandidateRef) => checkMember c.selected path "selected"
        "blocked W0.2 packs must not mark a Java candidate as selected")
        (artifactPath "generatedJavaArtifacts") a.generatedJavaArtifacts]

/-- The validation `Create` and `Update` record: relaxed for a blocked W0.2
pack. -/
def recordedValidation (m : EvidencePackManifest) (blocked : Bool) : ValidationResult :=
  let result := evaluateValidationForManifest m
  if blocked && m.wave == .w02 then relaxBlockedW02Validation result m.artifacts else result

/-- The fields `Create` and `Update` derive. -/
def derive (m : EvidencePackManifest) (blocked : Bool) : EvidencePackManifest :=
  let result := recordedValidation m blocked
  { m with
    status := deriveStatus result
    completenessStatus := deriveCompletenessStatus result blocked
    classification := deriveClassification result blocked
    validation := { result with
      completenessStatus := deriveCompletenessStatus result blocked } }

/-- The checks `Create` and `Update` end with. -/
def rejection (parseUrl : UrlParser) (m : EvidencePackManifest) (blocked : Bool) :
    Option FieldError :=
  firstError
    [if blocked && m.wave == .w02 then validateBlockedW02Artifacts m.artifacts else none,
      validate parseUrl m]

end C2c.Evidence.Manifest
