import C2c.TrustCases.Documents

namespace C2c.TrustCases.OrchestratorCatalog

open C2c.Library.JavaText
open C2c.Library.JsonText
open C2c.Library.GoJson hiding member
open C2c.Library.PythonText
open C2c.TrustCases.Documents

structure TrustCaseCatalogEntry where
  trustCaseId : Text
  version : Text
  programId : Text
  title : Text
  description : Text
  defaultForProgram : Bool
  sourceReferenceFixtureId : Text
  sourceReferenceMode : Text
  controlledInputStdin : Option Text
  controlledInputDatasetIds : List Text
  controlledInputExpectedOutputFixtureId : Text
  runtimeProgramArgs : List Text
  environmentProfileId : Text
  environmentProfileDescription : Text
  environmentProfileVariables : List (Text × Text)
  comparisonStrategyId : Text
  comparisonPolicyVersion : Text
  supportedProgramShape : Json
  evidenceArtifactName : Text

/-- `_TRUST_CASE_ID_PATTERN`. -/
def isTrustCaseId : Text → Bool :=
  capitalThen 1 63 fun c => isUpperOrDigit c || c == '-'

/-- `_PROGRAM_ID_PATTERN`. -/
def isProgramId : Text → Bool :=
  capitalThen 0 63 fun c => isUpperOrDigit c || c == '-'

/-- `_PROGRAM_ARG_PATTERN`. -/
def isProgramArg (t : Text) : Bool :=
  t.all fun c => isAlphanumeric c || "._:=@/+,-".toList.contains c

/-- `_DATASET_ID_PATTERN`. -/
def isDatasetId : Text → Bool :=
  capitalThen 1 63 fun c => isUpperOrDigit c || c == '_' || c == '-'

/-- `_ENV_KEY_PATTERN`. -/
def isEnvKey : Text → Bool :=
  capitalThen 0 63 fun c => isUpperOrDigit c || c == '_'

/-- `_ENV_VALUE_PATTERN`. -/
def isEnvValue : Text → Bool :=
  spans 0 256 fun c => isAlphanumeric c || "._:/=+-".toList.contains c

/-- The pattern `[0-9]{4}-[0-9]{2}-[0-9]{2}`. -/
def isDate : Text → Bool
  | [a, b, c, d, '-', e, f, '-', g, h] => [a, b, c, d, e, f, g, h].all isDigitAscii
  | _ => false

def environmentProfileIds : List String :=
  ["generated-java-sandbox-v1", "reference-fixture-v1", "native-cobol-controlled-v1"]

def sourceReferenceModes : List String :=
  ["reference-fixture", "native-cobol"]

def isOneOf (known : List String) (t : Text) : Bool :=
  known.any fun word => word.toList == t

/-- `_required_string`; a missing member is `None`. -/
def requiredString : Option Json → Option Text
  | some (.string t) => if (strip t).isEmpty then none else some (strip t)
  | _ => none

def requiredMatching (pattern : Text → Bool) (value : Option Json) : Option Text :=
  (requiredString value).filter pattern

def requiredBool : Option Json → Option Bool
  | some (.bool b) => some b
  | _ => none

/-- `_required_mapping`. -/
def requiredMapping : Option Json → Option Json
  | some (.object members) => some (.object members)
  | _ => none

/-- The pattern `^[A-Za-z]:[\\/]`. -/
def startsWithDrive : Text → Bool
  | c :: ':' :: d :: _ => isAlphanumeric c && !isDigitAscii c && (d == '\\' || d == '/')
  | _ => false

def validateProgramArgs (value : Option Json) : Option (List Text) := do
  let rawArgs ← elements value
  guard (rawArgs.length ≤ 8)
  texts (fun entry => entry.length ≤ 80 && !startsWith entry ['/'] &&
    !contains entry "..".toList && !startsWithDrive entry && isProgramArg entry) rawArgs

/-- `stdin` must be there, as a text or as `null`. -/
def requiredStdin : Option Json → Option (Option Text)
  | some .null => some none
  | some (.string t) => if 8192 < t.length then none else some (some t)
  | _ => none

def requiredVariables : Option Json → Option (List (Text × Text))
  | some (.object members) => textMembers isEnvKey isEnvValue members
  | _ => none

/-- `TrustCaseCatalogEntry.from_payload`. -/
def fromPayload (payload : Json) : Option TrustCaseCatalogEntry := do
  let trustCaseId ← requiredMatching isTrustCaseId (member payload "trustCaseId")
  let version ← requiredMatching isDate (member payload "version")
  let programId ← requiredMatching isProgramId (member payload "programId")
  let title ← requiredString (member payload "title")
  let description ← requiredString (member payload "description")
  let defaultForProgram ← requiredBool (member payload "defaultForProgram")
  let sourceReference ← requiredMapping (member payload "sourceReference")
  let sourceReferenceFixtureId ← requiredMatching isTrustCaseId (member sourceReference "fixtureId")
  let sourceReferenceMode ← requiredMatching (isOneOf sourceReferenceModes)
    (member sourceReference "mode")
  let controlledInput ← requiredMapping (member payload "controlledInput")
  let controlledInputStdin ← requiredStdin (member controlledInput "stdin")
  let datasetIds ← elements (member controlledInput "dataSetIds")
  guard (datasetIds.length ≤ 16)
  let controlledInputDatasetIds ← texts isDatasetId datasetIds
  guard controlledInputDatasetIds.Nodup
  let controlledInputExpectedOutputFixtureId ← requiredMatching isTrustCaseId
    (member controlledInput "expectedOutputFixtureId")
  let runtime ← requiredMapping (member payload "runtime")
  let runtimeProgramArgs ← validateProgramArgs (member runtime "programArgs")
  let environmentProfile ← requiredMapping (member payload "environmentProfile")
  let environmentProfileId ← requiredMatching (isOneOf environmentProfileIds)
    (member environmentProfile "profileId")
  let environmentProfileDescription ← requiredString (member environmentProfile "description")
  let environmentProfileVariables ← requiredVariables (member environmentProfile "variables")
  let comparison ← requiredMapping (member payload "comparison")
  let comparisonStrategyId ← requiredMatching (isOneOf ["deterministic-output"])
    (member comparison "strategy")
  let comparisonPolicyVersion ← requiredMatching (isOneOf ["deterministic-output-v1"])
    (member comparison "policyVersion")
  let supportedProgramShape ← requiredMapping (member payload "supportedProgramShape")
  let evidenceIdentity ← requiredMapping (member payload "evidenceIdentity")
  let _ ← requiredMatching (isOneOf ["trust-case"]) (member evidenceIdentity "kind")
  let evidenceArtifactName ← requiredMatching (isOneOf ["executed-trust-case.json"])
    (member evidenceIdentity "artifactName")
  return {
    trustCaseId, version, programId, title, description, defaultForProgram,
    sourceReferenceFixtureId, sourceReferenceMode, controlledInputStdin,
    controlledInputDatasetIds, controlledInputExpectedOutputFixtureId, runtimeProgramArgs,
    environmentProfileId, environmentProfileDescription, environmentProfileVariables,
    comparisonStrategyId, comparisonPolicyVersion, supportedProgramShape, evidenceArtifactName }

/-- `_canonical_json_bytes`, before the text is encoded. -/
def canonicalJson (payload : Json) : Text :=
  write (spellings []) (toAny payload)

/-- The identity of `to_identity_payload`, before its digest is added. -/
def identity (entry : TrustCaseCatalogEntry) (catalogVersion catalogHash : Text) : Json :=
  .object [
    ("trustCaseId".toList, .string entry.trustCaseId),
    ("version".toList, .string entry.version),
    ("programId".toList, .string entry.programId),
    ("catalogVersion".toList, .string catalogVersion),
    ("catalogHash".toList, .string catalogHash),
    ("sourceReferenceFixtureId".toList, .string entry.sourceReferenceFixtureId),
    ("sourceReferenceMode".toList, .string entry.sourceReferenceMode),
    ("sourceReference".toList, .object [
      ("fixtureId".toList, .string entry.sourceReferenceFixtureId),
      ("mode".toList, .string entry.sourceReferenceMode)]),
    ("controlledInput".toList, .object [
      ("stdin".toList, textOrNull entry.controlledInputStdin),
      ("dataSetIds".toList, textItems entry.controlledInputDatasetIds),
      ("expectedOutputFixtureId".toList, .string entry.controlledInputExpectedOutputFixtureId)]),
    ("runtimeProgramArgs".toList, textItems entry.runtimeProgramArgs),
    ("runtime".toList, .object [("programArgs".toList, textItems entry.runtimeProgramArgs)]),
    ("environmentProfileId".toList, .string entry.environmentProfileId),
    ("environmentProfile".toList, .object [
      ("profileId".toList, .string entry.environmentProfileId),
      ("description".toList, .string entry.environmentProfileDescription),
      ("variables".toList, textEntries entry.environmentProfileVariables)]),
    ("comparisonStrategy".toList, .string entry.comparisonStrategyId),
    ("comparisonPolicyVersion".toList, .string entry.comparisonPolicyVersion),
    ("supportedProgramShape".toList, entry.supportedProgramShape),
    ("evidenceArtifactName".toList, .string entry.evidenceArtifactName)]

variable (sha : ByteArray → Text)

/-- `_catalog_hash`. -/
def catalogHashOf (payload : Json) : Text :=
  sha (String.ofList (canonicalJson payload)).toUTF8

/-- The `configurationDigest` of an identity payload. -/
def configurationDigest (entry : TrustCaseCatalogEntry) (catalogVersion catalogHash : Text) :
    Text :=
  catalogHashOf sha (identity entry catalogVersion catalogHash)

structure TrustCaseCatalog where
  catalogVersion : Text
  catalogHash : Text
  entries : List TrustCaseCatalogEntry

/-- The catalog's own `description`, which may be left out. -/
def descriptionAccepted : Option Json → Bool
  | none | some .null => true
  | value => (requiredString value).isSome

/-- `TrustCaseCatalog.__init__` on the document. -/
def load (document : Json) : Option TrustCaseCatalog := do
  let payload ← requiredMapping (some (toAny document))
  let catalogVersion ← requiredString (member payload "catalogVersion")
  let _ ← requiredMatching (isOneOf ["v0"]) (member payload "schemaVersion")
  guard (descriptionAccepted (member payload "description"))
  let trustCases ← elements (member payload "trustCases")
  guard (trustCases ≠ [])
  let catalogHash := catalogHashOf sha payload
  let entries ← trustCases.mapM fun rawEntry => (requiredMapping (some rawEntry)).bind fromPayload
  guard ((entries.map TrustCaseCatalogEntry.trustCaseId).Nodup)
  guard (((entries.filter TrustCaseCatalogEntry.defaultForProgram).map
    TrustCaseCatalogEntry.programId).Nodup)
  return { catalogVersion, catalogHash, entries }

end C2c.TrustCases.OrchestratorCatalog
