import C2c.TrustCases.Documents

namespace C2c.TrustCases.BffCatalog

open C2c.Library.JavaText hiding trim isTrimmed
open C2c.Library.JsonText
open C2c.Library.GoJson hiding member
open C2c.TrustCases.Documents

/-- What `String.prototype.trim` removes. -/
def isTrimmed (c : Char) : Bool :=
  let n := c.toNat
  (9 ≤ n && n ≤ 13) || n == 32 || n == 0xa0 || n == 0x1680 || (0x2000 ≤ n && n ≤ 0x200a) ||
    n == 0x2028 || n == 0x2029 || n == 0x202f || n == 0x205f || n == 0x3000 || n == 0xfeff

def trim (t : Text) : Text :=
  (t.dropWhile isTrimmed).rdropWhile isTrimmed

/-- The UTF-16 code units of a string. -/
def codeUnits (t : Text) : List Nat :=
  t.flatMap fun c =>
    if c.toNat < 0x10000 then [c.toNat]
    else [0xd800 + (c.toNat - 0x10000) / 0x400, 0xdc00 + (c.toNat - 0x10000) % 0x400]

structure TrustCaseSourceReference where
  fixtureId : Text
  mode : Text

structure TrustCaseControlledInput where
  stdin : Option Text
  dataSetIds : List Text
  expectedOutputFixtureId : Text

structure TrustCaseEnvironmentProfile where
  profileId : Text
  description : Text
  variableValues : List (Text × Text)

structure TrustCaseComparison where
  strategy : Text
  policyVersion : Text

structure TrustCaseSupportedProgramShape where
  language : Text
  programId : Text
  supportedSubset : List Text

structure TrustCase where
  trustCaseId : Text
  version : Text
  programId : Text
  title : Text
  description : Text
  defaultForProgram : Bool
  sourceReference : TrustCaseSourceReference
  controlledInput : TrustCaseControlledInput
  programArgs : List Text
  environmentProfile : TrustCaseEnvironmentProfile
  comparison : TrustCaseComparison
  supportedProgramShape : TrustCaseSupportedProgramShape
  artifactName : Text

/-- `TRUST_CASE_ID_PATTERN`. -/
def isTrustCaseId : Text → Bool :=
  capitalThen 1 63 fun c => isUpperOrDigit c || c == '-'

/-- `SAFE_VERSION_PATTERN`. -/
def isSafeVersion : Text → Bool :=
  spans 1 64 fun c => isAlphanumeric c || "._:-".toList.contains c

/-- `SAFE_PROFILE_VARIABLE_KEY`. -/
def isProfileVariableKey : Text → Bool :=
  capitalThen 0 63 fun c => isUpperOrDigit c || c == '_'

/-- `SAFE_PROFILE_VARIABLE_VALUE`. -/
def isProfileVariableValue : Text → Bool :=
  spans 0 256 fun c => isAlphanumeric c || "._:/=+-".toList.contains c

/-- `SAFE_RUNTIME_VALUE`. -/
def isRuntimeValue : Text → Bool :=
  spans 0 80 fun c => isAlphanumeric c || "._:=@/+,-".toList.contains c

/-- `SAFE_ARTIFACT_NAME`. -/
def isArtifactName : Text → Bool :=
  spans 1 96 fun c => isAlphanumeric c || "._-".toList.contains c

/-- `SAFE_DATASET_ID`. -/
def isDataSetId : Text → Bool :=
  capitalThen 1 63 fun c => isUpperOrDigit c || c == '_' || c == '-'

def environmentProfileIds : List String :=
  ["generated-java-sandbox-v1", "reference-fixture-v1", "native-cobol-controlled-v1"]

def sourceReferenceModes : List String :=
  ["reference-fixture", "native-cobol"]

def w02Constructs : List String :=
  ["MOVE", "DISPLAY", "PERFORM", "PERFORM-VARYING", "PERFORM-UNTIL", "IF", "EVALUATE", "COMPUTE",
    "ADD", "SUBTRACT", "MULTIPLY", "DIVIDE", "CALL", "STOP-RUN", "PARAGRAPH", "WORKING-STORAGE"]

def oneOf (known : List String) (t : Text) : Bool :=
  known.any fun word => word.toList == t

/-- `isPlainObject` and `assertNoExtraKeys`. -/
def assertNoExtraKeys (allowed : List String) : Json → Bool
  | .object members => members.all fun m => oneOf allowed m.1
  | _ => false

def requireString : Option Json → Option Text
  | some (.string t) => if (trim t).isEmpty then none else some (trim t)
  | _ => none

def requireStringMatching (pattern : Text → Bool) (value : Option Json) : Option Text :=
  (requireString value).filter pattern

/-- The comparison `raw !== "…"` of a member with a text. -/
def isText (t : String) : Option Json → Bool
  | some (.string s) => s == t.toList
  | _ => false

/-- The pattern `^[A-Za-z]:[\\/]`. -/
def startsWithDrive : Text → Bool
  | c :: ':' :: d :: _ => isAlphanumeric c && !isDigitAscii c && (d == '\\' || d == '/')
  | _ => false

def runtimeValueLooksUnsafe (value : Text) : Bool :=
  startsWith value ['/'] || startsWithDrive value || contains value "..".toList ||
    value.any fun c => isTrimmed c || ";&|$<>".toList.contains c || c.toNat == 96

def parseSourceReference (raw : Json) : Option TrustCaseSourceReference := do
  guard (assertNoExtraKeys ["fixtureId", "mode"] raw)
  let fixtureId ← requireStringMatching isTrustCaseId (member raw "fixtureId")
  let mode ← requireStringMatching (oneOf sourceReferenceModes) (member raw "mode")
  return ⟨fixtureId, mode⟩

/-- A `stdin` that is missing or `null` is none. -/
def parseStdin : Option Json → Option (Option Text)
  | none | some .null => some none
  | some (.string t) => if 8192 < (codeUnits t).length then none else some (some t)
  | _ => none

def parseControlledInput (raw : Json) : Option TrustCaseControlledInput := do
  guard (assertNoExtraKeys ["stdin", "dataSetIds", "expectedOutputFixtureId"] raw)
  let stdin ← parseStdin (member raw "stdin")
  let items ← elements (member raw "dataSetIds")
  guard (items.length ≤ 16)
  let dataSetIds ← texts isDataSetId items
  guard dataSetIds.Nodup
  let expectedOutputFixtureId ← requireStringMatching isTrustCaseId
    (member raw "expectedOutputFixtureId")
  return ⟨stdin, dataSetIds, expectedOutputFixtureId⟩

def parseRuntime (raw : Json) : Option (List Text) := do
  guard (assertNoExtraKeys ["programArgs"] raw)
  let items ← elements (member raw "programArgs")
  guard (items.length ≤ 8)
  texts (fun entry => isRuntimeValue entry && !runtimeValueLooksUnsafe entry) items

def parseVariables : Option Json → Option (List (Text × Text))
  | some (.object members) => textMembers isProfileVariableKey isProfileVariableValue members
  | _ => none

def parseEnvironmentProfile (raw : Json) : Option TrustCaseEnvironmentProfile := do
  guard (assertNoExtraKeys ["profileId", "description", "variables"] raw)
  let profileId ← requireStringMatching (oneOf environmentProfileIds) (member raw "profileId")
  let description ← requireString (member raw "description")
  let variableValues ← parseVariables (member raw "variables")
  return ⟨profileId, description, variableValues⟩

def parseComparison (raw : Json) : Option TrustCaseComparison := do
  guard (assertNoExtraKeys ["strategy", "policyVersion"] raw)
  guard (isText "deterministic-output" (member raw "strategy"))
  guard (isText "deterministic-output-v1" (member raw "policyVersion"))
  return ⟨"deterministic-output".toList, "deterministic-output-v1".toList⟩

def parseSupportedProgramShape (programId : Text) (raw : Json) :
    Option TrustCaseSupportedProgramShape := do
  guard (assertNoExtraKeys ["language", "programId", "supportedSubset"] raw)
  guard (isText "cobol" (member raw "language"))
  let shapeProgramId ← requireString (member raw "programId")
  guard (shapeProgramId = programId)
  let items ← elements (member raw "supportedSubset")
  guard (items ≠ [])
  let supportedSubset ← texts (oneOf w02Constructs) items
  guard supportedSubset.Nodup
  return ⟨"cobol".toList, programId, supportedSubset⟩

def parseEvidenceIdentity (raw : Json) : Option Text := do
  guard (assertNoExtraKeys ["kind", "artifactName"] raw)
  guard (isText "trust-case" (member raw "kind"))
  requireStringMatching isArtifactName (member raw "artifactName")

def parseFlag : Option Json → Option Bool
  | some (.bool b) => some b
  | _ => none

def trustCaseFields : List String :=
  ["trustCaseId", "version", "programId", "title", "description", "defaultForProgram",
    "sourceReference", "controlledInput", "runtime", "environmentProfile", "comparison",
    "supportedProgramShape", "evidenceIdentity"]

def parseTrustCase (raw : Json) : Option TrustCase := do
  guard (assertNoExtraKeys trustCaseFields raw)
  let trustCaseId ← requireStringMatching isTrustCaseId (member raw "trustCaseId")
  let version ← requireStringMatching isSafeVersion (member raw "version")
  let programId ← requireString (member raw "programId")
  let title ← requireString (member raw "title")
  let description ← requireString (member raw "description")
  let defaultForProgram ← parseFlag (member raw "defaultForProgram")
  let sourceReference ← (member raw "sourceReference").bind parseSourceReference
  let controlledInput ← (member raw "controlledInput").bind parseControlledInput
  let programArgs ← (member raw "runtime").bind parseRuntime
  let environmentProfile ← (member raw "environmentProfile").bind parseEnvironmentProfile
  let comparison ← (member raw "comparison").bind parseComparison
  let supportedProgramShape ← (member raw "supportedProgramShape").bind
    (parseSupportedProgramShape programId)
  let artifactName ← (member raw "evidenceIdentity").bind parseEvidenceIdentity
  return {
    trustCaseId, version, programId, title, description, defaultForProgram, sourceReference,
    controlledInput, programArgs, environmentProfile, comparison, supportedProgramShape,
    artifactName }

/-! The canonical text and its digest. -/

/-- A member put in its place by the UTF-16 order of names, in which `sort`
compares strings. -/
def insertByUnits (name : Text) (value : Json) : List (Text × Json) → List (Text × Json)
  | [] => [(name, value)]
  | (other, w) :: members =>
      if codeUnits name < codeUnits other then (name, value) :: (other, w) :: members
      else if name = other then (name, value) :: members
      else (other, w) :: insertByUnits name value members

mutual

/-- `canonicalize`, for names that are no array indices. -/
def canonicalize : Json → Json
  | .array items => .array (canonicalizeItems items)
  | .object members => .object (canonicalizeMembers members [])
  | value => value

def canonicalizeItems : List Json → List Json
  | [] => []
  | item :: items => canonicalize item :: canonicalizeItems items

def canonicalizeMembers : List (Text × Json) → List (Text × Json) → List (Text × Json)
  | [], entries => entries
  | (name, value) :: members, entries =>
      canonicalizeMembers members (insertByUnits name (canonicalize value) entries)

end

/-- `JSON.stringify`. -/
def stringify (value : Json) : Text :=
  write (spellings []) value

variable (sha : ByteArray → Text)

/-- `sha256Hex` of the UTF-8 bytes of a string. -/
def sha256Hex (t : Text) : Text :=
  sha (String.ofList t).toUTF8

/-- The `identityPayload` of `summarize`. -/
def identityPayload (trustCase : TrustCase) (catalogVersion catalogHash : Text) : Json :=
  .object [
    ("trustCaseId".toList, .string trustCase.trustCaseId),
    ("version".toList, .string trustCase.version),
    ("programId".toList, .string trustCase.programId),
    ("catalogVersion".toList, .string catalogVersion),
    ("catalogHash".toList, .string catalogHash),
    ("sourceReferenceFixtureId".toList, .string trustCase.sourceReference.fixtureId),
    ("sourceReferenceMode".toList, .string trustCase.sourceReference.mode),
    ("sourceReference".toList, .object [
      ("fixtureId".toList, .string trustCase.sourceReference.fixtureId),
      ("mode".toList, .string trustCase.sourceReference.mode)]),
    ("controlledInput".toList, .object [
      ("stdin".toList, textOrNull trustCase.controlledInput.stdin),
      ("dataSetIds".toList, textItems trustCase.controlledInput.dataSetIds),
      ("expectedOutputFixtureId".toList,
        .string trustCase.controlledInput.expectedOutputFixtureId)]),
    ("runtimeProgramArgs".toList, textItems trustCase.programArgs),
    ("runtime".toList, .object [("programArgs".toList, textItems trustCase.programArgs)]),
    ("environmentProfileId".toList, .string trustCase.environmentProfile.profileId),
    ("environmentProfile".toList, .object [
      ("profileId".toList, .string trustCase.environmentProfile.profileId),
      ("description".toList, .string trustCase.environmentProfile.description),
      ("variables".toList, textEntries trustCase.environmentProfile.variableValues)]),
    ("comparisonStrategy".toList, .string trustCase.comparison.strategy),
    ("comparisonPolicyVersion".toList, .string trustCase.comparison.policyVersion),
    ("supportedProgramShape".toList, .object [
      ("language".toList, .string trustCase.supportedProgramShape.language),
      ("programId".toList, .string trustCase.supportedProgramShape.programId),
      ("supportedSubset".toList, textItems trustCase.supportedProgramShape.supportedSubset)]),
    ("evidenceArtifactName".toList, .string trustCase.artifactName)]

structure TrustCaseSummary where
  trustCaseId : Text
  version : Text
  catalogVersion : Text
  catalogHash : Text
  configurationDigest : Text
  programId : Text
  title : Text
  description : Text
  defaultForProgram : Bool
  sourceReferenceFixtureId : Text
  sourceReferenceMode : Text
  environmentProfileId : Text
  comparisonStrategy : Text
  comparisonPolicyVersion : Text
  supportedSubset : List Text

def summarize (trustCase : TrustCase) (catalogVersion catalogHash : Text) : TrustCaseSummary where
  trustCaseId := trustCase.trustCaseId
  version := trustCase.version
  catalogVersion := catalogVersion
  catalogHash := catalogHash
  configurationDigest :=
    sha256Hex sha (stringify (canonicalize (identityPayload trustCase catalogVersion catalogHash)))
  programId := trustCase.programId
  title := trustCase.title
  description := trustCase.description
  defaultForProgram := trustCase.defaultForProgram
  sourceReferenceFixtureId := trustCase.sourceReference.fixtureId
  sourceReferenceMode := trustCase.sourceReference.mode
  environmentProfileId := trustCase.environmentProfile.profileId
  comparisonStrategy := trustCase.comparison.strategy
  comparisonPolicyVersion := trustCase.comparison.policyVersion
  supportedSubset := trustCase.supportedProgramShape.supportedSubset

/-- The catalog, with the trust cases its summaries are made of. -/
structure TrustCaseCatalog where
  catalogVersion : Text
  catalogHash : Text
  trustCases : List TrustCase
  summaries : List TrustCaseSummary

/-- Whether the acceptance fixture of a trust case is known and declares its
constructs. -/
def fixtureAccepts (fixtures : Text → Option (List Text)) (trustCase : TrustCase) : Bool :=
  match fixtures trustCase.sourceReference.fixtureId with
  | none => false
  | some declared =>
      trustCase.controlledInput.expectedOutputFixtureId == trustCase.sourceReference.fixtureId &&
        trustCase.supportedProgramShape.supportedSubset.all fun construct =>
          declared.contains construct

/-- Whether the program of a trust case has exactly one default. -/
def hasOneDefault (trustCases : List TrustCase) (trustCase : TrustCase) : Bool :=
  (trustCases.filter fun other =>
    other.programId == trustCase.programId && other.defaultForProgram).length == 1

/-- `loadTrustCaseCatalog` on the document, where `fixtures` are the constructs
the acceptance fixtures declare. -/
def loadTrustCaseCatalog (fixtures : Text → Option (List Text)) (document : Json) :
    Option TrustCaseCatalog := do
  let parsed := toAny document
  guard (assertNoExtraKeys ["schemaVersion", "catalogVersion", "description", "trustCases"] parsed)
  guard (isText "v0" (member parsed "schemaVersion"))
  let catalogVersion ← requireStringMatching isSafeVersion (member parsed "catalogVersion")
  let trustCasesRaw ← elements (member parsed "trustCases")
  guard (trustCasesRaw ≠ [])
  let trustCases ← trustCasesRaw.mapM parseTrustCase
  guard ((trustCases.map TrustCase.trustCaseId).Nodup)
  guard (trustCases.all (fixtureAccepts fixtures))
  guard (trustCases.all (hasOneDefault trustCases))
  let catalogHash := sha256Hex sha (stringify (canonicalize parsed))
  return {
    catalogVersion
    catalogHash
    trustCases
    summaries := trustCases.map fun trustCase =>
      summarize sha trustCase catalogVersion catalogHash }

end C2c.TrustCases.BffCatalog
