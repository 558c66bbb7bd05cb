import Mathlib
import C2c.Library.PythonText
import C2c.Library.Sha256
import C2c.Orchestrator.RunContract

namespace C2c.Orchestrator.JavaProject

open C2c.Library.JavaText
open C2c.Library.PythonText
open C2c.Library.Sha256
open C2c.Orchestrator.RunContract

/-- The files of a Java project by their paths. -/
abbrev FileMap := Std.ExtTreeMap Text Text compare

/-- The contents a file map holds. -/
def FileMap.Holds (files : FileMap) (contents : Set Text) : Prop :=
  ∀ path content : Text, files[path]? = some content → content ∈ contents

/-- The number of bytes of a text in UTF-8. -/
def byteLength (t : Text) : Nat :=
  (t.flatMap utf8Bytes).length

structure ManifestFile where
  path : Text
  sha256 : Text
  byteSize : Nat
deriving DecidableEq

structure ProjectManifest where
  entryClass : Text
  entryFilePath : Text
  files : List ManifestFile
deriving DecidableEq

/-- The manifest of a project, its files sorted by path. -/
def manifestOf (files : FileMap) (entryClass entryFilePath : Text) : ProjectManifest where
  entryClass := entryClass
  entryFilePath := entryFilePath
  files := files.toList.map fun file => ⟨file.1, sha256Hex file.2, byteLength file.2⟩

def ManifestFile.json (file : ManifestFile) : Text :=
  jsonObject
    [("byteSize", natText file.byteSize),
      ("mimeType", jsonString false "text/x-java-source".toList),
      ("path", jsonString false file.path),
      ("sha256", jsonString false file.sha256)]

/-- The bytes `write_json` stores of a manifest. -/
def ProjectManifest.json (manifest : ProjectManifest) : Text :=
  jsonObject
    [("entryClass", jsonString false manifest.entryClass),
      ("entryFilePath", jsonString false manifest.entryFilePath),
      ("fileCount", natText manifest.files.length),
      ("files", jsonArray (manifest.files.map ManifestFile.json))]

/-- The reference of an artifact with the given text. -/
def referenceOf (uri text : Text) : Reference where
  uri := uri
  sha256 := sha256Hex text
  byteSize := byteLength text

inductive ChangeType
  | modify
  | add
  | delete
deriving DecidableEq

def ChangeType.text : ChangeType → Text
  | modify => "modify".toList
  | add => "add".toList
  | delete => "delete".toList

/-- One file of a repair proposal. -/
structure ProposalFile where
  path : Text
  changeType : ChangeType
  beforeSha256 : Option Text
  afterSha256 : Text
  diff : Text
deriving DecidableEq

def ProposalFile.json (file : ProposalFile) : Text :=
  jsonObject
    [("afterSha256", jsonString false file.afterSha256),
      ("beforeSha256", jsonString false (file.beforeSha256.getD [])),
      ("changeType", jsonString false file.changeType.text),
      ("diff", jsonString false file.diff),
      ("path", jsonString false file.path)]

/-- `_canonical_patch_sha`. -/
def canonicalPatchSha (files : List ProposalFile) : Text :=
  let sorted := files.insertionSort fun left right => compare left.path right.path ≠ .gt
  sha256Hex (jsonObject [("files", jsonArray (sorted.map ProposalFile.json))])

/-- `_ALLOWED_REPAIR_JAVA_ROOT`. -/
def allowedRepairJavaRoot : Text :=
  "src/main/java/".toList

/-- `_FORBIDDEN_REPAIR_PREFIXES`. -/
def forbiddenRepairPrefixes : List Text :=
  ["src/test/".toList, "src/main/resources/".toList, "fixtures/".toList, "evidence/".toList,
    ".github/".toList, "scripts/".toList, "logs/".toList, "repair-agent/".toList]

/-- A path with slashes only and none in front. -/
def normalizedPath (path : Text) : Text :=
  (strip (replaceChar '\\' '/' path)).dropWhile fun c => c == '/'

/-- `_is_allowed_repair_java_path`. -/
def isAllowedRepairJavaPath (path : Text) : Bool :=
  let normalized := normalizedPath path
  if normalized.isEmpty || normalized.contains '\x00' then false
  else if (pathParts normalized).contains ['.', '.'] then false
  else if !endsWith normalized ".java".toList then false
  else if !startsWith normalized allowedRepairJavaRoot then false
  else !forbiddenRepairPrefixes.any fun start => startsWith normalized start

theorem root_of_allowed {path : Text} (h : isAllowedRepairJavaPath path = true) :
    startsWith (normalizedPath path) allowedRepairJavaRoot = true := by
  unfold isAllowedRepairJavaPath at h
  dsimp only at h
  split at h
  · contradiction
  · split at h
    · contradiction
    · split at h
      · contradiction
      · split at h
        · contradiction
        · rename_i hroot
          simpa using hroot

/-- The exceptions of the manual repair operations. -/
inductive RepairError
  | javaFilesEmpty
  | entryFileMissing
  | baselineUnavailable
  | regionFileMissing (index : Nat)
  | buildResultUnavailable
  | buildResultSuccessful
  | previewUnavailable
  | previewStale
  | projectNotFound
  | projectFileMissing (path : Text)
  | proposalNotFound
  | proposalNotPending
  | sandboxNotReviewed
  | patchRequired
  | patchMismatch
  | outOfScope (path : Text)
  | drift (path : Text)
  | candidateMismatch (path : Text)
  | candidateMissing (path : Text)
  | unreviewedChanges
  | contentMismatch (path : Text)
  | agent (message : Text)
  | build (message : Text)
  | store
deriving DecidableEq

section Proposals

variable (unifiedFileDiff : Text → Text → Text → Text)

/-- The entry of a proposal for one candidate file, if it changes the snapshot. -/
def proposalFile (snapshot : FileMap) (path after : Text) : Option ProposalFile :=
  let before := snapshot.getD path []
  if before = after then none
  else some
    { path := path
      changeType := if path ∈ snapshot then .modify else .add
      beforeSha256 := if path ∈ snapshot then some (sha256Hex before) else none
      afterSha256 := sha256Hex after
      diff := unifiedFileDiff path before after }

/-- The changes between a snapshot and a candidate. -/
def proposalFiles (snapshot candidate : FileMap) : List ProposalFile :=
  candidate.toList.filterMap fun file => proposalFile unifiedFileDiff snapshot file.1 file.2

/-- `_build_manual_diagnose_proposal_files`, the agent having made a candidate. -/
def buildProposalFiles (snapshot candidate : FileMap) : Except RepairError (List ProposalFile) :=
  match candidate.toList.find? fun file => !isAllowedRepairJavaPath file.1 with
  | some file => .error (.outOfScope file.1)
  | none => .ok (proposalFiles unifiedFileDiff snapshot candidate)

end Proposals

/-- The check of one entry, and the files expected after it. -/
def expectFile (snapshot candidate expected : FileMap) (entry : ProposalFile) :
    Except RepairError FileMap :=
  let path := entry.path
  if !isAllowedRepairJavaPath path then .error (.outOfScope path)
  else if entry.beforeSha256.any fun before => sha256Hex (snapshot.getD path []) != before then
    .error (.drift path)
  else if sha256Hex (candidate.getD path []) != entry.afterSha256 then
    .error (.candidateMismatch path)
  else
    match entry.changeType, candidate[path]? with
    | .delete, _ => .ok (expected.erase path)
    | _, none => .error (.candidateMissing path)
    | _, some content => .ok (expected.insert path content)

/-- The files a proposal makes of a snapshot. -/
def expectedFiles (snapshot candidate : FileMap) :
    List ProposalFile → FileMap → Except RepairError FileMap
  | [], expected => .ok expected
  | entry :: entries, expected => do
      let expected ← expectFile snapshot candidate expected entry
      expectedFiles snapshot candidate entries expected

/-- `_validate_manual_compile_apply_candidate`. -/
def validateManualCompileApplyCandidate (persistedFiles : List ProposalFile)
    (snapshot candidate : FileMap) : Except RepairError PUnit := do
  let expected ← expectedFiles snapshot candidate persistedFiles snapshot
  if candidate.keys ≠ expected.keys then .error .unreviewedChanges
  else
    match expected.toList.find? fun file => candidate[file.1]? ≠ some file.2 with
    | some file => .error (.contentMismatch file.1)
    | none => .ok ⟨⟩

end C2c.Orchestrator.JavaProject
