import C2c.Library.Raising
import C2c.Orchestrator.JavaProject

namespace C2c.Orchestrator.ManualRepair

open C2c.Library.JavaText
open C2c.Library.PythonText
open C2c.Library.Sha256
open C2c.Library.Raising
open C2c.Orchestrator.RunContract
open C2c.Orchestrator.JavaProject

/-- What `_build_preview_diagnostics` reads of a diagnostic. -/
structure Diagnostic where
  filePath : Option Text
  sourceKind : Option Text
deriving DecidableEq

/-- A build/test result: its JSON text, the failure `build_test_outcome` finds
in it, and what the repair reads of it. -/
structure BuildResult where
  json : Text
  failure : Option FailureCode
  diagnostics : List Diagnostic := []
  expectedOutput : Option Text := none
deriving DecidableEq

structure ManualRegion where
  filePath : Text
  originClass : Text
  startLine : Nat
  endLine : Nat
deriving DecidableEq

structure Preview where
  previewId : Text
  failureCategory : FailureCode
  sourceRevisionRef : Reference
  currentHeadRef : Reference
  buildTestResultRef : Reference
  includedFiles : List Text
  manualRegions : List ManualRegion
  entryClass : Text
  entryFilePath : Text
  createdAt : Timestamp

inductive ApplicationState
  | reviewPending
  | sandboxApplied
  | applied
  | rejected
deriving DecidableEq

inductive ApprovalState
  | pending
  | approved
  | rejected
deriving DecidableEq

structure DeveloperApproval where
  approvedBy : Text
  approvedAt : Timestamp
  approvedPatchSha256 : Text

/-- A stored repair proposal. -/
structure Proposal where
  patchSha256 : Text
  summary : Text
  applicationState : ApplicationState
  approvalState : ApprovalState
  files : List ProposalFile
  sourceRevisionRef : Reference
  currentHeadRef : Reference
  candidateRef : Reference
  createdAt : Timestamp
  sandboxAppliedAt : Option Timestamp := none
  sandboxCandidateRef : Option Reference := none
  sandboxBuildTestResultRef : Option Reference := none
  developerApproval : Option DeveloperApproval := none

/-- The record `approval-<id>.json`. -/
inductive ApprovalRecord
  | approved (approvedBy : Text) (approvedAt : Timestamp) (approvedPatchSha256 : Text)
      (sandboxCandidateRef sandboxBuildTestResultRef : Option Reference)
  | rejected (rejectedBy : Text) (rejectedAt : Timestamp) (patchSha256 : Text)

/-- A directory with the files of a project and the manifest beside it. -/
structure ProjectSlot where
  manifest : Option ProjectManifest := none
  files : FileMap := ∅

/-- What an apply put into the sandbox: the snapshot it started from, the files
and the result of their build. -/
structure Materialised where
  snapshot : FileMap
  files : FileMap
  buildTest : BuildResult

/-- What the stored records came from; no operation reads it. -/
structure History where
  previewed : FileMap := ∅
  diagnosed : Text → FileMap × FileMap := fun _ => (∅, ∅)
  applied : Text → Option Materialised := fun _ => none

/-- The artifacts of one run that the manual repair reads and writes. -/
structure RunStore where
  baselineFiles : FileMap
  baselineRef : Option Reference
  buildTestResult : Option BuildResult
  snapshot : ProjectSlot := {}
  candidate : ProjectSlot := {}
  sandbox : ProjectSlot := {}
  sandboxBuildTestResult : Option BuildResult := none
  preview : Option Preview := none
  proposals : Text → Option Proposal := fun _ => none
  approvals : Text → Option ApprovalRecord := fun _ => none
  ticks : Nat := 0
  history : History := {}

/-- How a store write ends: it raises before or after the bytes are in place. -/
inductive Fault
  | none
  | before
  | after
deriving DecidableEq

structure RepairRequest where
  previousJavaCandidateRef : Reference
  previousJavaFiles : FileMap
  buildTestResultRef : Reference
  failureCategory : FailureCode
  manualRegions : List ManualRegion

structure RepairCandidate where
  files : FileMap
  explanation : Text

structure RepairResult where
  candidate : Option RepairCandidate
  rationale : Text

structure BuildInput where
  files : FileMap
  entryClass : Text
  entryFilePath : Text
  compareOutput : Bool
  expectedOutput : Option Text

/-- What the operations meet: how each store write ends, what the agent and the
build step answer at each point of time, the clock, and `difflib`. -/
structure Env where
  runId : Text
  serviceName : Text
  fault : Nat → Fault
  agent : Nat → RepairRequest → Except Text RepairResult
  build : Nat → BuildInput → Except Text BuildResult
  now : Nat → Timestamp
  unifiedFileDiff : Text → Text → Text → Text

/-- An operation of the manual repair. -/
abbrev Op := EStateM RepairError RunStore

section Artifacts

variable (env : Env)

/-- One write of the artifact store. -/
def write (change : RunStore → RunStore) : Op PUnit := do
  let s ← get
  let next := { s with ticks := s.ticks + 1 }
  match env.fault s.ticks with
  | .none => set (change next)
  | .before => do
      set next
      throw .store
  | .after => do
      set (change next)
      throw .store

inductive SlotName
  | snapshot
  | candidate
  | sandbox
deriving DecidableEq

def SlotName.manifestPath : SlotName → Text
  | snapshot => "manual-compile-repair/snapshot-manifest.json".toList
  | candidate => "manual-compile-repair/candidate-project-manifest.json".toList
  | sandbox => "manual-compile-repair/sandbox-project-manifest.json".toList

def RunStore.slot (s : RunStore) : SlotName → ProjectSlot
  | .snapshot => s.snapshot
  | .candidate => s.candidate
  | .sandbox => s.sandbox

def RunStore.setSlot (s : RunStore) : SlotName → ProjectSlot → RunStore
  | .snapshot, slot => { s with snapshot := slot }
  | .candidate, slot => { s with candidate := slot }
  | .sandbox, slot => { s with sandbox := slot }

def putFile (name : SlotName) (path content : Text) (s : RunStore) : RunStore :=
  s.setSlot name { s.slot name with files := (s.slot name).files.insert path content }

def putManifest (name : SlotName) (manifest : ProjectManifest) (s : RunStore) : RunStore :=
  s.setSlot name { s.slot name with manifest := some manifest }

def writeFiles (name : SlotName) : List (Text × Text) → Op PUnit
  | [] => pure ⟨⟩
  | file :: files => do
      write env (putFile name file.1 file.2)
      writeFiles name files

/-- The common form of the three functions that persist a project. -/
def persistProject (name : SlotName) (javaFiles : FileMap) (entryClass entryFilePath : Text) :
    Op Reference := do
  writeFiles env name javaFiles.toList
  let manifest := manifestOf javaFiles entryClass entryFilePath
  write env (putManifest name manifest)
  pure (referenceOf name.manifestPath manifest.json)

def persistManualCompileSnapshot : FileMap → Text → Text → Op Reference :=
  persistProject env .snapshot

def persistManualCompileCandidate : FileMap → Text → Text → Op Reference :=
  persistProject env .candidate

def persistManualCompileSandboxCandidate : FileMap → Text → Text → Op Reference :=
  persistProject env .sandbox

end Artifacts

/-- The files a manifest names. -/
def collectFiles (files : FileMap) : List ManifestFile → Except RepairError FileMap
  | [] => .ok ∅
  | entry :: entries =>
      match files[entry.path]? with
      | none => .error (.projectFileMissing entry.path)
      | some content => do
          let rest ← collectFiles files entries
          .ok (rest.insert entry.path content)

/-- `_load_manual_compile_project`. -/
def loadManualCompileProject (slot : ProjectSlot) :
    Except RepairError (ProjectManifest × FileMap) :=
  match slot.manifest with
  | none => .error .projectNotFound
  | some manifest => do
      let files ← collectFiles slot.files manifest.files
      .ok (manifest, files)

/-- `_validate_manual_compile_regions`. -/
def validateManualCompileRegions (javaFiles : FileMap) (regions : List ManualRegion) :
    Except RepairError PUnit :=
  match regions.zipIdx.find? fun region => region.1.filePath ∉ javaFiles with
  | some region => .error (.regionFileMissing region.2)
  | none => .ok ⟨⟩

/-- Whether `_build_preview_diagnostics` takes a diagnostic up. -/
def isIncluded (javaFiles : FileMap) (diagnostic : Diagnostic) : Bool :=
  (diagnostic.filePath.any fun path => path ∈ javaFiles) ||
    (diagnostic.sourceKind.any fun kind => kind == "build".toList || kind == "test".toList)

/-- The Java files the first ten diagnostics taken up name. -/
def diagnosticPaths (javaFiles : FileMap) (diagnostics : List Diagnostic) : List Text :=
  ((diagnostics.filter (isIncluded javaFiles)).take 10).filterMap fun diagnostic =>
    diagnostic.filePath.filter fun path => path ∈ javaFiles

/-- The files the prompt shows: those with diagnostics, or else the entry file. -/
def promptFilePaths (javaFiles : FileMap) (diagnostics : List Diagnostic) (entryFilePath : Text) :
    List Text :=
  let paths := diagnosticPaths javaFiles diagnostics
  if paths = [] then [entryFilePath]
  else (Std.ExtTreeMap.ofList (paths.map fun path => (path, ([] : Text))) compare).keys

/-- `_compute_manual_compile_preview_id`. -/
def previewIdOf (runId : Text) (snapshotRef buildRef : Reference) (failureCode : FailureCode)
    (promptFilePaths : List Text) : Text :=
  (sha256Hex (jsonObject
    [("buildTestSha256", jsonString true buildRef.sha256),
      ("currentHeadSha256", jsonString true snapshotRef.sha256),
      ("failureCategory", jsonString true failureCode.text),
      ("promptFilePaths", jsonArray (promptFilePaths.map (jsonString true))),
      ("runId", jsonString true runId)])).take 16

/-- The text of the changes to the generated project; none is written when
there is no change. -/
def baselineDiff (env : Env) (baselineFiles currentFiles : FileMap) : List Text :=
  ((baselineFiles ∪ currentFiles).keys.map fun path =>
    let before := baselineFiles.getD path []
    let after := currentFiles.getD path []
    if before = after then [] else env.unifiedFileDiff path before after).filter (· ≠ [])

/-- The reference of a stored build/test result. -/
def BuildResult.reference (path : Text) (result : BuildResult) : Reference :=
  referenceOf path result.json

section Operations

variable (env : Env)

/-- `_persist_manual_compile_baseline_diff`. -/
def persistManualCompileBaselineDiff (baselineFiles currentFiles : FileMap) : Op PUnit :=
  if baselineDiff env baselineFiles currentFiles = [] then pure ⟨⟩ else write env id

/-- `manual_compile_repair_preview` of a run that exists. -/
def manualCompileRepairPreview (javaFiles : FileMap) (entryClass entryFilePath : Text)
    (manualOverlayRegions : List ManualRegion) : Op Preview := do
  require (javaFiles.isEmpty = false) .javaFilesEmpty
  require (entryFilePath ∈ javaFiles) .entryFileMissing
  let s ← get
  require (s.baselineFiles.isEmpty = false) .baselineUnavailable
  returning (validateManualCompileRegions javaFiles manualOverlayRegions)
  let snapshotRef ← persistManualCompileSnapshot env javaFiles entryClass entryFilePath
  persistManualCompileBaselineDiff env s.baselineFiles javaFiles
  match s.buildTestResult with
  | none => throw .buildResultUnavailable
  | some result =>
      match result.failure with
      | none => throw .buildResultSuccessful
      | some failureCode => do
          let buildRef := result.reference "build-test-result.json".toList
          let paths := promptFilePaths javaFiles result.diagnostics entryFilePath
          let preview : Preview :=
            { previewId := previewIdOf env.runId snapshotRef buildRef failureCode paths
              failureCategory := failureCode
              sourceRevisionRef := s.baselineRef.getD snapshotRef
              currentHeadRef := snapshotRef
              buildTestResultRef := buildRef
              includedFiles := paths
              manualRegions := manualOverlayRegions
              entryClass := entryClass
              entryFilePath := entryFilePath
              createdAt := env.now s.ticks }
          write env fun s => { s with
            preview := some preview
            history := { s.history with previewed := javaFiles } }
          pure preview

/-- What a diagnosis reads before it asks the agent. -/
structure DiagnoseContext where
  preview : Preview
  buildResult : BuildResult
  snapshotFiles : FileMap
  promptFiles : FileMap
  entryClass : Text
  entryFilePath : Text

/-- The prompt files of a preview that the snapshot still has, or its entry file. -/
def resolvePromptFiles (snapshotFiles : FileMap) (includedFiles : List Text)
    (entryFilePath : Text) : FileMap :=
  let included := includedFiles.filterMap fun path =>
    (snapshotFiles[path]?).map fun content => (path, content)
  if included = [] then
    Std.ExtTreeMap.ofList [(entryFilePath, snapshotFiles.getD entryFilePath [])] compare
  else Std.ExtTreeMap.ofList included compare

/-- `_load_manual_compile_diagnose_context`, the preview being the given one. -/
def diagnoseContext (s : RunStore) (previewId : Text) : Except RepairError DiagnoseContext :=
  match s.preview with
  | none => .error .previewUnavailable
  | some preview =>
      if preview.previewId ≠ previewId then .error .previewStale
      else
        match s.buildTestResult with
        | none => .error .buildResultUnavailable
        | some buildResult => do
            let (manifest, snapshotFiles) ← loadManualCompileProject s.snapshot
            let entryFilePath :=
              if preview.entryFilePath ∈ snapshotFiles then preview.entryFilePath
              else manifest.entryFilePath
            let entryClass :=
              if preview.entryClass = [] then manifest.entryClass else preview.entryClass
            if entryFilePath ∉ snapshotFiles then .error .entryFileMissing
            else
              .ok
                { preview := preview
                  buildResult := buildResult
                  snapshotFiles := snapshotFiles
                  promptFiles :=
                    resolvePromptFiles snapshotFiles preview.includedFiles entryFilePath
                  entryClass := entryClass
                  entryFilePath := entryFilePath }

/-- `_invoke_repair_agent`. -/
def invokeRepairAgent (request : RepairRequest) : Op RepairResult := do
  let s ← get
  set { s with ticks := s.ticks + 1 }
  match env.agent s.ticks request with
  | .ok result => pure result
  | .error message => throw (.agent message)

structure CandidateProject where
  entryClass : Text
  entryFilePath : Text
  files : FileMap

def proposalIdOf (runId patchSha : Text) : Text :=
  runId ++ '-' :: patchSha.take 12

structure DiagnoseReply where
  proposal : Option (Text × Proposal)
  candidateProject : CandidateProject
  buildTest : BuildResult

/-- The files of the snapshot under the candidate's. -/
def candidateFilesOf (snapshotFiles : FileMap) (result : RepairResult) : FileMap :=
  match result.candidate with
  | some candidate => snapshotFiles ∪ candidate.files
  | none => snapshotFiles

/-- The proposal files of a diagnosis; without a candidate there are none. -/
def diagnoseProposalFiles (snapshotFiles : FileMap) (result : RepairResult) :
    Except RepairError (List ProposalFile) :=
  match result.candidate with
  | none => .ok []
  | some _ => buildProposalFiles env.unifiedFileDiff snapshotFiles
      (candidateFilesOf snapshotFiles result)

/-- `manual_compile_repair_diagnose`. -/
def manualCompileRepairDiagnose (previewId : Text) : Op DiagnoseReply := do
  let s ← get
  let context ← returning (diagnoseContext s previewId)
  let result ← invokeRepairAgent env
    { previousJavaCandidateRef := context.preview.currentHeadRef
      previousJavaFiles := context.promptFiles
      buildTestResultRef := context.preview.buildTestResultRef
      failureCategory := context.buildResult.failure.getD .javaCompileFailed
      manualRegions := context.preview.manualRegions }
  let candidateFiles := candidateFilesOf context.snapshotFiles result
  let candidateRef ← persistManualCompileCandidate env candidateFiles context.entryClass
    context.entryFilePath
  let files ← returning (diagnoseProposalFiles env context.snapshotFiles result)
  write env id
  let reply : DiagnoseReply :=
    { proposal := none
      candidateProject := ⟨context.entryClass, context.entryFilePath, candidateFiles⟩
      buildTest := context.buildResult }
  if files = [] then pure reply
  else do
    let patchSha := canonicalPatchSha files
    let proposalId := proposalIdOf env.runId patchSha
    let proposal : Proposal :=
      { patchSha256 := patchSha
        summary := match result.candidate with
          | some candidate => candidate.explanation
          | none => result.rationale
        applicationState := .reviewPending
        approvalState := .pending
        files := files
        sourceRevisionRef := context.preview.sourceRevisionRef
        currentHeadRef := context.preview.currentHeadRef
        candidateRef := candidateRef
        createdAt := env.now s.ticks }
    write env fun s => { s with
      proposals := Function.update s.proposals proposalId (some proposal)
      history := { s.history with
        diagnosed := Function.update s.history.diagnosed proposalId
          (context.snapshotFiles, candidateFiles) } }
    pure { reply with proposal := some (proposalId, proposal) }

/-- What an apply reads before it writes. -/
structure ApplyContext where
  proposal : Proposal
  snapshotFiles : FileMap
  candidateFiles : FileMap
  entryClass : Text
  entryFilePath : Text

/-- `_validate_manual_compile_apply_proposal`. -/
def validateManualCompileApplyProposal (proposal : Proposal) (patchSha256 : Text) :
    Except RepairError PUnit :=
  if proposal.approvalState ≠ .pending ∨ ¬ (proposal.applicationState = .reviewPending ∨
      proposal.applicationState = .sandboxApplied) then .error .proposalNotPending
  else if strip patchSha256 = [] then .error .patchRequired
  else if strip patchSha256 ≠ canonicalPatchSha proposal.files then .error .patchMismatch
  else if strip patchSha256 ≠ proposal.patchSha256 then .error .patchMismatch
  else .ok ⟨⟩

/-- `_load_manual_compile_apply_context`. -/
def applyContext (s : RunStore) (previewId proposalId patchSha256 : Text) :
    Except RepairError ApplyContext :=
  match s.preview with
  | none => .error .previewUnavailable
  | some preview =>
      if preview.previewId ≠ previewId then .error .previewStale
      else
        match s.proposals proposalId with
        | none => .error .proposalNotFound
        | some proposal => do
            validateManualCompileApplyProposal proposal patchSha256
            let (snapshotManifest, snapshotFiles) ← loadManualCompileProject s.snapshot
            let (candidateManifest, candidateFiles) ← loadManualCompileProject s.candidate
            let entryClass :=
              if preview.entryClass = [] then candidateManifest.entryClass else preview.entryClass
            let entryFilePath :=
              if preview.entryFilePath ≠ [] then preview.entryFilePath
              else if candidateManifest.entryFilePath ≠ [] then candidateManifest.entryFilePath
              else snapshotManifest.entryFilePath
            validateManualCompileApplyCandidate proposal.files snapshotFiles candidateFiles
            .ok
              { proposal := proposal
                snapshotFiles := snapshotFiles
                candidateFiles := candidateFiles
                entryClass := entryClass
                entryFilePath := entryFilePath }

/-- The build step of the sandbox. -/
def runManualCompileSandboxBuild (input : BuildInput) : Op BuildResult := do
  let s ← get
  set { s with ticks := s.ticks + 1 }
  match env.build s.ticks input with
  | .ok result => pure result
  | .error message => throw (.build message)

/-- `_build_manual_compile_sandbox_build_input`. -/
def sandboxBuildInput (prior : Option BuildResult) (context : ApplyContext) : BuildInput :=
  let expectedOutput := prior.bind BuildResult.expectedOutput
  { files := context.candidateFiles
    entryClass := context.entryClass
    entryFilePath := context.entryFilePath
    compareOutput := expectedOutput.isSome || prior.bind BuildResult.failure == some .oracleMismatch
    expectedOutput := expectedOutput }

structure RepairReply where
  proposal : Proposal
  candidateProject : CandidateProject
  buildTest : BuildResult

def sandboxResultPath : Text :=
  "manual-compile-repair/sandbox-build-test-result.json".toList

/-- `manual_compile_repair_apply`. -/
def manualCompileRepairApply (previewId proposalId patchSha256 : Text) : Op RepairReply := do
  let s ← get
  let context ← returning (applyContext s previewId proposalId patchSha256)
  let sandboxRef ← persistManualCompileSandboxCandidate env context.candidateFiles
    context.entryClass context.entryFilePath
  let buildTest ← runManualCompileSandboxBuild env (sandboxBuildInput s.buildTestResult context)
  write env fun s => { s with sandboxBuildTestResult := some buildTest }
  let proposal : Proposal :=
    { context.proposal with
      applicationState := .sandboxApplied
      approvalState := .pending
      sandboxAppliedAt := some (env.now s.ticks)
      sandboxCandidateRef := some sandboxRef
      sandboxBuildTestResultRef := some (buildTest.reference sandboxResultPath) }
  write env fun s => { s with
    proposals := Function.update s.proposals proposalId (some proposal)
    history := { s.history with
      applied := Function.update s.history.applied proposalId
        (some ⟨context.snapshotFiles, context.candidateFiles, buildTest⟩) } }
  pure
    { proposal := proposal
      candidateProject := ⟨context.entryClass, context.entryFilePath, context.candidateFiles⟩
      buildTest := buildTest }

/-- `requester or self.config.service_name`. -/
def actorOf (requester : Text) : Text :=
  if requester = [] then env.serviceName else requester

/-- `_load_validated_accept_proposal`. -/
def acceptProposal (s : RunStore) (proposalId patchSha256 : Text) :
    Except RepairError Proposal :=
  match s.proposals proposalId with
  | none => .error .proposalNotFound
  | some proposal =>
      if proposal.applicationState ≠ .sandboxApplied ∨ proposal.approvalState ≠ .pending then
        .error .sandboxNotReviewed
      else if strip patchSha256 ≠ proposal.patchSha256 then .error .patchMismatch
      else .ok proposal

/-- `manual_compile_repair_accept`. -/
def manualCompileRepairAccept (requester proposalId patchSha256 : Text) : Op RepairReply := do
  let s ← get
  let persisted ← returning (acceptProposal s proposalId patchSha256)
  let (manifest, files) ← returning (loadManualCompileProject s.sandbox)
  match s.sandboxBuildTestResult with
  | none => throw .buildResultUnavailable
  | some buildTest => do
      let approvedAt := env.now s.ticks
      let proposal : Proposal :=
        { persisted with
          applicationState := .applied
          approvalState := .approved
          developerApproval := some ⟨actorOf env requester, approvedAt, strip patchSha256⟩ }
      write env fun s => { s with
        proposals := Function.update s.proposals proposalId (some proposal) }
      write env fun s => { s with
        approvals := Function.update s.approvals proposalId
          (some (.approved (actorOf env requester) approvedAt (strip patchSha256)
            persisted.sandboxCandidateRef persisted.sandboxBuildTestResultRef)) }
      pure
        { proposal := proposal
          candidateProject := ⟨manifest.entryClass, manifest.entryFilePath, files⟩
          buildTest := buildTest }

/-- The proposal `manual_compile_repair_reject` may reject. -/
def rejectProposal (s : RunStore) (proposalId : Text) : Except RepairError Proposal :=
  match s.proposals proposalId with
  | none => .error .proposalNotFound
  | some proposal =>
      if proposal.applicationState ≠ .reviewPending ∨ proposal.approvalState ≠ .pending then
        .error .proposalNotPending
      else .ok proposal

/-- `manual_compile_repair_reject`. -/
def manualCompileRepairReject (requester proposalId : Text) : Op Proposal := do
  let s ← get
  let persisted ← returning (rejectProposal s proposalId)
  let rejectedAt := env.now s.ticks
  let proposal : Proposal :=
    { persisted with
      applicationState := .rejected
      approvalState := .rejected }
  write env fun s => { s with
    proposals := Function.update s.proposals proposalId (some proposal) }
  write env fun s => { s with
    approvals := Function.update s.approvals proposalId
      (some (.rejected (actorOf env requester) rejectedAt persisted.patchSha256)) }
  pure proposal

end Operations

end C2c.Orchestrator.ManualRepair
